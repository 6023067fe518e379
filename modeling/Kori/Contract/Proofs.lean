import Kori.Contract.Requests

/-!
# One-time passwords and device enrolment keep the contract
-/

namespace Kori

open Foundation Code

variable {env : Env} {p : Pid} {c c' : State} {P : Op → Prop}

/-! ## Code that only learns -/

theorem getOtpSecurityValue_only [Harmless P] (k : RedisKey) :
    (getOtpSecurityValue k).Only P :=
  (RedisService.getStrict_only (Harmless.free _ (by trivial))).tryCatch fun _ => only_throw _

theorem refuseResend_only [Harmless P] (phone : JsString) : (refuseResend phone).Only P := by
  refine (getOtpSecurityValue_only _).bind fun existing => ?_
  cases existing <;> trivial

theorem acquireResendLock_only (phone : JsString) :
    (acquireResendLock phone).Only Op.Quiet := by
  refine (RedisService.set_only (by trivial)).bind fun stored => ?_
  split
  · exact refuseResend_only phone
  · trivial

theorem storeChallenge_only (phone deviceId challengeId otp : JsString) :
    (storeChallenge phone deviceId challengeId otp).Only Op.Quiet := by
  refine (RedisService.set_only (by trivial)).bind fun stored => ?_
  split
  · exact (RedisService.del_only (by trivial)).bind fun _ => only_throw _
  · refine (RedisService.set_only (by trivial)).bind fun active => ?_
    split
    · exact (Only.both (by trivial) (RedisService.del_only (by trivial))
        (RedisService.del_only (by trivial))).bind fun _ => only_throw _
    · trivial

theorem sendOtp_settles {dto : SendOtpDto} (hs : (terms env .open).Silent p c c')
    (hidle : Idle p c') :
    Answers env .open p (sendOtp env dto)
      (fun reply c₁ c₂ => (terms env .open).Silent p c₁ c₂ ∧ reply.Plain)
      (fun _ => (terms env .open).Silent p) c c' := by
  refine settles_only_bind (phoneNumberFrom_only _) hs hidle.called ?_ fun _ _ _ hs _ => hs
  intro phone c₁ c₂ hs₂ hr₂
  refine settles_only_bind (getOtpSecurityValue_only _) hs₂ (hidle.rely hr₂).called ?_
    fun _ _ _ hs _ => hs
  intro failureCount c₃ c₄ hs₄ hr₄
  refine settles_throwIf_bind (fun _ => hs₄) fun _ => ?_
  have hidle₄ := (hidle.rely hr₂).rely hr₄
  refine settles_only_bind (acquireResendLock_only _) hs₄ hidle₄.called ?_
    fun _ _ _ hs _ => hs
  intro _ c₅ c₆ hs₆ hr₆
  have hidle₆ := hidle₄.rely hr₆
  refine settles_only_bind (ask_only (by trivial)) hs₆ hidle₆.called ?_
    fun _ _ _ hs _ => hs
  intro challengeId c₇ c₈ hs₈ hr₈
  refine settles_only_bind (ask_only (by trivial)) hs₈ (hidle₆.rely hr₈).called ?_
    fun _ _ _ hs _ => hs
  intro code c₉ d hs₉ hr₉
  exact settles_only_bind (storeChallenge_only _ _ _ _) hs₉
    ((hidle₆.rely hr₈).rely hr₉).called (fun _ _ _ hs _ => ⟨hs, trivial⟩)
    fun _ _ _ hs _ => hs

theorem issueRegistrationAuthorization_only (phone deviceId : JsString) :
    (issueRegistrationAuthorization env phone deviceId).Only Op.Quiet := by
  exact (ask_only (by trivial)).bind fun _ => (RedisService.set_only (by trivial)).bind fun _ =>
    (only_throwIf _ _).bind fun _ => only_pure _

theorem issueDeviceEnrollmentAuthorization_only (userId : Uuid) (phone deviceId : JsString) :
    (issueDeviceEnrollmentAuthorization env userId phone deviceId).Only Op.Quiet := by
  exact (ask_only (by trivial)).bind fun _ => (RedisService.set_only (by trivial)).bind fun _ =>
    (only_throwIf _ _).bind fun _ => only_pure _

theorem consumeRegistrationAuthorization_only (phone deviceId token : JsString) :
    (consumeRegistrationAuthorization env phone deviceId token).Only Op.Quiet :=
  RedisService.evalScript_only (by trivial) _

theorem consumeDeviceEnrollmentAuthorization_only (userId : Uuid)
    (phone deviceId token : JsString) :
    (consumeDeviceEnrollmentAuthorization env userId phone deviceId token).Only Op.Quiet :=
  RedisService.evalScript_only (by trivial) _

theorem verifyOtpAtomically_only (phone deviceId challengeId otp : JsString) :
    (verifyOtpAtomically env phone deviceId challengeId otp).Only Op.Quiet :=
  RedisService.evalScript_only (by trivial) _

/-! ## Enrolment -/

inductive Enrolled (p : Pid) (userId : Uuid) (deviceId : JsString) (c : State) :
    Data → Prop
  | unchanged : Enrolled p userId deviceId c .empty
  | renewed {device now} : Holds p (.device userId deviceId) (some device) c →
      Enrolled p userId deviceId c (Tables.put .empty (.device userId deviceId)
        { device.clearSession with isAuthorized := true, lastUsedAt := now })
  | new {device : TrustDevice} : Holds p (.device userId deviceId) none c →
      Holds p (.deviceById device.id) none c → device.refreshSessionId = none →
      device.currentRefreshJti = none →
      Enrolled p userId deviceId c ((Tables.put .empty (.device userId deviceId) device).put
        (.deviceById device.id) (userId, deviceId))

theorem upsertLocked_works {userId : Uuid} {deviceId : JsString} {now : Instant} {id : Uuid}
    (hcall : Called p c) (htx : c.shared.db.tx p = some .empty) :
    Works env .open p (upsertLocked userId deviceId now id)
      (fun _ c₁ => ∃ own, c₁.shared.db.tx p = some own ∧ Enrolled p userId deviceId c₁ own)
      (fun _ => True) c := by
  refine Leads.bind (works_lock hcall htx fun _ => trivial) ?_
  rintro - c₁ hw₁ ⟨htx₁, -⟩
  refine Leads.bind (works_only (select_only _) (hcall.within hw₁) htx₁)
    fun snapshot c₂ hw₂ htx₂ => ?_
  have hcall₂ := (hcall.within hw₁).within hw₂
  split
  · refine Leads.bind (R := fun _ c₃ => ∃ own, c₃.shared.db.tx p = some own ∧
      Enrolled p userId deviceId c₃ own)
      (works_update hcall₂ htx₂ (by simp) (fun _ => trivial) (by simp) ?_ ?_ ?_)
      fun _ _ _ h => leads_pure h
    · exact fun c₃ _ htx₃ _ => ⟨_, htx₃, .unchanged⟩
    · exact fun _ _ _ _ _ hp _ _ => hp.put_other (by simp) (by simp)
    · intro c₃ device _ _ htx₃ hholds hchange
      simp only [Except.ok.injEq, Option.some.injEq] at hchange
      subst hchange
      exact ⟨_, htx₃, .renewed hholds⟩
  · refine Leads.bind (works_insert hcall₂ htx₂ (fun _ => trivial) trivial
      fun _ _ hp _ _ => hp.put_other (by simp) (by simp)) ?_
    rintro - c₃ hw₃ ⟨htx₃, hdevice⟩
    refine (works_insert (hcall₂.within hw₃) htx₃ (fun _ => trivial) trivial
      fun _ _ hp _ _ => hp.put_other (by simp) (by simp)).imp ?_ fun _ _ _ h => h
    rintro _ c₄ hw₄ ⟨htx₄, hindex⟩
    exact ⟨_, htx₄, .new (hdevice.within hw₄) hindex rfl rfl⟩

theorem Enrolled.effect {userId : Uuid} {deviceId : JsString} {own : Data} {dto : VerifyOtpDto}
    (h : Enrolled p userId deviceId c own) (hcall : c.calls p = some (.verifyOtp dto)) :
    Effect env p c (own.overlay c.data) [] := by
  cases h with
  | unchanged =>
      rw [Tables.empty_overlay]
      exact .none (by simp)
  | renewed hholds =>
      rw [Tables.put_overlay, Tables.empty_overlay]
      exact .device hholds.row (.enrolled hcall (by simp))
  | new hdevice hindex hsid hjti =>
      rw [Tables.put_overlay, Tables.put_overlay, Tables.empty_overlay]
      exact .enrolledNew hdevice.row hindex.row hsid hjti (by simp)

theorem Enrolled.within {userId : Uuid} {deviceId : JsString} {own : Data}
    (h : Enrolled p userId deviceId c own) (hw : Within p c c') :
    Enrolled p userId deviceId c' own := by
  cases h with
  | unchanged => exact .unchanged
  | renewed hholds => exact .renewed (hholds.within hw)
  | new hdevice hindex hsid hjti =>
      exact .new (hdevice.within hw) (hindex.within hw) hsid hjti

theorem upsertTrustDevice_settles {userId : Uuid} {deviceId : JsString} {dto : VerifyOtpDto}
    (hs : (terms env .open).Silent p c c') (hidle : Idle p c')
    (hcall : c'.calls p = some (.verifyOtp dto)) :
    Answers env .open p (upsertTrustDevice userId deviceId)
      (fun _ => (terms env .open).Silent p) (fun _ => (terms env .open).Silent p) c c' := by
  refine settles_only_bind (ask_only (by trivial)) hs hidle.called ?_ fun _ _ _ hs _ => hs
  intro now c₁ c₂ hs₂ hr₂
  refine settles_only_bind (ask_only (by trivial)) hs₂ (hidle.rely hr₂).called ?_
    fun _ _ _ hs _ => hs
  intro id c₃ c₄ hs₄ hr₄
  have hr := hr₂.trans hr₄
  refine settles_transaction (X := fun _ => True) hs₄ (hidle.rely hr) (fun _ => trivial)
    (fun c₅ hw₅ htx₅ => upsertLocked_works ((hidle.rely hr).called.within hw₅) htx₅) ?_
    fun _ _ _ hs _ _ => hs
  rintro _ c₅ c₆ hw₅ ⟨own, htx₅, henrolled⟩ hr₆ _ _ hended
  refine Guar.silently (guar_publish (((hidle.rely hr).called.within hw₅).rely hr₆)
    (Store.commit_frame _ _) hended.tx ?_)
  change Effect env p c₆ (c₆.shared.db.view p) []
  rw [Store.view_of_open (hr₆.tx.trans htx₅)]
  exact (henrolled.within hr₆.within).effect
    (hended.calls _ _ (hr.calls _ _ hcall))

theorem enrollDevice_settles {phone deviceId : JsString} {userId : Uuid}
    {status : AccountStatus} {token : Option JsString} {dto : VerifyOtpDto}
    (hs : (terms env .open).Silent p c c') (hidle : Idle p c')
    (hcall : c'.calls p = some (.verifyOtp dto)) :
    Answers env .open p (enrollDevice env phone deviceId userId status token)
      (fun reply c₁ c₂ => (terms env .open).Silent p c₁ c₂ ∧ reply.Plain)
      (fun _ => (terms env .open).Silent p) c c' := by
  unfold enrollDevice
  split
  · exact hs
  · exact hs
  · refine settles_throwIf_bind (fun _ => hs) fun _ => ?_
    refine settles_only_bind (consumeDeviceEnrollmentAuthorization_only _ _ _ _) hs
      hidle.called ?_ fun _ _ _ hs _ => hs
    intro status c₁ c₂ hs₂ hr₂
    refine settles_throwIf_bind (fun _ => hs₂) fun _ => ?_
    refine settles_bind.2 ((upsertTrustDevice_settles hs₂ (hidle.rely hr₂)
      (hr₂.calls _ _ hcall)).imp ?_ fun _ _ _ h => h)
    exact fun _ _ _ hs => ⟨hs, trivial⟩

theorem verifyOtp_settles {dto : VerifyOtpDto} (hs : (terms env .open).Silent p c c')
    (hidle : Idle p c') (hcall : c'.calls p = some (.verifyOtp dto)) :
    Answers env .open p (verifyOtp env dto)
      (fun reply c₁ c₂ => (terms env .open).Silent p c₁ c₂ ∧ reply.Plain)
      (fun _ => (terms env .open).Silent p) c c' := by
  refine settles_only_bind (phoneNumberFrom_only _) hs hidle.called ?_ fun _ _ _ hs _ => hs
  intro phone c₁ c₂ hs₂ hr₂
  refine settles_only_bind (verifyOtpAtomically_only _ _ _ _) hs₂ (hidle.rely hr₂).called ?_
    fun _ _ _ hs _ => hs
  intro status c₃ c₄ hs₄ hr₄
  split
  · exact hs₄
  · have hr := hr₂.trans hr₄
    refine settles_only_bind (select_only _) hs₄ (hidle.rely hr).called ?_
      fun _ _ _ hs _ => hs
    intro users c₅ c₆ hs₆ hr₆
    have hr' := hr.trans hr₆
    split
    · exact enrollDevice_settles hs₆ (hidle.rely hr') (hr'.calls _ _ hcall)
    · refine settles_only_bind (issueRegistrationAuthorization_only _ _) hs₆
        (hidle.rely hr').called ?_ fun _ _ _ hs _ => hs
      exact fun _ _ _ hs _ => ⟨hs, trivial⟩

end Kori
