import Kori.Contract.Proofs

/-!
# Sessions keep the contract

Login, token rotation with its detection of replayed tokens, logout and the
revocation of devices.
-/

namespace Kori

open Foundation Code

variable {env : Env} {σ : Scope} {p : Pid} {c c' : State}

/-! ## What a row holds -/

theorem holdsToken_iff {payload : RefreshTokenPayload} {device : TrustDevice} :
    holdsToken payload device = true ↔ device.refreshSessionId = some payload.sid ∧
      device.currentRefreshJti = some payload.jti ∧ device.isAuthorized = true := by
  simp [holdsToken]

theorem isReplay_iff {payload : RefreshTokenPayload} {device : TrustDevice} :
    isReplayWithinCurrentSession payload device = true ↔ device.isAuthorized = true ∧
      device.refreshSessionId = some payload.sid ∧ device.currentRefreshJti ≠ none ∧
      device.currentRefreshJti ≠ some payload.jti := by
  simp [isReplayWithinCurrentSession]

/-! ## Login -/

theorem assertLoginNotThrottled_only {P : Op → Prop} {phone : JsString}
    (hget : P (.redis (.get (.loginThrottle phone)))) : (assertLoginNotThrottled phone).Only P :=
  ((RedisService.getStrict_only hget).tryCatch fun _ => only_throw _).bind fun _ =>
    only_throwIf _ _

theorem recordLoginFailure_only {P : Op → Prop} {phone : JsString}
    (hincrement : P (.redis (.incrementWithTtl phone)))
    (hset : P (.redis (.set (.loginThrottle phone) () false))) :
    (recordLoginFailure env phone).Only P := by
  refine (RedisService.incrementWithTtl_only hincrement).bind fun count => ?_
  cases count with
  | none => trivial
  | some failureCount =>
      dsimp only
      split
      · exact (RedisService.set_only hset).bind fun _ =>
          (only_throwIf _ _).bind fun _ => only_throw _
      · trivial

theorem clearLoginFailureState_only (phone : JsString) :
    (clearLoginFailureState phone).Only Op.Quiet :=
  (Only.both (by trivial) (RedisService.del_only (by trivial))
    (RedisService.del_only (by trivial))).bind fun _ => only_pure _

theorem establishSession_settles {userId : Uuid} {role : Role} {deviceId : JsString}
    {call : Call} (hs : (terms env .open).Silent p c c') (hidle : Idle p c')
    (hcall : c'.calls p = some call) (hsign : call.SignIn) :
    Answers env .open p (establishSession userId role deviceId)
      (fun tokens c₁ c₂ => (terms env .open).Guar p c₁ (c₂.tell p [.tokens tokens]))
      (fun _ => (terms env .open).Silent p) c c' := by
  refine Reads.settles_bind (X := fun _ => True) (reads_randomUUID hidle.called) hs ?_
    fun _ _ _ hs _ _ => hs
  rintro sid c₁ c₂ hs₂ hr₂ ⟨hsid, -⟩
  have hidle₂ := hidle.rely hr₂
  refine Reads.settles_bind (X := fun _ => True) (reads_randomUUID hidle₂.called) hs₂ ?_
    fun _ _ _ hs _ _ => hs
  rintro jti c₃ c₄ hs₄ hr₄ ⟨hjti, hfresh⟩
  have hidle₄ := hidle₂.rely hr₄
  have hne : sid ≠ jti := (hfresh sid _ hsid.minted).symm
  refine settles_only_bind (ask_only (by trivial)) hs₄ hidle₄.called ?_
    fun _ _ _ hs _ => hs
  intro now c₅ c₆ hs₆ hr₆
  have hidle₆ := hidle₄.rely hr₆
  refine settles_bind.2 (Settles.imp (settles_updateRow (X := fun _ => True)
    (P := fun n c₁ c₂ =>
      (n ≠ 1 → (terms env .open).Silent p c₁ c₂) ∧
      (n = 1 → (terms env .open).Guar p c₁
        (c₂.tell p [.tokens (getTokens userId role deviceId sid jti)])))
    (T := fun _ => (terms env .open).Silent p) hs₆ hidle₆ (fun _ => trivial) ?_ ?_
    fun _ _ _ _ hs _ => hs) ?_ fun _ _ _ h => h)
  · exact fun c₇ c₈ _ hs₈ _ _ => ⟨fun _ => hs₈, fun h => absurd h (by decide)⟩
  · intro c₇ device hfree hr₇ _ _ hrow hauthorized
    refine ⟨fun h => absurd rfl h, fun _ => ?_⟩
    have hr := (hr₄.trans hr₆).trans hr₇
    refine (guar_write (hidle₆.rely hr₇) hfree ?_).told fun _ _ => trivial
    exact .device hrow (.signedIn ((hr₂.trans hr).calls _ _ hcall) hsign hauthorized
      (hr.drawn _ hsid) ((hr₆.trans hr₇).drawn _ hjti) hne)
  · intro updated c₇ c₈ h
    exact settles_throwIf_bind h.1 fun hone => h.2 (by simpa using hone)

theorem loginVerified_settles {phone deviceId : JsString} {userId : Uuid} {user : User}
    {device : Option TrustDevice} {call : Call} (hs : (terms env .open).Silent p c c')
    (hidle : Idle p c') (hcall : c'.calls p = some call) (hsign : call.SignIn) :
    Answers env .open p (loginVerified env phone deviceId userId user device)
      (fun tokens c₁ c₂ => (terms env .open).Guar p c₁ (c₂.tell p [.tokens tokens]))
      (fun _ => (terms env .open).Silent p) c c' := by
  refine settles_only_bind (clearLoginFailureState_only _) hs hidle.called ?_
    fun _ _ _ hs _ => hs
  intro _ c₁ c₂ hs₂ hr₂
  refine settles_throwIf_bind (fun _ => hs₂) fun _ => ?_
  split
  · exact settles_only_bind (issueDeviceEnrollmentAuthorization_only _ _ _) hs₂
      (hidle.rely hr₂).called (fun _ _ _ hs _ => hs) fun _ _ _ hs _ => hs
  · exact establishSession_settles hs₂ (hidle.rely hr₂) (hr₂.calls _ _ hcall) hsign

theorem login_settles {dto : AuthCredentialsDto} {call : Call}
    (hs : (terms env .open).Silent p c c') (hidle : Idle p c')
    (hcall : c'.calls p = some call) (hsign : call.SignIn) :
    Answers env .open p (login env dto)
      (fun tokens c₁ c₂ => (terms env .open).Guar p c₁ (c₂.tell p [.tokens tokens]))
      (fun _ => (terms env .open).Silent p) c c' := by
  have hfailure : ∀ {phone : JsString} {c₁ c₂ : State},
      (terms env .open).Silent p c₁ c₂ → Rely p c' c₂ →
      Answers env .open p (do
          recordLoginFailure env phone
          throw invalidCredentials)
        (fun tokens c₁ c₂ => (terms env .open).Guar p c₁ (c₂.tell p [.tokens tokens]))
        (fun _ => (terms env .open).Silent p) c₁ c₂ :=
    fun hs₂ hr₂ => settles_only_bind (recordLoginFailure_only (by trivial) (by trivial)) hs₂
      (hidle.rely hr₂).called (fun _ _ _ hs _ => hs) fun _ _ _ hs _ => hs
  refine settles_only_bind (phoneNumberFrom_only _) hs hidle.called ?_ fun _ _ _ hs _ => hs
  intro phone c₁ c₂ hs₂ hr₂
  refine settles_only_bind (assertLoginNotThrottled_only (by trivial)) hs₂
    (hidle.rely hr₂).called ?_ fun _ _ _ hs _ => hs
  intro _ c₃ c₄ hs₄ hr₄
  refine settles_only_bind (select_only _) hs₄ ((hidle.rely hr₂).rely hr₄).called ?_
    fun _ _ _ hs _ => hs
  intro users c₅ c₆ hs₆ hr₆
  have hr := (hr₂.trans hr₄).trans hr₆
  split
  · exact hfailure hs₆ hr
  · refine settles_only_bind (select_only _) hs₆ (hidle.rely hr).called ?_
      fun _ _ _ hs _ => hs
    intro devices c₇ c₈ hs₈ hr₈
    have hr' := hr.trans hr₈
    split
    · exact loginVerified_settles hs₈ (hidle.rely hr') (hr'.calls _ _ hcall) hsign
    · exact hfailure hs₈ hr'

/-! ## Logout and revocation -/

theorem logoutCurrentSession_settles {payload : RefreshTokenPayload}
    (hs : (terms env .open).Silent p c c') (hidle : Idle p c')
    (hcall : c'.calls p = some (.logout (some payload))) :
    Answers env .open p (logoutCurrentSession payload) (fun _ => (terms env .open).Silent p)
      (fun _ => (terms env .open).Silent p) c c' := by
  refine settles_tryCatch.2 (settles_bind.2 (Settles.imp (settles_updateRow
    (X := fun _ => True) (P := fun _ => (terms env .open).Silent p)
    (T := fun _ => (terms env .open).Silent p) hs hidle (fun _ => trivial)
    (fun _ _ _ hs _ _ => hs) ?_ fun _ _ _ _ hs _ => hs) (fun _ _ _ h => h)
    fun _ _ _ h => h))
  intro c₁ device hfree hr₁ _ _ hrow hsid
  refine (guar_write (hidle.rely hr₁) hfree ?_).silently
  exact .device hrow (.loggedOut (hr₁.calls _ _ hcall) rfl rfl (by simpa using hsid)
    (by simp))

theorem Grows.deviceById {t t' : Data} (h : Grows t t') {id : Uuid} {key : Uuid × JsString}
    (hr : t.row (.deviceById id) = some key) : t'.row (.deviceById id) = some key := by
  simpa [Lasts] using h _ _ hr

theorem revokeTrustedDevice_settles {userId deviceRecordId : Uuid}
    (hs : (terms env .open).Silent p c c') (hidle : Idle p c')
    (hcall : c'.calls p = some (.revokeTrustedDevice (some userId) deviceRecordId)) :
    Answers env .open p (revokeTrustedDevice userId deviceRecordId)
      (fun _ => (terms env .open).Silent p) (fun _ => (terms env .open).Silent p) c c' := by
  refine Reads.settles_bind (X := fun _ => True)
    (Q := fun snapshot c₁ => snapshot = State.data c₁)
    (reads_select hidle.called (fun _ => trivial) ?_) hs ?_ fun _ _ _ hs _ _ => hs
  · exact fun c₁ hr _ _ _ => Store.view_of_idle (hr.tx.trans hidle.tx)
  rintro snapshot c₁ c₂ hs₂ hr₂ rfl
  have hidle₂ := hidle.rely hr₂
  split
  · exact hs₂
  · rename_i owner deviceId hindex
    split
    · rename_i howner
      subst howner
      refine settles_bind.2 (Settles.imp (P := fun _ => (terms env .open).Silent p)
        (X := fun _ => (terms env .open).Silent p) ?_
        (fun updated c₃ c₄ hs₄ => ?_) fun _ _ _ h => h)
      · refine settles_update (X := fun _ => True) hs₂ hidle₂ (fun _ => trivial) (by simp)
          (fun _ _ hs _ _ => hs) ?_ fun _ _ _ hs _ => hs
        intro c₃ device device' hfree hr₃ _ _ hrow hchange
        simp only [Except.ok.injEq, Option.some.injEq] at hchange
        subst hchange
        refine (guar_write (hidle₂.rely hr₃) hfree ?_).silently
        exact .device hrow (.revoked ⟨_, (hr₂.trans hr₃).calls _ _ hcall,
          hr₃.grows.deviceById hindex⟩ (by simp))
      · exact settles_throwIf (fun _ => hs₄) fun _ => hs₄
    · exact hs₂

/-! ## Rotation -/

inductive Refused (σ : Scope) (p : Pid) (payload : RefreshTokenPayload) :
    Exn → State → Prop
  | restricted {s s₀ : State} : σ.meets p (.sql (.select (.user payload.sub))) .go s₀ →
      s₀.data.accountActive payload.sub = false → Refused σ p payload sessionInvalid s
  | ended {s : State} : σ.holds s →
      (∀ device, s.data.row (.device payload.sub payload.deviceId) = some device →
        isReplayWithinCurrentSession payload device = false) →
      Refused σ p payload sessionInvalid s
  | revoked {s : State} {device : TrustDevice} :
      s.data.row (.device payload.sub payload.deviceId) = some device →
      device.refreshSessionId = none → Refused σ p payload sessionInvalid s
  | fault {s : State} : σ.Fails p → Refused σ p payload (.sql .other) s

theorem revokeReplayedSession_settles {payload : RefreshTokenPayload}
    (hs : (terms env σ).Silent p c c') (hidle : Idle p c')
    (hcall : c'.calls p = some (.refresh (some payload))) :
    Answers env σ p (revokeReplayedSession payload)
      (fun _ c₁ c₂ => (terms env σ).Silent p c₁ c₂ ∧ Refused σ p payload sessionInvalid c₂)
      (fun e c₁ c₂ => (terms env σ).Silent p c₁ c₂ ∧ Refused σ p payload e c₂) c c' := by
  refine Reads.settles_bind (X := fun e => σ.Fails p ∧ e = .sql .other)
    (Q := fun snapshot c₁ => σ.holds c₁ ∧ snapshot = State.data c₁)
    (reads_select hidle.called (fun h => ⟨h, rfl⟩) ?_) hs ?_ ?_
  · exact fun c₁ hr _ hσ _ => ⟨hσ, Store.view_of_idle (hr.tx.trans hidle.tx)⟩
  · rintro snapshot c₁ c₂ hs₂ hr₂ ⟨hσ, rfl⟩
    dsimp only
    split
    · refine settles_bind.2 (Settles.imp (settles_updateRow
        (X := fun e => σ.Fails p ∧ e = .sql .other)
        (P := fun _ c₁ c₂ => (terms env σ).Silent p c₁ c₂ ∧
          Refused σ p payload sessionInvalid c₂)
        (T := fun e c₁ c₂ => (terms env σ).Silent p c₁ c₂ ∧ Refused σ p payload e c₂)
        hs₂ (hidle.rely hr₂) (fun h => ⟨h, rfl⟩) ?_ ?_ ?_) (fun _ _ _ h => h)
        fun _ _ _ h => h)
      · intro c₃ c₄ hr₄ hs₄ hσ₄ hrow
        exact ⟨hs₄, .ended hσ₄ fun device hdevice => by
          simpa using hrow device hdevice⟩
      · intro c₃ device hfree hr₃ _ _ hrow hreplay
        have hidle₃ := (hidle.rely hr₂).rely hr₃
        refine ⟨(guar_write hidle₃ hfree ?_).silently, ?_⟩
        · exact .device hrow (.replayed ((hr₂.trans hr₃).calls _ _ hcall) rfl rfl hreplay
            (by simp))
        · have hcleared : (State.data (State.setDb c₃ (c₃.shared.db.write p
              (.device payload.sub payload.deviceId) device.clearSession hfree))).row
              (.device payload.sub payload.deviceId) = some device.clearSession := by
            simp [State.data, Store.write_of_idle hfree hidle₃.tx]
          exact .revoked hcleared rfl
      · rintro e c₃ c₄ _ hs₄ ⟨hfail, rfl⟩
        exact ⟨hs₄, .fault hfail⟩
    · rename_i hnone
      refine ⟨hs₂, .ended hσ fun device hdevice => ?_⟩
      rw [hdevice, Option.filter_some] at hnone
      split at hnone
      · exact absurd rfl hnone
      · rename_i hreplay
        simpa using hreplay
  · rintro e c₁ c₂ hs₂ _ ⟨hfail, rfl⟩
    exact ⟨hs₂, .fault hfail⟩

structure Exchanged (env : Env) (σ : Scope) (p : Pid) (payload : RefreshTokenPayload)
    (tokens : TokensResponse) (s s' : State) : Prop where
  step : ∃ shared, s' = s.withShared shared
  guar : Guar env p s (s'.tell p [.tokens tokens])
  holds : σ.holds s
  token : ∃ device, s.data.row (.device payload.sub payload.deviceId) = some device ∧
    holdsToken payload device = true

theorem refreshTokens_settles {payload : RefreshTokenPayload}
    (hs : (terms env σ).Silent p c c') (hidle : Idle p c')
    (hcall : c'.calls p = some (.refresh (some payload))) :
    Answers env σ p (refreshTokens payload) (Exchanged env σ p payload)
      (fun e c₁ c₂ => (terms env σ).Silent p c₁ c₂ ∧ Refused σ p payload e c₂) c c' := by
  refine Reads.settles_bind (X := fun e => σ.Fails p ∧ e = .sql .other)
    (Q := fun snapshot c₁ => σ.meets p (.sql (.select (.user payload.sub))) .go c₁ ∧
      snapshot = State.data c₁)
    (reads_select hidle.called (fun h => ⟨h, rfl⟩) ?_) hs ?_ ?_
  · exact fun c₁ hr _ _ hmeets => ⟨hmeets, Store.view_of_idle (hr.tx.trans hidle.tx)⟩
  · rintro snapshot c₁ c₂ hs₂ hr₂ ⟨hmeets, rfl⟩
    split
    · rename_i hnone
      refine ⟨hs₂, .restricted hmeets ?_⟩
      unfold Data.accountActive
      cases huser : (State.data c₂).row (.user payload.sub) with
      | none => rfl
      | some user => simpa [huser] using hnone
    · rename_i user huser
      have hidle₂ := hidle.rely hr₂
      refine Reads.settles_bind (X := fun _ => False) (reads_randomUUID hidle₂.called) hs₂ ?_
        fun _ _ _ _ _ h => h.elim
      rintro newJti c₃ c₄ hs₄ hr₄ ⟨hdrawn, -⟩
      have hidle₄ := hidle₂.rely hr₄
      refine Reads.settles_bind (X := fun _ => False) (Q := fun _ _ => True)
        (reads_ask (by trivial) hidle₄.called fun _ _ _ _ _ _ _ _ _ => trivial) hs₄ ?_
        fun _ _ _ _ _ h => h.elim
      intro now c₅ c₆ hs₆ hr₆ _
      have hidle₆ := hidle₄.rely hr₆
      have hcall₆ := ((hr₂.trans hr₄).trans hr₆).calls _ _ hcall
      refine settles_bind.2 (Settles.imp (settles_updateRow
        (X := fun e => σ.Fails p ∧ e = .sql .other)
        (P := fun n c₁ c₂ =>
          (n ≠ 1 → (terms env σ).Silent p c₁ c₂ ∧ Rely p c₆ c₂) ∧
          (n = 1 → Exchanged env σ p payload
            (getTokens payload.sub user.role payload.deviceId payload.sid newJti) c₁ c₂))
        (T := fun e c₁ c₂ => (terms env σ).Silent p c₁ c₂ ∧ Refused σ p payload e c₂)
        hs₆ hidle₆ (fun h => ⟨h, rfl⟩) ?_ ?_ ?_) ?_ fun _ _ _ h => h)
      · exact fun c₇ c₈ hr₈ hs₈ _ _ => ⟨fun _ => ⟨hs₈, hr₈⟩, fun h => absurd h (by decide)⟩
      · intro c₇ device hfree hr₇ _ hσ₇ hrow hholds
        refine ⟨fun h => absurd rfl h, fun _ => ⟨⟨_, rfl⟩, ?_, hσ₇, device, hrow, hholds⟩⟩
        refine guar_write (hidle₆.rely hr₇) hfree ?_
        exact .device hrow (.rotated (hr₇.calls _ _ hcall₆) rfl rfl hholds
          ((hr₆.trans hr₇).drawn _ hdrawn))
      · rintro e c₇ c₈ _ hs₈ ⟨hfail, rfl⟩
        exact ⟨hs₈, .fault hfail⟩
      · intro count c₇ c₈ h
        split
        · rename_i hone
          exact h.2 hone
        · rename_i hone
          obtain ⟨hs₈, hr₈⟩ := h.1 hone
          exact settles_bind.2 ((revokeReplayedSession_settles hs₈ (hidle₆.rely hr₈)
            (hr₈.calls _ _ hcall₆)).imp (fun _ _ _ h => h) fun _ _ _ h => h)
  · rintro e c₁ c₂ hs₂ _ ⟨hfail, rfl⟩
    exact ⟨hs₂, .fault hfail⟩

end Kori
