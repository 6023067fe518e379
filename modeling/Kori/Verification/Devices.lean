import Kori.Sessions.Frames
import Kori.Verification.Accounts

/-!
# Devices are trusted with two proofs

The commit that makes a device trusted comes after the verification of an OTP and the
consumption of a proof, which a login has stored once its PIN was right.
-/

namespace Kori

open Foundation

section Devices

variable {env : Env} {shared : Shared} {w w' : KoriWorld} {p q p' q' : Pid} {choice : Choice}
variable {past before before' : List KoriMoment} {x y c c' s s' : KoriMoment}
variable {beforeC beforeC' beforeS beforeS' : List KoriMoment} {h₀ h₁ : History}
variable {tokenHash token phone phone' deviceId deviceId' : JsString} {u u' : Uuid}

/-! ## Proofs of a login -/

theorem Ran.admitted
    (h : Ran x p (.consumeDeviceEnrollmentAuthorization tokenHash u phone deviceId) .consumed) :
    ∃ writer, x.1.conf.shared.redis (.deviceEnrollmentAuthorization phone) =
      some ⟨⟨tokenHash, phone, u, deviceId⟩, writer⟩ := by
  have hout := h.outcome
  simp only [Redis.exec] at hout
  obtain ⟨writer, hproof, -⟩ | ⟨-, status, hstatus, heq⟩ :=
    consumeDeviceEnrollmentScript_cases x.1.conf.shared.redis tokenHash u phone deviceId
  · exact ⟨writer, hproof⟩
  · rw [heq] at hout
    exact absurd hout hstatus

theorem Ran.admitted_spent
    (h : Ran x p (.consumeDeviceEnrollmentAuthorization tokenHash u phone deviceId) .consumed)
    (hm : x.1.move (kori env) x.2 = some w') :
    w'.conf.shared.redis (.deviceEnrollmentAuthorization phone) = none := by
  have hout := h.outcome
  rw [h.after hm]
  simp only [Redis.exec] at hout ⊢
  obtain ⟨writer, -, heq⟩ | ⟨-, status, hstatus, heq⟩ :=
    consumeDeviceEnrollmentScript_cases x.1.conf.shared.redis tokenHash u phone deviceId
  · simp [heq]
  · rw [heq] at hout
    exact absurd hout hstatus

/-- In the moment `s` a login of `q` stores the proof for the token.  Its PIN was right
and the account did not trust its device. -/
structure Issued (env : Env) (w : KoriWorld) (s : KoriMoment) (beforeS : List KoriMoment)
    (q : Pid) (token phone : JsString) (u : Uuid) (deviceId : JsString) : Prop where
  stored : Ran s q (.set (.deviceEnrollmentAuthorization phone)
    ⟨env.sha256 token, phone, u, deviceId⟩ false) true
  drawn : ⟨.randomToken, token⟩ ∈ heard (kori env) q beforeS
  login : ∃ dto user devices, w.conf.calls q = some (.login dto) ∧
    phoneOf env dto.phone = some phone ∧ dto.deviceId = deviceId ∧
    PinVerified env dto phone u user devices (heard (kori env) q beforeS) ∧
    devices.trusts u deviceId = false

theorem admitted_issued (hsha : Function.Injective env.sha256)
    (hempty : ∀ phone, shared.redis (.deviceEnrollmentAuthorization phone) = none)
    (hr : Run (kori env) (World.idle shared) past w) (hc : c :: beforeC <:+ past)
    (h : Ran c p (.consumeDeviceEnrollmentAuthorization (env.sha256 token) u phone deviceId)
      .consumed) :
    ∃ q s beforeS, Issued env w s beforeS q token phone u deviceId ∧
      Stored env beforeC (⟨⟨env.sha256 token, phone, u, deviceId⟩, q⟩ :
        RedisEntry (.deviceEnrollmentAuthorization phone)) s beforeS := by
  obtain ⟨writer, hproof⟩ := h.admitted
  obtain ⟨s, beforeS, hstored⟩ :=
    run_stored (hr.at hc).1 (by simp [RedisKey.IsCounter]) (hempty phone) hproof
  obtain ⟨nx, hset⟩ := hstored.set
  have hs := hstored.moment.trans ((List.suffix_cons c beforeC).trans hc)
  obtain ⟨call, hcall, hcommands⟩ := ran_asks hr hs hset (by simp [Op.Free])
  obtain ⟨dto, user, devices, token', rfl, hphone, hverified, htrusts, hdrawn, hhash, -, hdevice,
    -, rfl⟩ := hcommands.enrollment
  obtain rfl := hsha hhash
  obtain rfl : deviceId = dto.deviceId := hdevice
  exact ⟨writer, s, beforeS, ⟨hset, hdrawn, dto, user, devices, hcall, hphone, rfl, hverified,
    htrusts⟩, hstored⟩

theorem issued_once (hr : Run (kori env) (World.idle shared) past w)
    (hx : x :: before <:+ past) (hy : y :: before' <:+ past)
    (h : Issued env w x before q token phone u deviceId)
    (h' : Issued env w y before' q' token phone' u' deviceId') : x = y ∧ before = before' := by
  obtain rfl := token_owner hr ((heard_before hx).subset h.drawn)
    ((heard_before hy).subset h'.drawn)
  exact ran_once hr (fun _ _ _ => enrollment_never) hx hy h.stored h'.stored ⟨_, _, rfl⟩
    ⟨_, _, rfl⟩

theorem enrollment_token_once (hsha : Function.Injective env.sha256)
    (hempty : ∀ phone, shared.redis (.deviceEnrollmentAuthorization phone) = none)
    (hr : Run (kori env) (World.idle shared) past w) (hc : c :: beforeC <:+ past)
    (hc' : c' :: beforeC' <:+ past)
    (h : Ran c p (.consumeDeviceEnrollmentAuthorization (env.sha256 token) u phone deviceId)
      .consumed)
    (h' : Ran c' p' (.consumeDeviceEnrollmentAuthorization (env.sha256 token) u' phone'
      deviceId') .consumed) : c = c' ∧ beforeC = beforeC' := by
  obtain ⟨q, s, beforeS, hissued, hstored⟩ := admitted_issued hsha hempty hr hc h
  obtain ⟨q', s', beforeS', hissued', hstored'⟩ := admitted_issued hsha hempty hr hc' h'
  obtain ⟨rfl, rfl⟩ := issued_once hr
    (hstored.moment.trans ((List.suffix_cons c beforeC).trans hc))
    (hstored'.moment.trans ((List.suffix_cons c' beforeC').trans hc')) hissued hissued'
  exact hstored.once hr hc hc' hstored' (fun _ => h.admitted_spent) fun _ => h'.admitted_spent

/-! ## Enrolment -/

variable {dto dto' : VerifyOtpDto} {device device' : TrustDevice} {d d' : JsString}

theorem run_enrolls (hopening : Opening env shared)
    (hr : Run (kori env) (World.idle shared) past w)
    (hm : w.move (kori env) (.step p choice) = some w')
    (hcall : w.conf.calls p = some (.verifyOtp dto))
    (hchanged : (State.data w'.conf).row (.device u d) ≠ (State.data w.conf).row (.device u d)) :
    w.answered (kori env) (.step p choice) = some (p, ⟨.sql .commit, .ok ()⟩) ∧
      d = dto.deviceId ∧ ∃ phone, Enrolls env dto phone u (heard (kori env) p past) := by
  obtain ⟨v, hrow, hnew⟩ := run_row hopening hr.reachable hm hchanged
  obtain ⟨e, hans, hpublishes⟩ := run_published hopening.idle hr hm hrow hnew
  have hupsert : ∀ {before : History} {e}, Writes (.device u d) v e →
      Asks env (.verifyOtp dto) before e.op → InTransaction before ∧ d = dto.deviceId ∧
        ∃ phone, Enrolls env dto phone u before := by
    intro before e hwrites hasks
    cases hwrites with
    | update =>
        cases hasks with
        | free hfree => exact hfree.elim
        | upsert henrolls hasks =>
            cases hasks with
            | update hopen => exact ⟨hopen, rfl, _, henrolls⟩
    | insert =>
        cases hasks with
        | free hfree => exact hfree.elim
        | upsert henrolls hasks =>
            cases hasks with
            | insert hopen => exact ⟨hopen, rfl, _, henrolls⟩
  obtain ⟨call, hcalled, hasks⟩ := hr.asks obeyed hans
  obtain rfl := Option.some.inj (hcall.symm.trans hcalled)
  cases hpublishes with
  | update houtside _ _ => exact absurd (hupsert .update hasks).1 houtside
  | insert houtside => exact absurd (hupsert .insert hasks).1 houtside
  | commit hown hv =>
      obtain ⟨e, he, hwrites⟩ := writes_of_uncommitted hown hv
      obtain ⟨later, before, heq⟩ := List.append_of_mem he
      have hsuffix : e :: before <:+ heard (kori env) p past :=
        heq ▸ List.suffix_append later (e :: before)
      obtain ⟨-, hdevice, phone, henrolls⟩ :=
        hupsert hwrites ((hr.asked obeyed hcall).at hsuffix)
      exact ⟨hans, hdevice, phone, henrolls.mono fun e' he' => hsuffix.subset (.tail _ he')⟩

theorem Enrolls.account_row (hopening : Opening env shared)
    (hr : Run (kori env) (World.idle shared) past w)
    (hcall : w.conf.calls p = some (.verifyOtp dto))
    (h : Enrolls env dto phone u (heard (kori env) p past)) :
    (State.data w.conf).row (.userByPhone phone) = some u := by
  obtain ⟨user, t, hread, haccount⟩ := h.account
  obtain ⟨id, hid, hsame⟩ := run_read hopening hr hcall (by simp [Call.Touches]) hread
    (accountByPhone_row haccount).1
  obtain rfl : id = u := hsame
  exact hid

def LoginIssued (env : Env) (w : KoriWorld) (past : List KoriMoment) (token phone : JsString)
    (u : Uuid) (deviceId : JsString) : Prop :=
  ∃ s beforeS q, s :: beforeS <:+ past ∧ Issued env w s beforeS q token phone u deviceId

def OtpProved (env : Env) (w : KoriWorld) (past : List KoriMoment)
    (phone deviceId : JsString) : Prop :=
  ∃ v beforeV p challengeId otp maxFailures y before q, v :: beforeV <:+ past ∧
    Ran v p (.verifyOtp phone challengeId deviceId otp maxFailures) .verified ∧
    y :: before <:+ beforeV ∧ Sent env w y q phone challengeId deviceId otp

/-- The request `dto` of `p` has used the token up, and both proofs precede that. -/
structure Entitled (env : Env) (w : KoriWorld) (past : List KoriMoment) (p : Pid)
    (dto : VerifyOtpDto) (token phone : JsString) (u : Uuid) : Prop where
  presented : dto.deviceEnrollmentToken = some token
  normalised : phoneOf env dto.phone = some phone
  consumed : ∃ c beforeC, c :: beforeC <:+ past ∧
    Ran c p (.consumeDeviceEnrollmentAuthorization (env.sha256 token) u phone dto.deviceId)
      .consumed ∧
    LoginIssued env w beforeC token phone u dto.deviceId
  verified : OtpProved env w past phone dto.deviceId

theorem Enrolls.entitled (hsha : Function.Injective env.sha256)
    (hempty : ∀ phone, shared.redis (.deviceEnrollmentAuthorization phone) = none)
    (hotp : NoOtp shared.redis) (hr : Run (kori env) (World.idle shared) past w)
    (hx : before <:+ past) (h : Enrolls env dto phone u (heard (kori env) p before)) :
    ∃ token, Entitled env w before p dto token phone u := by
  obtain ⟨⟨hphone, hverified⟩, -, token, htoken, hconsumed⟩ := h
  obtain ⟨c, beforeC, hc, hans⟩ := heard_moment hconsumed
  obtain ⟨q, s, beforeS, hissued, hstored⟩ :=
    admitted_issued hsha hempty hr (hc.trans hx) (ran_of_answered hans)
  obtain ⟨v, beforeV, hv, hans'⟩ := heard_moment hverified
  have hran := ran_of_answered hans'
  obtain ⟨y, before', o, writer, hsent, hchallenge⟩ := verified_sent hotp hr (hv.trans hx) hran
  exact ⟨token, htoken, hphone, ⟨c, beforeC, hc, ran_of_answered hans, s, beforeS, q,
    hstored.moment, hissued⟩, v, beforeV, p, _, _, _, y, before', o, hv, hran,
    hchallenge.moment, hsent⟩

theorem entitled_once (hsha : Function.Injective env.sha256)
    (hempty : ∀ phone, shared.redis (.deviceEnrollmentAuthorization phone) = none)
    (hr : Run (kori env) (World.idle shared) past w) (hx : x :: before <:+ past)
    (hy : y :: before' <:+ past) (h : Entitled env w before p dto token phone u)
    (h' : Entitled env w before' p' dto' token phone' u')
    (hcall : x.1.conf.calls p = some (.verifyOtp dto))
    (hans : x.1.answered (kori env) x.2 = some (p, ⟨.sql .commit, .ok ()⟩))
    (hans' : y.1.answered (kori env) y.2 = some (p', ⟨.sql .commit, .ok ()⟩)) :
    x = y ∧ before = before' := by
  obtain ⟨c, beforeC, hc, hran, -⟩ := h.consumed
  obtain ⟨c', beforeC', hc', hran', -⟩ := h'.consumed
  obtain ⟨rfl, rfl⟩ := enrollment_token_once hsha hempty hr
    (hc.trans ((List.suffix_cons x before).trans hx))
    (hc'.trans ((List.suffix_cons y before').trans hy)) hran hran'
  obtain ⟨rfl, -⟩ := hran.unique hran'
  refine hr.once obeyed (P := (· = .sql .commit)) (hr.called_at hx hcall) ?_ hx hy hans hans'
    rfl rfl
  rintro before op hasks rfl
  cases hasks with
  | free hfree => exact hfree.elim
  | upsert _ hasks =>
      cases hasks with
      | commit hnever => exact hnever

/-! ## Flows -/

/-- The operations on accounts that their owners take part in. -/
def Call.OfOwner : Call → Prop
  | .sendOtp _ | .verifyOtp _ | .register _ | .registerBusiness _ | .login _ | .refresh _
  | .logout _ | .revokeTrustedDevice _ _ => True
  | _ => False

def Call.For (env : Env) (t : Data) : Call → Uuid → Prop
  | .verifyOtp dto, u => ∃ phone, phoneOf env dto.phone = some phone ∧
      t.row (.userByPhone phone) = some u
  | .register dto, u | .registerBusiness dto, u => ∃ phone, phoneOf env dto.phone = some phone ∧
      t.row (.userByPhone phone) = some u
  | .login dto, u => ∃ phone, phoneOf env dto.phone = some phone ∧
      t.row (.userByPhone phone) = some u
  | .refresh token, u | .logout token, u => ∃ payload, token = some payload ∧ payload.sub = u
  | .revokeTrustedDevice actor _, u => actor = some u
  | _, _ => False

theorem register_frame (hopening : Opening env shared)
    (hr : Run (kori env) (World.idle shared) past w)
    (hm : w.move (kori env) (.step p choice) = some w') {dto : RegisterDto}
    (hcall : Registers w.conf p dto)
    (hchanged : (State.data w'.conf).row (.device u d) ≠ (State.data w.conf).row (.device u d)) :
    ∃ phone, phoneOf env dto.phone = some phone ∧
      (State.data w'.conf).row (.userByPhone phone) = some u := by
  obtain ⟨v, hrow, hnew⟩ := run_row hopening hr.reachable hm hchanged
  obtain ⟨own, hans, hown, hv⟩ :=
    run_registers hopening.idle hr hm hcall hrow hnew (.inr ⟨u, d, rfl⟩)
  have hasked := registers_asked hr hcall
  obtain ⟨-, hsome⟩ := RegisterAsks.device hasked hown hv
  obtain ⟨user, huser⟩ := Option.isSome_iff_exists.1 hsome
  obtain ⟨-, -, hphone, -⟩ := RegisterAsks.user hasked hown huser
  have hafter := run_committed hopening.idle hr hm hans hown huser
  have husers := (run_inv hopening.sound (.move hr.reachable hm trivial)).integrity.users
  exact ⟨user.phone, hphone, husers.entry u user user.phone hafter rfl⟩

theorem flow_frame (hopening : Opening env shared)
    (hr : Run (kori env) (World.idle shared) past w)
    (hm : w.move (kori env) (.step p choice) = some w') {call : Call}
    (hcall : w.conf.calls p = some call) (howner : call.OfOwner)
    (hchanged : (State.data w'.conf).row (.device u d) ≠ (State.data w.conf).row (.device u d)) :
    call.For env (State.data w'.conf) u := by
  have hstep : Reachable (kori env) w w' := .move .refl hm trivial
  have hgrows := run_grows ((contract env).sound hopening.sound hr.reachable) hstep
  cases call with
  | sendOtp dto =>
      obtain ⟨v, hrow, hnew⟩ := run_row hopening hr.reachable hm hchanged
      exact (run_touches hopening.idle hr hm hrow hnew hcall).elim
  | verifyOtp dto =>
      obtain ⟨-, -, phone, henrolls⟩ := run_enrolls hopening hr hm hcall hchanged
      exact ⟨phone, henrolls.verified.1,
        hgrows.userByPhone (henrolls.account_row hopening hr hcall)⟩
  | register dto => exact register_frame hopening hr hm (.inl hcall) hchanged
  | registerBusiness dto => exact register_frame hopening hr hm (.inr hcall) hchanged
  | login dto =>
      obtain ⟨-, phone, hphone, hrow⟩ := login_frame hopening hr.reachable hm hcall hchanged
      exact ⟨phone, hphone, hgrows.userByPhone hrow⟩
  | refresh token | logout token =>
      obtain ⟨v, hrow, hnew⟩ := run_row hopening hr.reachable hm hchanged
      obtain ⟨payload, htoken, hkey⟩ := run_touches hopening.idle hr hm hrow hnew hcall
      exact ⟨payload, htoken, (Key.device.inj hkey).1.symm⟩
  | revokeTrustedDevice actor id =>
      exact (revoke_frame hopening hr.reachable hm hcall hchanged).1
  | _ => exact howner.elim

/-- A device becomes trusted only with both proofs, each token makes one device trusted
once, and no flow changes the devices of another account. -/
theorem devices_trusted (hopening : Opening env shared) (hsha : Function.Injective env.sha256)
    (hempty : ∀ phone, shared.redis (.deviceEnrollmentAuthorization phone) = none)
    (hotp : NoOtp shared.redis) (hr : Run (kori env) (World.idle shared) past w) :
    (∀ x before w' p choice dto u d, x :: before <:+ past → x.2 = .step p choice →
      x.1.conf.calls p = some (.verifyOtp dto) → x.1.move (kori env) x.2 = some w' →
      (State.data w'.conf).row (.device u d) ≠ (State.data x.1.conf).row (.device u d) →
      d = dto.deviceId ∧ ∃ phone token,
        (State.data x.1.conf).row (.userByPhone phone) = some u ∧
        Entitled env w before p dto token phone u) ∧
    (∀ x before w₁ y before' w₂ p choice q choice' dto dto' u d u' d', x :: before <:+ past →
      y :: before' <:+ past → x.2 = .step p choice → y.2 = .step q choice' →
      x.1.conf.calls p = some (.verifyOtp dto) → y.1.conf.calls q = some (.verifyOtp dto') →
      x.1.move (kori env) x.2 = some w₁ → y.1.move (kori env) y.2 = some w₂ →
      (State.data w₁.conf).row (.device u d) ≠ (State.data x.1.conf).row (.device u d) →
      (State.data w₂.conf).row (.device u' d') ≠ (State.data y.1.conf).row (.device u' d') →
      dto.deviceEnrollmentToken = dto'.deviceEnrollmentToken →
      x = y ∧ before = before') ∧
    ∀ x before w' p choice call u d, x :: before <:+ past → x.2 = .step p choice →
      x.1.conf.calls p = some call → call.OfOwner → x.1.move (kori env) x.2 = some w' →
      (State.data w'.conf).row (.device u d) ≠ (State.data x.1.conf).row (.device u d) →
      call.For env (State.data w'.conf) u := by
  refine ⟨?_, ?_, ?_⟩
  · rintro ⟨w₀, m⟩ before w' p choice dto u d hx rfl hcall hm hchanged
    obtain ⟨-, hdevice, phone, henrolls⟩ :=
      run_enrolls hopening (hr.at hx).1 hm hcall hchanged
    obtain ⟨token, hentitled⟩ :=
      henrolls.entitled hsha hempty hotp hr ((List.suffix_cons _ before).trans hx)
    exact ⟨hdevice, phone, token, henrolls.account_row hopening (hr.at hx).1 hcall, hentitled⟩
  · rintro ⟨w₀, m⟩ before w₁ ⟨w₀', m'⟩ before' w₂ p choice q choice' dto dto' u d u' d' hx hy
      rfl rfl hcall hcall' hm hm' hchanged hchanged' htokens
    obtain ⟨hans, -, phone, henrolls⟩ := run_enrolls hopening (hr.at hx).1 hm hcall hchanged
    obtain ⟨hans', -, phone', henrolls'⟩ :=
      run_enrolls hopening (hr.at hy).1 hm' hcall' hchanged'
    obtain ⟨token, hentitled⟩ :=
      henrolls.entitled hsha hempty hotp hr ((List.suffix_cons _ before).trans hx)
    obtain ⟨token', hentitled'⟩ :=
      henrolls'.entitled hsha hempty hotp hr ((List.suffix_cons _ before').trans hy)
    obtain rfl : token = token' := Option.some.inj
      (hentitled.presented.symm.trans (htokens.trans hentitled'.presented))
    exact entitled_once hsha hempty hr hx hy hentitled hentitled' hcall hans hans'
  · rintro ⟨w₀, m⟩ before w' p choice call u d hx rfl hcall howner hm hchanged
    exact flow_frame hopening (hr.at hx).1 hm hcall howner hchanged

end Devices

namespace Sample

def enrollmentMoves (p : Pid) (dto : AuthCredentialsDto) (token : JsString) : List KoriMove :=
  .arrive p (.login dto) ::
    [.go, .go, .go, .turn true, .go, .go, .text token, .go].map (.step p)

def enrollDto : VerifyOtpDto := ⟨⟨js "1", js "e"⟩, js "123456", uuidText 77, some (js "t")⟩

def enrollMoves (p : Pid) (dto : VerifyOtpDto) (id : Uuid) : List KoriMove :=
  .arrive p (.verifyOtp dto) ::
    [.go, .go, .go, .instant time, .uuid id, .go, .go, .go, .go, .go].map (.step p)

end Sample

theorem devices_trusted_of_enrollment : ∃ past w x before phone token,
    Run (kori Sample.env) (World.idle Sample.shared) past w ∧ x :: before <:+ past ∧
      (State.data x.1.conf).row (.userByPhone phone) = some 1 ∧
      Entitled Sample.env w before 2 Sample.enrollDto token phone 1 := by
  obtain ⟨w, w', hr, hm, hw⟩ := Sample.next_of
    (Sample.enrollmentMoves 0 ⟨js "1", js "1234", js "e"⟩ (js "t") ++
      Sample.sendOtpMoves 1 ⟨js "1", js "e"⟩ 77 123456 ++
      Sample.enrollMoves 2 Sample.enrollDto 24)
    (.step 2 .go) (fun w w' => w.conf.calls 2 = some (.verifyOtp Sample.enrollDto) ∧
      (State.data w'.conf).row (.device 1 (js "e")) ≠
        (State.data w.conf).row (.device 1 (js "e"))) (by decide +kernel)
  obtain ⟨hcall, hchanged⟩ := of_decide_eq_true hw
  obtain ⟨before, hrun⟩ := Reachable.run hr
  obtain ⟨-, phone, token, hphone, hentitled⟩ :=
    (devices_trusted Sample.opening Function.injective_id (fun _ => rfl) Sample.noOtp
      (.cons hrun hm)).1 _ before w' 2 .go Sample.enrollDto 1 (js "e") (List.suffix_refl _) rfl
      hcall hm hchanged
  exact ⟨_, w', _, before, phone, token, .cons hrun hm, List.suffix_refl _, hphone, hentitled⟩

end Kori
