import Kori.Conduct.Commands
import Kori.Conduct.Received

/-!
# OTP challenges

A challenge is verified once, for what it was issued for, and only while the active
pointer names it.  The identifier of a challenge tells which `sendOtp` stored it, and
that request stores one challenge and one pointer.
-/

namespace Kori

open Foundation

section Challenges

variable {env : Env} {shared : Shared} {w w' : KoriWorld} {p q : Pid}
variable {past before before' : List KoriMoment} {x y : KoriMoment}
variable {phone phone' challengeId challengeId' deviceId deviceId' otp otp' : JsString}
variable {maxFailures maxFailures' : Int} {nx nx' : Bool}

/-- No OTP has been sent yet. -/
structure NoOtp (r : Redis) : Prop where
  challenges : ∀ phone challengeId, r (.otpChallenge phone challengeId) = none
  pointers : ∀ phone, r (.otpActiveChallenge phone) = none

/-! ## The script -/

theorem Ran.compares
    (h : Ran x p (.verifyOtp phone challengeId deviceId otp maxFailures) .verified) :
    x.1.conf.shared.redis.Compares phone challengeId deviceId maxFailures otp := by
  have hout := h.outcome
  simp only [Redis.exec] at hout
  obtain ⟨-, status, hstatus, heq⟩ | ⟨code, -, -, status, hstatus, heq⟩ | ⟨hcompares, -⟩ :=
    verifyOtpScript_cases x.1.conf.shared.redis p phone challengeId deviceId otp maxFailures
  · rw [heq] at hout
    exact absurd hout hstatus
  · rw [heq] at hout
    exact absurd hout hstatus
  · exact hcompares

theorem Ran.spent (h : Ran x p (.verifyOtp phone challengeId deviceId otp maxFailures) .verified)
    (hm : x.1.move (kori env) x.2 = some w') :
    w'.conf.shared.redis (.otpChallenge phone challengeId) = none := by
  have hout := h.outcome
  rw [h.after hm]
  simp only [Redis.exec] at hout ⊢
  obtain ⟨-, status, hstatus, heq⟩ | ⟨code, -, -, status, hstatus, heq⟩ | ⟨-, heq⟩ :=
    verifyOtpScript_cases x.1.conf.shared.redis p phone challengeId deviceId otp maxFailures
  · rw [heq] at hout
    exact absurd hout hstatus
  · rw [heq] at hout
    exact absurd hout hstatus
  · simp [heq]

theorem Ran.unverified {status : OtpVerificationStatus}
    (h : Ran x p (.verifyOtp phone challengeId deviceId otp maxFailures) status)
    (hstatus : status ≠ .verified) (hm : x.1.move (kori env) x.2 = some w') :
    (∀ phone', w'.conf.shared.redis (.otpActiveChallenge phone') =
      x.1.conf.shared.redis (.otpActiveChallenge phone')) ∧
    ∀ phone' challengeId', w'.conf.shared.redis (.otpChallenge phone' challengeId') =
      x.1.conf.shared.redis (.otpChallenge phone' challengeId') := by
  have hout := h.outcome
  rw [h.after hm]
  simp only [Redis.exec] at hout ⊢
  obtain ⟨-, status', -, heq⟩ | ⟨code, -, -, status', -, heq⟩ | ⟨-, heq⟩ :=
    verifyOtpScript_cases x.1.conf.shared.redis p phone challengeId deviceId otp maxFailures
  · rw [heq]
    exact ⟨fun _ => rfl, fun _ _ => rfl⟩
  · rw [heq]
    exact ⟨fun _ => by simp, fun _ _ => by simp⟩
  · rw [heq] at hout
    exact absurd hout.symm hstatus

/-! ## Who stores what -/

theorem challenge_once (hr : Run (kori env) (World.idle shared) past w)
    (hx : x :: before <:+ past) (hy : y :: before' <:+ past) {value value' : OtpChallenge}
    (hran : Ran x p (.set (.otpChallenge phone challengeId) value nx) true)
    (hran' : Ran y q (.set (.otpChallenge phone' challengeId) value' nx') true) :
    x = y ∧ before = before' := by
  obtain ⟨call, -, hcommands⟩ := ran_asks hr hx hran (by simp [Op.Free])
  obtain ⟨call', -, hcommands'⟩ := ran_asks hr hy hran' (by simp [Op.Free])
  obtain ⟨dto, u, -, -, rfl, hdrawn, -, -, -, -, rfl⟩ := hcommands.challenge
  obtain ⟨dto', u', -, -, hid, hdrawn', -, -, -, -, rfl⟩ := hcommands'.challenge
  obtain rfl := uuidText_inj hid
  -- the identifier was drawn by one request
  obtain rfl := uuid_owner hr ((heard_before hx).subset hdrawn)
    ((heard_before hy).subset hdrawn')
  exact ran_once hr (fun _ _ _ => challenge_never) hx hy hran hran' ⟨_, _, _, rfl⟩ ⟨_, _, _, rfl⟩

theorem pointer_once (hr : Run (kori env) (World.idle shared) past w)
    (hx : x :: before <:+ past) (hy : y :: before' <:+ past)
    (hran : Ran x p (.set (.otpActiveChallenge phone) challengeId nx) true)
    (hran' : Ran y q (.set (.otpActiveChallenge phone') challengeId nx') true) :
    x = y ∧ before = before' := by
  obtain ⟨call, -, hcommands⟩ := ran_asks hr hx hran (by simp [Op.Free])
  obtain ⟨call', -, hcommands'⟩ := ran_asks hr hy hran' (by simp [Op.Free])
  obtain ⟨dto, u, -, -, rfl, hdrawn, -, rfl⟩ := hcommands.pointer
  obtain ⟨dto', u', -, -, hid, hdrawn', -, rfl⟩ := hcommands'.pointer
  obtain rfl := uuidText_inj hid
  obtain rfl := uuid_owner hr ((heard_before hx).subset hdrawn)
    ((heard_before hy).subset hdrawn')
  exact ran_once hr (fun _ _ _ => pointer_never) hx hy hran hran' ⟨_, _, rfl⟩ ⟨_, _, rfl⟩

/-! ## Verifications -/

/-- `q` has stored the challenge for a `sendOtp` with this phone and device. -/
structure Sent (env : Env) (w : KoriWorld) (x : KoriMoment) (q : Pid)
    (phone challengeId deviceId code : JsString) : Prop where
  stored : Ran x q (.set (.otpChallenge phone challengeId) ⟨phone, deviceId, code⟩ false) true
  call : ∃ dto, w.conf.calls q = some (.sendOtp dto) ∧ phoneOf env dto.phone = some phone ∧
    dto.deviceId = deviceId

theorem challenge_sent (hempty : NoOtp shared.redis)
    (hr : Run (kori env) (World.idle shared) past w) (hx : x :: before <:+ past) {writer : Pid}
    (hchallenge : x.1.conf.shared.redis (.otpChallenge phone challengeId) =
      some ⟨⟨phone, deviceId, otp⟩, writer⟩) :
    ∃ y before', Sent env w y writer phone challengeId deviceId otp ∧
      Stored env before (⟨⟨phone, deviceId, otp⟩, writer⟩ :
        RedisEntry (.otpChallenge phone challengeId)) y before' := by
  obtain ⟨y, before', hstored⟩ :=
    run_stored (hr.at hx).1 (by simp [RedisKey.IsCounter]) (hempty.challenges _ _) hchallenge
  obtain ⟨nx, hset⟩ := hstored.set
  have hy := hstored.moment.trans ((List.suffix_cons x before).trans hx)
  obtain ⟨call, hcall, hcommands⟩ := ran_asks hr hy hset (by simp [Op.Free])
  obtain ⟨dto, u, rfl, hphone, rfl, -, -, hdevice, -, -, rfl⟩ := hcommands.challenge
  exact ⟨y, before', ⟨hset, dto, hcall, hphone, hdevice.symm⟩, hstored⟩

theorem verified_sent (hempty : NoOtp shared.redis)
    (hr : Run (kori env) (World.idle shared) past w) (hx : x :: before <:+ past)
    (h : Ran x p (.verifyOtp phone challengeId deviceId otp maxFailures) .verified) :
    ∃ y before' q writer, Sent env w y q phone challengeId deviceId otp ∧
      Stored env before (⟨⟨phone, deviceId, otp⟩, writer⟩ :
        RedisEntry (.otpChallenge phone challengeId)) y before' := by
  obtain ⟨writer, hchallenge⟩ := h.compares.challenge
  obtain ⟨y, before', hsent, hstored⟩ := challenge_sent hempty hr hx hchallenge
  exact ⟨y, before', writer, writer, hsent, hstored⟩

theorem verified_once (hempty : NoOtp shared.redis)
    (hr : Run (kori env) (World.idle shared) past w) (hx : x :: before <:+ past)
    (hy : y :: before' <:+ past)
    (h : Ran x p (.verifyOtp phone challengeId deviceId otp maxFailures) .verified)
    (h' : Ran y q (.verifyOtp phone' challengeId deviceId' otp' maxFailures') .verified) :
    x = y ∧ before = before' := by
  obtain ⟨z, b, o, writer, hsent, hstored⟩ := verified_sent hempty hr hx h
  obtain ⟨z', b', o', writer', hsent', hstored'⟩ := verified_sent hempty hr hy h'
  obtain ⟨rfl, rfl⟩ := challenge_once hr
    (hstored.moment.trans ((List.suffix_cons x before).trans hx))
    (hstored'.moment.trans ((List.suffix_cons y before').trans hy)) hsent.stored hsent'.stored
  exact hstored.once hr hx hy hstored' (fun _ => h.spent) fun _ => h'.spent

theorem verified_latest (hempty : NoOtp shared.redis)
    (hr : Run (kori env) (World.idle shared) past w) {z : KoriMoment}
    {later : List KoriMoment} {o : Pid} (hx : x :: before <:+ before')
    (hy : y :: before' <:+ later) (hz : z :: later <:+ past) (hne : challengeId ≠ challengeId')
    (hold : Ran x p (.set (.otpActiveChallenge phone) challengeId nx) true)
    (hnew : Ran y q (.set (.otpActiveChallenge phone) challengeId' nx') true) :
    ¬Ran z o (.verifyOtp phone challengeId deviceId otp maxFailures) .verified := by
  intro h
  obtain ⟨writer, hactive⟩ := h.compares.active
  obtain ⟨x', b, hstored⟩ :=
    run_stored (hr.at hz).1 (by simp [RedisKey.IsCounter]) (hempty.pointers _) hactive
  obtain ⟨nx'', hset⟩ := hstored.set
  have hlater := (List.suffix_cons z later).trans hz
  have hy' := hy.trans hlater
  have hx' := hx.trans ((List.suffix_cons y before').trans hy')
  obtain ⟨rfl, rfl⟩ := pointer_once hr hx' (hstored.moment.trans hlater) hold hset
  obtain ⟨-, w₁, -, hm, -⟩ := hr.at hy'
  have hthere := hstored.since y before' w₁ hy hx hm
  rw [hnew.after hm] at hthere
  have hout := hnew.outcome
  simp only [Redis.exec] at hthere hout
  split at hout
  · simp at hout
  · rename_i hset'
    rw [if_neg hset'] at hthere
    simp only [Redis.put_self, Option.some.injEq, RedisEntry.mk.injEq] at hthere
    exact hne hthere.1.symm

/-- While all devices can be sent, challenges are single use, for what they were issued for,
only the latest one counts, and a result other than VERIFIED invalidates nothing. -/
theorem challenges_single_use (hempty : NoOtp shared.redis)
    (hr : Run (kori env) (World.idle shared) past w) (hdevices : DevicesSendable past) :
    (∀ x before y before' p q phone phone' challengeId deviceId deviceId' otp otp' maxFailures
      maxFailures', x :: before <:+ past → y :: before' <:+ past →
      Received x p (.verifyOtp phone challengeId deviceId otp maxFailures) .verified →
      Received y q (.verifyOtp phone' challengeId deviceId' otp' maxFailures') .verified →
      x = y ∧ before = before') ∧
    (∀ x before p phone challengeId deviceId otp maxFailures, x :: before <:+ past →
      Received x p (.verifyOtp phone challengeId deviceId otp maxFailures) .verified →
      (∃ writer, x.1.conf.shared.redis (.otpActiveChallenge phone) =
        some ⟨challengeId, writer⟩) ∧
      (∃ y before' q, y :: before' <:+ before ∧
        Sent env w y q phone challengeId deviceId otp) ∧
      ∀ y before' q phone' deviceId' code, y :: before' <:+ past →
        Sent env w y q phone' challengeId deviceId' code →
        phone' = phone ∧ deviceId' = deviceId ∧ code = otp) ∧
    (∀ x before y before' z later p q o phone challengeId challengeId' deviceId otp maxFailures
      nx nx', x :: before <:+ before' → y :: before' <:+ later → z :: later <:+ past →
      challengeId ≠ challengeId' →
      Ran x p (.set (.otpActiveChallenge phone) challengeId nx) true →
      Ran y q (.set (.otpActiveChallenge phone) challengeId' nx') true →
      ¬Received z o (.verifyOtp phone challengeId deviceId otp maxFailures) .verified) ∧
    ∀ x before w' p phone challengeId deviceId otp maxFailures status, x :: before <:+ past →
      Received x p (.verifyOtp phone challengeId deviceId otp maxFailures) status →
      status ≠ .verified → x.1.move (kori env) x.2 = some w' →
      (∀ phone', w'.conf.shared.redis (.otpActiveChallenge phone') =
        x.1.conf.shared.redis (.otpActiveChallenge phone')) ∧
      ∀ phone' challengeId', w'.conf.shared.redis (.otpChallenge phone' challengeId') =
        x.1.conf.shared.redis (.otpChallenge phone' challengeId') := by
  refine ⟨?_, ?_, ?_, ?_⟩
  · intro x before y before' p q phone phone' challengeId deviceId deviceId' otp otp'
      maxFailures maxFailures' hx hy h h'
    exact verified_once hempty hr hx hy (h.verifies hr hdevices hx) (h'.verifies hr hdevices hy)
  · intro x before p phone challengeId deviceId otp maxFailures hx hreceived
    have h := hreceived.verifies hr hdevices hx
    obtain ⟨y, before', q, writer, hsent, hstored⟩ := verified_sent hempty hr hx h
    refine ⟨h.compares.active, ⟨y, before', q, hstored.moment, hsent⟩, ?_⟩
    intro y' b q' phone' deviceId' code hy' hsent'
    have hy := hstored.moment.trans ((List.suffix_cons x before).trans hx)
    obtain ⟨rfl, rfl⟩ := challenge_once hr hy' hy hsent'.stored hsent.stored
    obtain ⟨-, hcommand⟩ := hsent'.stored.unique hsent.stored
    simp only [RedisCommand.set.injEq, RedisKey.otpChallenge.injEq] at hcommand
    obtain ⟨⟨rfl, -⟩, hvalue, -⟩ := hcommand
    obtain ⟨-, rfl, rfl⟩ := OtpChallenge.mk.inj (eq_of_heq hvalue)
    exact ⟨rfl, rfl, rfl⟩
  · intro x before y before' z later p q o phone challengeId challengeId' deviceId otp
      maxFailures nx nx' hx hy hz hne hold hnew h
    exact verified_latest hempty hr hx hy hz hne hold hnew (h.verifies hr hdevices hz)
  · intro x before w' p phone challengeId deviceId otp maxFailures status hx h hstatus hm
    exact (h.verifies hr hdevices hx).unverified hstatus hm

end Challenges

namespace Sample

theorem noOtp : NoOtp shared.redis := ⟨fun _ _ => rfl, fun _ => rfl⟩

def sendOtpDto : SendOtpDto := ⟨js "3", js "e"⟩

def sendOtpMoves (p : Pid) (dto : SendOtpDto) (u : Uuid) (code : Nat) : List KoriMove :=
  .arrive p (.sendOtp dto) ::
    [.go, .go, .uuid u, .int code, .go, .go].map (.step p)

def verifies (w : KoriWorld) (p : Pid) (phone challengeId deviceId otp : JsString) : Bool :=
  sends w p fun
    | .verifyOtp phone' challengeId' deviceId' otp' maxFailures =>
        phone' = phone ∧ challengeId' = challengeId ∧ deviceId' = deviceId ∧ otp' = otp ∧
          (w.conf.shared.redis.exec p
            (.verifyOtp phone' challengeId' deviceId' otp' maxFailures)).1 = .verified
    | _ => false

theorem ran_of_verifies {w : KoriWorld} {p : Pid} {phone challengeId deviceId otp : JsString}
    (h : verifies w p phone challengeId deviceId otp = true) : ∃ maxFailures,
      Ran (w, .step p .go) p (.verifyOtp phone challengeId deviceId otp maxFailures)
        .verified := by
  obtain ⟨command, next, hproc, htest⟩ := sends_iff.1 h
  cases command with
  | verifyOtp phone' challengeId' deviceId' otp' maxFailures =>
      obtain ⟨rfl, rfl, rfl, rfl, hverified⟩ := of_decide_eq_true htest
      exact ⟨maxFailures, .inl rfl, ⟨next, hproc⟩, hverified⟩
  | _ => simp at htest

def receives (x : KoriMoment) (p : Pid) (phone challengeId deviceId otp : JsString) : Bool :=
  sendsAt x p fun
    | .verifyOtp phone' challengeId' deviceId' otp' maxFailures =>
        phone' = phone ∧ challengeId' = challengeId ∧ deviceId' = deviceId ∧ otp' = otp ∧
          (x.1.conf.shared.redis.exec p (.verifyOtp phone' challengeId'
            (toWellFormed deviceId') otp' maxFailures)).1 = .verified
    | _ => false

theorem received_of_receives {x : KoriMoment} {p : Pid}
    {phone challengeId deviceId otp : JsString}
    (h : receives x p phone challengeId deviceId otp = true) : ∃ maxFailures,
      Received x p (.verifyOtp phone challengeId deviceId otp maxFailures) .verified := by
  obtain ⟨-, command, htest, hreceived⟩ := received_of_sendsAt h
  cases command with
  | verifyOtp phone' challengeId' deviceId' otp' maxFailures =>
      obtain ⟨rfl, rfl, rfl, rfl, hverified⟩ := of_decide_eq_true htest
      exact ⟨maxFailures, hreceived _ hverified⟩
  | _ => simp at htest

def atLast (Q : KoriMoment → List KoriMoment → Bool) : List KoriMoment → Bool
  | x :: before => Q x before
  | [] => false

theorem last_of (moves : List KoriMove) (Q : KoriMoment → List KoriMoment → Bool)
    (h : (((World.idle shared).moments (kori env) moves).any fun run => atLast Q run.1) = true) :
    ∃ x before w, Run (kori env) (World.idle shared) (x :: before) w ∧ Q x before = true := by
  obtain ⟨past, w, hr, -, htest⟩ := exists_of_moments h
  cases past with
  | nil => simp [atLast] at htest
  | cons x before => exact ⟨x, before, w, hr, htest⟩

def verificationMoves (deviceId deviceId' : JsString) : List KoriMove :=
  sendOtpMoves 0 ⟨js "3", deviceId⟩ 77 123456 ++
    [.arrive 1 (.verifyOtp ⟨⟨js "3", deviceId'⟩, js "123456", uuidText 77, none⟩), .step 1 .go]

end Sample

theorem challenges_single_use_of_verification : ∃ past w x before maxFailures,
    Run (kori Sample.env) (World.idle Sample.shared) past w ∧ x :: before <:+ past ∧
      Received x 1 (.verifyOtp (js "3") (uuidText 77) (js "e") (js "123456") maxFailures)
        .verified ∧
      ∃ y before' q, y :: before' <:+ before ∧
        Sent Sample.env w y q (js "3") (uuidText 77) (js "e") (js "123456") := by
  obtain ⟨x, before, w, hr, htest⟩ := Sample.last_of
    (Sample.verificationMoves (js "e") (js "e")) (fun x before =>
      (x :: before).all namesSendable &&
        Sample.receives x 1 (js "3") (uuidText 77) (js "e") (js "123456"))
    (by decide +kernel)
  obtain ⟨hsendable, hreceives⟩ := Bool.and_eq_true_iff.1 htest
  obtain ⟨maxFailures, hreceived⟩ := Sample.received_of_receives hreceives
  exact ⟨_, w, x, before, maxFailures, hr, List.suffix_refl _, hreceived,
    ((challenges_single_use Sample.noOtp hr (devicesSendable_of_all hsendable)).2.1 _ _ _ _ _ _ _
      _ (List.suffix_refl _) hreceived).2.1⟩

/-- The challenge was issued for the device U+FFFD, and is verified for a device that is a
surrogate without its other half. -/
theorem challenge_verified_for_other : ∃ past w x before y before' q maxFailures,
    Run (kori Sample.env) (World.idle Sample.shared) past w ∧ x :: before <:+ past ∧
      y :: before' <:+ before ∧
      Sent Sample.env w y q (js "3") (uuidText 77) [0xFFFD] (js "123456") ∧
      Received x 1 (.verifyOtp (js "3") (uuidText 77) [0xD800] (js "123456") maxFailures)
        .verified := by
  obtain ⟨x, before, w, hr, htest⟩ := Sample.last_of
    (Sample.verificationMoves [0xFFFD] [0xD800]) (fun x _ =>
      ((x.1.conf.shared.redis (.otpChallenge (js "3") (uuidText 77))).any fun entry =>
        entry.value = ⟨js "3", [0xFFFD], js "123456"⟩) &&
      Sample.receives x 1 (js "3") (uuidText 77) [0xD800] (js "123456"))
    (by decide +kernel)
  obtain ⟨hstored, hreceives⟩ := Bool.and_eq_true_iff.1 htest
  obtain ⟨maxFailures, hreceived⟩ := Sample.received_of_receives hreceives
  obtain ⟨⟨value, writer⟩, hentry, hvalue⟩ := (Option.any_eq_true _ _).1 hstored
  obtain rfl : value = ⟨js "3", [0xFFFD], js "123456"⟩ := of_decide_eq_true hvalue
  obtain ⟨y, before', hsent, hstored⟩ :=
    challenge_sent Sample.noOtp hr (List.suffix_refl _) hentry
  exact ⟨_, w, x, before, y, before', writer, maxFailures, hr, List.suffix_refl _,
    hstored.moment, hsent, hreceived⟩

end Kori
