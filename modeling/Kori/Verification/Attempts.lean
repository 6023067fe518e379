import Kori.Verification.Challenges

/-!
# Attempts to guess an OTP

The script counts every wrong code that it compares, over all challenges of a phone,
and compares none once the counter has reached the limit.
-/

namespace Kori

open Foundation

section Attempts

variable {env : Env} {shared : Shared} {w w' w₀ : KoriWorld} {m : KoriMove} {p q : Pid}
variable {past stretch earlier before : List KoriMoment} {x y : KoriMoment} {r r' : Redis}
variable {phone challengeId deviceId otp : JsString} {maxFailures : Int}

def Redis.guessesWrong (r : Redis) (phone challengeId deviceId otp : JsString)
    (maxFailures : Int) : Bool :=
  ¬(r.count phone : Int) ≥ maxFailures ∧
    ((r (.otpActiveChallenge phone)).any fun active => active.value = challengeId) ∧
    (r (.otpChallenge phone challengeId)).any fun challenge =>
      challenge.value.phone = phone ∧ challenge.value.deviceId = deviceId ∧
        challenge.value.code ≠ otp

theorem guessesWrong_iff : r.guessesWrong phone challengeId deviceId otp maxFailures = true ↔
    ∃ code, r.Compares phone challengeId deviceId maxFailures code ∧ code ≠ otp := by
  unfold Redis.guessesWrong
  rw [decide_eq_true_iff, Option.any_eq_true, Option.any_eq_true]
  constructor
  · rintro ⟨hbelow, ⟨⟨value, writer⟩, hactive, hid⟩, ⟨⟨challenge, writer'⟩, hchallenge, hmatch⟩⟩
    obtain ⟨hphone, hdevice, hcode⟩ := of_decide_eq_true hmatch
    obtain rfl : value = challengeId := of_decide_eq_true hid
    have heq : challenge = ⟨phone, deviceId, challenge.code⟩ := by
      cases challenge
      simp_all
    exact ⟨challenge.code, ⟨hbelow, ⟨writer, hactive⟩, ⟨writer', heq ▸ hchallenge⟩⟩, hcode⟩
  · rintro ⟨code, ⟨hbelow, ⟨writer, hactive⟩, ⟨writer', hchallenge⟩⟩, hcode⟩
    exact ⟨hbelow, ⟨_, hactive, by simp⟩, ⟨_, hchallenge, by simpa using hcode⟩⟩

/-- In the moment `x` a wrong code is compared with one sent to the phone. -/
def wrongGuess (phone : JsString) (x : KoriMoment) : Bool :=
  match x.2 with
  | .step p .go | .step p .lost => sends x.1 p fun
      | .verifyOtp phone' challengeId deviceId otp maxFailures => phone' = phone ∧
          x.1.conf.shared.redis.guessesWrong phone' challengeId deviceId otp maxFailures
      | _ => false
  | _ => false

theorem wrongGuess_iff : wrongGuess phone x = true ↔
    ∃ p challengeId deviceId otp maxFailures code status,
      Ran x p (.verifyOtp phone challengeId deviceId otp maxFailures) status ∧
      x.1.conf.shared.redis.Compares phone challengeId deviceId maxFailures code ∧
      code ≠ otp := by
  have htest : ∀ p, sends x.1 p (fun
      | .verifyOtp phone' challengeId deviceId otp maxFailures => phone' = phone ∧
          x.1.conf.shared.redis.guessesWrong phone' challengeId deviceId otp maxFailures
      | _ => false) = true ↔
      ∃ challengeId deviceId otp maxFailures next code,
        x.1.procs p = some (.request (.redis
          (.verifyOtp phone challengeId deviceId otp maxFailures)) next) ∧
        x.1.conf.shared.redis.Compares phone challengeId deviceId maxFailures code ∧
        code ≠ otp := by
    intro p
    rw [sends_iff]
    constructor
    · rintro ⟨command, next, hproc, htest⟩
      cases command with
      | verifyOtp phone' challengeId deviceId otp maxFailures =>
          obtain ⟨rfl, hwrong⟩ := of_decide_eq_true htest
          obtain ⟨code, hcompares, hcode⟩ := guessesWrong_iff.1 hwrong
          exact ⟨_, _, _, _, next, code, hproc, hcompares, hcode⟩
      | _ => simp at htest
    · rintro ⟨challengeId, deviceId, otp, maxFailures, next, code, hproc, hcompares, hcode⟩
      exact ⟨_, next, hproc, decide_eq_true ⟨rfl, guessesWrong_iff.2 ⟨code, hcompares, hcode⟩⟩⟩
  constructor
  · intro h
    unfold wrongGuess at h
    split at h
    · rename_i p hmove
      obtain ⟨challengeId, deviceId, otp, maxFailures, next, code, hproc, hcompares⟩ :=
        (htest p).1 h
      exact ⟨p, _, _, _, _, code, _, ⟨.inl hmove, ⟨next, hproc⟩, rfl⟩, hcompares⟩
    · rename_i p hmove
      obtain ⟨challengeId, deviceId, otp, maxFailures, next, code, hproc, hcompares⟩ :=
        (htest p).1 h
      exact ⟨p, _, _, _, _, code, _, ⟨.inr hmove, ⟨next, hproc⟩, rfl⟩, hcompares⟩
    · simp at h
  · rintro ⟨p, challengeId, deviceId, otp, maxFailures, code, status, hran, hcompares⟩
    obtain ⟨next, hproc⟩ := hran.code
    have hsends := (htest p).2 ⟨_, _, _, _, next, code, hproc, hcompares⟩
    unfold wrongGuess
    rcases hran.move with hmove | hmove
    · rw [hmove]
      exact hsends
    · rw [hmove]
      exact hsends

/-! ## The counter -/

/-- In the moment `x` a challenge of the phone is verified. -/
def Verified (phone : JsString) (x : KoriMoment) : Prop :=
  ∃ p challengeId deviceId otp maxFailures,
    Ran x p (.verifyOtp phone challengeId deviceId otp maxFailures) .verified

theorem Redis.count_congr (h : r' (.otpFailure phone) = r (.otpFailure phone)) :
    r'.count phone = r.count phone := by
  unfold Redis.count
  rw [h]

theorem count_guess (hr : Run (kori env) (World.idle shared) past w)
    (hm : w.move (kori env) m = some w') (h : wrongGuess phone (w, m) = true) :
    w'.conf.shared.redis.count phone = w.conf.shared.redis.count phone + 1 ∧
      ¬(w.conf.shared.redis.count phone : Int) ≥ env.otpMaxFailures := by
  obtain ⟨p, challengeId, deviceId, otp, maxFailures, code, status, hran, hcompares, hcode⟩ :=
    wrongGuess_iff.1 h
  have hlimit : maxFailures = env.otpMaxFailures := by
    obtain ⟨call, -, hcommands⟩ :=
      ran_asks (Run.cons hr hm) (List.suffix_refl _) hran (by simp [Op.Free])
    obtain ⟨dto, -, -, heq⟩ := hcommands.otpFailure (.inl rfl)
    injection heq
  constructor
  · rw [hran.after hm]
    simp only [Redis.exec]
    obtain ⟨hnot, -⟩ | ⟨code', -, -, status', -, heq⟩ | ⟨hright, -⟩ := verifyOtpScript_cases
      w.conf.shared.redis p phone challengeId deviceId otp maxFailures
    · exact absurd hcompares (hnot code)
    · rw [heq]
      simp [Redis.count]
    · exact absurd (hcompares.code_eq hright) hcode
  · exact hlimit ▸ hcompares.below

theorem count_same (hr : Run (kori env) (World.idle shared) past w)
    (hm : w.move (kori env) m = some w') (h : wrongGuess phone (w, m) = false)
    (hkept : m ≠ .tick (.otpFailure phone)) (hnot : ¬Verified phone (w, m)) :
    w'.conf.shared.redis.count phone = w.conf.shared.redis.count phone := by
  refine Redis.count_congr ?_
  rcases redis_cases hm with hsame | ⟨k, rfl, hremove⟩ | ⟨p, command, a, hran⟩
  · rw [hsame]
  · rw [hremove]
    refine Redis.remove_of_ne ?_ _
    rintro rfl
    exact hkept rfl
  · rw [hran.after hm]
    by_cases hwrites : command.Writes (.otpFailure phone)
    · obtain ⟨call, -, hcommands⟩ := ran_asks (Run.cons hr hm) (List.suffix_refl _) hran
        hwrites.not_free
      obtain ⟨dto, -, -, rfl⟩ := hcommands.otpFailure hwrites
      simp only [Redis.exec]
      obtain ⟨-, status, -, heq⟩ | ⟨code, hcompares, hcode, -⟩ | ⟨-, heq⟩ :=
        verifyOtpScript_cases w.conf.shared.redis p phone dto.challengeId dto.deviceId dto.otp
          env.otpMaxFailures
      · rw [heq]
      · have hguess : wrongGuess phone (w, m) = true :=
          wrongGuess_iff.2 ⟨p, _, _, _, _, code, a, hran, hcompares, hcode⟩
        simp [h] at hguess
      · refine absurd ⟨p, _, _, _, _, hran.move, hran.code, ?_⟩ hnot
        simp only [Redis.exec]
        rw [heq]
    · exact Redis.exec_frame hwrites

/-! ## Stretches of a run -/

/-- The counter counts the wrong guesses of the stretch. -/
theorem run_count (hearlier : Run (kori env) (World.idle shared) earlier w₀)
    (hstretch : Run (kori env) w₀ stretch w)
    (hkept : ∀ x ∈ stretch, x.2 ≠ .tick (.otpFailure phone))
    (hnot : ∀ x ∈ stretch, ¬Verified phone x) :
    w.conf.shared.redis.count phone =
        w₀.conf.shared.redis.count phone + stretch.countP (wrongGuess phone) ∧
      (0 < stretch.countP (wrongGuess phone) →
        (w.conf.shared.redis.count phone : Int) ≤ env.otpMaxFailures) := by
  induction hstretch with
  | nil => simp
  | @cons stretch w w' m hr hm ih =>
      obtain ⟨hcount, hlimit⟩ := ih (fun x hx => hkept x (.tail _ hx))
        fun x hx => hnot x (.tail _ hx)
      have hrun := hearlier.trans hr
      cases hguess : wrongGuess phone (w, m) with
      | true =>
          obtain ⟨hnext, hbelow⟩ := count_guess hrun hm hguess
          rw [List.countP_cons_of_pos hguess]
          omega
      | false =>
          have hsame := count_same hrun hm hguess (hkept _ (.head _)) (hnot _ (.head _))
          rw [List.countP_cons_of_neg (by simp [hguess]), hsame]
          exact ⟨hcount, hlimit⟩

/-- At the limit the counter stays, and nothing is verified. -/
theorem run_limit (hearlier : Run (kori env) (World.idle shared) earlier w₀)
    (hstretch : Run (kori env) w₀ stretch w)
    (hkept : ∀ x ∈ stretch, x.2 ≠ .tick (.otpFailure phone))
    (hlimit : (w₀.conf.shared.redis.count phone : Int) ≥ env.otpMaxFailures) :
    (w.conf.shared.redis.count phone : Int) ≥ env.otpMaxFailures ∧
      ∀ x ∈ stretch, (x.1.conf.shared.redis.count phone : Int) ≥ env.otpMaxFailures ∧
        ¬Verified phone x := by
  induction hstretch with
  | nil => exact ⟨hlimit, by simp⟩
  | @cons stretch w w' m hr hm ih =>
      obtain ⟨hnow, hall⟩ := ih fun x hx => hkept x (.tail _ hx)
      have hrun := hearlier.trans hr
      have hnot : ¬Verified phone (w, m) := by
        rintro ⟨p, challengeId, deviceId, otp, maxFailures, hran⟩
        obtain ⟨call, -, hcommands⟩ :=
          ran_asks (Run.cons hrun hm) (List.suffix_refl _) hran (by simp [Op.Free])
        obtain ⟨dto, -, -, heq⟩ := hcommands.otpFailure (.inl rfl)
        injection heq with _ _ _ _ hmax
        exact hran.compares.below (hmax ▸ hnow)
      refine ⟨?_, fun x hx => ?_⟩
      · cases hguess : wrongGuess phone (w, m) with
        | true => exact absurd hnow (count_guess hrun hm hguess).2
        | false => rw [count_same hrun hm hguess (hkept _ (.head _)) hnot]; exact hnow
      · rcases List.mem_cons.1 hx with rfl | hx
        · exact ⟨hnow, hnot⟩
        · exact hall x hx

/-! ## Sending -/

theorem sendOtp_refused (hr : Run (kori env) (World.idle shared) past w)
    (hx : x :: before <:+ past) {dto : SendOtpDto} {count : Option Nat}
    (hcall : x.1.conf.calls p = some (.sendOtp dto))
    (hread : x.1.answered (kori env) x.2 =
      some (p, ⟨.redis (.get (.otpFailure phone)), .ok count⟩))
    (hlimit : (x.1.conf.shared.redis.count phone : Int) ≥ env.otpMaxFailures)
    {later : List KoriMoment} (hy : y :: later <:+ past) {phone' : JsString}
    {value : OtpChallenge} {nx : Bool} :
    ¬Ran y p (.set (.otpChallenge phone' challengeId) value nx) true := by
  intro hran
  obtain ⟨call, hcall', hcommands⟩ := ran_asks hr hy hran (by simp [Op.Free])
  obtain rfl := Option.some.inj ((hr.called_at hx hcall).symm.trans hcall')
  obtain ⟨dto', u, hdto, hphone', -, -, -, -, hbelow, -⟩ := hcommands.challenge
  obtain rfl := Call.sendOtp.inj hdto
  obtain ⟨call, hcall'', hasks⟩ := (hr.at hx).1.asks obeyed hread
  obtain rfl := Option.some.inj (hcall''.symm.trans hcall)
  obtain ⟨hphone, hfirst⟩ : phoneOf env dto.phone = some phone ∧
      heard (kori env) p before = [] := by
    cases hasks with
    | free _ hnot => exact absurd rfl (hnot phone)
    | count hphone hfirst => exact ⟨hphone, hfirst⟩
  obtain rfl := Option.some.inj (hphone.symm.trans hphone')
  obtain ⟨answer, hans⟩ : ∃ answer, y.1.answered (kori env) y.2 =
    some (p, ⟨.redis (.set (.otpChallenge phone challengeId) value nx), answer⟩) := hran.answered
  rcases moments_cases hx hy with ⟨rfl, -⟩ | hlater | hearlier
  · simp [hread] at hans
  · refine hbelow count (heard_at hlater hread) ?_
    have hcount : count.getD 0 = x.1.conf.shared.redis.count phone := by
      have hout := (ran_of_answered hread).outcome
      simp only [Redis.exec] at hout
      unfold Redis.count
      rw [← hout]
      cases x.1.conf.shared.redis (.otpFailure phone) <;> rfl
    rw [hcount]
    exact hlimit
  · have hmem := heard_at hearlier hans
    simp [hfirst] at hmem

/-- Wrong guesses are bounded over all challenges of a phone; at the limit no code is
verified and no challenge is stored. -/
theorem otp_guesses_bounded (hearlier : Run (kori env) (World.idle shared) earlier w₀)
    (hstretch : Run (kori env) w₀ stretch w)
    (hkept : ∀ x ∈ stretch, x.2 ≠ .tick (.otpFailure phone)) :
    ((∀ x ∈ stretch, ¬Verified phone x) →
      stretch.countP (wrongGuess phone) ≤ env.otpMaxFailures.toNat) ∧
    ((w₀.conf.shared.redis.count phone : Int) ≥ env.otpMaxFailures →
      (∀ x ∈ stretch, ¬Verified phone x) ∧
      ∀ x ∈ stretch, ∀ p dto count, x.1.conf.calls p = some (.sendOtp dto) →
        x.1.answered (kori env) x.2 =
          some (p, ⟨.redis (.get (.otpFailure phone)), .ok count⟩) →
        ∀ y before phone' challengeId value nx, y :: before <:+ stretch ++ earlier →
          ¬Ran y p (.set (.otpChallenge phone' challengeId) value nx) true) := by
  constructor
  · intro hnot
    obtain ⟨hcount, hlimit⟩ := run_count hearlier hstretch hkept hnot
    omega
  · intro hlimit
    obtain ⟨-, hall⟩ := run_limit hearlier hstretch hkept hlimit
    refine ⟨fun x hx => (hall x hx).2, ?_⟩
    intro x hx p dto count hcall hread y before phone' challengeId value nx hy
    obtain ⟨later, before', rfl⟩ := List.append_of_mem hx
    have hmoment : x :: (before' ++ earlier) <:+ later ++ x :: before' ++ earlier :=
      ⟨later, by simp⟩
    exact sendOtp_refused (hearlier.trans hstretch) hmoment hcall hread (hall x hx).1 hy

theorem wrongGuess_not_verified (h : wrongGuess phone x = true) : ¬Verified phone x := by
  rintro ⟨q, challengeId', deviceId', otp', maxFailures', hran'⟩
  obtain ⟨p, challengeId, deviceId, otp, maxFailures, code, status, hran, hcompares, hcode⟩ :=
    wrongGuess_iff.1 h
  obtain ⟨-, heq⟩ := hran.unique hran'
  injection heq with _ hid hdevice hotp hmax
  subst hid hdevice hotp hmax
  exact hcode (hcompares.code_eq hran'.compares)

end Attempts

theorem otp_guesses_bounded_of_guess : ∃ earlier w₀ stretch w,
    Run (kori Sample.env) (World.idle Sample.shared) earlier w₀ ∧
      Run (kori Sample.env) w₀ stretch w ∧ 0 < stretch.countP (wrongGuess (js "3")) ∧
      stretch.countP (wrongGuess (js "3")) ≤ Sample.env.otpMaxFailures.toNat := by
  obtain ⟨w₀, w, hr, hm, hw⟩ := Sample.next_of
    (Sample.sendOtpMoves 0 Sample.sendOtpDto 77 123456 ++
      [.arrive 1 (.verifyOtp ⟨Sample.sendOtpDto, js "000000", uuidText 77, none⟩)])
    (.step 1 .go) (fun w _ => wrongGuess (js "3") (w, .step 1 .go)) (by decide +kernel)
  obtain ⟨earlier, hearlier⟩ := Reachable.run hr
  have hstretch : Run (kori Sample.env) w₀ [(w₀, .step 1 .go)] w := .cons .nil hm
  refine ⟨earlier, w₀, _, w, hearlier, hstretch, ?_, ?_⟩
  · rw [List.countP_cons_of_pos hw]
    omega
  · refine (otp_guesses_bounded hearlier hstretch (by simp)).1 fun x hx => ?_
    obtain rfl := List.mem_singleton.1 hx
    exact wrongGuess_not_verified hw

end Kori
