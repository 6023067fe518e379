import Kori.Conduct.Sending
import Kori.Verification.Guesses
import Kori.Verification.Challenges

/-!
# Requests keep to their own keys

What Redis holds for a phone number or an idempotency key is neither changed nor read by the
requests for other ones.
-/

namespace Kori

open Foundation

section Isolation

variable {env : Env} {shared : Shared} {w w₀ w' : KoriWorld} {m : KoriMove} {p : Pid}
variable {call : Call} {command : RedisCommand} {k : RedisKey} {r r' : Redis}
variable {stretch earlier : List KoriMoment}

/-- The keys that requests like this one use, of its idempotency key or its phone number. -/
def Call.Owns (env : Env) : Call → RedisKey → Prop
  | .transfer request, .idempotency key => request.idempotencyKey = some key
  | .sendOtp dto, .otpChallenge phone _ | .sendOtp dto, .otpActiveChallenge phone
  | .sendOtp dto, .otpResend phone | .sendOtp dto, .otpFailure phone =>
      phoneOf env dto.phone = some phone
  | .verifyOtp dto, .otpChallenge phone _ | .verifyOtp dto, .otpActiveChallenge phone
  | .verifyOtp dto, .otpFailure phone | .verifyOtp dto, .registrationAuthorization phone
  | .verifyOtp dto, .deviceEnrollmentAuthorization phone => phoneOf env dto.phone = some phone
  | .register dto, .registrationAuthorization phone
  | .registerBusiness dto, .registrationAuthorization phone => phoneOf env dto.phone = some phone
  | .login dto, .loginFailure phone | .login dto, .loginThrottle phone
  | .login dto, .deviceEnrollmentAuthorization phone => phoneOf env dto.phone = some phone
  | _, _ => False

/-- The command reads or may write what is under the key. -/
def RedisCommand.Touches (k : RedisKey) : RedisCommand → Prop
  | .get k' => k = k'
  | command => command.Writes k

theorem Sends.owns (h : Sends env call command) (htouches : command.Touches k) :
    call.Owns env k := by
  cases h with
  | verify hphone => rcases htouches with rfl | rfl | rfl <;> exact hphone
  | register hcall hphone =>
      obtain rfl : k = _ := htouches
      rcases hcall with rfl | rfl <;> exact hphone
  | _ =>
      obtain rfl : k = _ := htouches
      assumption

theorem RedisCommand.Writes.touches (h : command.Writes k) : command.Touches k := by
  cases command with
  | get _ => exact h.elim
  | _ => exact h

theorem exec_answer (h : ∀ k, command.Touches k → r k = r' k) (p : Pid) :
    (r.exec p command).1 = (r'.exec p command).1 := by
  cases command with
  | get k => simp only [Redis.exec, h k rfl]
  | set k value nx =>
      simp only [Redis.exec, h k rfl]
      split <;> rfl
  | del k => simp only [Redis.exec, h k rfl]
  | incrementWithTtl phone => simp only [Redis.exec, h (.loginFailure phone) rfl]
  | verifyOtp phone challengeId deviceId otp maxFailures =>
      have hactive := h (.otpActiveChallenge phone) (.inr (.inl rfl))
      have hchallenge := h (.otpChallenge phone challengeId) (.inr (.inr rfl))
      have hcount : r.count phone = r'.count phone := by
        rw [Redis.count, Redis.count, h (.otpFailure phone) (.inl rfl)]
      simp only [Redis.exec, Redis.verifyOtpScript, hactive, hchallenge, hcount]
      split
      · rfl
      · split
        · rfl
        · split
          · rfl
          · split
            · rfl
            · split
              · rfl
              · split
                · split <;> rfl
                · rfl
  | consumeRegistrationAuthorization tokenHash phone deviceId =>
      simp only [Redis.exec, Redis.consumeRegistrationScript,
        h (.registrationAuthorization phone) rfl]
      split
      · rfl
      · split <;> rfl
  | consumeDeviceEnrollmentAuthorization tokenHash userId phone deviceId =>
      simp only [Redis.exec, Redis.consumeDeviceEnrollmentScript,
        h (.deviceEnrollmentAuthorization phone) rfl]
      split
      · rfl
      · split <;> rfl

/-- No request to which the key belongs makes a step. -/
def Apart (env : Env) (k : RedisKey) (x : KoriMoment) : Prop :=
  ∀ p choice call, x.2 = .step p choice → x.1.conf.calls p = some call → ¬call.Owns env k

theorem Apart.not_touches {past : List KoriMoment} {x : KoriMoment}
    (hr : Run (kori env) (World.idle shared) past x.1) (h : Apart env k x) {a : command.Ans}
    (hran : Ran x p command a) : ¬command.Touches k := by
  intro htouches
  obtain ⟨choice, hstep⟩ := hran.step
  obtain ⟨answer, hans⟩ : ∃ answer,
    x.1.answered (kori env) x.2 = some (p, ⟨.redis command, answer⟩) := hran.answered
  obtain ⟨call, hcall, hsends⟩ := hr.asks sends_only hans
  exact h p choice call hstep hcall (Sends.owns hsends htouches)

theorem Apart.stays {past : List KoriMoment} (hr : Run (kori env) (World.idle shared) past w)
    (hm : w.move (kori env) m = some w') (h : Apart env k (w, m)) (hkept : m ≠ .tick k) :
    w'.conf.shared.redis k = w.conf.shared.redis k := by
  rcases redis_cases hm with hsame | ⟨k', rfl, hremove⟩ | ⟨p, command, a, hran⟩
  · rw [hsame]
  · have hne : k ≠ k' := by
      rintro rfl
      exact hkept rfl
    rw [hremove, Redis.remove_of_ne hne]
  · have hnot : ¬command.Touches k := h.not_touches hr hran
    rw [hran.after hm]
    exact Redis.exec_frame fun hwrites => hnot hwrites.touches

/-- While no request of its own makes a step and it does not expire, what is under a key
stays as it is, and nobody would be answered otherwise if it were not there or another. -/
theorem keys_private (hearlier : Run (kori env) (World.idle shared) earlier w₀)
    (hrun : Run (kori env) w₀ stretch w) (hkept : ∀ x ∈ stretch, x.2 ≠ .tick k)
    (hapart : ∀ x ∈ stretch, Apart env k x) :
    w.conf.shared.redis k = w₀.conf.shared.redis k ∧
      ∀ x ∈ stretch, ∀ p command a, Ran x p command a → ∀ entry,
        (Redis.exec (Function.update x.1.conf.shared.redis k entry) p command).1 = a := by
  induction hrun with
  | nil => simp
  | @cons stretch w w' m hrun hm ih =>
      obtain ⟨hsame, hanswers⟩ := ih (fun x hx => hkept x (.tail _ hx))
        fun x hx => hapart x (.tail _ hx)
      have hr := hearlier.trans hrun
      have hnow : Apart env k (w, m) := hapart _ (.head _)
      refine ⟨(hnow.stays hr hm (hkept _ (.head _))).trans hsame, ?_⟩
      intro x hx p command a hran entry
      rcases List.mem_cons.1 hx with rfl | hx
      · have hnot : ¬command.Touches k := hnow.not_touches hr hran
        rw [← hran.outcome]
        apply exec_answer
        intro k' htouches
        have hne : k' ≠ k := by
          rintro rfl
          exact hnot htouches
        exact Function.update_of_ne hne _ _
      · exact hanswers x hx p command a hran entry

end Isolation

namespace Sample

def strangerMoves : List KoriMove :=
  .arrive 1 (.login wrongDto) :: List.replicate 4 (.step 1 .go)

def strange (x : KoriMoment) : Bool :=
  keepsKeys x && match x.2 with
    | .step p _ => x.1.conf.calls p = some (.login wrongDto)
    | _ => true

theorem strange_apart {challengeId : JsString} {x : KoriMoment} (h : strange x = true) :
    Apart env (.otpChallenge (js "3") challengeId) x := by
  intro p choice call hstep hcall howns
  unfold strange at h
  rw [hstep, Bool.and_eq_true] at h
  have hlogin := of_decide_eq_true h.2
  obtain rfl := Option.some.inj (hcall.symm.trans hlogin)
  exact howns

end Sample

theorem keys_private_of_stranger : ∃ earlier w₀ stretch w entry,
    Run (kori Sample.env) (World.idle Sample.shared) earlier w₀ ∧
      Run (kori Sample.env) w₀ stretch w ∧ stretch.length = 5 ∧
      w₀.conf.shared.redis (.otpChallenge (js "3") (uuidText 77)) = some entry ∧
      w.conf.shared.redis (.otpChallenge (js "3") (uuidText 77)) = some entry := by
  have hpossible : (((World.idle Sample.shared).moments (kori Sample.env)
      (Sample.sendOtpMoves 0 Sample.sendOtpDto 77 123456)).any fun run =>
        (run.2.moments (kori Sample.env) Sample.strangerMoves).any fun later =>
          later.1.all Sample.strange &&
            (run.2.conf.shared.redis (.otpChallenge (js "3") (uuidText 77))).isSome) = true := by
    decide +kernel
  obtain ⟨⟨earlier, w₀⟩, hrun, hlater⟩ := (Option.any_eq_true _ _).1 hpossible
  obtain ⟨⟨stretch, w⟩, hstretch, htest⟩ := (Option.any_eq_true _ _).1 hlater
  obtain ⟨hearlier, -⟩ := run_of_moments hrun
  obtain ⟨hr, hmoves⟩ := run_of_moments hstretch
  simp only [Bool.and_eq_true, List.all_eq_true] at htest
  obtain ⟨hstrange, hsome⟩ := htest
  obtain ⟨entry, hentry⟩ := Option.isSome_iff_exists.1 hsome
  have hlength : stretch.length = 5 := by
    have hlen := congrArg List.length hmoves
    rw [List.length_map] at hlen
    rw [hlen]
    rfl
  have hkept : ∀ x ∈ stretch, x.2 ≠ .tick (.otpChallenge (js "3") (uuidText 77)) := by
    intro x hx
    have hx := hstrange x hx
    rw [Sample.strange, Bool.and_eq_true] at hx
    exact Sample.keepsKeys_iff.1 hx.1 _
  have hprivate := keys_private hearlier hr hkept
    fun x hx => Sample.strange_apart (hstrange x hx)
  exact ⟨earlier, w₀, stretch, w, entry, hearlier, hr, hlength, hentry, hprivate.1.trans hentry⟩

end Kori
