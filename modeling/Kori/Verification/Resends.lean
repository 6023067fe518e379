import Kori.Foundation.Answering
import Kori.Foundation.Exclusion
import Kori.Conduct.Resend
import Kori.Verification.Guesses

/-!
# One OTP for each cooldown

While the resend lock of a phone is neither lost nor expired, one request at most
announces a challenge for the phone, however many ask for one at once, and whichever of
them cannot store their challenge and give the lock back.
-/

namespace Kori

open Foundation

section Resends

variable {env : Env} {shared : Shared} {w w₀ w' : KoriWorld} {p q : Pid} {m : KoriMove}
variable {phone challengeId : JsString} {x : KoriMoment}
variable {past before earlier stretch : List KoriMoment}

def resendHolder (phone : JsString) (w : KoriWorld) : Option Pid :=
  (w.conf.shared.redis (.otpResend phone)).map RedisEntry.writer

theorem Commands.locks {h₀ : History} {call : Call} {nx : Bool}
    (h : Commands env h₀ (.set (.otpResend phone) () nx) call) : nx = true := by
  cases h with
  | transfer hcache => exact hcache.elim
  | sendOtp hasks =>
      cases hasks with
      | free hfree _ => exact hfree.elim
      | lock => rfl
  | verifyOtp hasks =>
      cases hasks with
      | free hfree => exact hfree.elim
  | register hasks | registerBusiness hasks =>
      cases hasks with
      | free hfree => exact hfree.elim
  | login _ hasks =>
      cases hasks with
      | establish _ _ hasks => cases hasks

theorem resend_command {command : RedisCommand} {r : Redis} {h₀ : History} {call : Call}
    (hcommands : command.Writes (.otpResend phone) → Commands env h₀ command call) :
    ((r.exec p command).2 (.otpResend phone) = r (.otpResend phone)) ∨
      (r (.otpResend phone) = none ∧ command = .set (.otpResend phone) () true ∧
        (r.exec p command).2 (.otpResend phone) = some ⟨(), p⟩) ∨
      command = .del (.otpResend phone) := by
  by_cases hwrites : command.Writes (.otpResend phone)
  · have hcommand := hcommands hwrites
    cases command with
    | set k value nx =>
        obtain rfl : RedisKey.otpResend phone = k := hwrites
        obtain rfl := hcommand.locks
        cases hlock : r (.otpResend phone) with
        | none => exact .inr (.inl ⟨rfl, rfl, by simp [Redis.exec, hlock]⟩)
        | some entry => exact .inl (by simp [Redis.exec, hlock])
    | del k =>
        obtain rfl : RedisKey.otpResend phone = k := hwrites
        exact .inr (.inr rfl)
    | _ => simp [RedisCommand.Writes] at hwrites
  · exact .inl (Redis.exec_frame hwrites)

def resendAcquired (phone : JsString) : Entry Op Op.Ans :=
  ⟨.redis (.set (.otpResend phone) () true), .ok true⟩

theorem resend_step (hr : Run (kori env) (World.idle shared) past w)
    (hm : w.move (kori env) m = some w') {e : Entry Op Op.Ans}
    (hans : w.answered (kori env) m = some (p, e)) {h₀ old : History}
    (hsplit : heard (kori env) p past = h₀ ++ old) (hold : resendAcquired phone ∉ old)
    (hheld : HoldsResend phone h₀ → resendHolder phone w = some p) :
    LockStep (resendHolder phone w) (resendHolder phone w') p (HoldsResend phone h₀)
      (HoldsResend phone (e :: h₀)) := by
  obtain ⟨call, hcall, hasks⟩ := hr.asks resend_obeyed hans
  obtain ⟨call', -, hasks'⟩ := hr.asks obeyed hans
  have hran := redis_cases hm
  constructor
  · intro hhas hnot
    rcases List.mem_cons.1 hhas.acquired with rfl | hbefore
    · have hset := ran_of_answered (x := (w, m)) hans
      have hfree := hset.outcome
      simp only [Redis.exec] at hfree
      split at hfree
      · simp at hfree
      · rename_i hnone
        rw [resendHolder, hset.after hm]
        simp [Redis.exec, hnone]
    · exact absurd ⟨hbefore, fun e he => hhas.kept e (.tail _ he)⟩ hnot
  · intro q hq
    obtain ⟨choice, next, s, hmove, hproc, -⟩ := World.answered_cases hans
    rcases hran with hsame | ⟨k, htick, -⟩ | ⟨p', command, a, hran⟩
    · exact .inl (by rw [resendHolder, hsame]; exact hq)
    · simp [htick] at hmove
    · obtain ⟨choice', hmove'⟩ := hran.step
      obtain ⟨rfl, -⟩ := Move.step.inj (hmove.symm.trans hmove')
      obtain ⟨next', hproc'⟩ := hran.code
      have hcode := Option.some.inj (hproc.symm.trans hproc')
      injection hcode with hop
      have hcommands : command.Writes (.otpResend phone) →
          Commands env (heard (kori env) p past) command call' := by
        intro hwrites
        rw [hop] at hasks'
        apply asks_redis hasks'
        intro hfree
        cases command <;> first | exact hwrites | exact hfree
      rcases resend_command (r := w.conf.shared.redis) (p := p) hcommands with
        hkept | ⟨hfree, -, -⟩ | rfl
      · exact .inl (by rw [resendHolder, hran.after hm]; exact hkept ▸ hq)
      · simp [resendHolder, hfree] at hq
      · -- only who has the lock gives it back
        have hholds := hasks phone hop
        rw [hsplit] at hholds
        have hrecent : HoldsResend phone h₀ := by
          constructor
          · exact (List.mem_append.1 hholds.acquired).resolve_right hold
          · exact fun e he => hholds.kept e (List.mem_append_left _ he)
        refine .inr ⟨Option.some.inj (hq.symm.trans (hheld hrecent)), fun hhas => ?_⟩
        exact hhas.kept e List.mem_cons_self hop

/-- In the moment `x` the request of `p` announces the challenge to the phone. -/
structure OtpSent (env : Env) (phone : JsString) (x : KoriMoment) (w' : KoriWorld) (p : Pid)
    (challengeId : JsString) : Prop where
  move : x.1.move (kori env) x.2 = some w'
  call : ∃ dto, x.1.conf.calls p = some (.sendOtp dto) ∧ phoneOf env dto.phone = some phone
  said : ∃ expiresIn, (p, .otpSent challengeId expiresIn) ∉ x.1.conf.out ∧
    (p, .otpSent challengeId expiresIn) ∈ w'.conf.out

theorem OtpSent.knows (hr : Run (kori env) (World.idle shared) before x.1)
    (h : OtpSent env phone x w' p challengeId) :
    HoldsResend phone (heard (kori env) p (x :: before)) ∧
      Activated phone challengeId (heard (kori env) p (x :: before)) := by
  obtain ⟨dto, hcall, hphone⟩ := h.call
  obtain ⟨expiresIn, hfresh, hsaid⟩ := h.said
  obtain ⟨call, hcall', htells⟩ := hr.told_now resend_obeyed h.move hfresh hsaid
  obtain rfl := Option.some.inj (hcall'.symm.trans (World.calls_mono h.move hcall))
  obtain ⟨phone', hphone', hholds, hactive⟩ := (htells dto challengeId expiresIn rfl rfl).lock
  obtain rfl := Option.some.inj (hphone.symm.trans hphone')
  exact ⟨hholds, hactive⟩

theorem OtpSent.active (hr : Run (kori env) (World.idle shared) before x.1)
    (h : OtpSent env phone x w' p challengeId) :
    x.1.answered (kori env) x.2 = some (p,
        ⟨.redis (.set (.otpActiveChallenge phone) challengeId false), .ok true⟩) ∧
      w'.conf.shared.redis (.otpActiveChallenge phone) = some ⟨challengeId, p⟩ := by
  obtain ⟨-, history, hactive⟩ := h.knows hr
  obtain ⟨dto, hcall, -⟩ := h.call
  obtain ⟨expiresIn, hfresh, hsaid⟩ := h.said
  obtain ⟨w, m⟩ := x
  have hm := h.move
  obtain ⟨choice, rfl⟩ := World.told_by hm hcall hfresh hsaid
  obtain ⟨op, next, a, s, hproc, hexec, -⟩ := World.step_cases hm
  have hans := World.answered_step hproc hexec
  rw [heard_cons_self hans] at hactive
  obtain ⟨hentry, -⟩ := List.cons.inj hactive
  rw [hentry] at hans
  refine ⟨hans, ?_⟩
  rw [(ran_of_answered hans).after hm]
  simp [Redis.exec]

/-- The requests that had the lock earlier have come to their end, or were lost in a crash. -/
def ResendSettled (env : Env) (phone : JsString) (earlier : List KoriMoment) (w₀ : KoriWorld) :
    Prop :=
  ∀ p, resendAcquired phone ∈ heard (kori env) p earlier → w₀.pending p = none

theorem resend_recent (hearlier : Run (kori env) (World.idle shared) earlier w₀)
    (hsettled : ResendSettled env phone earlier w₀)
    (hbefore : Run (kori env) w₀ before x.1) {e : Entry Op Op.Ans}
    (hans : x.1.answered (kori env) x.2 = some (p, e)) :
    resendAcquired phone ∉ heard (kori env) p earlier := by
  intro hold
  obtain ⟨y, beforeY, hy, hans'⟩ := heard_moment hold
  obtain ⟨call, hcall, -⟩ := (hearlier.at hy).1.asks obeyed hans'
  have hcalled := hearlier.called_at hy hcall
  obtain ⟨-, -, hpending⟩ := hbefore.settled (by simp [hcalled]) (hsettled p hold)
  obtain ⟨choice, next, s, -, hproc, -⟩ := World.answered_cases hans
  simp [World.pending, hproc, Code.pending] at hpending

/-- Between its loss or expiry the resend lock is held by who believes to hold it. -/
theorem resend_held (hearlier : Run (kori env) (World.idle shared) earlier w₀)
    (hsettled : ResendSettled env phone earlier w₀)
    (hrun : Run (kori env) w₀ stretch w) (hkept : ∀ x ∈ stretch, x.2 ≠ .tick (.otpResend phone))
    (hholds : HoldsResend phone (heard (kori env) p stretch)) :
    resendHolder phone w = some p := by
  refine hrun.held (H := HoldsResend phone) (fun hnone => ?_) ?_ ?_ p hholds
  · simpa using hnone.acquired
  · intro x before w' q e hx hm hans hheld
    obtain ⟨hbefore, -⟩ := hrun.at hx
    have hr := hearlier.trans hbefore
    have hsplit : heard (kori env) q (before ++ earlier) =
        heard (kori env) q before ++ heard (kori env) q earlier := List.filterMap_append
    exact resend_step hr hm hans hsplit (resend_recent hearlier hsettled hbefore hans) hheld
  · intro x before w' hx hm hans
    obtain ⟨w, m⟩ := x
    rcases redis_cases hm with hsame | ⟨k, rfl, hremove⟩ | ⟨q, command, a, hran⟩
    · rw [resendHolder, hsame]
      rfl
    · have hne : RedisKey.otpResend phone ≠ k := by
        rintro rfl
        exact hkept _ (hx.subset List.mem_cons_self) rfl
      rw [resendHolder, hremove, Redis.remove_of_ne hne]
      rfl
    · obtain ⟨answer, hans'⟩ := hran.answered
      exact absurd (hans.symm.trans hans') (by simp)

theorem OtpSent.holds (hearlier : Run (kori env) (World.idle shared) earlier w₀)
    (hsettled : ResendSettled env phone earlier w₀)
    (hrun : Run (kori env) w₀ stretch w) (hx : x :: before <:+ stretch)
    (h : OtpSent env phone x w' p challengeId) :
    HoldsResend phone (heard (kori env) p (x :: before)) := by
  have hbefore := (hrun.at hx).1
  have hr := hearlier.trans hbefore
  have hrecent := resend_recent hearlier hsettled hbefore (h.active hr).1
  have hsplit : heard (kori env) p (x :: (before ++ earlier)) =
      heard (kori env) p (x :: before) ++ heard (kori env) p earlier := by
    rw [← List.cons_append]
    exact List.filterMap_append
  have hholds := (h.knows hr).1
  rw [hsplit] at hholds
  constructor
  · exact (List.mem_append.1 hholds.acquired).resolve_right hrecent
  · exact fun e he => hholds.kept e (List.mem_append_left _ he)

theorem OtpSent.unique {y : KoriMoment} {beforeY : List KoriMoment} {w'' : KoriWorld}
    {challengeId' : JsString} (hr : Run (kori env) (World.idle shared) past w)
    (hx : x :: before <:+ past) (hy : y :: beforeY <:+ past)
    (h : OtpSent env phone x w' p challengeId) (h' : OtpSent env phone y w'' p challengeId') :
    x = y ∧ challengeId = challengeId' := by
  have hans := (h.active (hr.at hx).1).1
  have hans' := (h'.active (hr.at hy).1).1
  obtain ⟨rfl, -⟩ := ran_once hr (fun _ _ _ => pointer_never) hx hy (ran_of_answered hans)
    (ran_of_answered hans') ⟨_, _, rfl⟩ ⟨_, _, rfl⟩
  have hentry := (Prod.mk.inj (Option.some.inj (hans.symm.trans hans'))).2
  refine ⟨rfl, ?_⟩
  simpa using hentry

theorem suffix_stretch (hx : x :: before <:+ stretch) :
    x :: (before ++ earlier) <:+ stretch ++ earlier := by
  obtain ⟨later, rfl⟩ := hx
  exact ⟨later, by simp⟩

theorem OtpSent.stays (hearlier : Run (kori env) (World.idle shared) earlier w₀)
    (hsettled : ResendSettled env phone earlier w₀)
    (hrun : Run (kori env) w₀ stretch w) (hx : x :: before <:+ stretch)
    (h : OtpSent env phone x w' p challengeId) :
    HoldsResend phone (heard (kori env) p stretch) := by
  have hholds := h.holds hearlier hsettled hrun hx
  have hactive := (h.active (hearlier.trans (hrun.at hx).1)).1
  constructor
  · exact (heard_suffix hx).subset hholds.acquired
  · intro e he hop
    obtain ⟨y, before', hy, hans⟩ := heard_moment he
    have hbefore := hearlier.trans (hrun.at hy).1
    obtain ⟨call, -, hasks⟩ := hbefore.asks resend_obeyed hans
    rcases moments_cases hx hy with ⟨rfl, rfl⟩ | hlater | hsooner
    · obtain ⟨-, rfl⟩ := Prod.mk.inj (Option.some.inj (hactive.symm.trans hans))
      simp at hop
    · -- once the challenge is active the lock stays
      have hmoment : x :: (before ++ earlier) <:+ before' ++ earlier := suffix_stretch hlater
      have hdone := heard_at hmoment hactive
      exact (hasks phone hop).inactive _ _ hdone
    · exact hholds.kept e (heard_at (hsooner.trans (List.suffix_cons x before)) hans) hop

/-- While the resend lock of the phone is neither lost nor expired, one challenge at most is
announced; and the one that is announced is then the active one. -/
theorem otp_sent_once (hearlier : Run (kori env) (World.idle shared) earlier w₀)
    (hsettled : ResendSettled env phone earlier w₀)
    (hrun : Run (kori env) w₀ stretch w)
    (hkept : ∀ x ∈ stretch, x.2 ≠ .tick (.otpResend phone)) :
    (∀ x before w' p challengeId, x :: before <:+ stretch →
      OtpSent env phone x w' p challengeId →
      w'.conf.shared.redis (.otpActiveChallenge phone) = some ⟨challengeId, p⟩) ∧
    ∀ x before w' p challengeId y beforeY w'' q challengeId', x :: before <:+ stretch →
      y :: beforeY <:+ stretch → OtpSent env phone x w' p challengeId →
      OtpSent env phone y w'' q challengeId' → x = y ∧ p = q ∧ challengeId = challengeId' := by
  constructor
  · intro x before w' p challengeId hx h
    exact (h.active (hearlier.trans (hrun.at hx).1)).2
  · intro x before w' p challengeId y beforeY w'' q challengeId' hx hy h h'
    have hp := resend_held hearlier hsettled hrun hkept (h.stays hearlier hsettled hrun hx)
    have hq := resend_held hearlier hsettled hrun hkept (h'.stays hearlier hsettled hrun hy)
    obtain rfl := Option.some.inj (hp.symm.trans hq)
    obtain ⟨hsame, hid⟩ :=
      h.unique (hearlier.trans hrun) (suffix_stretch hx) (suffix_stretch hy) h'
    exact ⟨hsame, rfl, hid⟩

end Resends

namespace Sample

def resendMoves : List KoriMove :=
  [.arrive 0 (.sendOtp sendOtpDto), .arrive 1 (.sendOtp sendOtpDto), .step 0 .go, .step 1 .go,
    .step 0 .go, .step 1 .go, .step 0 (.uuid 77), .step 1 .go, .step 0 (.int 123456),
    .step 0 .go, .step 0 .go]

def announces (p : Pid) (challengeId : JsString) (x : KoriMoment) : Bool :=
  (x.1.move (kori env) x.2).any fun w' =>
    x.1.conf.calls p = some (.sendOtp sendOtpDto) ∧
      (p, .otpSent challengeId 300) ∉ x.1.conf.out ∧ (p, .otpSent challengeId 300) ∈ w'.conf.out

theorem otpSent_of_announces {p : Pid} {challengeId : JsString} {x : KoriMoment}
    (h : announces p challengeId x = true) :
    ∃ w', OtpSent env (js "3") x w' p challengeId := by
  obtain ⟨w', hm, htest⟩ := (Option.any_eq_true _ _).1 h
  obtain ⟨hcall, hfresh, hsaid⟩ := of_decide_eq_true htest
  exact ⟨w', hm, ⟨sendOtpDto, hcall, by decide⟩, 300, hfresh, hsaid⟩

end Sample

theorem otp_sent_once_of_two : ∃ stretch w x before w',
    Run (kori Sample.env) (World.idle Sample.shared) stretch w ∧ x :: before <:+ stretch ∧
      OtpSent Sample.env (js "3") x w' 0 (uuidText 77) ∧
      w'.conf.shared.redis (.otpActiveChallenge (js "3")) = some ⟨uuidText 77, 0⟩ := by
  obtain ⟨stretch, w, hr, htest⟩ := Sample.moments_of Sample.resendMoves
    (fun stretch => stretch.all Sample.keepsKeys &&
      stretch.any (Sample.announces 0 (uuidText 77))) (by decide +kernel)
  simp only [Bool.and_eq_true, List.all_eq_true, List.any_eq_true] at htest
  obtain ⟨hkept, x, hx, hannounces⟩ := htest
  obtain ⟨later, before, rfl⟩ := List.append_of_mem hx
  obtain ⟨w', hsent⟩ := Sample.otpSent_of_announces hannounces
  have hsuffix : x :: before <:+ later ++ x :: before := List.suffix_append later _
  have hsettled : ResendSettled Sample.env (js "3") [] (World.idle Sample.shared) := by
    intro p hp
    simp [heard] at hp
  have honce := otp_sent_once .nil hsettled hr
    (fun y hy => Sample.keepsKeys_iff.1 (hkept y hy) _)
  exact ⟨_, w, x, before, w', hr, hsuffix, hsent, honce.1 x before w' 0 _ hsuffix hsent⟩

end Kori
