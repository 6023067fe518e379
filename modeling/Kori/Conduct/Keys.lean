import Kori.Conduct.Footprint

/-!
# Redis keys in a run

Redis runs the command of a step, whether or not its answer reaches the server.  A
value under a key was stored by a `SET`, and has been there ever since.  Random
values are drawn once.
-/

namespace Kori

open Foundation

variable {env : Env} {shared s s' : Shared} {w w' : KoriWorld} {m : KoriMove}
variable {p q : Pid} {op : Op} {choice : Choice} {a : op.Ans}
variable {past before before' : List KoriMoment} {x y : KoriMoment}

inductive Moved (env : Env) (w : KoriWorld) : KoriMove → Shared → Prop
  | arrive {p : Pid} {call : Call} : Moved env w (.arrive p call) w.conf.shared
  | step {p : Pid} {op : Op} {choice : Choice} {a : op.Ans} {s : Shared} {next} :
      w.procs p = some (.request op next) →
      Shared.exec env p op choice w.conf.shared = some (a, s) → Moved env w (.step p choice) s
  | crash {p : Pid} : Moved env w (.crash p) (Shared.abort p w.conf.shared)
  | tick {k : RedisKey} : Moved env w (.tick k) (Shared.expire k w.conf.shared)

theorem moved (hm : w.move (kori env) m = some w') : Moved env w m w'.conf.shared := by
  cases m with
  | arrive p call =>
      simp only [World.move] at hm
      split at hm
      · simp at hm
      · obtain rfl := Option.some.inj hm
        exact .arrive
  | step p choice =>
      obtain ⟨op, next, a, s, hproc, hexec, rfl⟩ := World.step_cases hm
      exact .step hproc hexec
  | crash p =>
      simp only [World.move] at hm
      split at hm
      · simp at hm
      · obtain rfl := Option.some.inj hm
        exact .crash
  | tick k =>
      obtain rfl := Option.some.inj hm
      exact .tick

theorem data_of_other (hm : w.move (kori env) m = some w')
    (hnot : ∀ p choice, m ≠ .step p choice) : State.data w'.conf = State.data w.conf := by
  have hmoved := moved hm
  change w'.conf.shared.db.committed = _
  generalize w'.conf.shared = s at hmoved
  cases hmoved with
  | step hproc hexec => exact absurd rfl (hnot _ _)
  | _ => rfl

/-! ## Random values -/

theorem exec_draws (h : Shared.exec env p op choice s = some (a, s')) :
    (∀ u o, s.minted u = some o → s'.minted u = some o) ∧ s.tokens ⊆ s'.tokens := by
  cases op with
  | sql statement =>
      obtain ⟨-, -, rfl⟩ | ⟨-, db, -, rfl⟩ := exec_sql h
      · exact ⟨fun _ _ h => h, fun _ h => h⟩
      · exact ⟨fun _ _ h => h, fun _ h => h⟩
  | redis command =>
      obtain ⟨-, rfl⟩ | ⟨-, rfl⟩ | ⟨-, rfl⟩ := exec_redis h
      · exact ⟨fun _ _ h => h, fun _ h => h⟩
      · exact ⟨fun _ _ h => h, fun _ h => h⟩
      · exact ⟨fun _ _ h => h, fun _ h => h⟩
  | randomToken =>
      cases choice <;> simp only [Shared.exec, reduceCtorEq] at h
      split at h
      · simp at h
      · obtain ⟨-, rfl⟩ := Prod.mk.inj (Option.some.inj h)
        exact ⟨fun _ _ h => h, fun _ h => .tail _ h⟩
  | randomUUID =>
      cases choice <;> simp only [Shared.exec, reduceCtorEq] at h
      split at h
      · rename_i u hnew
        obtain ⟨-, rfl⟩ := Prod.mk.inj (Option.some.inj h)
        refine ⟨fun u' o hu' => ?_, fun _ h => h⟩
        have hne : u' ≠ u := by
          rintro rfl
          simp [hnew] at hu'
        exact (Function.update_of_ne hne ..).trans hu'
      · simp at h
  | _ =>
      cases choice <;> simp only [Shared.exec, reduceCtorEq, Option.some.injEq,
        Prod.mk.injEq] at h
      all_goals first
        | (obtain ⟨-, rfl⟩ := h
           exact ⟨fun _ _ h => h, fun _ h => h⟩)
        | (split at h
           · obtain ⟨-, rfl⟩ := Prod.mk.inj (Option.some.inj h)
             exact ⟨fun _ _ h => h, fun _ h => h⟩
           · simp at h)

theorem move_draws (hm : w.move (kori env) m = some w') :
    (∀ u o, w.conf.shared.minted u = some o → w'.conf.shared.minted u = some o) ∧
      w.conf.shared.tokens ⊆ w'.conf.shared.tokens := by
  have hmoved := moved hm
  generalize w'.conf.shared = s at hmoved
  cases hmoved with
  | step _ hexec => exact exec_draws hexec
  | _ => exact ⟨fun _ _ h => h, fun _ h => h⟩

theorem answered_moved {e : Entry Op Op.Ans}
    (hans : x.1.answered (kori env) x.2 = some (p, e))
    (hm : x.1.move (kori env) x.2 = some w') :
    ∃ choice, x.2 = .step p choice ∧
      Shared.exec env p e.op choice x.1.conf.shared = some (e.answer, w'.conf.shared) := by
  obtain ⟨choice, next, s, hstep, -, hexec, rfl⟩ := World.answered_move hans hm
  exact ⟨choice, hstep, hexec⟩

theorem uuid_once (hr : Run (kori env) (World.idle shared) past w)
    (hx : x :: before <:+ past) (hy : y :: before' <:+ past) {u : Uuid}
    (hxu : x.1.answered (kori env) x.2 = some (p, ⟨.randomUUID, u⟩))
    (hyu : y.1.answered (kori env) y.2 = some (q, ⟨.randomUUID, u⟩)) :
    x = y ∧ before = before' := by
  refine hr.marked_once (P := fun w => w.conf.shared.minted u ≠ none)
    (E := fun x => ∃ p, x.1.answered (kori env) x.2 = some (p, ⟨.randomUUID, u⟩))
    ?_ ?_ hx hy ⟨p, hxu⟩ ⟨q, hyu⟩
  · intro w m w' hm hmark
    obtain ⟨o, ho⟩ := Option.ne_none_iff_exists'.1 hmark
    simp [(move_draws hm).1 u o ho]
  · rintro z w' ⟨r, hans⟩ hm
    obtain ⟨choice, -, hexec⟩ := answered_moved hans hm
    generalize w'.conf.shared = s at hexec ⊢
    cases choice <;> simp only [Shared.exec, reduceCtorEq] at hexec
    split at hexec
    · rename_i hnew
      obtain ⟨rfl, rfl⟩ := Prod.mk.inj (Option.some.inj hexec)
      exact ⟨not_not.2 hnew, by simp⟩
    · simp at hexec

theorem token_marks {token : JsString}
    (hans : x.1.answered (kori env) x.2 = some (p, ⟨.randomToken, token⟩))
    (hm : x.1.move (kori env) x.2 = some w') :
    token ∉ x.1.conf.shared.tokens ∧ token ∈ w'.conf.shared.tokens := by
  obtain ⟨choice, -, hexec⟩ := answered_moved hans hm
  generalize w'.conf.shared = s at hexec ⊢
  cases choice <;> simp only [Shared.exec, reduceCtorEq] at hexec
  split at hexec
  · simp at hexec
  · rename_i hnew
    obtain ⟨rfl, rfl⟩ := Prod.mk.inj (Option.some.inj hexec)
    exact ⟨hnew, by simp⟩

theorem token_once (hr : Run (kori env) (World.idle shared) past w)
    (hx : x :: before <:+ past) (hy : y :: before' <:+ past) {token : JsString}
    (hxt : x.1.answered (kori env) x.2 = some (p, ⟨.randomToken, token⟩))
    (hyt : y.1.answered (kori env) y.2 = some (q, ⟨.randomToken, token⟩)) :
    x = y ∧ before = before' := by
  refine hr.marked_once (P := fun w => token ∈ w.conf.shared.tokens)
    (E := fun x => ∃ p, x.1.answered (kori env) x.2 = some (p, ⟨.randomToken, token⟩))
    ?_ ?_ hx hy ⟨p, hxt⟩ ⟨q, hyt⟩
  · exact fun w m w' hm hmark => (move_draws hm).2 hmark
  · rintro z w' ⟨r, hans⟩ hm
    exact token_marks hans hm

theorem token_drawn (hr : Run (kori env) (World.idle shared) past w) {token : JsString}
    (hp : ⟨.randomToken, token⟩ ∈ heard (kori env) p past) : token ∈ w.conf.shared.tokens := by
  obtain ⟨x, before, hx, hans⟩ := heard_moment hp
  obtain ⟨-, w', later, hm, hlater, -⟩ := hr.at hx
  exact hlater.lasts (P := fun w => token ∈ w.conf.shared.tokens)
    (fun _ _ _ hm hmark => (move_draws hm).2 hmark) (token_marks hans hm).2

theorem uuid_owner (hr : Run (kori env) (World.idle shared) past w) {u : Uuid}
    (hp : ⟨.randomUUID, u⟩ ∈ heard (kori env) p past)
    (hq : ⟨.randomUUID, u⟩ ∈ heard (kori env) q past) : p = q := by
  obtain ⟨x, before, hx, hxu⟩ := heard_moment hp
  obtain ⟨y, before', hy, hyu⟩ := heard_moment hq
  obtain ⟨rfl, rfl⟩ := uuid_once hr hx hy hxu hyu
  exact (Prod.mk.inj (Option.some.inj (hxu.symm.trans hyu))).1

theorem token_owner (hr : Run (kori env) (World.idle shared) past w) {token : JsString}
    (hp : ⟨.randomToken, token⟩ ∈ heard (kori env) p past)
    (hq : ⟨.randomToken, token⟩ ∈ heard (kori env) q past) : p = q := by
  obtain ⟨x, before, hx, hxt⟩ := heard_moment hp
  obtain ⟨y, before', hy, hyt⟩ := heard_moment hq
  obtain ⟨rfl, rfl⟩ := token_once hr hx hy hxt hyt
  exact (Prod.mk.inj (Option.some.inj (hxt.symm.trans hyt))).1

/-! ## Scripts -/

section Scripts

variable {r : Redis} {phone challengeId deviceId : JsString} {maxFailures : Int}

/-- The script gets as far as comparing the code of the active challenge. -/
structure Redis.Compares (r : Redis) (phone challengeId deviceId : JsString)
    (maxFailures : Int) (code : JsString) : Prop where
  below : ¬(r.count phone : Int) ≥ maxFailures
  active : ∃ writer, r (.otpActiveChallenge phone) = some ⟨challengeId, writer⟩
  challenge : ∃ writer,
    r (.otpChallenge phone challengeId) = some ⟨⟨phone, deviceId, code⟩, writer⟩

theorem Redis.Compares.code_eq {code code' : JsString}
    (h : r.Compares phone challengeId deviceId maxFailures code)
    (h' : r.Compares phone challengeId deviceId maxFailures code') : code = code' := by
  obtain ⟨writer, hrow⟩ := h.challenge
  obtain ⟨writer', hrow'⟩ := h'.challenge
  have heq := hrow.symm.trans hrow'
  simp only [Option.some.injEq, RedisEntry.mk.injEq, OtpChallenge.mk.injEq] at heq
  exact heq.1.2.2

theorem verifyOtpScript_cases (r : Redis) (p : Pid) (phone challengeId deviceId otp : JsString)
    (maxFailures : Int) :
    ((∀ code, ¬r.Compares phone challengeId deviceId maxFailures code) ∧
      ∃ status, status ≠ .verified ∧
        r.verifyOtpScript p phone challengeId deviceId otp maxFailures = (status, r)) ∨
    (∃ code, r.Compares phone challengeId deviceId maxFailures code ∧ code ≠ otp ∧
      ∃ status, status ≠ .verified ∧
        r.verifyOtpScript p phone challengeId deviceId otp maxFailures =
          (status, r.put (.otpFailure phone) (r.count phone + 1) p)) ∨
    (r.Compares phone challengeId deviceId maxFailures otp ∧
      r.verifyOtpScript p phone challengeId deviceId otp maxFailures =
        (.verified, ((r.remove (.otpChallenge phone challengeId)).remove
          (.otpActiveChallenge phone)).remove (.otpFailure phone))) := by
  unfold Redis.verifyOtpScript
  split
  · rename_i hlimit
    exact .inl ⟨fun _ h => h.below hlimit, _, by simp, rfl⟩
  · rename_i hbelow
    split
    · rename_i hnone
      refine .inl ⟨fun _ h => ?_, _, by simp, rfl⟩
      obtain ⟨writer, hactive⟩ := h.active
      simp [hnone] at hactive
    · rename_i active hactive
      split
      · rename_i hother
        refine .inl ⟨fun _ h => ?_, _, by simp, rfl⟩
        obtain ⟨writer, hactive'⟩ := h.active
        obtain rfl := Option.some.inj (hactive.symm.trans hactive')
        exact hother rfl
      · rename_i hsame
        obtain ⟨value, writer⟩ := active
        obtain rfl := not_not.1 hsame
        split
        · rename_i hnone
          refine .inl ⟨fun _ h => ?_, _, by simp, rfl⟩
          obtain ⟨writer', hchallenge⟩ := h.challenge
          simp [hnone] at hchallenge
        · rename_i challenge writer' hchallenge
          split
          · rename_i hforeign
            refine .inl ⟨fun _ h => ?_, _, by simp, rfl⟩
            obtain ⟨writer'', hchallenge'⟩ := h.challenge
            obtain ⟨rfl, rfl⟩ := RedisEntry.mk.inj
              (Option.some.inj (hchallenge.symm.trans hchallenge'))
            simp at hforeign
          · rename_i hmatch
            obtain ⟨hphone, hdevice⟩ := not_or.1 hmatch
            obtain ⟨phone', deviceId', code⟩ := challenge
            obtain rfl := not_not.1 hphone
            obtain rfl := not_not.1 hdevice
            have hcompares : r.Compares phone' value deviceId' maxFailures code :=
              ⟨hbelow, ⟨writer, hactive⟩, ⟨writer', hchallenge⟩⟩
            split
            · rename_i hwrong
              refine .inr (.inl ⟨code, hcompares, hwrong, ?_⟩)
              dsimp only
              split
              · exact ⟨_, by simp, rfl⟩
              · exact ⟨_, by simp, rfl⟩
            · rename_i hright
              obtain rfl := not_not.1 hright
              exact .inr (.inr ⟨hcompares, rfl⟩)

theorem consumeRegistrationScript_cases (r : Redis) (tokenHash phone deviceId : JsString) :
    (∃ writer, r (.registrationAuthorization phone) =
        some ⟨⟨tokenHash, phone, deviceId⟩, writer⟩ ∧
      r.consumeRegistrationScript tokenHash phone deviceId =
        (.consumed, r.remove (.registrationAuthorization phone))) ∨
    ((∀ writer, r (.registrationAuthorization phone) ≠
        some ⟨⟨tokenHash, phone, deviceId⟩, writer⟩) ∧
      ∃ status, status ≠ .consumed ∧
        r.consumeRegistrationScript tokenHash phone deviceId = (status, r)) := by
  unfold Redis.consumeRegistrationScript
  split
  · rename_i hnone
    exact .inr ⟨by simp [hnone], _, by simp, rfl⟩
  · rename_i proof writer hproof
    split
    · rename_i hother
      refine .inr ⟨fun writer' hsame => ?_, _, by simp, rfl⟩
      obtain ⟨rfl, -⟩ := RedisEntry.mk.inj (Option.some.inj (hproof.symm.trans hsame))
      simp at hother
    · rename_i hmatch
      simp only [not_or, not_not] at hmatch
      have heq : proof = ⟨tokenHash, phone, deviceId⟩ := by
        cases proof
        simp_all
      exact .inl ⟨writer, heq ▸ hproof, rfl⟩

theorem consumeDeviceEnrollmentScript_cases (r : Redis) (tokenHash : JsString) (userId : Uuid)
    (phone deviceId : JsString) :
    (∃ writer, r (.deviceEnrollmentAuthorization phone) =
        some ⟨⟨tokenHash, phone, userId, deviceId⟩, writer⟩ ∧
      r.consumeDeviceEnrollmentScript tokenHash userId phone deviceId =
        (.consumed, r.remove (.deviceEnrollmentAuthorization phone))) ∨
    ((∀ writer, r (.deviceEnrollmentAuthorization phone) ≠
        some ⟨⟨tokenHash, phone, userId, deviceId⟩, writer⟩) ∧
      ∃ status, status ≠ .consumed ∧
        r.consumeDeviceEnrollmentScript tokenHash userId phone deviceId = (status, r)) := by
  unfold Redis.consumeDeviceEnrollmentScript
  split
  · rename_i hnone
    exact .inr ⟨by simp [hnone], _, by simp, rfl⟩
  · rename_i proof writer hproof
    split
    · rename_i hother
      refine .inr ⟨fun writer' hsame => ?_, _, by simp, rfl⟩
      obtain ⟨rfl, -⟩ := RedisEntry.mk.inj (Option.some.inj (hproof.symm.trans hsame))
      simp at hother
    · rename_i hmatch
      simp only [not_or, not_not] at hmatch
      have heq : proof = ⟨tokenHash, phone, userId, deviceId⟩ := by
        cases proof
        simp_all
      exact .inl ⟨writer, heq ▸ hproof, rfl⟩

def RedisCommand.Writes : RedisCommand → RedisKey → Prop
  | .get _, _ => False
  | .set k' _ _, k | .del k', k => k = k'
  | .incrementWithTtl phone, k => k = .loginFailure phone
  | .verifyOtp phone challengeId _ _ _, k => k = .otpFailure phone ∨
      k = .otpActiveChallenge phone ∨ k = .otpChallenge phone challengeId
  | .consumeRegistrationAuthorization _ phone _, k => k = .registrationAuthorization phone
  | .consumeDeviceEnrollmentAuthorization _ _ phone _, k =>
      k = .deviceEnrollmentAuthorization phone

theorem Redis.exec_frame {command : RedisCommand} {k : RedisKey} (h : ¬command.Writes k) :
    (r.exec p command).2 k = r k := by
  cases command with
  | get _ => rfl
  | set k' value nx =>
      simp only [Redis.exec]
      split
      · rfl
      · exact Redis.put_of_ne h ..
  | del _ => exact Redis.remove_of_ne h r
  | incrementWithTtl phone => exact Redis.put_of_ne h ..
  | verifyOtp phone challengeId deviceId otp maxFailures =>
      simp only [RedisCommand.Writes, not_or] at h
      simp only [Redis.exec]
      obtain ⟨-, status, -, heq⟩ | ⟨code, -, -, status, -, heq⟩ | ⟨-, heq⟩ :=
        verifyOtpScript_cases r p phone challengeId deviceId otp maxFailures
      · rw [heq]
      · rw [heq]
        exact Redis.put_of_ne h.1 ..
      · rw [heq]
        exact (Redis.remove_of_ne h.1 _).trans
          ((Redis.remove_of_ne h.2.1 _).trans (Redis.remove_of_ne h.2.2 r))
  | consumeRegistrationAuthorization tokenHash phone deviceId =>
      simp only [Redis.exec]
      obtain ⟨writer, -, heq⟩ | ⟨-, status, -, heq⟩ :=
        consumeRegistrationScript_cases r tokenHash phone deviceId
      · rw [heq]
        exact Redis.remove_of_ne h r
      · rw [heq]
  | consumeDeviceEnrollmentAuthorization tokenHash userId phone deviceId =>
      simp only [Redis.exec]
      obtain ⟨writer, -, heq⟩ | ⟨-, status, -, heq⟩ :=
        consumeDeviceEnrollmentScript_cases r tokenHash userId phone deviceId
      · rw [heq]
        exact Redis.remove_of_ne h r
      · rw [heq]

def RedisKey.IsCounter : RedisKey → Prop
  | .loginFailure _ | .otpFailure _ => True
  | _ => False

theorem Redis.of_remove {k k' : RedisKey} {entry : RedisEntry k}
    (h : r.remove k' k = some entry) : r k = some entry := by
  by_cases hk : k = k'
  · subst k'
    simp at h
  · rwa [Redis.remove_of_ne hk] at h

theorem Redis.of_put {k k' : RedisKey} {entry : RedisEntry k} {value : RedisValue k'}
    (h : r.put k' value p k = some entry) :
    r k = some entry ∨ (⟨k', value⟩ : Sigma RedisValue) = ⟨k, entry.value⟩ ∧
      entry.writer = p := by
  by_cases hk : k = k'
  · subst k'
    rw [Redis.put_self, Option.some.injEq] at h
    subst entry
    exact .inr ⟨rfl, rfl⟩
  · rw [Redis.put_of_ne hk] at h
    exact .inl h

theorem exec_stored {command : RedisCommand} {k : RedisKey} {entry : RedisEntry k}
    (h : (r.exec p command).2 k = some entry) (hk : ¬k.IsCounter) :
    r k = some entry ∨ ∃ nx, command = .set k entry.value nx ∧ entry.writer = p ∧
      (r.exec p (.set k entry.value nx)).1 = true := by
  cases command with
  | get _ => exact .inl h
  | set k' value nx =>
      simp only [Redis.exec] at h
      split at h
      · exact .inl h
      · rename_i hset
        obtain hold | ⟨heq, hwriter⟩ := Redis.of_put h
        · exact .inl hold
        · obtain ⟨rfl, hvalue⟩ := Sigma.mk.inj heq
          cases hvalue
          refine .inr ⟨nx, rfl, hwriter, ?_⟩
          rw [Redis.exec, if_neg hset]
  | del _ => exact .inl (Redis.of_remove h)
  | incrementWithTtl phone =>
      obtain hold | ⟨heq, -⟩ := Redis.of_put h
      · exact .inl hold
      · obtain rfl := congrArg Sigma.fst heq
        simp [RedisKey.IsCounter] at hk
  | verifyOtp phone challengeId deviceId otp maxFailures =>
      simp only [Redis.exec] at h
      obtain ⟨-, status, -, heq⟩ | ⟨code, -, -, status, -, heq⟩ | ⟨-, heq⟩ :=
        verifyOtpScript_cases r p phone challengeId deviceId otp maxFailures
      · rw [heq] at h
        exact .inl h
      · rw [heq] at h
        obtain hold | ⟨heq, -⟩ := Redis.of_put h
        · exact .inl hold
        · obtain rfl := congrArg Sigma.fst heq
          simp [RedisKey.IsCounter] at hk
      · rw [heq] at h
        exact .inl (Redis.of_remove (Redis.of_remove (Redis.of_remove h)))
  | consumeRegistrationAuthorization tokenHash phone deviceId =>
      simp only [Redis.exec] at h
      obtain ⟨writer, -, heq⟩ | ⟨-, status, -, heq⟩ :=
        consumeRegistrationScript_cases r tokenHash phone deviceId
      · rw [heq] at h
        exact .inl (Redis.of_remove h)
      · rw [heq] at h
        exact .inl h
  | consumeDeviceEnrollmentAuthorization tokenHash userId phone deviceId =>
      simp only [Redis.exec] at h
      obtain ⟨writer, -, heq⟩ | ⟨-, status, -, heq⟩ :=
        consumeDeviceEnrollmentScript_cases r tokenHash userId phone deviceId
      · rw [heq] at h
        exact .inl (Redis.of_remove h)
      · rw [heq] at h
        exact .inl h

end Scripts

/-! ## Commands -/

/-- In the moment `x` Redis runs the command of `p` with this outcome, whether or not
the answer reaches the server. -/
structure Ran (x : KoriMoment) (p : Pid) (command : RedisCommand) (a : command.Ans) :
    Prop where
  move : x.2 = .step p .go ∨ x.2 = .step p .lost
  code : ∃ next, x.1.procs p = some (.request (.redis command) next)
  outcome : (x.1.conf.shared.redis.exec p command).1 = a

variable {command : RedisCommand}

theorem Ran.step {a : command.Ans} (h : Ran x p command a) : ∃ choice, x.2 = .step p choice := by
  rcases h.move with hmove | hmove
  · exact ⟨_, hmove⟩
  · exact ⟨_, hmove⟩

theorem ran_of_answered {a : command.Ans}
    (hans : x.1.answered (kori env) x.2 = some (p, ⟨.redis command, .ok a⟩)) :
    Ran x p command a := by
  obtain ⟨choice, next, s, hstep, hproc, hexec⟩ := World.answered_cases hans
  obtain ⟨rfl, ha⟩ := exec_redis_ok hexec
  exact ⟨.inl hstep, ⟨next, hproc⟩, ha.symm⟩

theorem Ran.answered {a : command.Ans} (h : Ran x p command a) :
    ∃ answer, x.1.answered (kori env) x.2 = some (p, ⟨.redis command, answer⟩) := by
  obtain ⟨next, hproc⟩ := h.code
  rcases h.move with hstep | hstep
  · exact ⟨_, by rw [hstep]; exact World.answered_step hproc rfl⟩
  · exact ⟨_, by rw [hstep]; exact World.answered_step hproc rfl⟩

theorem Ran.after {a : command.Ans} (h : Ran x p command a)
    (hm : x.1.move (kori env) x.2 = some w') :
    w'.conf.shared.redis = (x.1.conf.shared.redis.exec p command).2 := by
  obtain ⟨answer, hans⟩ : ∃ answer,
      x.1.answered (kori env) x.2 = some (p, ⟨.redis command, answer⟩) := h.answered
  obtain ⟨choice, hstep, hexec⟩ := answered_moved hans hm
  generalize w'.conf.shared = s at hexec ⊢
  rcases h.move with hgo | hgo
  all_goals
    obtain ⟨-, rfl⟩ := Move.step.inj (hgo.symm.trans hstep)
    obtain ⟨-, rfl⟩ := Prod.mk.inj (Option.some.inj hexec)
    rfl

def sends (w : KoriWorld) (p : Pid) (test : RedisCommand → Bool) : Bool :=
  match w.procs p with
  | some (.request (.redis command) _) => test command
  | _ => false

theorem sends_iff {test : RedisCommand → Bool} : sends w p test = true ↔
    ∃ command next, w.procs p = some (.request (.redis command) next) ∧ test command = true := by
  unfold sends
  split
  · rename_i command next hproc
    constructor
    · exact fun h => ⟨command, next, hproc, h⟩
    · rintro ⟨command', next', hproc', h⟩
      have hcode := Option.some.inj (hproc.symm.trans hproc')
      injection hcode with hop
      exact Op.redis.inj hop ▸ h
  · rename_i hnot
    constructor
    · simp
    · rintro ⟨command, next, hproc, -⟩
      exact absurd hproc (hnot command next)

/-- A key changes when it expires or by a command that is run. -/
theorem redis_cases (hm : w.move (kori env) m = some w') :
    w'.conf.shared.redis = w.conf.shared.redis ∨
    (∃ k, m = .tick k ∧ w'.conf.shared.redis = w.conf.shared.redis.remove k) ∨
    ∃ p command a, Ran (w, m) p command a := by
  have hmoved := moved hm
  generalize w'.conf.shared = s at hmoved ⊢
  cases hmoved with
  | @step p op choice a s next hproc hexec =>
      cases op with
      | redis command =>
          cases choice <;> simp only [Shared.exec, reduceCtorEq, Option.some.injEq] at hexec
          case go => exact .inr (.inr ⟨p, command, _, .inl rfl, ⟨next, hproc⟩, rfl⟩)
          case lost => exact .inr (.inr ⟨p, command, _, .inr rfl, ⟨next, hproc⟩, rfl⟩)
          all_goals
            obtain ⟨-, rfl⟩ := Prod.mk.inj hexec
            exact .inl rfl
      | sql statement =>
          obtain ⟨-, -, rfl⟩ | ⟨-, db, -, rfl⟩ := exec_sql hexec
          · exact .inl rfl
          · exact .inl rfl
      | _ =>
          cases choice <;> simp only [Shared.exec, reduceCtorEq, Option.some.injEq,
            Prod.mk.injEq] at hexec
          all_goals first
            | (obtain ⟨-, rfl⟩ := hexec
               exact .inl rfl)
            | (split at hexec
               · obtain ⟨-, rfl⟩ := Prod.mk.inj (Option.some.inj hexec)
                 exact .inl rfl
               · simp at hexec)
            | (split at hexec
               · simp at hexec
               · obtain ⟨-, rfl⟩ := Prod.mk.inj (Option.some.inj hexec)
                 exact .inl rfl)
  | tick => exact .inr (.inl ⟨_, rfl, rfl⟩)
  | _ => exact .inl rfl

/-! ## Stored values -/

/-- The entry was stored in the moment `x` and is there after every later move. -/
structure Stored (env : Env) (past : List KoriMoment) {k : RedisKey} (entry : RedisEntry k)
    (x : KoriMoment) (before : List KoriMoment) : Prop where
  moment : x :: before <:+ past
  set : ∃ nx, Ran x entry.writer (.set k entry.value nx) true
  since : ∀ y before' w', y :: before' <:+ past → x :: before <:+ before' →
    y.1.move (kori env) y.2 = some w' → w'.conf.shared.redis k = some entry

theorem run_stored (hr : Run (kori env) (World.idle shared) past w) {k : RedisKey}
    {entry : RedisEntry k} (hk : ¬k.IsCounter) (hnone : shared.redis k = none)
    (h : w.conf.shared.redis k = some entry) : ∃ x before, Stored env past entry x before := by
  induction hr with
  | nil =>
      change shared.redis k = some entry at h
      simp [hnone] at h
  | @cons past w w' m hr hm ih =>
      by_cases hbefore : w.conf.shared.redis k = some entry
      · obtain ⟨x, before, hstored⟩ := ih hbefore
        refine ⟨x, before, hstored.moment.trans (List.suffix_cons _ _), hstored.set, ?_⟩
        intro y before' w'' hy hx hmove
        rcases List.suffix_cons_iff.1 hy with heq | hy
        · obtain ⟨rfl, rfl⟩ := List.cons.inj heq
          obtain rfl := Option.some.inj (hm.symm.trans hmove)
          exact h
        · exact hstored.since y before' w'' hy hx hmove
      · rcases redis_cases hm with hsame | ⟨k', -, hremove⟩ | ⟨p, command, a, hran⟩
        · exact absurd (hsame ▸ h) hbefore
        · exact absurd (Redis.of_remove (hremove ▸ h)) hbefore
        · rw [hran.after hm] at h
          obtain hold | ⟨nx, rfl, rfl, ha⟩ := exec_stored h hk
          · exact absurd hold hbefore
          · refine ⟨(w, m), past, List.suffix_refl _, ⟨nx, hran.move, hran.code, ha⟩, ?_⟩
            intro y before' w'' hy hx
            have hlong := (hx.length_le.trans (Nat.le_succ _)).trans hy.length_le
            have hshort := hx.length_le
            simp only [List.length_cons] at hlong hshort
            have := hy.length_le
            simp only [List.length_cons] at this
            omega

end Kori
