import Kori.Contract.Guarantee

/-!
# Operations that the other requests cannot notice

Queries, clocks, random values and the Redis keys outside the idempotency cache.
Code made of such operations only learns something; it keeps the contract
whatever the answers are.
-/

namespace Kori

open Foundation

def RedisCommand.Quiet : RedisCommand → Prop
  | .set (.idempotency _) _ _ | .del (.idempotency _) => False
  | _ => True

def Op.Quiet : Op → Prop
  | .sql (.select _) => True
  | .sql _ => False
  | .redis command => command.Quiet
  | _ => True

/-- What quiet operations leave alone. -/
structure Unmoved (s s' : Shared) : Prop where
  db : s'.db = s.db
  cache : ∀ header, s'.redis (.idempotency header) = s.redis (.idempotency header)
  leases : s'.leases = s.leases
  minted : ∀ u o, s.minted u = some o → s'.minted u = some o

theorem Unmoved.refl (s : Shared) : Unmoved s s := ⟨rfl, fun _ => rfl, rfl, fun _ _ h => h⟩

/-! ## Quiet operations change nothing that matters -/

@[simp] theorem Redis.put_of_ne {k k' : RedisKey} (h : k' ≠ k) (r : Redis)
    (value : RedisValue k) (writer : Pid) : r.put k value writer k' = r k' :=
  Function.update_of_ne h _ _

@[simp] theorem Redis.put_self (k : RedisKey) (r : Redis) (value : RedisValue k)
    (writer : Pid) : r.put k value writer k = some ⟨value, writer⟩ :=
  Function.update_self ..

@[simp] theorem Redis.remove_of_ne {k k' : RedisKey} (h : k' ≠ k) (r : Redis) :
    r.remove k k' = r k' :=
  Function.update_of_ne h _ _

@[simp] theorem Redis.remove_self (k : RedisKey) (r : Redis) : r.remove k k = none :=
  Function.update_self ..

theorem Redis.verifyOtpScript_idempotency (r : Redis) (p : Pid)
    (phone challengeId deviceId otp header : JsString) (maxFailures : Int) :
    (r.verifyOtpScript p phone challengeId deviceId otp maxFailures).2
      (.idempotency header) = r (.idempotency header) := by
  unfold Redis.verifyOtpScript
  split
  · rfl
  · split
    · rfl
    · split
      · rfl
      · split
        · rfl
        · split
          · rfl
          · split
            · dsimp only
              split <;> simp
            · simp

theorem RedisCommand.Quiet.cache {command : RedisCommand} (h : command.Quiet) (r : Redis)
    (p : Pid) (header : JsString) :
    (r.exec p command).2 (.idempotency header) = r (.idempotency header) := by
  cases command with
  | get key => rfl
  | set key value nx =>
      have hkey : RedisKey.idempotency header ≠ key := by
        rintro rfl
        exact h
      simp only [Redis.exec]
      split
      · rfl
      · exact Redis.put_of_ne hkey ..
  | del key =>
      have hkey : RedisKey.idempotency header ≠ key := by
        rintro rfl
        exact h
      exact Redis.remove_of_ne hkey r
  | incrementWithTtl phone => simp [Redis.exec]
  | verifyOtp phone challengeId deviceId otp maxFailures =>
      exact Redis.verifyOtpScript_idempotency ..
  | consumeRegistrationAuthorization tokenHash phone deviceId =>
      simp only [Redis.exec, Redis.consumeRegistrationScript]
      split
      · rfl
      · split <;> simp
  | consumeDeviceEnrollmentAuthorization tokenHash userId phone deviceId =>
      simp only [Redis.exec, Redis.consumeDeviceEnrollmentScript]
      split
      · rfl
      · split <;> simp

theorem RedisCommand.Quiet.lease {command : RedisCommand} (h : command.Quiet) (s : Shared)
    (p : Pid) (acquired : Bool) : s.lease p acquired command = s.leases := by
  unfold Shared.lease
  split
  · exact h.elim
  · exact h.elim
  · exact h.elim
  · rfl

theorem Op.Quiet.unmoved {env : Env} {p : Pid} {op : Op} (hq : op.Quiet) {choice : Choice}
    {s s' : Shared} {a : op.Ans} (h : Shared.exec env p op choice s = some (a, s')) :
    Unmoved s s' := by
  cases op with
  | sql statement =>
      cases statement <;> first | exact hq.elim | skip
      cases choice <;> simp [Shared.exec, Store.exec, Store.fail] at h
      all_goals
        obtain ⟨-, rfl⟩ := h
        exact .refl s
  | redis command =>
      have hcache := hq.cache s.redis p
      have hlease := hq.lease s p
      cases choice <;>
        simp only [Shared.exec, Shared.redisGo, Shared.redisLost, Shared.redisFail,
          Option.some.injEq, Prod.mk.injEq, reduceCtorEq] at h
      all_goals obtain ⟨-, rfl⟩ := h
      · exact ⟨rfl, hcache, hlease _, fun _ _ h => h⟩
      · exact ⟨rfl, fun _ => rfl, hlease _, fun _ _ h => h⟩
      · exact ⟨rfl, hcache, hlease _, fun _ _ h => h⟩
      · exact ⟨rfl, fun _ => rfl, hlease _, fun _ _ h => h⟩
  | randomUUID =>
      cases choice <;> simp only [Shared.exec, reduceCtorEq] at h
      split at h
      · rename_i hfresh
        simp only [Option.some.injEq, Prod.mk.injEq] at h
        obtain ⟨-, rfl⟩ := h
        refine ⟨rfl, fun _ => rfl, rfl, fun u o hu => ?_⟩
        refine (Function.update_of_ne ?_ _ _).trans hu
        rintro rfl
        simp [hfresh] at hu
      · simp at h
  | randomToken =>
      cases choice <;> simp only [Shared.exec, reduceCtorEq] at h
      split at h
      · simp at h
      · simp only [Option.some.injEq, Prod.mk.injEq] at h
        obtain ⟨-, rfl⟩ := h
        exact ⟨rfl, fun _ => rfl, rfl, fun _ _ h => h⟩
  | randomInt | hashPin _ | arrange _ =>
      cases choice <;> simp only [Shared.exec, reduceCtorEq] at h
      split at h
      · simp only [Option.some.injEq, Prod.mk.injEq] at h
        obtain ⟨-, rfl⟩ := h
        exact .refl s
      · simp at h
  | now | generatedId | randomBytes | turn =>
      cases choice <;>
        simp only [Shared.exec, Option.some.injEq, Prod.mk.injEq, reduceCtorEq] at h
      obtain ⟨-, rfl⟩ := h
      exact .refl s

/-! ## Quiet steps keep the contract -/

def Called (p : Pid) (c : State) : Prop := ∃ call, c.calls p = some call

variable {env : Env} {σ : Scope} {p : Pid} {c c' : State}

theorem Called.rely (h : Called p c) (hr : Rely p c c') : Called p c' := by
  obtain ⟨call, hcall⟩ := h
  exact ⟨call, hr.calls p call hcall⟩

theorem Drawn.of_data {u : Uuid} (h : Drawn p u c) (hdata : c'.data = c.data)
    (hminted : ∀ u o, c.shared.minted u = some o → c'.shared.minted u = some o)
    (hout : c'.out = c.out) : Drawn p u c' where
  minted := hminted u _ h.minted
  unused := ⟨hdata ▸ h.unused.rows, hout ▸ h.unused.tokens⟩

theorem Unmoved.rely {s : Shared} (h : Unmoved c.shared s) : Rely p c (c.withShared s) where
  tx := congrArg (fun db => db.tx p) h.db
  lock := fun k => by simp [h.db]
  kept := fun k _ => congrArg (fun db => db.committed.row k) h.db
  grows := by
    simpa [State.data, h.db] using Grows.refl c.data
  account := fun _ _ _ _ _ _ hu => by simpa [State.data, h.db] using hu
  lease := congrFun h.leases p
  minted := h.minted
  drawn := fun _ hu => hu.of_data (congrArg Store.committed h.db) h.minted rfl
  calls := fun _ _ h => h
  out := fun _ h => h
  said := fun _ h => h

theorem Unmoved.guar {s : Shared} (h : Unmoved c.shared s) (hi : Inv env c)
    (hcall : Called p c) : Guar env p c (c.withShared s) where
  frame := by
    rw [Conf.withShared_shared, h.db]
    exact .refl ..
  called := hcall
  calls := fun _ _ h => h
  others := fun _ _ => rfl
  minted := h.minted
  leases := fun q _ => congrFun h.leases q
  cache := ⟨fun header => .inl (h.cache header), fun header hl =>
    .inl ((congrFun h.leases p).symm.trans hl)⟩
  pending := by
    intro own hown
    have hown' : c.shared.db.tx p = some own := by
      rw [← h.db]
      exact hown
    exact (hi.pending p own hown').rely hown' h.rely
  effect := by
    refine ⟨[], by simp, ?_⟩
    change Effect env p c s.db.committed []
    rw [h.db]
    exact .none (by simp)

theorem Guar.silent {s : Shared} (h : Guar env p c (c.withShared s)) :
    (terms env σ).Guar p c (c.withShared s) :=
  ⟨h, fun _ he => .inl he⟩

/-! ## Code that only learns -/

instance : IsPreorder State (Rely p) where
  refl := Rely.refl p
  trans _ _ _ := Rely.trans

/-- The code keeps the contract without being noticed, ends in `Q` and throws
only `X`. -/
abbrev Reads (env : Env) (σ : Scope) (p : Pid) {α : Type} (m : Action α)
    (Q : α → State → Prop) (X : Exn → Prop) (c : State) : Prop :=
  Leads (kori env) (terms env σ).quiet p (Rely p) m Q (fun e _ => X e) c

def Scope.Fails (σ : Scope) (p : Pid) : Prop := ∃ op c, σ.meets p op .fail c

variable {α β : Type} {X : Exn → Prop}

theorem reads_ask {op : Op} {Q : op.Ans → State → Prop} (hq : op.Quiet)
    (hcall : Called p c)
    (h : ∀ c₁, Rely p c c₁ → Inv env c₁ → σ.holds c₁ → ∀ choice answer s,
      σ.meets p op choice c₁ → Shared.exec env p op choice c₁.shared = some (answer, s) →
        Q answer (c₁.withShared s)) :
    Reads env σ p (Code.ask op) Q X c := by
  refine leads_ask fun c₁ hr hi choice answer s hmeets hexec => ?_
  have hmoved := hq.unmoved hexec
  have hguar := hmoved.guar hi.1 (hcall.rely hr)
  exact ⟨⟨hguar.silent, hmoved.rely⟩, hr.trans hmoved.rely,
    h c₁ hr hi.1 hi.2 choice answer s hmeets hexec⟩

theorem reads_only {m : Action α} (hm : m.Only Op.Quiet) (hcall : Called p c) :
    Reads env σ p m (fun _ _ => True) (fun _ => True) c := by
  refine leads_only hm (fun _ _ h => h) ?_
  intro op c₁ choice answer s hq hr hi hexec
  have hmoved := Op.Quiet.unmoved hq hexec
  exact ⟨⟨(hmoved.guar hi.1 (hcall.rely hr)).silent, hmoved.rely⟩, hmoved.rely⟩

theorem reads_select {query : Query} {Q : Data → State → Prop} (hcall : Called p c)
    (hX : σ.Fails p → X (.sql .other))
    (h : ∀ c₁, Rely p c c₁ → Inv env c₁ → σ.holds c₁ →
      σ.meets p (.sql (.select query)) .go c₁ → Q (c₁.shared.db.view p) c₁) :
    Reads env σ p (select query) Q X c := by
  refine Leads.bind (R := fun result c₁ =>
    match result with
    | .ok t => Q t c₁
    | .error e => X (.sql e)) (reads_ask trivial hcall ?_) ?_
  · intro c₁ hr hi hσ choice answer s hmeets hexec
    cases choice <;> simp [Shared.exec, Store.exec, Store.fail] at hexec
    · obtain ⟨rfl, rfl⟩ := hexec
      exact h c₁ hr hi hσ hmeets
    · obtain ⟨rfl, rfl⟩ := hexec
      exact hX ⟨_, _, hmeets⟩
  · intro result c₁ hr hresult
    cases result with
    | ok t => exact leads_pure hresult
    | error e => exact leads_throw hresult

theorem reads_both {m : Action α} {n : Action β} {Q : α → State → Prop}
    {R : β → State → Prop} (hcall : Called p c)
    (hm : Reads env σ p m Q X c) (hn : Reads env σ p n R X c)
    (hQ : ∀ a c c', Rely p c c' → Q a c → Q a c')
    (hR : ∀ b c c', Rely p c c' → R b c → R b c') :
    Reads env σ p (Code.both Op.turn id m n)
      (fun result c' => Q result.1 c' ∧ R result.2 c') X c := by
  refine leads_both ?_ hm hn (fun a c c' h => hQ a c c' h) (fun b c c' h => hR b c c' h)
    fun _ _ _ _ h => h
  intro c₁ choice turn s hr hi hexec
  have hq : Op.turn.Quiet := trivial
  have hmoved := hq.unmoved hexec
  exact ⟨(hmoved.guar hi.1 (hcall.rely hr)).silent, hmoved.rely⟩

theorem reads_randomUUID (hcall : Called p c) :
    Reads env σ p (Code.ask Op.randomUUID)
      (fun u c₁ => Drawn p u c₁ ∧ ∀ v o, c.shared.minted v = some o → u ≠ v) X c := by
  refine reads_ask trivial hcall ?_
  intro c₁ hr hi _ choice u s _ hexec
  cases choice <;> simp only [Shared.exec, reduceCtorEq] at hexec
  split at hexec
  · rename_i hfresh
    simp only [Option.some.injEq, Prod.mk.injEq] at hexec
    obtain ⟨rfl, rfl⟩ := hexec
    have hunused := hi.unminted _ hfresh
    refine ⟨⟨Function.update_self .., hunused.rows, hunused.tokens⟩, ?_⟩
    rintro v o hv rfl
    simp [hr.minted _ _ hv] at hfresh
  · simp at hexec

end Kori
