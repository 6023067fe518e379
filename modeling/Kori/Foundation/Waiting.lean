import Mathlib.Logic.Relation
import Mathlib.Order.Basic
import Kori.Foundation.Statements

/-!
# Waiting for locks

Processes that take locks in a common order never wait for each other in a cycle.  Which
locks a session of a store holds follows from the statements it has made.
-/

namespace Kori.Foundation

/-! ## Cycles of waiting processes -/

section Cycles

variable {P R α : Type} [Preorder α] {rank : R → α}
variable {waits : P → R → Prop} {holds : R → P → Prop} {p q : P}

/-- `p` waits for something that `q` holds. -/
def WaitsOn (waits : P → R → Prop) (holds : R → P → Prop) (p q : P) : Prop :=
  ∃ k, waits p k ∧ holds k q

theorem rank_le_of_chain (hordered : ∀ p k k', waits p k → holds k' p → rank k' < rank k)
    (h : Relation.TransGen (WaitsOn waits holds) p q) :
    ∃ k k', waits p k ∧ holds k' q ∧ rank k ≤ rank k' := by
  induction h with
  | single hpq =>
      obtain ⟨k, hwaits, hholds⟩ := hpq
      exact ⟨k, k, hwaits, hholds, le_refl _⟩
  | tail _ hqr ih =>
      obtain ⟨k, k', hwaits, hholds, hle⟩ := ih
      obtain ⟨k₂, hwaits₂, hholds₂⟩ := hqr
      have hlt := hordered _ k₂ k' hwaits₂ hholds
      exact ⟨k, k₂, hwaits, hholds₂, hle.trans hlt.le⟩

/-- If every process waits only for what ranks above all it holds, there is no cycle. -/
theorem no_cycle (hordered : ∀ p k k', waits p k → holds k' p → rank k' < rank k) (p : P) :
    ¬Relation.TransGen (WaitsOn waits holds) p p := by
  intro hcycle
  obtain ⟨k, k', hwaits, hholds, hle⟩ := rank_le_of_chain hordered hcycle
  exact lt_irrefl _ (lt_of_le_of_lt hle (hordered p k k' hwaits hholds))

end Cycles

/-! ## Locks of a session -/

section Locks

variable {K : Type} {V : K → Type} {L P Q : Type}

def Sql.Takes (k : K) : Sql K V L Q → Prop
  | .lock k' | .update k' _ | .insert k' _ => k' = k
  | _ => False

def Executed.locks (e : Executed K V L Q) (held : List K) : List K :=
  match e with
  | ⟨.lock k, .ok _⟩ => k :: held
  | ⟨.commit, _⟩ | ⟨.rollback, _⟩ => []
  | _ => held

/-- Rows that a session with the given history has locked. -/
def heldLocks (past : List (Executed K V L Q)) : List K := past.foldr Executed.locks []

variable {past : List (Executed K V L Q)} {e : Executed K V L Q} {held : List K} {k : K}

theorem heldLocks_cons (e : Executed K V L Q) :
    heldLocks (e :: past) = e.locks (heldLocks past) := rfl

theorem Executed.locks_keeps (hcommit : e.op ≠ .commit) (hrollback : e.op ≠ .rollback)
    (h : k ∈ held) : k ∈ e.locks held := by
  unfold Executed.locks
  split
  · exact List.mem_cons_of_mem _ h
  · exact absurd rfl hcommit
  · exact absurd rfl hrollback
  · exact h

theorem Executed.locks_cases (h : k ∈ e.locks held) :
    e.op = .lock k ∨ k ∈ held ∧ e.op ≠ .commit ∧ e.op ≠ .rollback := by
  unfold Executed.locks at h
  split at h
  · obtain rfl | hold := List.mem_cons.1 h
    · exact .inl rfl
    · exact .inr ⟨hold, by simp, by simp⟩
  · simp at h
  · simp at h
  · rename_i hcommit hrollback
    obtain ⟨op, a⟩ := e
    refine .inr ⟨h, ?_, ?_⟩
    · rintro rfl
      exact hcommit a rfl
    · rintro rfl
      exact hrollback a rfl

variable [DecidableEq K]
variable [DecidableEq P] {s s' : Store K V L P} {p : P} {q : Sql K V L Q}
variable {a : Except SqlError q.Ans} {k : K}

/-- A statement that needs a lock of another session has to wait. -/
theorem Store.exec_waits {p' : P} (htakes : q.Takes k) (hlock : s.lock k = some p')
    (hne : p' ≠ p) : s.exec p q = none := by
  have hfree : ¬s.Free p k := fun h => hne (h.ne hlock)
  cases q with
  | lock k' | update k' _ | insert k' _ =>
      obtain rfl : k' = k := htakes
      simp [exec, hfree]
  | _ => exact htakes.elim

/-- What a statement does to the locks. -/
inductive Store.Locking (p : P) (s s' : Store K V L P) (q : Sql K V L Q) : Prop
  | ended : q = .commit ∨ q = .rollback → (∀ k, s'.lock k ≠ some p) → Locking p s s' q
  | taken {k : K} : q.Takes k → s'.lock = Function.update s.lock k (some p) →
      Locking p s s' q
  | kept : (∀ k, q ≠ .lock k) → s'.lock = s.lock → Locking p s s' q

theorem Store.finish_lock (s : Store K V L P) (p : P) (committed : Tables K V L) (k : K) :
    (s.finish p committed).lock k ≠ some p := by
  intro h
  change (if s.lock k = some p then none else s.lock k) = some p at h
  split at h
  · simp at h
  · contradiction

theorem Store.write_locking {v : V k} (hfree : s.Free p k) (htakes : q.Takes k)
    (hlock : ∀ k, q ≠ .lock k) : Locking p s (s.write p k v hfree) q := by
  cases htx : s.tx p with
  | none =>
      rw [Store.write_of_idle hfree htx]
      exact .kept hlock rfl
  | some own => exact .taken htakes (Store.write_of_open (v := v) hfree htx).2.1

theorem Store.exec_locking (h : s.exec p q = some (a, s')) : Locking p s s' q := by
  cases q with
  | select query =>
      simp only [exec, Option.some.injEq, Prod.mk.injEq] at h
      obtain ⟨-, rfl⟩ := h
      exact .kept (by simp) rfl
  | lock k =>
      obtain ⟨hfree, -, rfl⟩ := exec_lock h
      exact .taken rfl rfl
  | update k change =>
      obtain ⟨hfree, ⟨-, rfl, -⟩ | ⟨v, e, -, -, -, rfl⟩ | ⟨v, v', -, -, -, rfl⟩⟩ :=
        exec_update h
      · exact .kept (by simp) rfl
      · exact .kept (by simp) rfl
      · exact write_locking hfree rfl (by simp)
  | insert k v =>
      obtain ⟨hfree, ⟨-, -, rfl⟩ | ⟨-, -, rfl⟩⟩ := exec_insert h
      · exact .kept (by simp) rfl
      · exact write_locking hfree rfl (by simp)
  | append l =>
      simp only [exec, Option.some.injEq, Prod.mk.injEq] at h
      obtain ⟨-, rfl⟩ := h
      apply Locking.kept (by simp)
      unfold appendLog
      split <;> rfl
  | start =>
      simp only [exec] at h
      split at h
      · simp only [Option.some.injEq, Prod.mk.injEq] at h
        obtain ⟨-, rfl⟩ := h
        exact .kept (by simp) rfl
      · simp at h
  | commit =>
      simp only [exec, Option.some.injEq, Prod.mk.injEq] at h
      obtain ⟨-, rfl⟩ := h
      exact .ended (.inl rfl) (finish_lock s p _)
  | rollback =>
      simp only [exec, Option.some.injEq, Prod.mk.injEq] at h
      obtain ⟨-, rfl⟩ := h
      exact .ended (.inr rfl) (finish_lock s p _)

theorem Store.exec_lock_new (h : s.exec p q = some (a, s')) (hlock : s'.lock k = some p) :
    s.lock k = some p ∨ q.Takes k := by
  cases exec_locking h with
  | ended _ hnone => exact absurd hlock (hnone k)
  | @taken k' htakes heq =>
      by_cases hk : k = k'
      · exact .inr (hk ▸ htakes)
      · rw [heq, Function.update_of_ne hk] at hlock
        exact .inl hlock
  | kept _ heq => exact .inl (heq ▸ hlock)

theorem Store.exec_held (h : s.exec p q = some (a, s'))
    (hheld : ∀ k ∈ heldLocks past, s.lock k = some p) :
    ∀ k ∈ heldLocks (⟨q, a⟩ :: past), s'.lock k = some p := by
  intro k hk
  obtain hlock | ⟨hold, hcommit, hrollback⟩ := Executed.locks_cases hk
  · obtain rfl : q = .lock k := hlock
    obtain ⟨hfree, -, rfl⟩ := exec_lock h
    exact Function.update_self ..
  · cases exec_locking h with
    | ended hend _ =>
        obtain hend | hend := hend
        · exact absurd hend hcommit
        · exact absurd hend hrollback
    | @taken k' _ heq =>
        rw [heq]
        by_cases hkk : k = k'
        · subst k'
          exact Function.update_self ..
        · rw [Function.update_of_ne hkk]
          exact hheld k hold
    | kept _ heq =>
        rw [heq]
        exact hheld k hold

theorem Store.fail_held (hheld : ∀ k ∈ heldLocks past, s.lock k = some p) :
    ∀ k ∈ heldLocks (⟨q, (s.fail p q).1⟩ :: past), (s.fail p q).2.lock k = some p := by
  cases q with
  | commit | rollback => simp [heldLocks_cons, Executed.locks]
  | _ => exact hheld

theorem Store.fail_lock (h : (s.fail p q).2.lock k = some p) : s.lock k = some p := by
  cases q with
  | commit | rollback => exact absurd h (finish_lock s p _ k)
  | _ => exact h

structure Store.Clear (s : Store K V L P) (p : P) : Prop where
  tx : s.tx p = none
  lock : ∀ k, s.lock k ≠ some p

theorem Store.finish_clear (s : Store K V L P) (p : P) (committed : Tables K V L) :
    (s.finish p committed).Clear p where
  tx := Function.update_self ..
  lock := finish_lock s p committed

theorem Store.Clear.write {v : V k} (h : s.Clear p) (hfree : s.Free p k) :
    (s.write p k v hfree).Clear p := by
  rw [Store.write_of_idle hfree h.tx]
  exact ⟨h.tx, h.lock⟩

theorem Store.Clear.exec (h : s.Clear p) (hexec : s.exec p q = some (a, s'))
    (hstart : q ≠ .start) (hlock : ∀ k, q ≠ .lock k) : s'.Clear p := by
  cases q with
  | select query =>
      simp only [Store.exec, Option.some.injEq, Prod.mk.injEq] at hexec
      exact hexec.2 ▸ h
  | lock k => exact absurd rfl (hlock k)
  | update k change =>
      obtain ⟨hfree, ⟨-, rfl, -⟩ | ⟨v, e, -, -, -, rfl⟩ | ⟨v, v', -, -, -, rfl⟩⟩ :=
        exec_update hexec
      · exact h
      · exact h
      · exact h.write hfree
  | insert k v =>
      obtain ⟨hfree, ⟨-, -, rfl⟩ | ⟨-, -, rfl⟩⟩ := exec_insert hexec
      · exact h
      · exact h.write hfree
  | append l =>
      simp only [Store.exec, Option.some.injEq, Prod.mk.injEq] at hexec
      obtain ⟨-, rfl⟩ := hexec
      have hsame : (s.appendLog p l).tx p = s.tx p ∧ (s.appendLog p l).lock = s.lock := by
        unfold appendLog
        split
        · exact ⟨rfl, rfl⟩
        · rename_i own htx
          simp [h.tx] at htx
      exact ⟨hsame.1.trans h.tx, hsame.2 ▸ h.lock⟩
  | start => exact absurd rfl hstart
  | commit =>
      simp only [Store.exec, Option.some.injEq, Prod.mk.injEq] at hexec
      exact hexec.2 ▸ finish_clear s p _
  | rollback =>
      simp only [Store.exec, Option.some.injEq, Prod.mk.injEq] at hexec
      exact hexec.2 ▸ finish_clear s p _

theorem Store.Clear.fail (h : s.Clear p) : (s.fail p q).2.Clear p := by
  cases q with
  | commit | rollback => exact finish_clear s p _
  | _ => exact h

theorem Store.clear_of_end (hend : q = .commit ∨ q = .rollback) :
    (∀ result, s.exec p q = some result → result.2.Clear p) ∧ (s.fail p q).2.Clear p := by
  obtain rfl | rfl := hend
  · refine ⟨fun result hexec => ?_, finish_clear s p _⟩
    simp only [Store.exec, Option.some.injEq] at hexec
    exact hexec ▸ finish_clear s p _
  · refine ⟨fun result hexec => ?_, finish_clear s p _⟩
    simp only [Store.exec, Option.some.injEq] at hexec
    exact hexec ▸ finish_clear s p _

end Locks

end Kori.Foundation
