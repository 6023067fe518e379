import Kori.Foundation.History
import Kori.Foundation.RowStore

/-!
# What a session has written

The uncommitted rows of an open transaction are determined by the statements the
session has made and their answers, and a step changes a committed row only by
writing it outside a transaction or by committing what the session has written.
-/

namespace Kori.Foundation

section Statements

variable {K : Type} {V : K → Type} {L P Q : Type} [DecidableEq K]

abbrev Executed (K : Type) (V : K → Type) (L Q : Type) : Type :=
  Entry (Sql K V L Q) fun q => Except SqlError q.Ans

def Executed.wrote : Executed K V L Q → Option (Sigma V)
  | ⟨.update k _, .ok (some v)⟩ => some ⟨k, v⟩
  | ⟨.insert k v, .ok _⟩ => some ⟨k, v⟩
  | _ => none

def Executed.apply (e : Executed K V L Q) (own : Option ((k : K) → Option (V k))) :
    Option ((k : K) → Option (V k)) :=
  match e with
  | ⟨.start, .ok _⟩ => some fun _ => none
  | ⟨.commit, _⟩ => none
  | ⟨.rollback, _⟩ => none
  | ⟨.update k _, .ok (some v)⟩ => own.map fun own => Function.update own k (some v)
  | ⟨.insert k v, .ok _⟩ => own.map fun own => Function.update own k (some v)
  | _ => own

/-- The uncommitted rows of a session with the given history. -/
def uncommitted (past : List (Executed K V L Q)) : Option ((k : K) → Option (V k)) :=
  past.foldr Executed.apply none

variable {past : List (Executed K V L Q)} {own : (k : K) → Option (V k)}

theorem uncommitted_cons (e : Executed K V L Q) :
    uncommitted (e :: past) = e.apply (uncommitted past) := rfl

theorem Executed.apply_cases {e : Executed K V L Q} {own' : (k : K) → Option (V k)}
    {o : Option ((k : K) → Option (V k))} (h : e.apply o = some own') :
    (e.op = .start ∧ own' = fun _ => none) ∨ o = some own' ∨
      ∃ own k v, o = some own ∧ e.wrote = some ⟨k, v⟩ ∧
        own' = Function.update own k (some v) := by
  unfold Executed.apply at h
  split at h
  · exact .inl ⟨rfl, (Option.some.inj h).symm⟩
  · simp at h
  · simp at h
  · obtain ⟨own, rfl, rfl⟩ := Option.map_eq_some_iff.1 h
    exact .inr (.inr ⟨own, _, _, rfl, rfl, rfl⟩)
  · obtain ⟨own, rfl, rfl⟩ := Option.map_eq_some_iff.1 h
    exact .inr (.inr ⟨own, _, _, rfl, rfl, rfl⟩)
  · exact .inr (.inl h)

theorem Executed.apply_wrote {e : Executed K V L Q} {k : K} {v : V k}
    (h : e.wrote = some ⟨k, v⟩) (o : Option ((k : K) → Option (V k))) :
    e.apply o = o.map fun own => Function.update own k (some v) := by
  unfold Executed.wrote at h
  split at h
  · obtain ⟨rfl, heq⟩ := Sigma.mk.inj (Option.some.inj h)
    cases heq
    rfl
  · obtain ⟨rfl, heq⟩ := Sigma.mk.inj (Option.some.inj h)
    cases heq
    rfl
  · simp at h

theorem mem_of_uncommitted {k : K} {v : V k} (h : uncommitted past = some own)
    (hrow : own k = some v) : ∃ e ∈ past, e.wrote = some ⟨k, v⟩ := by
  induction past generalizing own with
  | nil => simp [uncommitted] at h
  | cons e past ih =>
      have hearlier : ∀ own₀, uncommitted past = some own₀ → own₀ k = some v →
          ∃ e' ∈ e :: past, e'.wrote = some ⟨k, v⟩ := by
        intro own₀ h₀ hrow₀
        obtain ⟨e', he', hwrote⟩ := ih h₀ hrow₀
        exact ⟨e', List.mem_cons_of_mem _ he', hwrote⟩
      obtain ⟨-, rfl⟩ | hsame | ⟨own₀, k', v', h₀, hwrote, rfl⟩ := Executed.apply_cases h
      · simp at hrow
      · exact hearlier own hsame hrow
      · by_cases hk : k = k'
        · subst k'
          rw [Function.update_self] at hrow
          obtain rfl := Option.some.inj hrow
          exact ⟨e, List.mem_cons_self, hwrote⟩
        · rw [Function.update_of_ne hk] at hrow
          exact hearlier own₀ h₀ hrow

theorem uncommitted_keeps {later before : List (Executed K V L Q)} {k : K}
    {own₀ : (k : K) → Option (V k)} (h₀ : uncommitted before = some own₀)
    (hrow : (own₀ k).isSome) (hstart : ∀ e ∈ later, e.op ≠ .start)
    (h : uncommitted (later ++ before) = some own) : (own k).isSome := by
  induction later generalizing own with
  | nil =>
      obtain rfl := Option.some.inj (h₀.symm.trans h)
      exact hrow
  | cons e later ih =>
      have hrest : ∀ e ∈ later, e.op ≠ .start := fun e he => hstart e (.tail _ he)
      obtain ⟨hop, -⟩ | hsame | ⟨own₁, k', v', h₁, -, rfl⟩ := Executed.apply_cases h
      · exact absurd hop (hstart e (.head _))
      · exact ih hrest hsame
      · by_cases hk : k = k'
        · subst k'
          simp
        · rw [Function.update_of_ne hk]
          exact ih hrest h₁

variable [DecidableEq P] {s s' : Store K V L P} {p : P} {q : Sql K V L Q}
variable {a : Except SqlError q.Ans}

def Store.ownRows (s : Store K V L P) (p : P) : Option ((k : K) → Option (V k)) :=
  (s.tx p).map Tables.row

theorem Store.write_ownRows {k : K} {v : V k} (hfree : s.Free p k) :
    (s.write p k v hfree).ownRows p =
      (s.ownRows p).map fun own => Function.update own k (some v) := by
  unfold Store.ownRows
  cases htx : s.tx p with
  | none => simp [Store.write_of_idle hfree htx, htx]
  | some own =>
      rw [(Store.write_of_open (v := v) hfree htx).2.2, Function.update_self]
      refine congrArg some (funext fun k' => ?_)
      by_cases hk : k' = k
      · subst k'
        simp
      · simp [hk]

theorem Store.appendLog_ownRows {l : L} : (s.appendLog p l).ownRows p = s.ownRows p := by
  unfold Store.ownRows
  cases htx : s.tx p with
  | none =>
      unfold Store.appendLog
      split
      · simp [htx]
      · simp_all
  | some own =>
      rw [(Store.appendLog_of_open (l := l) htx).2.2, Function.update_self]
      rfl

/-- A statement changes the uncommitted rows as the history says. -/
theorem Store.exec_ownRows (h : s.exec p q = some (a, s'))
    (hown : s.ownRows p = uncommitted past) :
    s'.ownRows p = uncommitted (⟨q, a⟩ :: past) := by
  cases q with
  | select query =>
      simp only [exec, Option.some.injEq, Prod.mk.injEq] at h
      obtain ⟨rfl, rfl⟩ := h
      simp [uncommitted_cons, Executed.apply, hown]
  | lock k =>
      obtain ⟨hfree, rfl, rfl⟩ := exec_lock h
      exact hown
  | update k change =>
      obtain ⟨hfree, ⟨rfl, rfl, -⟩ | ⟨v, e, -, -, rfl, rfl⟩ | ⟨v, v', -, -, rfl, rfl⟩⟩ :=
        exec_update h
      · simp [uncommitted_cons, Executed.apply, hown]
      · simp [uncommitted_cons, Executed.apply, hown]
      · simp [uncommitted_cons, Executed.apply, write_ownRows, hown]
  | insert k v =>
      obtain ⟨hfree, ⟨rfl, -, rfl⟩ | ⟨rfl, -, rfl⟩⟩ := exec_insert h
      · simp [uncommitted_cons, Executed.apply, hown]
      · simp [uncommitted_cons, Executed.apply, write_ownRows, hown]
  | append l =>
      simp only [exec, Option.some.injEq, Prod.mk.injEq] at h
      obtain ⟨rfl, rfl⟩ := h
      simp [uncommitted_cons, Executed.apply, appendLog_ownRows, hown]
  | start =>
      simp only [exec] at h
      split at h
      · simp only [Option.some.injEq, Prod.mk.injEq] at h
        obtain ⟨rfl, rfl⟩ := h
        simp only [uncommitted_cons, Executed.apply, ownRows, begin, Function.update_self,
          Option.map_some]
        exact congrArg some (funext fun k => Tables.row_empty k)
      · simp at h
  | commit =>
      simp only [exec, Option.some.injEq, Prod.mk.injEq] at h
      obtain ⟨rfl, rfl⟩ := h
      simp [uncommitted_cons, Executed.apply, ownRows, commit, finish]
  | rollback =>
      simp only [exec, Option.some.injEq, Prod.mk.injEq] at h
      obtain ⟨rfl, rfl⟩ := h
      simp [uncommitted_cons, Executed.apply, ownRows, rollback, finish]

theorem Store.fail_ownRows (hown : s.ownRows p = uncommitted past) :
    (s.fail p q).2.ownRows p = uncommitted (⟨q, (s.fail p q).1⟩ :: past) := by
  cases q with
  | commit => simp [fail, uncommitted_cons, Executed.apply, ownRows, rollback, finish]
  | rollback => simp [fail, uncommitted_cons, Executed.apply, ownRows, rollback, finish]
  | _ => exact hown

/-! ## Committed rows -/

/-- How a statement of `p` came to change the committed row under `k` to `v`. -/
inductive Store.Published (s : Store K V L P) (p : P) (e : Executed K V L Q) (k : K) (v : V k) :
    Prop
  | written : s.tx p = none → e.wrote = some ⟨k, v⟩ → Published s p e k v
  | committed {own : (k : K) → Option (V k)} : e.op = .commit → s.ownRows p = some own →
      own k = some v → Published s p e k v

theorem Store.write_published {k k' : K} {v : V k} {v' : V k'} (hfree : s.Free p k)
    (hrow : (s.write p k v hfree).committed.row k' = some v') :
    s.committed.row k' = some v' ∨ s.tx p = none ∧ (⟨k, v⟩ : Sigma V) = ⟨k', v'⟩ := by
  cases htx : s.tx p with
  | none =>
      rw [write_of_idle hfree htx] at hrow
      by_cases hk : k' = k
      · subst k'
        obtain rfl := Option.some.inj ((Tables.row_put_self ..).symm.trans hrow)
        exact .inr ⟨rfl, rfl⟩
      · rw [Tables.row_put_of_ne hk] at hrow
        exact .inl hrow
  | some own =>
      rw [(write_of_open (v := v) hfree htx).1] at hrow
      exact .inl hrow

theorem Store.exec_published (h : s.exec p q = some (a, s')) {k : K} {v : V k}
    (hrow : s'.committed.row k = some v) :
    s.committed.row k = some v ∨ s.Published p ⟨q, a⟩ k v := by
  cases q with
  | select query =>
      simp only [exec, Option.some.injEq, Prod.mk.injEq] at h
      obtain ⟨rfl, rfl⟩ := h
      exact .inl hrow
  | lock k =>
      obtain ⟨hfree, rfl, rfl⟩ := exec_lock h
      exact .inl hrow
  | update k' change =>
      obtain ⟨hfree, ⟨rfl, rfl, -⟩ | ⟨v, e, -, -, rfl, rfl⟩ | ⟨v, v', -, -, rfl, rfl⟩⟩ :=
        exec_update h
      · exact .inl hrow
      · exact .inl hrow
      · obtain hold | ⟨htx, heq⟩ := write_published hfree hrow
        · exact .inl hold
        · exact .inr (.written htx (congrArg some heq))
  | insert k' v' =>
      obtain ⟨hfree, ⟨rfl, -, rfl⟩ | ⟨rfl, -, rfl⟩⟩ := exec_insert h
      · exact .inl hrow
      · obtain hold | ⟨htx, heq⟩ := write_published hfree hrow
        · exact .inl hold
        · exact .inr (.written htx (congrArg some heq))
  | append l =>
      simp only [exec, Option.some.injEq, Prod.mk.injEq] at h
      obtain ⟨rfl, rfl⟩ := h
      refine .inl ?_
      cases htx : s.tx p with
      | none =>
          unfold appendLog at hrow
          split at hrow
          · exact hrow
          · simp_all
      | some own =>
          rw [(appendLog_of_open (l := l) htx).1] at hrow
          exact hrow
  | start =>
      simp only [exec] at h
      split at h
      · simp only [Option.some.injEq, Prod.mk.injEq] at h
        obtain ⟨rfl, rfl⟩ := h
        exact .inl hrow
      · simp at h
  | commit =>
      simp only [exec, Option.some.injEq, Prod.mk.injEq] at h
      obtain ⟨rfl, rfl⟩ := h
      change (s.view p).row k = some v at hrow
      cases htx : s.tx p with
      | none =>
          rw [view_of_idle htx] at hrow
          exact .inl hrow
      | some own =>
          rw [view_of_open htx] at hrow
          cases hown : own.row k with
          | none =>
              rw [Tables.row_overlay_of_none hown] at hrow
              exact .inl hrow
          | some v' =>
              rw [Tables.row_overlay_of_some hown] at hrow
              exact .inr (.committed rfl (congrArg _ htx) (hown.trans hrow))
  | rollback =>
      simp only [exec, Option.some.injEq, Prod.mk.injEq] at h
      obtain ⟨rfl, rfl⟩ := h
      exact .inl hrow

theorem Store.fail_committed (s : Store K V L P) (p : P) (q : Sql K V L Q) :
    (s.fail p q).2.committed = s.committed := by
  cases q <;> rfl

end Statements

end Kori.Foundation
