import Mathlib.Data.List.AList
import Mathlib.Logic.Function.Basic

/-!
# A row store with Read Committed transactions

Rows are kept under typed keys; an append-only table is kept as a list in
commit order.  A transaction writes into its own copy of the rows it touched
and holds the lock of every such row until it ends.  Commit publishes the whole
copy at once, rollback drops it.  A statement outside a transaction publishes
its write immediately.

A statement that needs a row locked by another transaction waits.  Every
statement reads what is committed at the moment it runs, overlaid with the
uncommitted writes of its own transaction.
-/

namespace Kori.Foundation

/-- The rows of all keyed tables and the append-only table. -/
structure Tables (K : Type) (V : K → Type) (L : Type) where
  rows : AList V
  log : List L

namespace Tables

variable {K : Type} {V : K → Type} {L : Type}

def empty : Tables K V L := ⟨∅, []⟩

def append (t : Tables K V L) (l : L) : Tables K V L :=
  { t with log := t.log ++ [l] }

@[simp] theorem log_empty : (empty : Tables K V L).log = [] := rfl

@[simp] theorem log_append (t : Tables K V L) (l : L) :
    (t.append l).log = t.log ++ [l] := rfl

variable [DecidableEq K]

def row (t : Tables K V L) (k : K) : Option (V k) := t.rows.lookup k

def put (t : Tables K V L) (k : K) (v : V k) : Tables K V L :=
  { t with rows := t.rows.insert k v }

/-- The tables `base` as a transaction with the uncommitted writes `own` sees them. -/
def overlay (own base : Tables K V L) : Tables K V L :=
  ⟨own.rows ∪ base.rows, base.log ++ own.log⟩

@[simp] theorem row_empty (k : K) : (empty : Tables K V L).row k = none := by
  simp [row, empty]

@[simp] theorem row_put_self (t : Tables K V L) (k : K) (v : V k) :
    (t.put k v).row k = some v := by
  simp [row, put]

@[simp] theorem row_put_of_ne {k k' : K} (h : k' ≠ k) (t : Tables K V L) (v : V k) :
    (t.put k v).row k' = t.row k' := by
  simp [row, put, AList.lookup_insert_ne h]

@[simp] theorem row_append (t : Tables K V L) (l : L) (k : K) :
    (t.append l).row k = t.row k := rfl

@[simp] theorem log_put (t : Tables K V L) (k : K) (v : V k) :
    (t.put k v).log = t.log := rfl

theorem row_isSome {t : Tables K V L} {k : K} : (t.row k).isSome ↔ k ∈ t.rows :=
  AList.lookup_isSome

theorem row_overlay_of_some {own : Tables K V L} {k : K} {v : V k}
    (h : own.row k = some v) (base : Tables K V L) :
    (own.overlay base).row k = some v := by
  have hk : k ∈ own.rows := row_isSome.1 (by simp [h])
  simpa [row, overlay, AList.lookup_union_left hk] using h

theorem row_overlay_of_none {own : Tables K V L} {k : K} (h : own.row k = none)
    (base : Tables K V L) : (own.overlay base).row k = base.row k := by
  have hk : k ∉ own.rows := AList.lookup_eq_none.1 h
  simp [row, overlay, AList.lookup_union_right hk]

@[simp] theorem empty_overlay (base : Tables K V L) : empty.overlay base = base := by
  simp [empty, overlay]

@[simp] theorem put_overlay (own base : Tables K V L) (k : K) (v : V k) :
    (own.put k v).overlay base = (own.overlay base).put k v := by
  simp [put, overlay, AList.insert_union]

@[simp] theorem append_overlay (own base : Tables K V L) (l : L) :
    (own.append l).overlay base = (own.overlay base).append l := by
  simp [append, overlay, List.append_assoc]

end Tables

inductive SqlError where
  | uniqueViolation
  | recordNotFound
  | outOfRange
  | other
  deriving DecidableEq, Repr

/--
The committed tables, the row locks and the uncommitted writes of every open
transaction.  Uncommitted writes exist only on rows the writer has locked.
-/
structure Store (K : Type) (V : K → Type) (L P : Type) [DecidableEq K] where
  committed : Tables K V L
  lock : K → Option P
  tx : P → Option (Tables K V L)
  owned : ∀ {p own k}, tx p = some own → k ∈ own.rows → lock k = some p

/-- The statements of a session.  `Q` names what a query reads. -/
inductive Sql (K : Type) (V : K → Type) (L Q : Type) where
  | select (query : Q)
  | lock (k : K)
  | update (k : K) (change : V k → Except SqlError (Option (V k)))
  | insert (k : K) (v : V k)
  | append (l : L)
  | start
  | commit
  | rollback

@[reducible] def Sql.Ans {K : Type} {V : K → Type} {L Q : Type} :
    Sql K V L Q → Type
  | .select _ => Tables K V L
  | .update k _ => Option (V k)
  | .lock _ | .insert _ _ | .append _ | .start | .commit | .rollback => Unit

namespace Store

variable {K : Type} {V : K → Type} {L P Q : Type} [DecidableEq K]

def quiet (tables : Tables K V L) : Store K V L P where
  committed := tables
  lock := fun _ => none
  tx := fun _ => none
  owned := by simp

def view (s : Store K V L P) (p : P) : Tables K V L :=
  match s.tx p with
  | none => s.committed
  | some own => own.overlay s.committed

def Free (s : Store K V L P) (p : P) (k : K) : Prop :=
  s.lock k = none ∨ s.lock k = some p

theorem Free.ne {s : Store K V L P} {p q : P} {k : K} (h : s.Free p k)
    (hq : s.lock k = some q) : q = p := by
  cases h with
  | inl h => simp [h] at hq
  | inr h => simpa [h] using hq.symm

variable [DecidableEq P]

instance (s : Store K V L P) (p : P) (k : K) : Decidable (s.Free p k) :=
  inferInstanceAs (Decidable (_ ∨ _))

def acquire (s : Store K V L P) (p : P) (k : K) (h : s.Free p k) :
    Store K V L P where
  committed := s.committed
  lock := Function.update s.lock k (some p)
  tx := s.tx
  owned := by
    intro q own k' htx hk'
    have hlock := s.owned htx hk'
    by_cases hkk : k' = k
    · subst k'
      simp [h.ne hlock]
    · rw [Function.update_of_ne hkk]
      exact hlock

def write (s : Store K V L P) (p : P) (k : K) (v : V k) (h : s.Free p k) :
    Store K V L P :=
  match htx : s.tx p with
  | none => { s with committed := s.committed.put k v }
  | some own =>
      { committed := s.committed
        lock := Function.update s.lock k (some p)
        tx := Function.update s.tx p (some (own.put k v))
        owned := by
          intro q own' k' hq hk'
          by_cases hqp : q = p
          · subst q
            simp only [Function.update_self, Option.some.injEq] at hq
            subst own'
            by_cases hkk : k' = k
            · subst k'
              simp
            · rw [Function.update_of_ne hkk]
              exact s.owned htx (by simpa [Tables.put, hkk] using hk')
          · rw [Function.update_of_ne hqp] at hq
            have hlock := s.owned hq hk'
            by_cases hkk : k' = k
            · subst k'
              exact absurd (h.ne hlock) hqp
            · rw [Function.update_of_ne hkk]
              exact hlock }

def appendLog (s : Store K V L P) (p : P) (l : L) : Store K V L P :=
  match htx : s.tx p with
  | none => { s with committed := s.committed.append l }
  | some own =>
      { s with
        tx := Function.update s.tx p (some (own.append l))
        owned := by
          intro q own' k hq hk
          by_cases hqp : q = p
          · subst q
            simp only [Function.update_self, Option.some.injEq] at hq
            subst own'
            exact s.owned htx hk
          · rw [Function.update_of_ne hqp] at hq
            exact s.owned hq hk }

def begin (s : Store K V L P) (p : P) : Store K V L P :=
  { s with
    tx := Function.update s.tx p (some .empty)
    owned := by
      intro q own k hq hk
      by_cases hqp : q = p
      · subst q
        simp only [Function.update_self, Option.some.injEq] at hq
        subst own
        simp [Tables.empty] at hk
      · rw [Function.update_of_ne hqp] at hq
        exact s.owned hq hk }

def finish (s : Store K V L P) (p : P) (committed : Tables K V L) :
    Store K V L P where
  committed := committed
  lock := fun k => if s.lock k = some p then none else s.lock k
  tx := Function.update s.tx p none
  owned := by
    intro q own k hq hk
    by_cases hqp : q = p
    · subst q
      simp at hq
    · rw [Function.update_of_ne hqp] at hq
      have hlock := s.owned hq hk
      simp [hlock, hqp]

def commit (s : Store K V L P) (p : P) : Store K V L P :=
  s.finish p (s.view p)

def rollback (s : Store K V L P) (p : P) : Store K V L P :=
  s.finish p s.committed

/-- One statement of `p`; `none` when it has to wait. -/
def exec (s : Store K V L P) (p : P) :
    (q : Sql K V L Q) → Option (Except SqlError q.Ans × Store K V L P)
  | .select _ => some (.ok (s.view p), s)
  | .lock k =>
      if h : s.Free p k then some (.ok (), s.acquire p k h) else none
  | .update k change =>
      if h : s.Free p k then
        match (s.view p).row k with
        | none => some (.ok none, s)
        | some v =>
            match change v with
            | .error e => some (.error e, s)
            | .ok none => some (.ok none, s)
            | .ok (some v') => some (.ok (some v'), s.write p k v' h)
      else none
  | .insert k v =>
      if h : s.Free p k then
        match (s.view p).row k with
        | some _ => some (.error .uniqueViolation, s)
        | none => some (.ok (), s.write p k v h)
      else none
  | .append l => some (.ok (), s.appendLog p l)
  | .start =>
      match s.tx p with
      | none => some (.ok (), s.begin p)
      | some _ => none
  | .commit => some (.ok (), s.commit p)
  | .rollback => some (.ok (), s.rollback p)

/-- A statement that fails.  A transaction whose end fails is rolled back. -/
def fail (s : Store K V L P) (p : P) :
    (q : Sql K V L Q) → Except SqlError q.Ans × Store K V L P
  | .commit => (.error .other, s.rollback p)
  | .rollback => (.error .other, s.rollback p)
  | .select _ | .lock _ | .update _ _ | .insert _ _ | .append _ | .start =>
      (.error .other, s)

/-! ## What a statement does -/

variable {s s' : Store K V L P} {p : P}

theorem exec_lock {k : K} {a : Except SqlError Unit}
    (h : s.exec p (.lock k : Sql K V L Q) = some (a, s')) :
    ∃ hfree : s.Free p k, a = .ok () ∧ s' = s.acquire p k hfree := by
  simp only [exec] at h
  split at h
  · rename_i hfree
    simp only [Option.some.injEq, Prod.mk.injEq] at h
    exact ⟨hfree, h.1.symm, h.2.symm⟩
  · simp at h

theorem exec_insert {k : K} {v : V k} {a : Except SqlError Unit}
    (h : s.exec p (.insert k v : Sql K V L Q) = some (a, s')) :
    ∃ hfree : s.Free p k,
      (a = .error .uniqueViolation ∧ (∃ v₀, (s.view p).row k = some v₀) ∧ s' = s) ∨
      (a = .ok () ∧ (s.view p).row k = none ∧ s' = s.write p k v hfree) := by
  simp only [exec] at h
  split at h
  · rename_i hfree
    refine ⟨hfree, ?_⟩
    split at h <;> rename_i hrow <;>
      simp only [Option.some.injEq, Prod.mk.injEq] at h <;> obtain ⟨rfl, rfl⟩ := h
    · exact .inl ⟨rfl, ⟨_, hrow⟩, rfl⟩
    · exact .inr ⟨rfl, hrow, rfl⟩
  · simp at h

theorem exec_update {k : K} {change : V k → Except SqlError (Option (V k))}
    {a : Except SqlError (Option (V k))}
    (h : s.exec p (.update k change : Sql K V L Q) = some (a, s')) :
    ∃ hfree : s.Free p k,
      (a = .ok none ∧ s' = s ∧ ∀ v, (s.view p).row k = some v → change v = .ok none) ∨
      (∃ v e, (s.view p).row k = some v ∧ change v = .error e ∧ a = .error e ∧ s' = s) ∨
      ∃ v v', (s.view p).row k = some v ∧ change v = .ok (some v') ∧
        a = .ok (some v') ∧ s' = s.write p k v' hfree := by
  simp only [exec] at h
  split at h
  · rename_i hfree
    refine ⟨hfree, ?_⟩
    cases hrow : (s.view p).row k with
    | none =>
        simp only [hrow, Option.some.injEq, Prod.mk.injEq] at h
        exact .inl ⟨h.1.symm, h.2.symm, by simp⟩
    | some v =>
        simp only [hrow] at h
        cases hchange : change v with
        | error e =>
            simp only [hchange, Option.some.injEq, Prod.mk.injEq] at h
            exact .inr (.inl ⟨v, e, rfl, hchange, h.1.symm, h.2.symm⟩)
        | ok result =>
            cases result with
            | none =>
                simp only [hchange, Option.some.injEq, Prod.mk.injEq] at h
                refine .inl ⟨h.1.symm, h.2.symm, ?_⟩
                intro v₁ hv₁
                rw [Option.some.injEq] at hv₁
                exact hv₁ ▸ hchange
            | some v' =>
                simp only [hchange, Option.some.injEq, Prod.mk.injEq] at h
                exact .inr (.inr ⟨v, v', rfl, hchange, h.1.symm, h.2.symm⟩)
  · simp at h

omit [DecidableEq P] in
theorem view_of_idle (h : s.tx p = none) : s.view p = s.committed := by
  unfold view
  split
  · rfl
  · simp_all

omit [DecidableEq P] in
theorem view_of_open {own : Tables K V L} (h : s.tx p = some own) :
    s.view p = own.overlay s.committed := by
  unfold view
  split <;> simp_all

omit [DecidableEq P] in
theorem view_isSome {k : K} (h : (s.committed.row k).isSome) : ((s.view p).row k).isSome := by
  cases htx : s.tx p with
  | none => rwa [view_of_idle htx]
  | some own =>
      rw [view_of_open htx]
      cases hrow : own.row k with
      | none => rwa [Tables.row_overlay_of_none hrow]
      | some v => simp [Tables.row_overlay_of_some hrow]

/-! ## What a statement leaves alone -/

/-- A change by `p` that respects the open transactions of everyone else. -/
structure Frame (p : P) (s s' : Store K V L P) : Prop where
  tx : ∀ q, q ≠ p → s'.tx q = s.tx q
  lock : ∀ k q, q ≠ p → (s'.lock k = some q ↔ s.lock k = some q)
  kept : ∀ k q, q ≠ p → s.lock k = some q →
    s'.committed.row k = s.committed.row k
  log : s.committed.log <+: s'.committed.log

omit [DecidableEq P] in
theorem Frame.refl (p : P) (s : Store K V L P) : Frame p s s :=
  ⟨fun _ _ => rfl, fun _ _ _ => Iff.rfl, fun _ _ _ _ => rfl, List.prefix_refl _⟩

omit [DecidableEq P] in
private theorem update_lock_iff {s : Store K V L P} {p q : P} {k k' : K}
    (h : s.Free p k) (hq : q ≠ p) :
    Function.update s.lock k (some p) k' = some q ↔ s.lock k' = some q := by
  by_cases hkk : k' = k
  · subst k'
    simp only [Function.update_self, Option.some.injEq]
    exact ⟨fun hp => absurd hp.symm hq, fun hlock => absurd (h.ne hlock) hq⟩
  · rw [Function.update_of_ne hkk]

omit [DecidableEq P] in
theorem acquire_frame {s : Store K V L P} {p : P} {k : K} (h : s.Free p k) :
    Frame p s (s.acquire p k h) where
  tx := fun _ _ => rfl
  lock := fun _ _ hq => update_lock_iff h hq
  kept := fun _ _ _ _ => rfl
  log := List.prefix_refl _

theorem write_of_idle {s : Store K V L P} {p : P} {k : K} {v : V k}
    (h : s.Free p k) (htx : s.tx p = none) :
    s.write p k v h = { s with committed := s.committed.put k v } := by
  unfold write
  split
  · rfl
  · simp_all

theorem write_of_open {s : Store K V L P} {p : P} {k : K} {v : V k}
    {own : Tables K V L} (h : s.Free p k) (htx : s.tx p = some own) :
    (s.write p k v h).committed = s.committed ∧
      (s.write p k v h).lock = Function.update s.lock k (some p) ∧
      (s.write p k v h).tx = Function.update s.tx p (some (own.put k v)) := by
  unfold write
  split
  · simp_all
  · rename_i own' htx'
    rw [htx, Option.some.injEq] at htx'
    subst own'
    exact ⟨rfl, rfl, rfl⟩

theorem appendLog_of_open {s : Store K V L P} {p : P} {l : L}
    {own : Tables K V L} (htx : s.tx p = some own) :
    (s.appendLog p l).committed = s.committed ∧
      (s.appendLog p l).lock = s.lock ∧
      (s.appendLog p l).tx = Function.update s.tx p (some (own.append l)) := by
  unfold appendLog
  split
  · simp_all
  · rename_i own' htx'
    rw [htx, Option.some.injEq] at htx'
    subst own'
    exact ⟨rfl, rfl, rfl⟩

theorem write_frame {s : Store K V L P} {p : P} {k : K} (v : V k)
    (h : s.Free p k) : Frame p s (s.write p k v h) := by
  cases htx : s.tx p with
  | none =>
      rw [write_of_idle h htx]
      refine ⟨fun _ _ => rfl, fun _ _ _ => Iff.rfl, ?_, List.prefix_refl _⟩
      intro k' q hq hlock
      refine Tables.row_put_of_ne ?_ _ _
      rintro rfl
      exact hq (h.ne hlock)
  | some own =>
      obtain ⟨hcommitted, hlock, htx'⟩ := write_of_open (v := v) h htx
      refine ⟨?_, ?_, ?_, ?_⟩
      · intro q hq
        rw [htx', Function.update_of_ne hq]
      · intro k' q hq
        rw [hlock]
        exact update_lock_iff h hq
      · intro k' q _ _
        rw [hcommitted]
      · exact ⟨[], by simp [hcommitted]⟩

theorem appendLog_frame (s : Store K V L P) (p : P) (l : L) :
    Frame p s (s.appendLog p l) := by
  cases htx : s.tx p with
  | none =>
      unfold appendLog
      split
      · exact ⟨fun _ _ => rfl, fun _ _ _ => Iff.rfl, fun _ _ _ _ => rfl,
          List.prefix_append _ _⟩
      · simp_all
  | some own =>
      obtain ⟨hcommitted, hlock, htx'⟩ := appendLog_of_open (l := l) htx
      refine ⟨?_, ?_, ?_, ?_⟩
      · intro q hq
        rw [htx', Function.update_of_ne hq]
      · intro k q _
        rw [hlock]
      · intro k q _ _
        rw [hcommitted]
      · exact ⟨[], by simp [hcommitted]⟩

theorem finish_frame {s : Store K V L P} {p : P} {committed : Tables K V L}
    (hkept : ∀ k q, q ≠ p → s.lock k = some q →
      committed.row k = s.committed.row k)
    (hlog : s.committed.log <+: committed.log) :
    Frame p s (s.finish p committed) where
  tx := fun _ hq => Function.update_of_ne hq _ _
  lock := by
    intro k q hq
    change (if s.lock k = some p then none else s.lock k) = some q ↔ _
    split
    · rename_i hp
      simp [hp, Ne.symm hq]
    · exact Iff.rfl
  kept := hkept
  log := hlog

theorem rollback_frame (s : Store K V L P) (p : P) : Frame p s (s.rollback p) :=
  finish_frame (fun _ _ _ _ => rfl) (List.prefix_refl _)

theorem commit_frame (s : Store K V L P) (p : P) : Frame p s (s.commit p) := by
  apply finish_frame
  · intro k q hq hlock
    unfold view
    split
    · rfl
    · rename_i own htx
      apply Tables.row_overlay_of_none
      refine AList.lookup_eq_none.2 fun hk => hq ?_
      simpa [hlock] using s.owned htx hk
  · unfold view
    split
    · exact List.prefix_refl _
    · exact List.prefix_append _ _

theorem begin_frame (s : Store K V L P) (p : P) : Frame p s (s.begin p) where
  tx := fun _ hq => Function.update_of_ne hq _ _
  lock := fun _ _ _ => Iff.rfl
  kept := fun _ _ _ _ => rfl
  log := List.prefix_refl _

theorem exec_frame {s s' : Store K V L P} {p : P} {q : Sql K V L Q}
    {a : Except SqlError q.Ans} (h : s.exec p q = some (a, s')) :
    Frame p s s' := by
  cases q with
  | select query =>
      simp only [exec, Option.some.injEq, Prod.mk.injEq] at h
      obtain ⟨-, rfl⟩ := h
      exact .refl p s
  | lock k =>
      simp only [exec] at h
      split at h
      · rename_i hfree
        simp only [Option.some.injEq, Prod.mk.injEq] at h
        obtain ⟨-, rfl⟩ := h
        exact acquire_frame hfree
      · simp at h
  | update k change =>
      simp only [exec] at h
      split at h
      · rename_i hfree
        split at h
        · simp only [Option.some.injEq, Prod.mk.injEq] at h
          obtain ⟨-, rfl⟩ := h
          exact .refl p s
        · split at h <;> simp only [Option.some.injEq, Prod.mk.injEq] at h <;>
            obtain ⟨-, rfl⟩ := h
          · exact .refl p s
          · exact .refl p s
          · exact write_frame _ hfree
      · simp at h
  | insert k v =>
      simp only [exec] at h
      split at h
      · rename_i hfree
        split at h <;> simp only [Option.some.injEq, Prod.mk.injEq] at h <;>
          obtain ⟨-, rfl⟩ := h
        · exact .refl p s
        · exact write_frame _ hfree
      · simp at h
  | append l =>
      simp only [exec, Option.some.injEq, Prod.mk.injEq] at h
      obtain ⟨-, rfl⟩ := h
      exact appendLog_frame s p l
  | start =>
      simp only [exec] at h
      split at h
      · simp only [Option.some.injEq, Prod.mk.injEq] at h
        obtain ⟨-, rfl⟩ := h
        exact begin_frame s p
      · simp at h
  | commit =>
      simp only [exec, Option.some.injEq, Prod.mk.injEq] at h
      obtain ⟨-, rfl⟩ := h
      exact commit_frame s p
  | rollback =>
      simp only [exec, Option.some.injEq, Prod.mk.injEq] at h
      obtain ⟨-, rfl⟩ := h
      exact rollback_frame s p

theorem fail_frame (s : Store K V L P) (p : P) (q : Sql K V L Q) :
    Frame p s (s.fail p q).2 := by
  cases q with
  | commit => exact rollback_frame s p
  | rollback => exact rollback_frame s p
  | _ => exact .refl p s

end Store

end Kori.Foundation
