import Mathlib.Algebra.BigOperators.Group.Finset.Basic
import Mathlib.Algebra.Ring.Int.Defs
import Kori.Foundation.RowStore

/-!
# Sums over all rows

What a write does to the sum of some amount over all rows of a table.
-/

namespace Kori.Foundation

namespace Tables

variable {K : Type} {V : K → Type} {L : Type}
variable (amount : (k : K) → V k → Int)

def sum (t : Tables K V L) : Int :=
  (t.rows.entries.map fun entry => amount entry.1 entry.2).sum

@[simp] theorem sum_append (t : Tables K V L) (l : L) :
    (t.append l).sum amount = t.sum amount := rfl

variable [DecidableEq K]

def amountAt (t : Tables K V L) (k : K) : Int :=
  match t.row k with
  | some v => amount k v
  | none => 0

variable {amount}

theorem amountAt_of_some {t : Tables K V L} {k : K} {v : V k} (h : t.row k = some v) :
    t.amountAt amount k = amount k v := by
  simp [amountAt, h]

theorem amountAt_of_none {t : Tables K V L} {k : K} (h : t.row k = none) :
    t.amountAt amount k = 0 := by
  simp [amountAt, h]

theorem sum_put (amount : (k : K) → V k → Int) (t : Tables K V L) (k : K) (v : V k) :
    (t.put k v).sum amount + t.amountAt amount k = t.sum amount + amount k v := by
  have hentries : (t.put k v).sum amount =
      amount k v + ((t.rows.entries.kerase k).map fun entry =>
        amount entry.1 entry.2).sum := by
    simp [sum, put, AList.insert, List.kinsert]
  rw [hentries]
  cases hrow : t.row k with
  | none =>
      have hk : k ∉ t.rows.entries.keys := AList.lookup_eq_none.1 hrow
      rw [amountAt_of_none hrow, List.kerase_of_notMem_keys hk]
      unfold sum
      omega
  | some v₀ =>
      have hk : k ∈ t.rows.entries.keys := row_isSome.1 (by simp [hrow] : (t.row k).isSome)
      obtain ⟨v₁, before, after, -, hsplit, herase⟩ := List.exists_of_kerase hk
      have hv : v₀ = v₁ := by
        have hmem : ⟨k, v₁⟩ ∈ t.rows.entries := by simp [hsplit]
        have hlookup := (List.mem_dlookup_iff t.rows.nodupKeys).2 hmem
        exact Option.some.inj (hrow.symm.trans hlookup)
      rw [amountAt_of_some hrow, herase, hv]
      unfold sum
      rw [hsplit]
      simp only [List.map_append, List.map_cons, List.sum_append, List.sum_cons]
      omega

theorem sum_put_of_zero {t : Tables K V L} {k : K} {v : V k}
    (h : ∀ v, amount k v = 0) : (t.put k v).sum amount = t.sum amount := by
  have hput := t.sum_put amount k v
  have hold : t.amountAt amount k = 0 := by
    unfold amountAt
    split <;> simp [h]
  rw [hold, h v] at hput
  omega

theorem sum_eq_finset (t : Tables K V L) (keys : Finset K) (h : ∀ k ∈ t.rows, k ∈ keys) :
    t.sum amount = ∑ k ∈ keys, t.amountAt amount k := by
  have hkeys : t.rows.entries.map (fun entry => amount entry.1 entry.2) =
      t.rows.keys.map fun k => t.amountAt amount k := by
    unfold AList.keys List.keys
    rw [List.map_map]
    refine List.map_congr_left fun entry hentry => ?_
    exact (amountAt_of_some (AList.mem_lookup_iff.2 hentry)).symm
  unfold sum
  rw [hkeys, ← List.sum_toFinset _ t.rows.keys_nodup]
  refine Finset.sum_subset (fun k hk => h k (List.mem_toFinset.1 hk)) fun k _ hk => ?_
  exact amountAt_of_none (AList.lookup_eq_none.2 fun hmem => hk (List.mem_toFinset.2 hmem))

theorem sum_congr {t t' : Tables K V L}
    (h : ∀ k, t'.amountAt amount k = t.amountAt amount k) : t'.sum amount = t.sum amount := by
  rw [t.sum_eq_finset (t.rows.keys.toFinset ∪ t'.rows.keys.toFinset),
    t'.sum_eq_finset (t.rows.keys.toFinset ∪ t'.rows.keys.toFinset)]
  · exact Finset.sum_congr rfl fun k _ => h k
  · exact fun k hk => Finset.mem_union_right _ (List.mem_toFinset.2 hk)
  · exact fun k hk => Finset.mem_union_left _ (List.mem_toFinset.2 hk)

end Tables

end Kori.Foundation
