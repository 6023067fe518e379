import Mathlib.Data.List.Basic

/-!
# Trails

A list of items that lead from one value to another, each from where the item
before it ended.
-/

namespace Kori.Foundation

variable {α β : Type} {R : β → α → β → Prop}

/-- The items of the list lead from the first value to the last. -/
def Trail (R : β → α → β → Prop) : β → List α → β → Prop
  | b, [], b' => b = b'
  | b, a :: as, b' => ∃ m, R b a m ∧ Trail R m as b'

theorem Trail.append {b m b' : β} {as as' : List α} (h : Trail R b as m)
    (h' : Trail R m as' b') : Trail R b (as ++ as') b' := by
  induction as generalizing b with
  | nil =>
      obtain rfl : b = m := h
      exact h'
  | cons first as ih =>
      obtain ⟨next, hfirst, hrest⟩ := h
      exact ⟨next, hfirst, ih hrest⟩

theorem Trail.concat {b m b' : β} {as : List α} {a : α} (h : Trail R b as m)
    (ha : R m a b') : Trail R b (as ++ [a]) b' :=
  h.append ⟨b', ha, rfl⟩

theorem Trail.end_mem {b b' : β} {as : List α} {stop : α → β}
    (hR : ∀ b a b', R b a b' → b' = stop a) (h : Trail R b as b') :
    b' ∈ b :: as.map stop := by
  induction as generalizing b with
  | nil =>
      obtain rfl : b = b' := h
      exact List.mem_singleton_self _
  | cons a as ih =>
      obtain ⟨m, ha, hrest⟩ := h
      obtain rfl := hR b a m ha
      exact List.mem_cons_of_mem _ (ih hrest)

/-- Where every item starts at a value that it determines, and ends at another, the
starting points are among the values reached. -/
theorem Trail.starts_sublist {b b' : β} {as : List α} {start stop : α → β}
    (hR : ∀ b a b', R b a b' → b = start a ∧ b' = stop a) (h : Trail R b as b') :
    (as.map start).Sublist (b :: as.map stop) := by
  induction as generalizing b with
  | nil => simp
  | cons a as ih =>
      obtain ⟨m, ha, hrest⟩ := h
      obtain ⟨rfl, rfl⟩ := hR b a m ha
      exact (ih hrest).cons_cons _

end Kori.Foundation
