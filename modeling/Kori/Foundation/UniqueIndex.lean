import Kori.Foundation.RowStore

/-!
# Unique indexes

A unique index maps each value of a column to the row that holds it.  Rows for
which the column is null are not indexed.
-/

namespace Kori.Foundation

variable {ι κ V : Type}

/-- `index` is the unique index over `column` of the rows `row`. -/
structure Indexed (row : ι → Option V) (index : κ → Option ι)
    (column : V → Option κ) : Prop where
  entry : ∀ i v c, row i = some v → column v = some c → index c = some i
  target : ∀ c i, index c = some i → ∃ v, row i = some v ∧ column v = some c

theorem indexed_empty (column : V → Option κ) :
    Indexed (fun _ : ι => none) (fun _ => none) column where
  entry := by simp
  target := by simp

namespace Indexed

variable {row : ι → Option V} {index : κ → Option ι} {column : V → Option κ}

theorem unique (h : Indexed row index column) {i j : ι} {v w : V} {c : κ}
    (hi : row i = some v) (hj : row j = some w) (hv : column v = some c)
    (hw : column w = some c) : i = j := by
  have hci := h.entry i v c hi hv
  have hcj := h.entry j w c hj hw
  exact Option.some.inj (hci.symm.trans hcj)

variable [DecidableEq ι]

theorem update (h : Indexed row index column) {i : ι} {v v' : V}
    (hv : row i = some v) (hcolumn : column v' = column v) :
    Indexed (Function.update row i (some v')) index column where
  entry := by
    intro j w c hj hw
    by_cases hji : j = i
    · subst j
      simp only [Function.update_self, Option.some.injEq] at hj
      subst w
      exact h.entry i v c hv (hcolumn ▸ hw)
    · rw [Function.update_of_ne hji] at hj
      exact h.entry j w c hj hw
  target := by
    intro c j hc
    obtain ⟨w, hw, hwc⟩ := h.target c j hc
    by_cases hji : j = i
    · subst j
      rw [hv, Option.some.injEq] at hw
      subst w
      exact ⟨v', Function.update_self .., hcolumn.trans hwc⟩
    · exact ⟨w, by rw [Function.update_of_ne hji]; exact hw, hwc⟩

theorem insert [DecidableEq κ] (h : Indexed row index column) {i : ι} {v : V} {c : κ}
    (hi : row i = none) (hc : index c = none) (hcolumn : column v = some c) :
    Indexed (Function.update row i (some v)) (Function.update index c (some i))
      column where
  entry := by
    intro j w c' hj hw
    by_cases hji : j = i
    · subst j
      simp only [Function.update_self, Option.some.injEq] at hj
      subst w
      rw [hcolumn, Option.some.injEq] at hw
      subst c'
      exact Function.update_self ..
    · rw [Function.update_of_ne hji] at hj
      have hc' := h.entry j w c' hj hw
      have hne : c' ≠ c := by
        rintro rfl
        simp [hc] at hc'
      rwa [Function.update_of_ne hne]
  target := by
    intro c' j hc'
    by_cases hcc : c' = c
    · subst c'
      simp only [Function.update_self, Option.some.injEq] at hc'
      subst j
      exact ⟨v, Function.update_self .., hcolumn⟩
    · rw [Function.update_of_ne hcc] at hc'
      obtain ⟨w, hw, hwc⟩ := h.target c' j hc'
      have hne : j ≠ i := by
        rintro rfl
        simp [hi] at hw
      exact ⟨w, by rwa [Function.update_of_ne hne], hwc⟩

theorem insert_null (h : Indexed row index column) {i : ι} {v : V} (hi : row i = none)
    (hcolumn : column v = none) :
    Indexed (Function.update row i (some v)) index column where
  entry := by
    intro j w c hj hw
    by_cases hji : j = i
    · subst j
      simp only [Function.update_self, Option.some.injEq] at hj
      subst w
      simp [hcolumn] at hw
    · rw [Function.update_of_ne hji] at hj
      exact h.entry j w c hj hw
  target := by
    intro c j hc
    obtain ⟨w, hw, hwc⟩ := h.target c j hc
    have hne : j ≠ i := by
      rintro rfl
      simp [hi] at hw
    exact ⟨w, by rwa [Function.update_of_ne hne], hwc⟩

end Indexed

namespace Tables

variable {K : Type} {W : K → Type} {L : Type} [DecidableEq K] [DecidableEq ι]

theorem rows_put {key : ι → K} (hkey : Function.Injective key) (t : Tables K W L)
    (j : ι) (v : W (key j)) :
    (fun i => (t.put (key j) v).row (key i)) =
      Function.update (fun i => t.row (key i)) j (some v) := by
  funext i
  by_cases hij : i = j
  · subst i
    simp
  · rw [Function.update_of_ne hij, row_put_of_ne (fun h => hij (hkey h))]

end Tables

end Kori.Foundation
