import Mathlib.Algebra.Order.BigOperators.Group.List
import Mathlib.Algebra.Order.Ring.Abs
import Mathlib.Algebra.Ring.Parity
import Mathlib.Tactic.Linarith
import Mathlib.Tactic.Ring

/-!
# Rounding to the nearest integer, ties to even

What it means that an integer is a quotient rounded half to even: it is determined by
the quotient, it is monotone, and the errors of many roundings add up to at most half a
unit for each.
-/

namespace Kori.Foundation

/-- `r` is a nearest integer to `n / d`, and the even one where there are two. -/
structure NearestEven (n d r : Int) : Prop where
  near : 2 * |n - r * d| ≤ d
  even : 2 * |n - r * d| = d → Even r

namespace NearestEven

variable {n n' d r r' : Int}

theorem bounds (h : NearestEven n d r) : (2 * r - 1) * d ≤ 2 * n ∧ 2 * n ≤ (2 * r + 1) * d := by
  have hnear := h.near
  have hle := le_abs_self (n - r * d)
  have hge := neg_abs_le (n - r * d)
  constructor
  · linarith
  · linarith

theorem even_of_lower (h : NearestEven n d r) (heq : 2 * n = (2 * r - 1) * d) : Even r := by
  apply h.even
  have hnear := h.near
  have hge := neg_abs_le (n - r * d)
  linarith

theorem even_of_upper (h : NearestEven n d r) (heq : 2 * n = (2 * r + 1) * d) : Even r := by
  apply h.even
  have hnear := h.near
  have hle := le_abs_self (n - r * d)
  linarith

theorem mono (hd : 0 < d) (h : NearestEven n d r) (h' : NearestEven n' d r') (hle : n ≤ n') :
    r ≤ r' := by
  by_contra hlt
  have hgap : r' + 1 ≤ r := by omega
  have hscaled : (2 * r' + 1) * d ≤ (2 * r - 1) * d :=
    mul_le_mul_of_nonneg_right (by omega) hd.le
  obtain ⟨hlower, -⟩ := h.bounds
  obtain ⟨-, hupper⟩ := h'.bounds
  -- both quotients are the midpoint between `r'` and `r`, which are both even
  have hsame : (2 * r' + 1) * d = (2 * r - 1) * d := by linarith
  have hnext : 2 * r' + 1 = 2 * r - 1 := Int.eq_of_mul_eq_mul_right hd.ne' hsame
  have heven := h.even_of_lower (by linarith)
  have heven' := h'.even_of_upper (by linarith)
  obtain ⟨k, hk⟩ := heven
  obtain ⟨k', hk'⟩ := heven'
  omega

theorem unique (hd : 0 < d) (h : NearestEven n d r) (h' : NearestEven n d r') : r = r' :=
  le_antisymm (mono hd h h' le_rfl) (mono hd h' h le_rfl)

/-- The rounding errors of a list add up to at most half a unit for each member. -/
theorem sum_error {ns rs : List Int} (h : List.Forall₂ (NearestEven · d ·) ns rs) :
    2 * |d * rs.sum - ns.sum| ≤ d * ns.length := by
  have htwice : ∀ a : Int, 2 * |a| = |2 * a| := fun a => by rw [abs_mul, abs_two]
  rw [htwice]
  induction h with
  | nil => simp
  | @cons n r ns rs hfirst _ ih =>
      obtain ⟨hlower, hupper⟩ := hfirst.bounds
      rw [abs_le] at ih ⊢
      simp only [List.sum_cons, List.length_cons, Nat.cast_add, Nat.cast_one]
      constructor
      · linarith [ih.1]
      · linarith [ih.2]

/-! ## Rounding by division

`q` is the quotient rounded down and `m` the remainder. -/

variable {q m : Int}

theorem abs_remainder (heq : n = q * d + m) (hm : 0 ≤ m) : |n - q * d| = m := by
  rw [show n - q * d = m by linarith]
  exact abs_of_nonneg hm

theorem abs_complement (heq : n = q * d + m) (hm : m ≤ d) : |n - (q + 1) * d| = d - m := by
  rw [show n - (q + 1) * d = -(d - m) by linarith, abs_neg]
  exact abs_of_nonneg (by omega)

theorem below (heq : n = q * d + m) (hm : 0 ≤ m) (hbelow : 2 * m < d) : NearestEven n d q := by
  constructor
  · rw [abs_remainder heq hm]
    omega
  · rw [abs_remainder heq hm]
    omega

theorem above (heq : n = q * d + m) (hm : m < d) (habove : d < 2 * m) :
    NearestEven n d (q + 1) := by
  constructor
  · rw [abs_complement heq hm.le]
    omega
  · rw [abs_complement heq hm.le]
    omega

theorem tie_even (heq : n = q * d + m) (hm : 0 ≤ m) (htie : 2 * m = d) (heven : Even q) :
    NearestEven n d q := by
  constructor
  · rw [abs_remainder heq hm]
    omega
  · exact fun _ => heven

theorem tie_odd (heq : n = q * d + m) (hm : 0 ≤ m) (htie : 2 * m = d) (hodd : ¬Even q) :
    NearestEven n d (q + 1) := by
  constructor
  · rw [abs_complement heq (by omega)]
    omega
  · exact fun _ => (Int.not_even_iff_odd.1 hodd).add_one

end NearestEven

end Kori.Foundation
