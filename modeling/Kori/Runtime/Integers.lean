import Kori.Runtime.Values

/-!
# Integers as numbers

The integers up to 2 ^ 53 are numbers of the runtime themselves, so that they are compared
as integers.
-/

namespace Kori.Runtime

namespace Double

def signed (x : Double) : ℚ := if x.negative then -x.magnitude else x.magnitude

end Double

namespace Number

/-- `x >= y` -/
def atLeast : Number → Number → Bool
  | nan, _ | _, nan => false
  | infinite false, _ | _, infinite true => true
  | infinite true, _ | _, infinite false => false
  | finite x, finite y => y.signed ≤ x.signed

def ofInt (n : Int) : Number := nearest (n < 0) n.natAbs

end Number

section

variable {n m : Int} {a : Nat}

theorem exists_double (negative : Bool) (ha : a ≠ 0) (hbound : a ≤ 2 ^ 53) :
    ∃ x : Double, x.negative = negative ∧ x.significand ≠ 0 ∧ x.magnitude = a := by
  by_cases hlast : a = 2 ^ 53
  · refine ⟨⟨negative, 2 ^ 52, 1, by decide, by decide⟩, rfl, by norm_num, ?_⟩
    rw [Double.magnitude, hlast]
    norm_num
  · have hlog : Nat.log 2 a < 53 := Nat.log_lt_of_lt_pow ha (by omega)
    have hlower : 2 ^ Nat.log 2 a ≤ a := Nat.pow_log_le_self 2 ha
    have hupper : a < 2 ^ (Nat.log 2 a + 1) := Nat.lt_pow_succ_log_self (by decide) a
    generalize hk : Nat.log 2 a = k at hlog hlower hupper
    obtain ⟨d, hd⟩ : ∃ d, k + d = 52 := ⟨52 - k, by omega⟩
    have hpower : 0 < 2 ^ d := Nat.two_pow_pos d
    have hnormal : 2 ^ 52 ≤ a * 2 ^ d := by
      calc 2 ^ 52 = 2 ^ k * 2 ^ d := by rw [← pow_add, hd]
        _ ≤ a * 2 ^ d := Nat.mul_le_mul_right _ hlower
    have hdouble : a * 2 ^ d < 2 ^ 53 := by
      calc a * 2 ^ d < 2 ^ (k + 1) * 2 ^ d := Nat.mul_lt_mul_of_pos_right hupper hpower
        _ = 2 ^ 53 := by rw [← pow_add, show k + 1 + d = 53 by omega]
    refine ⟨⟨negative, a * 2 ^ d, -d, ⟨hdouble, by omega, by omega⟩, .inl hnormal⟩, rfl, ?_, ?_⟩
    · exact Nat.mul_ne_zero ha hpower.ne'
    · rw [Double.magnitude, zpow_neg, zpow_natCast]
      push_cast
      field_simp

theorem ofInt_exact (h : n.natAbs ≤ 2 ^ 53) :
    ∃ x : Double, Number.ofInt n = .finite x ∧ x.signed = n := by
  by_cases hzero : n = 0
  · refine ⟨Double.zero false, ?_, ?_⟩
    · rw [hzero]
      rfl
    · rw [hzero]
      simp [Double.signed, Double.zero, Double.magnitude]
  · obtain ⟨x, hnegative, hne, hmagnitude⟩ :=
      exists_double (n < 0) (Int.natAbs_ne_zero.2 hzero) h
    refine ⟨x, ?_, ?_⟩
    · rw [Number.ofInt, ← hnegative, ← hmagnitude]
      exact nearest_magnitude hne
    · rw [Double.signed, hnegative, hmagnitude]
      by_cases hsign : n < 0
      · have habs : (n.natAbs : Int) = -n := by omega
        rw [decide_eq_true hsign, if_pos rfl, ← Int.cast_natCast, habs]
        simp
      · have habs : (n.natAbs : Int) = n := by omega
        rw [decide_eq_false hsign, if_neg (by decide), ← Int.cast_natCast, habs]

theorem atLeast_ofInt (hn : n.natAbs ≤ 2 ^ 53) (hm : m.natAbs ≤ 2 ^ 53) :
    (Number.ofInt n).atLeast (Number.ofInt m) = decide (n ≥ m) := by
  obtain ⟨x, hx, hsigned⟩ := ofInt_exact hn
  obtain ⟨y, hy, hsigned'⟩ := ofInt_exact hm
  rw [hx, hy, Number.atLeast, hsigned, hsigned']
  simp

/-! ## Texts -/

def natNumeral (a : Nat) : Numeral where
  negative := false
  whole := natText a
  fraction := []
  exponent := 0
  wellFormed := by
    by_cases ha : a = 0
    · rw [ha]
      decide
    · obtain ⟨hne, hfirst, hdigits⟩ := natText_start ha
      exact ⟨hne, fun h => absurd h hfirst, by simpa using hdigits⟩

theorem natNumeral_text (a : Nat) : (natNumeral a).text = natText a := by
  simp [natNumeral, Numeral.text, Numeral.signText, Numeral.fractionText, Numeral.exponentText]

theorem natNumeral_value (a : Nat) : (natNumeral a).value = Number.ofInt a := by
  have hmagnitude : (natNumeral a).magnitude = a := by
    simp [natNumeral, Numeral.magnitude, decimalValue_natText]
  have hsign : ¬(a : Int) < 0 := by omega
  rw [Numeral.value, hmagnitude, Number.ofInt, decide_eq_false hsign, Int.natAbs_natCast]
  rfl

theorem parse_natText (a : Nat) : parse (natText a) = some (.number (Number.ofInt a)) := by
  have htext : natText a = Json.text numerals (.number (natNumeral a)) :=
    (natNumeral_text a).symm
  rw [parse, htext, Json.parse_text, Option.map_some, ofJson, natNumeral_value]

end

end Kori.Runtime
