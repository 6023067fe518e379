import Mathlib.Data.Nat.Digits.Lemmas
import Kori.Domain.Text

/-!
# Decimal numerals

`BigInt` reads a numeral and `toString` writes it.  On the numerals of positive numbers
without leading zeros they are inverse to each other.
-/

namespace Kori

/-- `/^[1-9]\d*$/` -/
def positiveMinorUnitsPattern (s : JsString) : Bool :=
  match s with
  | [] => false
  | first :: rest => 49 ≤ first ∧ first ≤ 57 ∧ rest.all (fun c => 48 ≤ c ∧ c ≤ 57)

def digitValue (c : UInt16) : Option Nat :=
  if 48 ≤ c ∧ c ≤ 57 then some (c.toNat - 48)
  else if 97 ≤ c ∧ c ≤ 102 then some (c.toNat - 87)
  else if 65 ≤ c ∧ c ≤ 70 then some (c.toNat - 55)
  else none

/-- The number that at least one digit of the radix stand for. -/
def parseDigits (radix : Nat) (s : JsString) : Option Nat :=
  if s = [] then none
  else s.foldlM (fun value c =>
    match digitValue c with
    | some digit => if digit < radix then some (value * radix + digit) else none
    | none => none) 0

/-- `BigInt(s)` of a string, `none` where it throws a `SyntaxError`. -/
def bigInt (s : JsString) : Option Int :=
  match trim s with
  | [] => some 0
  | [c] => (parseDigits 10 [c]).map Nat.cast
  | c :: c' :: rest =>
      if c = 43 then (parseDigits 10 (c' :: rest)).map Nat.cast
      else if c = 45 then (parseDigits 10 (c' :: rest)).map fun n : Nat => -(n : Int)
      else if c = 48 ∧ (c' = 120 ∨ c' = 88) then (parseDigits 16 rest).map Nat.cast
      else if c = 48 ∧ (c' = 111 ∨ c' = 79) then (parseDigits 8 rest).map Nat.cast
      else if c = 48 ∧ (c' = 98 ∨ c' = 66) then (parseDigits 2 rest).map Nat.cast
      else (parseDigits 10 (c :: c' :: rest)).map Nat.cast

example : [js "10000000", js " -12 ", js "0x1F", js "", js "1.5", js "--1"].map bigInt =
    [some 10000000, some (-12), some 31, some 0, none, none] := by
  decide +kernel

/-! ## Reading what was written -/

variable {s text : JsString} {c : UInt16} {n value : Nat}

def isDigit (c : UInt16) : Bool := 48 ≤ c ∧ c ≤ 57

theorem isDigit_iff : isDigit c = true ↔ 48 ≤ c.toNat ∧ c.toNat ≤ 57 := by
  simp [isDigit, UInt16.le_iff_toNat_le]

theorem digitValue_of_isDigit (h : isDigit c = true) : digitValue c = some (c.toNat - 48) := by
  simp only [isDigit, decide_eq_true_eq] at h
  simp [digitValue, h]

theorem not_isWhitespace_of_isDigit (h : isDigit c = true) : isWhitespace c = false := by
  rw [isDigit_iff] at h
  simp only [isWhitespace, List.mem_cons, List.not_mem_nil, or_false, decide_eq_false_iff_not]
  omega

theorem trim_of_digits (h : ∀ c ∈ s, isDigit c = true) : trim s = s := by
  have hkept : ∀ t : JsString, (∀ c ∈ t, isDigit c = true) → t.dropWhile isWhitespace = t := by
    intro t ht
    cases t with
    | nil => rfl
    | cons c t => simp [not_isWhitespace_of_isDigit (ht c (.head _))]
  rw [trim, hkept s h, hkept _ (by simpa using h), List.reverse_reverse]

theorem foldlM_digits (h : ∀ c ∈ s, isDigit c = true) :
    s.foldlM (fun value c =>
      match digitValue c with
      | some digit => if digit < 10 then some (value * 10 + digit) else none
      | none => none) value =
    some (Nat.ofDigits 10 (s.map fun c => c.toNat - 48).reverse + 10 ^ s.length * value) := by
  induction s generalizing value with
  | nil => simp
  | cons c s ih =>
      have hc := h c (.head _)
      have hlt : c.toNat - 48 < 10 := by
        have := isDigit_iff.1 hc
        omega
      simp only [List.foldlM_cons, digitValue_of_isDigit hc, hlt, if_true, Option.bind_eq_bind,
        Option.bind_some]
      rw [ih fun d hd => h d (.tail _ hd), List.map_cons, List.reverse_cons,
        Nat.ofDigits_append, Nat.ofDigits_singleton]
      simp only [List.length_reverse, List.length_map, List.length_cons]
      congr 1
      ring

theorem parseDigits_digits (hne : s ≠ []) (h : ∀ c ∈ s, isDigit c = true) :
    parseDigits 10 s = some (Nat.ofDigits 10 (s.map fun c => c.toNat - 48).reverse) := by
  rw [parseDigits, if_neg hne, foldlM_digits h]
  simp

/-- The pattern: digits, the first of which is not 0. -/
theorem pattern_iff : positiveMinorUnitsPattern text = true ↔
    ∃ c s, text = c :: s ∧ c ≠ 48 ∧ ∀ d ∈ text, isDigit d = true := by
  cases text with
  | nil => simp [positiveMinorUnitsPattern]
  | cons c s =>
      have hfirst : (49 ≤ c ∧ c ≤ 57) ↔ c ≠ 48 ∧ isDigit c = true := by
        have hne : c = 48 ↔ c.toNat = 48 := UInt16.toNat_inj.symm
        rw [isDigit_iff, Ne, hne, UInt16.le_iff_toNat_le, UInt16.le_iff_toNat_le]
        simp only [UInt16.reduceToNat]
        omega
      simp only [positiveMinorUnitsPattern, decide_eq_true_eq, ← and_assoc, hfirst]
      simp [isDigit, and_assoc]

theorem bigInt_digits {c : UInt16} (hc : c ≠ 48) (h : ∀ d ∈ c :: s, isDigit d = true) :
    bigInt (c :: s) =
      some ((Nat.ofDigits 10 ((c :: s).map fun c => c.toNat - 48).reverse : Nat) : Int) := by
  have hdigit := isDigit_iff.1 (h c (.head _))
  have hplus : c ≠ 43 := by
    rintro rfl
    simp at hdigit
  have hminus : c ≠ 45 := by
    rintro rfl
    simp at hdigit
  rw [bigInt, trim_of_digits h]
  cases s with
  | nil => simp only [parseDigits_digits (by simp) h, Option.map_some]
  | cons c' rest =>
      simp only [hc, hplus, hminus, false_and, if_false, parseDigits_digits (by simp) h,
        Option.map_some]

theorem bigInt_pattern (h : positiveMinorUnitsPattern text = true) :
    ∃ n : Nat, bigInt text = some (n : Int) ∧ 1 ≤ n ∧ natText n = text := by
  obtain ⟨c, s, rfl, hc, hdigits⟩ := pattern_iff.1 h
  have hsmall : ∀ d ∈ ((c :: s).map fun c => c.toNat - 48).reverse, d < 10 := by
    intro d hd
    simp only [List.mem_reverse, List.mem_map] at hd
    obtain ⟨e, he, rfl⟩ := hd
    have hdigit := isDigit_iff.1 (hdigits e he)
    omega
  have hfirst : c.toNat - 48 ≠ 0 := by
    have hdigit := isDigit_iff.1 (hdigits c (.head _))
    intro hzero
    exact hc (UInt16.toNat_inj.1 (by simpa using by omega))
  have hread := Nat.digits_ofDigits 10 (by decide) _ hsmall fun hne => by simpa using hfirst
  have hpositive : Nat.ofDigits 10 ((c :: s).map fun c => c.toNat - 48).reverse ≠ 0 := by
    intro hzero
    rw [hzero] at hread
    simp at hread
  refine ⟨_, bigInt_digits hc hdigits, Nat.one_le_iff_ne_zero.2 hpositive, ?_⟩
  rw [natText, if_neg hpositive, hread, List.reverse_reverse, List.map_map]
  refine (List.map_congr_left fun d hd => ?_).trans (List.map_id _)
  have hdigit := isDigit_iff.1 (hdigits d hd)
  rw [Function.comp_apply, show 48 + (d.toNat - 48) = d.toNat by omega]
  exact UInt16.ofNat_toNat

theorem natText_digit {d : Nat} (h : d < 10) : (UInt16.ofNat (48 + d)).toNat = 48 + d :=
  UInt16.toNat_ofNat_of_lt' (Nat.lt_of_lt_of_le (by omega : 48 + d < 58) (by decide))

theorem natText_values (hn : n ≠ 0) :
    ((natText n).map fun c => c.toNat - 48).reverse = Nat.digits 10 n := by
  rw [natText, if_neg hn, List.map_map, List.map_reverse, List.reverse_reverse]
  refine (List.map_congr_left fun d hd => ?_).trans (List.map_id _)
  have hlt := Nat.digits_lt_base (by decide) hd
  rw [Function.comp_apply, natText_digit hlt]
  simp

theorem pattern_natText (hn : 1 ≤ n) : positiveMinorUnitsPattern (natText n) = true := by
  have hne : n ≠ 0 := Nat.one_le_iff_ne_zero.1 hn
  have hlast := Nat.getLast_digit_ne_zero 10 hne
  obtain ⟨ds, d, hds⟩ : ∃ ds d, Nat.digits 10 n = ds ++ [d] :=
    ⟨_, _, (List.dropLast_append_getLast (Nat.digits_ne_nil_iff_ne_zero.2 hne)).symm⟩
  have hd : d ≠ 0 := by simpa [hds] using hlast
  rw [pattern_iff, natText, if_neg hne]
  refine ⟨UInt16.ofNat (48 + d), ds.reverse.map fun d => UInt16.ofNat (48 + d), ?_, ?_, ?_⟩
  · simp [hds]
  · intro heq
    have hlt : d < 10 := Nat.digits_lt_base (by decide) (by simp [hds] : d ∈ Nat.digits 10 n)
    have hval := natText_digit hlt
    rw [heq] at hval
    simp at hval
    omega
  · intro c hc
    obtain ⟨e, he, rfl⟩ := List.mem_map.1 hc
    rw [List.mem_reverse] at he
    have hlt := Nat.digits_lt_base (by decide) he
    rw [isDigit_iff, natText_digit hlt]
    omega

theorem bigInt_natText (hn : 1 ≤ n) : bigInt (natText n) = some (n : Int) := by
  obtain ⟨c, s, htext, hc, hdigits⟩ := pattern_iff.1 (pattern_natText hn)
  rw [htext] at hdigits ⊢
  rw [bigInt_digits hc hdigits, ← htext, natText_values (by omega), Nat.ofDigits_digits]

theorem natText_length {k : Nat} (hk : 1 ≤ k) : (natText n).length ≤ k ↔ n < 10 ^ k := by
  by_cases hn : n = 0
  · simp [natText, hn, hk]
  · rw [natText, if_neg hn, List.length_map, List.length_reverse]
    exact Nat.digits_length_le_iff (by decide) n

end Kori
