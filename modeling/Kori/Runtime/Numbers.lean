import Mathlib.Data.Int.Log
import Mathlib.Data.Rat.Floor
import Mathlib.Tactic.FieldSimp
import Mathlib.Tactic.Ring
import Kori.Domain.Numerals

/-!
# Numbers

The numbers of the runtime, how they are written and how a numeral is read.  A numeral
stands for a rational number, and is read as the binary64 number nearest to it; a number
is written with as few digits as are read back as the number itself.
-/

namespace Kori.Runtime

/-- A finite binary64 number, `± significand * 2 ^ exponent`. -/
structure Double where
  negative : Bool
  significand : Nat
  exponent : Int
  bounded : significand < 2 ^ 53 ∧ -1074 ≤ exponent ∧ exponent ≤ 971
  normal : 2 ^ 52 ≤ significand ∨ exponent = -1074
  deriving DecidableEq

inductive Number where
  | finite (x : Double)
  | infinite (negative : Bool)
  | nan
  deriving DecidableEq

namespace Double

def magnitude (x : Double) : ℚ := x.significand * 2 ^ x.exponent

def zero (negative : Bool) : Double := ⟨negative, 0, -1074, by decide, by decide⟩

def unsignedZero (x : Double) : Double := if x.significand = 0 then zero false else x

end Double

/-! ## Rounding -/

def halfEven (q : ℚ) : Nat :=
  let below := ⌊q⌋₊
  if q - below < 1 / 2 then below
  else if 1 / 2 < q - below then below + 1
  else if below % 2 = 0 then below
  else below + 1

def ofParts (negative : Bool) (significand : Nat) (exponent : Int) : Number :=
  if h : (significand < 2 ^ 53 ∧ -1074 ≤ exponent ∧ exponent ≤ 971) ∧
      (2 ^ 52 ≤ significand ∨ exponent = -1074) then
    .finite ⟨negative, significand, exponent, h.1, h.2⟩
  else .infinite negative

/-- The number that `± q` is rounded to. -/
def nearest (negative : Bool) (q : ℚ) : Number :=
  if q = 0 then .finite (Double.zero negative)
  else
    let exponent := max (Int.log 2 q) (-1022) - 52
    let significand := halfEven (q / 2 ^ exponent)
    -- rounding up may carry into the next power of two
    if significand = 2 ^ 53 then ofParts negative (2 ^ 52) (exponent + 1)
    else ofParts negative significand exponent

example : nearest false (1 / 10) =
    .finite ⟨false, 7205759403792794, -56, by decide, by decide⟩ := by
  decide +kernel

section

variable {x : Double}

theorem halfEven_natCast (n : Nat) : halfEven (n : ℚ) = n := by
  simp [halfEven]

theorem log_magnitude (h : x.significand ≠ 0) :
    max (Int.log 2 x.magnitude) (-1022) - 52 = x.exponent := by
  have hpower : (0 : ℚ) < 2 ^ x.exponent := zpow_pos (by norm_num) _
  have hpos : 0 < x.magnitude := mul_pos (by exact_mod_cast Nat.pos_of_ne_zero h) hpower
  have hupper : Int.log 2 x.magnitude < x.exponent + 53 := by
    apply (Int.lt_zpow_iff_log_lt (by decide) hpos).1
    have hlt : (x.significand : ℚ) < 2 ^ 53 := by exact_mod_cast x.bounded.1
    have hscaled := mul_lt_mul_of_pos_right hlt hpower
    calc x.magnitude < 2 ^ 53 * 2 ^ x.exponent := hscaled
      _ = ((2 : Nat) : ℚ) ^ (x.exponent + 53) := by
          rw [Nat.cast_two, add_comm, zpow_add₀ (by norm_num)]
          norm_num
  have hexponent := x.bounded.2.1
  cases x.normal with
  | inr hleast => omega
  | inl hnormal =>
      have hlower : x.exponent + 52 ≤ Int.log 2 x.magnitude := by
        apply (Int.zpow_le_iff_le_log (by decide) hpos).1
        have hle : (2 : ℚ) ^ 52 ≤ x.significand := by exact_mod_cast hnormal
        have hscaled := mul_le_mul_of_nonneg_right hle hpower.le
        calc ((2 : Nat) : ℚ) ^ (x.exponent + 52) = 2 ^ 52 * 2 ^ x.exponent := by
              rw [Nat.cast_two, add_comm, zpow_add₀ (by norm_num)]
              norm_num
          _ ≤ x.magnitude := hscaled
      omega

theorem nearest_magnitude (h : x.significand ≠ 0) :
    nearest x.negative x.magnitude = .finite x := by
  have hpower : (2 : ℚ) ^ x.exponent ≠ 0 := zpow_ne_zero _ (by norm_num)
  have hne : x.magnitude ≠ 0 := mul_ne_zero (by exact_mod_cast h) hpower
  have hscaled : x.magnitude / 2 ^ x.exponent = x.significand := by
    rw [Double.magnitude, mul_div_assoc, div_self hpower, mul_one]
  have hcarry : x.significand ≠ 2 ^ 53 := by
    have := x.bounded.1
    omega
  simp only [nearest, if_neg hne, log_magnitude h, hscaled, halfEven_natCast, if_neg hcarry]
  rw [ofParts, dif_pos ⟨x.bounded, x.normal⟩]

end

/-! ## The shortest decimal -/

namespace Double

def exact (x : Double) : Nat × Int :=
  if 0 ≤ x.exponent then (x.significand * 2 ^ x.exponent.toNat, 0)
  else (x.significand * 5 ^ (-x.exponent).toNat, x.exponent)

/-- The two neighbours of `s * 10 ^ t` without its last `dropped` digits, the nearer first. -/
def neighbours (s : Nat) (t : Int) (dropped : Nat) : List (Nat × Int) :=
  let below := s / 10 ^ dropped
  let above := below + 1
  let exponent := t + dropped
  let lower := (below, exponent)
  -- a digit more than wanted: 9 is followed by 10
  let upper := if above % 10 = 0 then (above / 10, exponent + 1) else (above, exponent)
  let remainder := s % 10 ^ dropped
  if 2 * remainder < 10 ^ dropped ∨ 2 * remainder = 10 ^ dropped ∧ below % 2 = 0 then
    [lower, upper]
  else [upper, lower]

def candidates (x : Double) : List (Nat × Int) :=
  (List.range (natText x.exact.1).length).reverse.flatMap (neighbours x.exact.1 x.exact.2)

def shortest (x : Double) : Nat × Int :=
  (x.candidates.find? fun decimal =>
    nearest x.negative (decimal.1 * 10 ^ decimal.2) = .finite x).getD x.exact

example : shortest ⟨false, 7205759403792794, -56, by decide, by decide⟩ = (1, -1) := by
  decide +kernel

theorem exact_magnitude (x : Double) :
    (x.exact.1 : ℚ) * 10 ^ x.exact.2 = x.magnitude := by
  unfold exact magnitude
  split
  · next hexponent =>
      have hcast : (x.exponent.toNat : Int) = x.exponent := Int.toNat_of_nonneg hexponent
      rw [zpow_zero, mul_one, Nat.cast_mul, Nat.cast_pow, Nat.cast_two, ← zpow_natCast, hcast]
  · next hexponent =>
      have hcast : x.exponent = -((-x.exponent).toNat : Int) := by omega
      have hpower : ((10 : ℚ) ^ (-x.exponent).toNat) =
          2 ^ (-x.exponent).toNat * 5 ^ (-x.exponent).toNat := by
        rw [← mul_pow]
        norm_num
      rw [hcast]
      simp only [zpow_neg, zpow_natCast, neg_neg, Int.toNat_natCast, hpower]
      push_cast
      field_simp

theorem nearest_shortest {x : Double} (h : x.significand ≠ 0) :
    nearest x.negative (x.shortest.1 * 10 ^ x.shortest.2) = .finite x := by
  unfold shortest
  cases hfound : x.candidates.find? _ with
  | none =>
      rw [Option.getD_none, exact_magnitude]
      exact nearest_magnitude h
  | some decimal =>
      have hread := List.find?_some hfound
      exact of_decide_eq_true hread

theorem shortest_pos (x : Double) (h : x.significand ≠ 0) : 0 < x.shortest.1 := by
  have hread := nearest_shortest h
  apply Nat.pos_of_ne_zero
  intro hzero
  rw [hzero] at hread
  simp only [Nat.cast_zero, zero_mul, nearest, if_true] at hread
  rw [Number.finite.injEq] at hread
  rw [← hread] at h
  exact h rfl

end Double

/-! ## Numerals -/

def decimalValue (digits : JsString) : Nat :=
  Nat.ofDigits 10 (digits.map fun c => c.toNat - 48).reverse

def WellFormed (whole fraction : JsString) : Prop :=
  whole ≠ [] ∧ (whole.head? = some 48 → whole.length = 1) ∧
    ∀ c ∈ whole ++ fraction, isDigit c = true

instance (whole fraction : JsString) : Decidable (WellFormed whole fraction) :=
  have := List.decidableBAll (fun c => isDigit c = true) (whole ++ fraction)
  inferInstanceAs (Decidable (_ ∧ _ ∧ _))

/-- A numeral as JSON has them.  Without a fraction or an exponent the field is empty or 0. -/
structure Numeral where
  negative : Bool
  whole : JsString
  fraction : JsString
  exponent : Int
  wellFormed : WellFormed whole fraction
  deriving DecidableEq

namespace Numeral

def magnitude (n : Numeral) : ℚ :=
  decimalValue (n.whole ++ n.fraction) * 10 ^ (n.exponent - n.fraction.length)

def value (n : Numeral) : Number := nearest n.negative n.magnitude

def signText (negative : Bool) : JsString := if negative then [45] else []

def fractionText (digits : JsString) : JsString := if digits = [] then [] else 46 :: digits

def exponentText (e : Int) : JsString :=
  if e = 0 then [] else 101 :: (if e < 0 then 45 else 43) :: natText e.natAbs

def text (n : Numeral) : JsString :=
  signText n.negative ++ (n.whole ++ (fractionText n.fraction ++ exponentText n.exponent))

/-- Where the point stands, `n` digits from the left, as `Number.prototype.toString` has it:
the integer part, the fraction and the exponent. -/
def layout (digits : JsString) (n : Int) : JsString × JsString × Int :=
  let k : Int := digits.length
  if k ≤ n ∧ n ≤ 21 then (digits ++ List.replicate (n - k).toNat 48, [], 0)
  else if 0 < n ∧ n ≤ 21 then (digits.take n.toNat, digits.drop n.toNat, 0)
  else if -6 < n ∧ n ≤ 0 then ([48], List.replicate (-n).toNat 48 ++ digits, 0)
  else (digits.take 1, digits.drop 1, n - 1)

end Numeral

section

variable {digits more : JsString} {n : Int}

theorem decimalValue_append (digits more : JsString) :
    decimalValue (digits ++ more) =
      decimalValue digits * 10 ^ more.length + decimalValue more := by
  simp only [decimalValue, List.map_append, List.reverse_append, Nat.ofDigits_append,
    List.length_reverse, List.length_map]
  ring

theorem decimalValue_zeros (n : Nat) : decimalValue (List.replicate n 48) = 0 := by
  induction n with
  | zero => rfl
  | succ n ih =>
      rw [List.replicate_succ', decimalValue_append, ih]
      rfl

theorem decimalValue_natText (n : Nat) : decimalValue (natText n) = n := by
  by_cases hn : n = 0
  · rw [hn]
    rfl
  · rw [decimalValue, natText_values hn, Nat.ofDigits_digits]

theorem natText_start {n : Nat} (hn : n ≠ 0) :
    natText n ≠ [] ∧ (natText n).head? ≠ some 48 ∧ ∀ c ∈ natText n, isDigit c = true := by
  obtain ⟨c, s, htext, hc, hdigits⟩ :=
    pattern_iff.1 (pattern_natText (Nat.pos_of_ne_zero hn))
  refine ⟨by simp [htext], ?_, hdigits⟩
  rw [htext]
  simpa using hc

theorem zeros_digits (n : Nat) : ∀ c ∈ List.replicate n (48 : UInt16), isDigit c = true := by
  intro c hc
  rw [List.eq_of_mem_replicate hc]
  decide

namespace Numeral

theorem layout_wellFormed (hdigits : ∀ c ∈ digits, isDigit c = true)
    (hne : digits ≠ []) (hfirst : digits.head? ≠ some 48) :
    WellFormed (layout digits n).1 (layout digits n).2.1 := by
  have hsplit : ∀ k, digits.take k ++ digits.drop k = digits :=
    fun k => List.take_append_drop k digits
  obtain ⟨c, s, rfl⟩ := List.exists_cons_of_ne_nil hne
  have hc : c ≠ 48 := by simpa using hfirst
  unfold layout
  simp only
  split_ifs with hwhole hpoint hzeros
  · refine ⟨by simp, fun h => absurd (by simpa using h) hc, ?_⟩
    intro d hd
    simp only [List.append_nil, List.mem_append] at hd
    exact hd.elim (hdigits d) (zeros_digits _ d)
  · obtain ⟨k, hk⟩ : ∃ k, n.toNat = k + 1 := ⟨n.toNat - 1, by omega⟩
    refine ⟨by simp [hk], fun h => absurd (by simpa [hk] using h) hc, ?_⟩
    rw [hsplit]
    exact hdigits
  · refine ⟨by simp, fun _ => rfl, ?_⟩
    intro d hd
    simp only [List.mem_append, List.mem_singleton] at hd
    rcases hd with rfl | hd | hd
    · decide
    · exact zeros_digits _ d hd
    · exact hdigits d hd
  · refine ⟨by simp, fun h => absurd (by simpa using h) hc, ?_⟩
    rw [hsplit]
    exact hdigits

theorem layout_magnitude (digits : JsString) (n : Int) :
    (decimalValue ((layout digits n).1 ++ (layout digits n).2.1) : ℚ) *
        10 ^ ((layout digits n).2.2 - (layout digits n).2.1.length) =
      decimalValue digits * 10 ^ (n - digits.length) := by
  unfold layout
  simp only
  split_ifs with hwhole hpoint hzeros
  · have hcast : n - (digits.length : Int) = ((n - digits.length).toNat : Int) := by omega
    rw [List.append_nil, decimalValue_append, decimalValue_zeros, List.length_replicate, hcast]
    simp
  · rw [List.take_append_drop, List.length_drop]
    congr 2
    dsimp only
    omega
  · rw [decimalValue_append, decimalValue_append, decimalValue_zeros]
    have hzero : decimalValue [48] = 0 := rfl
    rw [hzero, zero_mul, zero_mul, zero_add, zero_add, List.length_append,
      List.length_replicate]
    congr 2
    dsimp only
    omega
  · rw [List.take_append_drop, List.length_drop]
    by_cases hnil : digits = []
    · rw [hnil]
      simp [decimalValue]
    · have := List.length_pos_iff.2 hnil
      congr 2
      dsimp only
      omega

/-! ### Writing -/

def ofDecimal (negative : Bool) (s : Nat) (t : Int) (h : s ≠ 0) : Numeral where
  negative := negative
  whole := (layout (natText s) (t + (natText s).length)).1
  fraction := (layout (natText s) (t + (natText s).length)).2.1
  exponent := (layout (natText s) (t + (natText s).length)).2.2
  wellFormed :=
    layout_wellFormed (natText_start h).2.2 (natText_start h).1 (natText_start h).2.1

theorem ofDecimal_magnitude (negative : Bool) {s : Nat} (t : Int) (h : s ≠ 0) :
    (ofDecimal negative s t h).magnitude = s * 10 ^ t := by
  refine (layout_magnitude _ _).trans ?_
  rw [decimalValue_natText, add_sub_cancel_right]

def zero : Numeral := ⟨false, [48], [], 0, by decide⟩

end Numeral

/-- `Number.prototype.toString`: both zeros are written `0`. -/
def Double.numeral (x : Double) : Numeral :=
  if h : x.significand = 0 then Numeral.zero
  else Numeral.ofDecimal x.negative x.shortest.1 x.shortest.2 (x.shortest_pos h).ne'

/-- What is written is read back, up to the sign of zero. -/
theorem Double.numeral_value (x : Double) : x.numeral.value = .finite x.unsignedZero := by
  unfold Double.numeral Double.unsignedZero
  split
  · decide +kernel
  · next h =>
      rw [Numeral.value, Numeral.ofDecimal_magnitude]
      exact nearest_shortest h

theorem Double.numeral_unsignedZero (x : Double) : x.unsignedZero.numeral = x.numeral := by
  unfold Double.unsignedZero
  split
  · next h =>
      unfold Double.numeral
      rw [dif_pos h]
      rfl
  · rfl

example :
    ([⟨false, 6755399441055744, -52, by decide, by decide⟩,
      ⟨true, 4768371582031250, 17, by decide, by decide⟩,
      ⟨false, 1, -1074, by decide, by decide⟩] : List Double).map (fun x => x.numeral.text) =
    [js "1.5", js "-625000000000000000000", js "5e-324"] := by
  decide +kernel

end

/-! ## Reading a numeral -/

namespace Numeral

def readSign : JsString → Bool × JsString
  | [] => (false, [])
  | c :: rest => if c = 45 then (true, rest) else (false, c :: rest)

def readFraction : JsString → Option (JsString × JsString)
  | [] => some ([], [])
  | c :: rest =>
      if c = 46 then
        if rest.takeWhile isDigit = [] then none
        else some (rest.takeWhile isDigit, rest.dropWhile isDigit)
      else some ([], c :: rest)

def readExponentDigits (negative : Bool) (s : JsString) : Option (Int × JsString) :=
  if s.takeWhile isDigit = [] then none
  else
    let n : Int := decimalValue (s.takeWhile isDigit)
    some (if negative then -n else n, s.dropWhile isDigit)

def readExponent : JsString → Option (Int × JsString)
  | [] => some (0, [])
  | e :: rest =>
      if e = 101 ∨ e = 69 then
        match rest with
        | [] => none
        | c :: digits =>
            if c = 45 then readExponentDigits true digits
            else if c = 43 then readExponentDigits false digits
            else readExponentDigits false (c :: digits)
      else some (0, e :: rest)

def read (s : JsString) : Option (Numeral × JsString) := do
  let (negative, s) := readSign s
  let whole := s.takeWhile isDigit
  let (fraction, s) ← readFraction (s.dropWhile isDigit)
  let (exponent, s) ← readExponent s
  if h : WellFormed whole fraction then some (⟨negative, whole, fraction, exponent, h⟩, s)
  else none

def Delimited (rest : JsString) : Prop :=
  ∀ c ∈ rest.head?, isDigit c = false ∧ c ≠ 46 ∧ c ≠ 101 ∧ c ≠ 69

end Numeral

section

variable {digits rest : JsString}

theorem takeWhile_digits (hdigits : ∀ c ∈ digits, isDigit c = true)
    (hrest : ∀ c ∈ rest.head?, isDigit c = false) :
    (digits ++ rest).takeWhile isDigit = digits := by
  rw [List.takeWhile_append_of_pos hdigits]
  cases rest with
  | nil => simp
  | cons c rest => simp [hrest c rfl]

theorem dropWhile_digits (hdigits : ∀ c ∈ digits, isDigit c = true)
    (hrest : ∀ c ∈ rest.head?, isDigit c = false) :
    (digits ++ rest).dropWhile isDigit = rest := by
  rw [List.dropWhile_append_of_pos hdigits]
  cases rest with
  | nil => rfl
  | cons c rest => simp [hrest c rfl]

namespace Numeral

theorem read_exponentText (hrest : Delimited rest) (e : Int) :
    readExponent (exponentText e ++ rest) = some (e, rest) := by
  by_cases he : e = 0
  · rw [exponentText, if_pos he, he, List.nil_append]
    cases rest with
    | nil => rfl
    | cons c rest =>
        have hc := hrest c rfl
        simp [readExponent, hc]
  · obtain ⟨hne, -, hdigits⟩ := natText_start (Int.natAbs_ne_zero.2 he)
    have hstop : ∀ c ∈ rest.head?, isDigit c = false := fun c hc => (hrest c hc).1
    rw [exponentText, if_neg he]
    by_cases hnegative : e < 0
    · simp [readExponent, readExponentDigits, hnegative, abs_of_neg hnegative, hne,
        takeWhile_digits hdigits hstop, dropWhile_digits hdigits hstop, decimalValue_natText]
    · have hnonneg : 0 ≤ e := by omega
      simp [readExponent, readExponentDigits, hnegative, abs_of_nonneg hnonneg, hne,
        takeWhile_digits hdigits hstop, dropWhile_digits hdigits hstop, decimalValue_natText]

theorem exponentText_start (hrest : Delimited rest) (e : Int) :
    ∀ c ∈ (exponentText e ++ rest).head?, isDigit c = false ∧ c ≠ 46 := by
  by_cases he : e = 0
  · rw [exponentText, if_pos he, List.nil_append]
    exact fun c hc => ⟨(hrest c hc).1, (hrest c hc).2.1⟩
  · rw [exponentText, if_neg he]
    intro c hc
    rw [List.cons_append, List.head?_cons, Option.mem_some_iff] at hc
    rw [← hc]
    decide

theorem read_fractionText (hdigits : ∀ c ∈ digits, isDigit c = true)
    (hrest : ∀ c ∈ rest.head?, isDigit c = false ∧ c ≠ 46) :
    readFraction (fractionText digits ++ rest) = some (digits, rest) := by
  have hstop : ∀ c ∈ rest.head?, isDigit c = false := fun c hc => (hrest c hc).1
  by_cases hnil : digits = []
  · rw [fractionText, if_pos hnil, hnil, List.nil_append]
    cases rest with
    | nil => rfl
    | cons c rest => simp [readFraction, (hrest c rfl).2]
  · rw [fractionText, if_neg hnil]
    simp [readFraction, takeWhile_digits hdigits hstop, dropWhile_digits hdigits hstop, hnil]

theorem fractionText_start (hrest : ∀ c ∈ rest.head?, isDigit c = false ∧ c ≠ 46) :
    ∀ c ∈ (fractionText digits ++ rest).head?, isDigit c = false := by
  by_cases hnil : digits = []
  · rw [fractionText, if_pos hnil, List.nil_append]
    exact fun c hc => (hrest c hc).1
  · rw [fractionText, if_neg hnil]
    intro c hc
    rw [List.cons_append, List.head?_cons, Option.mem_some_iff] at hc
    rw [← hc]
    decide

theorem read_signText (hdigits : ∀ c ∈ digits, isDigit c = true) (hne : digits ≠ [])
    (negative : Bool) :
    readSign (signText negative ++ (digits ++ rest)) = (negative, digits ++ rest) := by
  obtain ⟨c, s, rfl⟩ := List.exists_cons_of_ne_nil hne
  cases negative with
  | true => rfl
  | false =>
      have hc : c ≠ 45 := by
        rintro rfl
        exact absurd (hdigits 45 (.head _)) (by decide)
      simp [signText, readSign, hc]

/-- A numeral is read back from its text. -/
theorem read_text (n : Numeral) (hrest : Delimited rest) :
    read (n.text ++ rest) = some (n, rest) := by
  obtain ⟨hne, -, hdigits⟩ := n.wellFormed
  have hwhole : ∀ c ∈ n.whole, isDigit c = true :=
    fun c hc => hdigits c (List.mem_append_left _ hc)
  have hfraction : ∀ c ∈ n.fraction, isDigit c = true :=
    fun c hc => hdigits c (List.mem_append_right _ hc)
  have hafterFraction := exponentText_start hrest n.exponent
  have hafterWhole : ∀ c ∈ (fractionText n.fraction ++ (exponentText n.exponent ++ rest)).head?,
      isDigit c = false := fractionText_start hafterFraction
  simp only [read, text, List.append_assoc, read_signText hwhole hne,
    takeWhile_digits hwhole hafterWhole, dropWhile_digits hwhole hafterWhole,
    read_fractionText hfraction hafterFraction, read_exponentText hrest,
    Option.bind_eq_bind, Option.bind_some, dif_pos n.wellFormed]

theorem text_start (n : Numeral) :
    ∃ c s, n.text = c :: s ∧ (c = 45 ∨ isDigit c = true) := by
  obtain ⟨hne, -, hdigits⟩ := n.wellFormed
  obtain ⟨c, s, hwhole⟩ := List.exists_cons_of_ne_nil hne
  cases hnegative : n.negative with
  | true =>
      refine ⟨45, n.whole ++ (fractionText n.fraction ++ exponentText n.exponent), ?_, .inl rfl⟩
      simp [text, signText, hnegative]
  | false =>
      refine ⟨c, s ++ (fractionText n.fraction ++ exponentText n.exponent), ?_, .inr ?_⟩
      · simp [text, signText, hnegative, hwhole]
      · exact hdigits c (by simp [hwhole])

end Numeral

end

end Kori.Runtime
