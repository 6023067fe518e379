import Mathlib.Data.BitVec
import Mathlib.Data.Nat.Digits.Defs

/-!
# Runtime strings and identifiers

A runtime string is its list of UTF-16 code units.  A UUID is a 128-bit number;
`uuidText` is its canonical form with lower-case digits.
-/

namespace Kori

abbrev JsString := List UInt16

abbrev Uuid := BitVec 128

def utf16 (c : Char) : JsString :=
  if c.toNat < 0x10000 then [UInt16.ofNat c.toNat]
  else
    let n := c.toNat - 0x10000
    [UInt16.ofNat (0xD800 + n / 0x400), UInt16.ofNat (0xDC00 + n % 0x400)]

def js (s : String) : JsString := s.toList.flatMap utf16

def natText (n : Nat) : JsString :=
  if n = 0 then [48]
  else (Nat.digits 10 n).reverse.map (fun d => UInt16.ofNat (48 + d))

def intText (n : Int) : JsString :=
  if n < 0 then 45 :: natText n.natAbs else natText n.toNat

def hexDigit (n : Nat) : UInt16 :=
  if n < 10 then UInt16.ofNat (48 + n) else UInt16.ofNat (87 + n)

def hexText (width n : Nat) : JsString :=
  (List.range width).reverse.map (fun i => hexDigit (n / 16 ^ i % 16))

def toUpperCase (s : JsString) : JsString :=
  s.map (fun c => if 97 ≤ c ∧ c ≤ 122 then c - 32 else c)

def uuidText (u : Uuid) : JsString :=
  let digits := hexText 32 u.toNat
  digits.take 8 ++ 45 :: (digits.drop 8).take 4 ++ 45 :: (digits.drop 12).take 4 ++
    45 :: (digits.drop 16).take 4 ++ 45 :: digits.drop 20

theorem hexDigit_inj {a b : Nat} (ha : a < 16) (hb : b < 16) (h : hexDigit a = hexDigit b) :
    a = b := by
  have hall : ∀ a b : Fin 16, hexDigit a = hexDigit b → a = b := by decide
  exact congrArg Fin.val (hall ⟨a, ha⟩ ⟨b, hb⟩ h)

theorem hexText_length (width n : Nat) : (hexText width n).length = width := by
  simp [hexText]

theorem hexText_mod {width n m : Nat} (h : hexText width n = hexText width m) :
    n % 16 ^ width = m % 16 ^ width := by
  have hdigits : ∀ i < width, n / 16 ^ i % 16 = m / 16 ^ i % 16 := by
    intro i hi
    have heq := (List.map_inj_left.1 h) i (by simpa using hi)
    exact hexDigit_inj (Nat.mod_lt _ (by decide)) (Nat.mod_lt _ (by decide)) heq
  clear h
  induction width with
  | zero => simp [Nat.mod_one]
  | succ width ih =>
      rw [Nat.mod_pow_succ, Nat.mod_pow_succ, ih fun i hi => hdigits i (by omega),
        hdigits width (by omega)]

theorem uuidText_inj {u v : Uuid} (h : uuidText u = uuidText v) : u = v := by
  have hu := hexText_length 32 u.toNat
  have hv := hexText_length 32 v.toNat
  have hsame : hexText 32 u.toNat = hexText 32 v.toNat := by
    unfold uuidText at h
    generalize hexText 32 u.toNat = ds at *
    generalize hexText 32 v.toNat = es at *
    simp only [List.append_assoc, List.cons_append] at h
    obtain ⟨h₁, h⟩ := List.append_inj h (by simp [hu, hv])
    obtain ⟨h₂, h⟩ := List.append_inj (List.cons.inj h).2 (by simp [hu, hv])
    obtain ⟨h₃, h⟩ := List.append_inj (List.cons.inj h).2 (by simp [hu, hv])
    obtain ⟨h₄, h⟩ := List.append_inj (List.cons.inj h).2 (by simp [hu, hv])
    have h₅ := (List.cons.inj h).2
    rw [← List.take_append_drop 8 ds, ← List.take_append_drop 8 es, h₁,
      ← List.take_append_drop 4 (ds.drop 8), ← List.take_append_drop 4 (es.drop 8), h₂,
      List.drop_drop, List.drop_drop, ← List.take_append_drop 4 (ds.drop 12),
      ← List.take_append_drop 4 (es.drop 12), h₃, List.drop_drop, List.drop_drop,
      ← List.take_append_drop 4 (ds.drop 16), ← List.take_append_drop 4 (es.drop 16), h₄,
      List.drop_drop, List.drop_drop, h₅]
  have hmod := hexText_mod hsame
  have hlt : ∀ w : Uuid, w.toNat % 16 ^ 32 = w.toNat := fun w =>
    Nat.mod_eq_of_lt (by have := w.isLt; omega)
  rw [hlt, hlt] at hmod
  exact BitVec.eq_of_toNat_eq hmod

/-- The code units that `String.prototype.trim` removes. -/
def isWhitespace (c : UInt16) : Bool :=
  c.toNat ∈ [9, 10, 11, 12, 13, 32, 0xA0, 0x1680, 0x2028, 0x2029, 0x202F, 0x205F,
    0x3000, 0xFEFF] ∨ (0x2000 ≤ c.toNat ∧ c.toNat ≤ 0x200A)

def trim (s : JsString) : JsString :=
  ((s.dropWhile isWhitespace).reverse.dropWhile isWhitespace).reverse

/-- `padStart(width, '0')` -/
def padStart (width : Nat) (s : JsString) : JsString :=
  List.replicate (width - s.length) 48 ++ s

/-- `slice(-n)` -/
def sliceEnd (n : Nat) (s : JsString) : JsString := s.drop (s.length - n)

/-- A `Date`: the time itself and the calendar date it falls on locally. -/
structure Instant where
  ms : Nat
  fullYear : Nat
  month : Nat
  date : Nat
  deriving DecidableEq, Repr

def generateTrxId (now : Instant) (random : BitVec 32) : JsString :=
  let year := sliceEnd 2 (natText now.fullYear)
  let month := padStart 2 (natText (now.month + 1))
  let day := padStart 2 (natText now.date)
  let randomHex := toUpperCase (hexText 8 random.toNat)
  js "TX-" ++ year ++ month ++ day ++ 45 :: randomHex

example : generateTrxId ⟨0, 2026, 9, 5⟩ 0xAB12#32 = js "TX-261005-0000AB12" := by
  decide +kernel

end Kori
