import Mathlib.Data.List.Infix
import Kori.Domain.Numerals

/-!
# JSON texts

A JSON text as a tree, how `JSON.stringify` writes it and how `JSON.parse` reads it.  The
numerals are of any type that has a syntax of its own.
-/

namespace Kori.Runtime

inductive Json (N : Type) where
  | null
  | boolean (b : Bool)
  | number (n : N)
  | string (s : JsString)
  | array (items : List (Json N))
  | object (members : List (JsString × Json N))

def Separated (rest : JsString) : Prop := ∀ c ∈ rest.head?, c = 44 ∨ c = 93 ∨ c = 125

structure NumberSyntax (N : Type) where
  write : N → JsString
  read : JsString → Option (N × JsString)
  write_start : ∀ n, ∃ c s, write n = c :: s ∧ (c = 45 ∨ isDigit c = true)
  read_write : ∀ n rest, Separated rest → read (write n ++ rest) = some (n, rest)

/-! ## Strings -/

def isHighSurrogate (c : UInt16) : Bool := 0xD800 ≤ c ∧ c ≤ 0xDBFF

def isLowSurrogate (c : UInt16) : Bool := 0xDC00 ≤ c ∧ c ≤ 0xDFFF

def unicodeEscape (c : UInt16) : JsString := 92 :: 117 :: hexText 4 c.toNat

/-- One code unit in a string, where a surrogate stands alone. -/
def escape (c : UInt16) : JsString :=
  if c = 8 then [92, 98]
  else if c = 9 then [92, 116]
  else if c = 10 then [92, 110]
  else if c = 12 then [92, 102]
  else if c = 13 then [92, 114]
  else if c = 34 then [92, 34]
  else if c = 92 then [92, 92]
  else if c < 32 ∨ isHighSurrogate c ∨ isLowSurrogate c then unicodeEscape c
  else [c]

def quoteUnits : JsString → JsString
  | c :: d :: rest =>
      if isHighSurrogate c ∧ isLowSurrogate d then c :: d :: quoteUnits rest
      else escape c ++ quoteUnits (d :: rest)
  | [c] => escape c
  | [] => []

def quote (s : JsString) : JsString := 34 :: (quoteUnits s ++ [34])

def simpleEscape (e : UInt16) : Option UInt16 :=
  if e = 34 then some 34
  else if e = 92 then some 92
  else if e = 47 then some 47
  else if e = 98 then some 8
  else if e = 102 then some 12
  else if e = 110 then some 10
  else if e = 114 then some 13
  else if e = 116 then some 9
  else none

def putUnit (c : UInt16) (read : JsString × JsString) : JsString × JsString :=
  (c :: read.1, read.2)

/-- The string up to the closing quotation mark, and what follows it. -/
def readUnits : JsString → Option (JsString × JsString)
  | [] => none
  | c :: s =>
      if c = 34 then some ([], s)
      else if c = 92 then
        match s with
        | [] => none
        | e :: s =>
            if e = 117 then
              match s with
              | h₃ :: h₂ :: h₁ :: h₀ :: s =>
                  match parseDigits 16 [h₃, h₂, h₁, h₀] with
                  | some n => (readUnits s).map (putUnit (UInt16.ofNat n))
                  | none => none
              | _ => none
            else
              match simpleEscape e with
              | some unit => (readUnits s).map (putUnit unit)
              | none => none
      else if c < 32 then none
      else (readUnits s).map (putUnit c)
termination_by structural s => s

section

variable {c : UInt16} {s rest : JsString}

theorem digitValue_hexDigit (n : Nat) : digitValue (hexDigit (n % 16)) = some (n % 16) := by
  have hall : ∀ d : Fin 16, digitValue (hexDigit d) = some (d : Nat) := by decide
  exact hall ⟨n % 16, Nat.mod_lt n (by decide)⟩

theorem parse_hexText {n : Nat} (hn : n < 65536) : parseDigits 16 (hexText 4 n) = some n := by
  have hvalue : (((n / 16 ^ 3 % 16) * 16 + n / 16 ^ 2 % 16) * 16 + n / 16 ^ 1 % 16) * 16 +
      n / 16 ^ 0 % 16 = n := by
    norm_num
    omega
  have hlt : ∀ m, m % 16 < 16 := fun m => Nat.mod_lt m (by decide)
  have hread : parseDigits 16 (hexText 4 n) =
      some ((((n / 16 ^ 3 % 16) * 16 + n / 16 ^ 2 % 16) * 16 + n / 16 ^ 1 % 16) * 16 +
        n / 16 ^ 0 % 16) := by
    simp [parseDigits, hexText, List.range, List.range.loop, digitValue_hexDigit, hlt]
  rw [hread, hvalue]

theorem readUnits_unicodeEscape (c : UInt16) (s : JsString) :
    readUnits (unicodeEscape c ++ s) = (readUnits s).map (putUnit c) := by
  have hread := parse_hexText (n := c.toNat) c.toNat_lt
  have hdigits : hexText 4 c.toNat =
      [hexDigit (c.toNat / 16 ^ 3 % 16), hexDigit (c.toNat / 16 ^ 2 % 16),
        hexDigit (c.toNat / 16 ^ 1 % 16), hexDigit (c.toNat / 16 ^ 0 % 16)] := rfl
  rw [hdigits] at hread
  rw [unicodeEscape, hdigits]
  simp only [List.cons_append, List.nil_append, readUnits, hread, UInt16.ofNat_toNat]
  rfl

theorem readUnits_simpleEscape {e unit : UInt16} (he : e ≠ 117)
    (hescape : simpleEscape e = some unit) (s : JsString) :
    readUnits (92 :: e :: s) = (readUnits s).map (putUnit unit) := by
  rw [readUnits.eq_def]
  simp [he, hescape]

theorem readUnits_escape (c : UInt16) (s : JsString) :
    readUnits (escape c ++ s) = (readUnits s).map (putUnit c) := by
  unfold escape
  split_ifs with h₁ h₂ h₃ h₄ h₅ hquote hbackslash hhidden
  · rw [h₁]
    exact readUnits_simpleEscape (by decide) rfl s
  · rw [h₂]
    exact readUnits_simpleEscape (by decide) rfl s
  · rw [h₃]
    exact readUnits_simpleEscape (by decide) rfl s
  · rw [h₄]
    exact readUnits_simpleEscape (by decide) rfl s
  · rw [h₅]
    exact readUnits_simpleEscape (by decide) rfl s
  · rw [hquote]
    exact readUnits_simpleEscape (by decide) rfl s
  · rw [hbackslash]
    exact readUnits_simpleEscape (by decide) rfl s
  · exact readUnits_unicodeEscape c s
  · have hvisible : ¬c < 32 := fun hlt => hhidden (.inl hlt)
    rw [List.singleton_append, readUnits.eq_def]
    simp only [hquote, hbackslash, hvisible, if_false]

theorem readUnits_surrogate (hc : isHighSurrogate c = true ∨ isLowSurrogate c = true)
    (s : JsString) : readUnits (c :: s) = (readUnits s).map (putUnit c) := by
  have hlarge : 0xD800 ≤ c.toNat := by
    simp only [isHighSurrogate, isLowSurrogate, decide_eq_true_eq, UInt16.le_iff_toNat_le] at hc
    simp only [UInt16.reduceToNat] at hc
    omega
  have hquote : c ≠ 34 := by
    rintro rfl
    simp at hlarge
  have hbackslash : c ≠ 92 := by
    rintro rfl
    simp at hlarge
  have hvisible : ¬c < 32 := by
    rw [UInt16.lt_iff_toNat_lt]
    simp only [UInt16.reduceToNat]
    omega
  rw [readUnits.eq_def]
  simp only [hquote, hbackslash, hvisible, if_false]

theorem readUnits_end (rest : JsString) : readUnits (34 :: rest) = some ([], rest) := by
  rw [readUnits.eq_def]
  rfl

theorem readUnits_quoteUnits (s rest : JsString) :
    readUnits (quoteUnits s ++ 34 :: rest) = some (s, rest) := by
  induction s using quoteUnits.induct with
  | case1 c d s hpair ih =>
      rw [quoteUnits, if_pos hpair, List.cons_append, List.cons_append,
        readUnits_surrogate (.inl hpair.1), readUnits_surrogate (.inr hpair.2), ih]
      rfl
  | case2 c d s hpair ih =>
      rw [quoteUnits, if_neg hpair, List.append_assoc, readUnits_escape, ih]
      rfl
  | case3 c =>
      rw [quoteUnits, readUnits_escape, readUnits_end]
      rfl
  | case4 => exact readUnits_end rest

end

/-! ## Values -/

def skip (s : JsString) : JsString := s.dropWhile fun c => c = 32 ∨ c = 9 ∨ c = 10 ∨ c = 13

def commaSeparated (texts : List JsString) : JsString := [44].intercalate texts

namespace Json

variable {N : Type}

mutual

def text (numbers : NumberSyntax N) : Json N → JsString
  | null => js "null"
  | boolean true => js "true"
  | boolean false => js "false"
  | number n => numbers.write n
  | string s => quote s
  | array items => 91 :: (commaSeparated (texts numbers items) ++ [93])
  | object members => 123 :: (commaSeparated (memberTexts numbers members) ++ [125])

def texts (numbers : NumberSyntax N) : List (Json N) → List JsString
  | [] => []
  | item :: items => text numbers item :: texts numbers items

def memberTexts (numbers : NumberSyntax N) : List (JsString × Json N) → List JsString
  | [] => []
  | (key, value) :: members =>
      (quote key ++ 58 :: text numbers value) :: memberTexts numbers members

end

def readSequence {α : Type} (one : JsString → Option (α × JsString)) (close : UInt16) :
    Nat → JsString → Option (List α × JsString)
  | 0, _ => none
  | n + 1, s => do
      let (a, s) ← one s
      match skip s with
      | [] => none
      | c :: s =>
          if c = 44 then (readSequence one close n s).map fun (as, s) => (a :: as, s)
          else if c = close then some ([a], s)
          else none

def readBracketed {α : Type} (one : JsString → Option (α × JsString)) (close : UInt16)
    (s : JsString) : Option (List α × JsString) :=
  match skip s with
  | [] => none
  | c :: rest =>
      if c = close then some ([], rest) else readSequence one close (rest.length + 1) (c :: rest)

def readMember (readValue : JsString → Option (Json N × JsString)) (s : JsString) :
    Option ((JsString × Json N) × JsString) :=
  match skip s with
  | [] => none
  | c :: s =>
      if c = 34 then do
        let (key, s) ← readUnits s
        match skip s with
        | [] => none
        | colon :: s =>
            if colon = 58 then (readValue s).map fun (value, s) => ((key, value), s)
            else none
      else none

/-- A value, nested at most `depth` times, and what follows it. -/
def readValue (numbers : NumberSyntax N) : Nat → JsString → Option (Json N × JsString)
  | 0, _ => none
  | depth + 1, s =>
      match skip s with
      | [] => none
      | c :: s =>
          if c = 34 then (readUnits s).map fun (units, s) => (string units, s)
          else if c = 91 then
            (readBracketed (readValue numbers depth) 93 s).map fun (items, s) => (array items, s)
          else if c = 123 then
            (readBracketed (readMember (readValue numbers depth)) 125 s).map
              fun (members, s) => (object members, s)
          else if js "null" <+: c :: s then some (null, s.drop 3)
          else if js "true" <+: c :: s then some (boolean true, s.drop 3)
          else if js "false" <+: c :: s then some (boolean false, s.drop 4)
          else (numbers.read (c :: s)).map fun (n, s) => (number n, s)

/-- `JSON.parse`, `none` where it throws a `SyntaxError`. -/
def parse (numbers : NumberSyntax N) (s : JsString) : Option (Json N) :=
  match readValue numbers s.length s with
  | some (value, rest) => if skip rest = [] then some value else none
  | none => none

@[elab_as_elim, induction_eliminator]
theorem induction {P : Json N → Prop} (null : P null) (boolean : ∀ b, P (boolean b))
    (number : ∀ n, P (number n)) (string : ∀ s, P (string s))
    (array : ∀ items, (∀ item ∈ items, P item) → P (array items))
    (object : ∀ members, (∀ member ∈ members, P member.2) → P (object members))
    (j : Json N) : P j :=
  @Json.rec N P (fun items => ∀ item ∈ items, P item)
    (fun members => ∀ member ∈ members, P member.2) (fun member => P member.2)
    null boolean number string array object
    (by simp) (fun _ _ hitem hitems => List.forall_mem_cons.2 ⟨hitem, hitems⟩)
    (by simp) (fun _ _ hmember hmembers => List.forall_mem_cons.2 ⟨hmember, hmembers⟩)
    (fun _ _ hvalue => hvalue) j

end Json

/-! ## Reading what was written -/

def Starts (s : JsString) : Prop :=
  ∃ c rest, s = c :: rest ∧ c ≠ 93 ∧ c ≠ 125 ∧ ∀ more, skip (c :: more) = c :: more

section

variable {c : UInt16} {s rest : JsString}

theorem skip_cons (h : c ≠ 32 ∧ c ≠ 9 ∧ c ≠ 10 ∧ c ≠ 13) (s : JsString) :
    skip (c :: s) = c :: s := by
  simp [skip, h]

theorem separated_cons (h : c = 44 ∨ c = 93 ∨ c = 125) (s : JsString) : Separated (c :: s) := by
  intro d hd
  rw [List.head?_cons, Option.mem_some_iff] at hd
  rwa [← hd]

theorem starts_cons (h : c ≠ 93 ∧ c ≠ 125 ∧ c ≠ 32 ∧ c ≠ 9 ∧ c ≠ 10 ∧ c ≠ 13) (s : JsString) :
    Starts (c :: s) :=
  ⟨c, s, rfl, h.1, h.2.1, skip_cons h.2.2⟩

namespace Json

variable {N α : Type} {numbers : NumberSyntax N}

theorem texts_eq (items : List (Json N)) : texts numbers items = items.map (text numbers) := by
  induction items with
  | nil => rfl
  | cons item items ih => rw [texts, ih, List.map_cons]

def memberText (numbers : NumberSyntax N) (member : JsString × Json N) : JsString :=
  quote member.1 ++ 58 :: text numbers member.2

theorem memberTexts_eq (members : List (JsString × Json N)) :
    memberTexts numbers members = members.map (memberText numbers) := by
  induction members with
  | nil => rfl
  | cons member members ih =>
      obtain ⟨key, value⟩ := member
      rw [memberTexts, ih, List.map_cons]
      rfl

theorem text_starts (j : Json N) : Starts (text numbers j) := by
  cases j with
  | null => exact starts_cons (by decide) _
  | boolean b => cases b <;> exact starts_cons (by decide) _
  | string s => exact starts_cons (by decide) _
  | array items => exact starts_cons (by decide) _
  | object members => exact starts_cons (by decide) _
  | number n =>
      obtain ⟨c, s, hwrite, hc⟩ := numbers.write_start n
      rw [text, hwrite]
      apply starts_cons
      cases hc with
      | inl hminus =>
          rw [hminus]
          decide
      | inr hdigit =>
          refine ⟨?_, ?_, ?_, ?_, ?_, ?_⟩ <;>
            (rintro rfl; exact absurd hdigit (by decide))

theorem memberText_starts (member : JsString × Json N) : Starts (memberText numbers member) :=
  starts_cons (by decide) _

section

variable {one : JsString → Option (α × JsString)} {write : α → JsString} {close : UInt16}
  {as : List α} {n : Nat}

theorem readSequence_text (hclose : close = 93 ∨ close = 125) (hne : as ≠ [])
    (hone : ∀ a ∈ as, ∀ rest, Separated rest → one (write a ++ rest) = some (a, rest))
    (hn : (commaSeparated (as.map write)).length < n) :
    readSequence one close n (commaSeparated (as.map write) ++ close :: rest) =
      some (as, rest) := by
  have hbracket : close ≠ 44 ∧ skip (close :: rest) = close :: rest := by
    rcases hclose with rfl | rfl
    · exact ⟨by decide, skip_cons (by decide) rest⟩
    · exact ⟨by decide, skip_cons (by decide) rest⟩
  induction as generalizing n with
  | nil => exact absurd rfl hne
  | cons a as ih =>
      obtain ⟨n, rfl⟩ : ∃ m, n = m + 1 := ⟨n - 1, by omega⟩
      have hfirst := hone a (.head _)
      cases as with
      | nil =>
          have htext : commaSeparated ([a].map write) = write a := by simp [commaSeparated]
          rw [htext, readSequence, hfirst _ (separated_cons (by tauto) rest)]
          simp [hbracket]
      | cons b as =>
          have htext : commaSeparated ((a :: b :: as).map write) =
              write a ++ 44 :: commaSeparated ((b :: as).map write) := by
            simp [commaSeparated, List.intercalate]
          rw [htext, List.length_append, List.length_cons] at hn
          have hlater := ih (by simp) (fun c hc => hone c (.tail _ hc)) (n := n) (by omega)
          rw [htext, List.append_assoc, List.cons_append, readSequence,
            hfirst _ (separated_cons (.inl rfl) _)]
          simp only [Option.bind_eq_bind, Option.bind_some, skip_cons (c := 44) (by decide),
            if_true, hlater, Option.map_some]

theorem readBracketed_text (hclose : close = 93 ∨ close = 125)
    (hstart : ∀ a, Starts (write a))
    (hone : ∀ a ∈ as, ∀ rest, Separated rest → one (write a ++ rest) = some (a, rest)) :
    readBracketed one close (commaSeparated (as.map write) ++ close :: rest) =
      some (as, rest) := by
  cases as with
  | nil =>
      have hbracket : skip (close :: rest) = close :: rest := by
        rcases hclose with rfl | rfl
        · exact skip_cons (by decide) rest
        · exact skip_cons (by decide) rest
      simp [commaSeparated, readBracketed, hbracket]
  | cons a as =>
      obtain ⟨c, tail, hwrite, h₉₃, h₁₂₅, hskip⟩ := hstart a
      obtain ⟨more, hmore⟩ : ∃ more, commaSeparated ((a :: as).map write) = c :: more := by
        cases as with
        | nil => exact ⟨tail, by simp [commaSeparated, hwrite]⟩
        | cons b as => exact ⟨_, by simp [commaSeparated, List.intercalate, hwrite]; rfl⟩
      have hread : readSequence one close ((more ++ close :: rest).length + 1)
          (commaSeparated ((a :: as).map write) ++ close :: rest) = some (a :: as, rest) :=
        readSequence_text hclose (List.cons_ne_nil a as) hone (by rw [hmore]; simp)
      rw [hmore, List.cons_append] at hread ⊢
      have hopen : c ≠ close := by
        rcases hclose with rfl | rfl
        · exact h₉₃
        · exact h₁₂₅
      simp only [readBracketed, hskip, if_neg hopen, hread]

end

theorem readMember_text {readValue : JsString → Option (Json N × JsString)}
    {member : JsString × Json N} {rest : JsString}
    (hvalue : ∀ rest, Separated rest →
      readValue (text numbers member.2 ++ rest) = some (member.2, rest))
    (hrest : Separated rest) :
    readMember readValue (memberText numbers member ++ rest) = some (member, rest) := by
  have htext : memberText numbers member ++ rest =
      34 :: (quoteUnits member.1 ++ 34 :: 58 :: (text numbers member.2 ++ rest)) := by
    simp [memberText, quote]
  rw [htext, readMember, skip_cons (by decide)]
  simp only [if_true, readUnits_quoteUnits, Option.bind_eq_bind, Option.bind_some,
    skip_cons (c := 58) (by decide), hvalue rest hrest, Option.map_some]

theorem length_le_commaSeparated {ts : List JsString} {t : JsString} (h : t ∈ ts) :
    t.length ≤ (commaSeparated ts).length := by
  induction ts with
  | nil => exact absurd h (by simp)
  | cons first ts ih =>
      cases ts with
      | nil =>
          rw [List.mem_singleton.1 h]
          simp [commaSeparated]
      | cons second ts =>
          have htext : commaSeparated (first :: second :: ts) =
              first ++ 44 :: commaSeparated (second :: ts) := by
            simp [commaSeparated, List.intercalate]
          rw [htext, List.length_append, List.length_cons]
          cases List.mem_cons.1 h with
          | inl hfirst =>
              rw [hfirst]
              omega
          | inr hlater =>
              have := ih hlater
              omega

theorem literal_null : js "null" = [110, 117, 108, 108] := by decide

theorem literal_true : js "true" = [116, 114, 117, 101] := by decide

theorem literal_false : js "false" = [102, 97, 108, 115, 101] := by decide

theorem readValue_number (n : N) {depth : Nat} {rest : JsString} (hrest : Separated rest) :
    readValue numbers (depth + 1) (numbers.write n ++ rest) = some (number n, rest) := by
  obtain ⟨c, s, hwrite, hc⟩ := numbers.write_start n
  have hread := numbers.read_write n rest hrest
  rw [hwrite, List.cons_append] at hread ⊢
  have hother : c ≠ 34 ∧ c ≠ 91 ∧ c ≠ 123 ∧ c ≠ 110 ∧ c ≠ 116 ∧ c ≠ 102 ∧
      (c ≠ 32 ∧ c ≠ 9 ∧ c ≠ 10 ∧ c ≠ 13) := by
    cases hc with
    | inl hminus =>
        rw [hminus]
        decide
    | inr hdigit =>
        refine ⟨?_, ?_, ?_, ?_, ?_, ?_, ?_, ?_, ?_, ?_⟩ <;>
          (rintro rfl; exact absurd hdigit (by decide))
  obtain ⟨h₃₄, h₉₁, h₁₂₃, hn, ht, hf, hwhite⟩ := hother
  rw [readValue, skip_cons hwhite]
  simp only [if_neg h₃₄, if_neg h₉₁, if_neg h₁₂₃, literal_null, literal_true, literal_false,
    List.cons_prefix_cons, Ne.symm hn, Ne.symm ht, Ne.symm hf, false_and, if_false, hread,
    Option.map_some]

theorem depth_pos {j : Json N} {depth : Nat} (h : (text numbers j).length ≤ depth) :
    ∃ d, depth = d + 1 := by
  have hstarts : Starts (text numbers j) := text_starts j
  obtain ⟨c, s, htext, -⟩ := hstarts
  rw [htext, List.length_cons] at h
  exact ⟨depth - 1, by omega⟩

theorem readValue_text (j : Json N) {depth : Nat} {rest : JsString}
    (hdepth : (text numbers j).length ≤ depth) (hrest : Separated rest) :
    readValue numbers depth (text numbers j ++ rest) = some (j, rest) := by
  obtain ⟨depth, rfl⟩ := depth_pos hdepth
  induction j generalizing depth rest with
  | null =>
      simp [text, readValue, literal_null, skip_cons]
  | boolean b =>
      cases b with
      | true => simp [text, readValue, literal_null, literal_true, skip_cons]
      | false => simp [text, readValue, literal_null, literal_true, literal_false, skip_cons]
  | number n => exact readValue_number n hrest
  | string s =>
      have htext : text numbers (string s) ++ rest = 34 :: (quoteUnits s ++ 34 :: rest) := by
        simp [text, quote]
      rw [htext, readValue, skip_cons (by decide)]
      simp only [if_true, readUnits_quoteUnits, Option.map_some]
  | array items ih =>
      have htext : text numbers (array items) ++ rest =
          91 :: (commaSeparated (items.map (text numbers)) ++ 93 :: rest) := by
        simp [text, texts_eq]
      have hread : ∀ item ∈ items, ∀ rest, Separated rest →
          readValue numbers depth (text numbers item ++ rest) = some (item, rest) := by
        intro item hitem rest hrest
        have hle := length_le_commaSeparated (List.mem_map_of_mem (f := text numbers) hitem)
        have hitemDepth : (text numbers item).length ≤ depth := by
          simp [text, texts_eq] at hdepth
          omega
        obtain ⟨d, rfl⟩ := depth_pos hitemDepth
        exact ih item hitem hrest d hitemDepth
      rw [htext, readValue, skip_cons (by decide)]
      simp only [readBracketed_text (.inl rfl) text_starts hread]
      rfl
  | object members ih =>
      have htext : text numbers (object members) ++ rest =
          123 :: (commaSeparated (members.map (memberText numbers)) ++ 125 :: rest) := by
        simp [text, memberTexts_eq]
      have hread : ∀ member ∈ members, ∀ rest, Separated rest →
          readMember (readValue numbers depth) (memberText numbers member ++ rest) =
            some (member, rest) := by
        intro member hmember rest hrest
        have hle := length_le_commaSeparated
          (List.mem_map_of_mem (f := memberText numbers) hmember)
        have hvalueDepth : (text numbers member.2).length ≤ depth := by
          simp [text, memberTexts_eq] at hdepth
          simp only [memberText, List.length_append, List.length_cons] at hle
          omega
        obtain ⟨d, rfl⟩ := depth_pos hvalueDepth
        exact readMember_text (fun rest hrest => ih member hmember hrest d hvalueDepth) hrest
      rw [htext, readValue, skip_cons (by decide)]
      simp only [readBracketed_text (.inr rfl) memberText_starts hread]
      rfl

/-- `JSON.parse` of the text of a value is the value. -/
theorem parse_text (j : Json N) : parse numbers (text numbers j) = some j := by
  have hend : Separated [] := fun c hc => absurd hc (by simp)
  have hread : readValue numbers _ (text numbers j ++ []) = some (j, []) :=
    readValue_text j le_rfl hend
  rw [List.append_nil] at hread
  rw [parse, hread]
  rfl

end Json

end

end Kori.Runtime
