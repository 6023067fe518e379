import Kori.Foundation.JsValue
import Kori.Runtime.Json
import Kori.Runtime.Numbers

/-!
# Values and their JSON

The values of the runtime, and what `JSON.stringify` and `JSON.parse` make of them.  What
an object inherits plays no part here, so an object is what its own properties are.
-/

namespace Kori.Runtime

open Foundation

/-! ## Dates -/

/-- The time of a valid `Date`, in milliseconds. -/
structure TimeValue where
  ms : Int
  bounded : ms.natAbs ≤ 8640000000000000
  deriving DecidableEq

namespace TimeValue

/-- The year, the month and the day of the month, from the number of days since 1970.  Years
start in March here, so that a leap day is the last day of its year. -/
def civil (days : Int) : Int × Int × Int :=
  let era := (days + 719468) / 146097
  let day := (days + 719468) % 146097
  let year := (day - day / 1460 + day / 36524 - day / 146096) / 365
  let dayOfYear := day - (365 * year + year / 4 - year / 100)
  let month := (5 * dayOfYear + 2) / 153
  (year + era * 400 + (if month < 10 then 0 else 1),
    if month < 10 then month + 3 else month - 9,
    dayOfYear - (153 * month + 2) / 5 + 1)

def yearText (year : Int) : JsString :=
  if 0 ≤ year ∧ year ≤ 9999 then padStart 4 (natText year.toNat)
  else (if year < 0 then 45 else 43) :: padStart 6 (natText year.natAbs)

def toISOString (t : TimeValue) : JsString :=
  let (year, month, day) := civil (t.ms / 86400000)
  let ofDay := (t.ms % 86400000).toNat
  yearText year ++ 45 :: padStart 2 (natText month.toNat) ++
    45 :: padStart 2 (natText day.toNat) ++ 84 :: padStart 2 (natText (ofDay / 3600000)) ++
    58 :: padStart 2 (natText (ofDay / 60000 % 60)) ++
    58 :: padStart 2 (natText (ofDay / 1000 % 60)) ++
    46 :: padStart 3 (natText (ofDay % 1000)) ++ [90]

example : ([⟨0, by decide⟩, ⟨1790000000123, by decide⟩, ⟨951782400000, by decide⟩,
      ⟨-62167219200001, by decide⟩, ⟨8640000000000000, by decide⟩] : List TimeValue).map
        toISOString =
    [js "1970-01-01T00:00:00.000Z", js "2026-09-21T14:13:20.123Z", js "2000-02-29T00:00:00.000Z",
      js "-000001-12-31T23:59:59.999Z", js "+275760-09-13T00:00:00.000Z"] := by
  decide +kernel

end TimeValue

abbrev Value := JsValue Number TimeValue

/-! ## Objects -/

abbrev Properties := List (JsString × Value)

/-- The number that an array index stands for. -/
def arrayIndex (key : JsString) : Option Nat :=
  (parseDigits 10 key).filter fun n => natText n = key ∧ n < 2 ^ 32 - 1

/-- Array indices are enumerated in ascending order and before all other keys. -/
def goesBefore (key other : JsString) : Bool :=
  match arrayIndex key, arrayIndex other with
  | some i, some j => i < j
  | some _, none => true
  | none, _ => false

/-- `CreateDataProperty`: a new value, or a new property where it is enumerated. -/
def define : Properties → JsString → Value → Properties
  | [], key, value => [(key, value)]
  | (other, kept) :: rest, key, value =>
      if other = key then (key, value) :: rest
      else if goesBefore key other then (key, value) :: (other, kept) :: rest
      else (other, kept) :: define rest key value

/-- `object[key] = value` on an object that inherits from `Object.prototype`, where
`__proto__` is a setter that makes no property. -/
def assign (properties : Properties) (key : JsString) (value : Value) : Properties :=
  if key = js "__proto__" then properties else define properties key value

def Enumerated (properties : Properties) : Prop :=
  properties.Pairwise fun p q => p.1 ≠ q.1 ∧ goesBefore q.1 p.1 = false

/-! ## JSON.stringify -/

def bigIntError : String := "Do not know how to serialize a BigInt"

mutual

/-- `SerializeJSONProperty`: nothing is written for `undefined`. -/
def toJson : Value → Except String (Option (Json Numeral))
  | .undefined => .ok none
  | .null => .ok (some .null)
  | .boolean b => .ok (some (.boolean b))
  | .number (.finite x) => .ok (some (.number x.numeral))
  | .number (.infinite _) | .number .nan => .ok (some .null)
  | .bigint _ => .error bigIntError
  | .string s => .ok (some (.string s))
  | .date t => .ok (some (.string t.toISOString))
  | .array items => do
      let items ← toItems items
      pure (some (.array items))
  | .object properties => do
      let members ← toMembers properties
      pure (some (.object members))

def toItems : List Value → Except String (List (Json Numeral))
  | [] => .ok []
  | value :: values => do
      let item ← toJson value
      let items ← toItems values
      pure (item.getD .null :: items)

def toMembers : Properties → Except String (List (JsString × Json Numeral))
  | [] => .ok []
  | (key, value) :: properties => do
      let member ← toJson value
      let members ← toMembers properties
      match member with
      | some member => pure ((key, member) :: members)
      | none => pure members

end

def numerals : NumberSyntax Numeral where
  write := Numeral.text
  read := Numeral.read
  write_start := Numeral.text_start
  read_write n rest hrest := by
    apply Numeral.read_text n
    intro c hc
    rcases hrest c hc with rfl | rfl | rfl <;> decide

def stringify (value : Value) : Except String (Option JsString) := do
  let json ← toJson value
  pure (json.map (Json.text numerals))

/-! ## JSON.parse -/

mutual

def ofJson : Json Numeral → Value
  | .null => .null
  | .boolean b => .boolean b
  | .number n => .number n.value
  | .string s => .string s
  | .array items => .array (ofItems items)
  | .object members => .object ((ofMembers members).foldl (fun o p => define o p.1 p.2) [])

def ofItems : List (Json Numeral) → List Value
  | [] => []
  | item :: items => ofJson item :: ofItems items

def ofMembers : List (JsString × Json Numeral) → Properties
  | [] => []
  | (key, member) :: members => (key, ofJson member) :: ofMembers members

end

/-- `none` where it throws a `SyntaxError`. -/
def parse (s : JsString) : Option Value := (Json.parse numerals s).map ofJson

example : (stringify (.object [(js "a", .number (.finite (.zero true))), (js "b", .undefined),
      (js "c", .array [.undefined, .string (js "\n"), .date ⟨0, by decide⟩])])).toOption =
    some (some (js "\x7b\"a\":0,\"c\":[null,\"\\n\",\"1970-01-01T00:00:00.000Z\"]\x7d")) := by
  decide +kernel

/-! ## Plain values -/

/-- Finite numbers, strings, valid dates and so on, in arrays and plain objects. -/
inductive Plain : Value → Prop
  | undefined : Plain .undefined
  | null : Plain .null
  | boolean (b : Bool) : Plain (.boolean b)
  | number (x : Double) : Plain (.number (.finite x))
  | string (s : JsString) : Plain (.string s)
  | date (t : TimeValue) : Plain (.date t)
  | array (items : List Value) : (∀ item ∈ items, Plain item) → Plain (.array items)
  | object (properties : Properties) : Enumerated properties →
      (∀ p ∈ properties, Plain p.2) → Plain (.object properties)

section

variable {properties : Properties} {key : JsString} {value : Value} {items : List Value}

theorem define_last (h : ∀ p ∈ properties, p.1 ≠ key ∧ goesBefore key p.1 = false) :
    define properties key value = properties ++ [(key, value)] := by
  induction properties with
  | nil => rfl
  | cons p properties ih =>
      obtain ⟨other, kept⟩ := p
      obtain ⟨hne, hbefore⟩ := h _ (.head _)
      rw [define, if_neg hne, if_neg (by simp [hbefore]), ih fun q hq => h q (.tail _ hq)]
      rfl

theorem enumerated_append_singleton {made : Properties} {p : JsString × Value}
    {properties : Properties} (h : Enumerated (made ++ p :: properties)) :
    (∀ q ∈ made, q.1 ≠ p.1 ∧ goesBefore p.1 q.1 = false) ∧
      Enumerated (made ++ [p] ++ properties) ∧ Enumerated (made ++ properties) := by
  refine ⟨fun q hq => (List.pairwise_append.1 h).2.2 q hq p (.head _), by simpa using h, ?_⟩
  exact List.Pairwise.sublist ((List.Sublist.refl _).append (List.sublist_cons_self _ _)) h

theorem foldl_define (made properties : Properties) (h : Enumerated (made ++ properties)) :
    properties.foldl (fun o p => define o p.1 p.2) made = made ++ properties := by
  induction properties generalizing made with
  | nil => simp
  | cons p properties ih =>
      obtain ⟨hlast, hrest, -⟩ := enumerated_append_singleton h
      rw [List.foldl_cons, define_last hlast, ih _ hrest, List.append_assoc]
      rfl

theorem foldl_assign (made properties : Properties) (h : Enumerated (made ++ properties)) :
    properties.foldl (fun o p => assign o p.1 p.2) made =
      made ++ properties.filter fun p => p.1 ≠ js "__proto__" := by
  induction properties generalizing made with
  | nil => simp
  | cons p properties ih =>
      obtain ⟨hlast, hwith, hwithout⟩ := enumerated_append_singleton h
      rw [List.foldl_cons]
      by_cases hproto : p.1 = js "__proto__"
      · rw [assign, if_pos hproto, ih _ hwithout, List.filter_cons_of_neg (by simp [hproto])]
      · rw [assign, if_neg hproto, define_last hlast, ih _ hwith,
          List.filter_cons_of_pos (by simp [hproto]), List.append_assoc]
        rfl

theorem Enumerated.of_keys {others : Properties} (h : Enumerated properties)
    (hkeys : (others.map Prod.fst).Sublist (properties.map Prod.fst)) : Enumerated others := by
  have hall : (properties.map Prod.fst).Pairwise
      fun a b => a ≠ b ∧ goesBefore b a = false := List.pairwise_map.2 h
  exact List.pairwise_map.1 (hall.sublist hkeys)

/-! ### Writing plain values -/

theorem toItems_ok (h : ∀ item ∈ items, ∃ json, toJson item = .ok json) :
    ∃ jsons, toItems items = .ok jsons := by
  induction items with
  | nil => exact ⟨[], rfl⟩
  | cons item items ih =>
      obtain ⟨json, hjson⟩ := h item (.head _)
      obtain ⟨jsons, hjsons⟩ := ih fun item hitem => h item (.tail _ hitem)
      exact ⟨json.getD .null :: jsons, by rw [toItems, hjson, hjsons]; rfl⟩

theorem toMembers_cons (key : JsString) (value : Value) (properties : Properties)
    {json : Option (Json Numeral)} {members : List (JsString × Json Numeral)}
    (hvalue : toJson value = .ok json) (hrest : toMembers properties = .ok members) :
    toMembers ((key, value) :: properties) =
      .ok ((json.map fun json => (key, json)).toList ++ members) := by
  rw [toMembers, hvalue, hrest]
  cases json with
  | none => rfl
  | some json => rfl

theorem toMembers_ok (h : ∀ p ∈ properties, ∃ json, toJson p.2 = .ok json) :
    ∃ members, toMembers properties = .ok members := by
  induction properties with
  | nil => exact ⟨[], rfl⟩
  | cons p properties ih =>
      obtain ⟨json, hjson⟩ := h p (.head _)
      obtain ⟨members, hmembers⟩ := ih fun p hp => h p (.tail _ hp)
      exact ⟨_, toMembers_cons p.1 p.2 properties hjson hmembers⟩

theorem Plain.toJson_ok (h : Plain value) : ∃ json, toJson value = .ok json := by
  induction h with
  | undefined => exact ⟨_, rfl⟩
  | null => exact ⟨_, rfl⟩
  | boolean b => exact ⟨_, rfl⟩
  | number x => exact ⟨_, rfl⟩
  | string s => exact ⟨_, rfl⟩
  | date t => exact ⟨_, rfl⟩
  | array items _ ih =>
      obtain ⟨jsons, hjsons⟩ := toItems_ok ih
      exact ⟨_, by rw [toJson, hjsons]; rfl⟩
  | object properties _ _ ih =>
      obtain ⟨members, hmembers⟩ := toMembers_ok ih
      exact ⟨_, by rw [toJson, hmembers]; rfl⟩

theorem toJson_object {json : Option (Json Numeral)} (h : toJson (.object properties) = .ok json) :
    ∃ members, toMembers properties = .ok members ∧ json = some (.object members) := by
  rw [toJson] at h
  cases hmembers : toMembers properties with
  | error e =>
      rw [hmembers] at h
      exact absurd h (by simp [bind, Except.bind])
  | ok members =>
      rw [hmembers] at h
      exact ⟨members, rfl, (Except.ok.inj h).symm⟩

theorem toJson_array {json : Option (Json Numeral)} (h : toJson (.array items) = .ok json) :
    ∃ jsons, toItems items = .ok jsons ∧ json = some (.array jsons) := by
  rw [toJson] at h
  cases hjsons : toItems items with
  | error e =>
      rw [hjsons] at h
      exact absurd h (by simp [bind, Except.bind])
  | ok jsons =>
      rw [hjsons] at h
      exact ⟨jsons, rfl, (Except.ok.inj h).symm⟩

theorem Plain.stringify_object (h : Plain (.object properties)) :
    ∃ members, toMembers properties = .ok members ∧
      stringify (.object properties) = .ok (some (Json.text numerals (.object members))) := by
  obtain ⟨json, hjson⟩ := h.toJson_ok
  obtain ⟨members, hmembers, hsome⟩ := toJson_object hjson
  refine ⟨members, hmembers, ?_⟩
  rw [stringify, hjson, hsome]
  rfl

theorem toJson_none (h : toJson value = .ok none) : value = .undefined := by
  cases value with
  | undefined => rfl
  | array items =>
      obtain ⟨jsons, -, hsome⟩ := toJson_array h
      exact absurd hsome (by simp)
  | object properties =>
      obtain ⟨members, -, hsome⟩ := toJson_object h
      exact absurd hsome (by simp)
  | number n => cases n <;> exact absurd (Except.ok.inj h) (by simp)
  | bigint n => exact absurd h (by simp [toJson])
  | null => exact absurd (Except.ok.inj h) (by simp)
  | boolean b => exact absurd (Except.ok.inj h) (by simp)
  | string s => exact absurd (Except.ok.inj h) (by simp)
  | date t => exact absurd (Except.ok.inj h) (by simp)

theorem toMembers_undefined (key : JsString) (properties : Properties) :
    toMembers ((key, .undefined) :: properties) = toMembers properties := by
  rw [toMembers]
  cases toMembers properties with
  | error e => rfl
  | ok members => rfl

theorem toMembers_keys {members : List (JsString × Json Numeral)}
    (h : toMembers properties = .ok members) :
    (members.map Prod.fst).Sublist (properties.map Prod.fst) := by
  induction properties generalizing members with
  | nil =>
      rw [← Except.ok.inj h]
      exact List.Sublist.refl _
  | cons p properties ih =>
      obtain ⟨key, value⟩ := p
      cases hvalue : toJson value with
      | error e =>
          rw [toMembers, hvalue] at h
          exact absurd h (by simp [bind, Except.bind])
      | ok json =>
          cases hrest : toMembers properties with
          | error e =>
              rw [toMembers, hvalue, hrest] at h
              exact absurd h (by simp [bind, Except.bind])
          | ok others =>
              rw [toMembers_cons key value properties hvalue hrest] at h
              rw [← Except.ok.inj h]
              cases json with
              | none => exact (ih hrest).cons key
              | some json => exact (ih hrest).cons_cons key

theorem ofMembers_eq (members : List (JsString × Json Numeral)) :
    ofMembers members = members.map fun member => (member.1, ofJson member.2) := by
  induction members with
  | nil => rfl
  | cons member members ih =>
      obtain ⟨key, value⟩ := member
      rw [ofMembers, ih, List.map_cons]

theorem ofJson_members {members : List (JsString × Json Numeral)}
    (horder : Enumerated properties) (h : toMembers properties = .ok members) :
    ofJson (.object members) = .object (ofMembers members) := by
  have hkeys : (ofMembers members).map Prod.fst = members.map Prod.fst := by
    rw [ofMembers_eq, List.map_map]
    rfl
  have hmade : Enumerated ([] ++ ofMembers members) :=
    horder.of_keys (hkeys ▸ toMembers_keys h)
  rw [ofJson, foldl_define [] _ hmade, List.nil_append]

end

end Kori.Runtime
