import Kori.Runtime.Values
import Kori.Server

/-!
# The bodies of cached answers

What is sent when a response is answered from the cache: the response was written to Redis
before `BigIntInterceptor` saw it, and passes that interceptor once it has been read back.
-/

namespace Kori

open Foundation Kori.Runtime

/-! ## BigIntInterceptor -/

namespace BigIntInterceptor

mutual

def serializeBigInt : Value → Value
  | .undefined => .undefined
  | .null => .null
  | .bigint n => .string (intText n)
  | .date t => .string t.toISOString
  | .array items => .array (serializeItems items)
  | .object properties =>
      .object ((serializeProperties properties).foldl (fun o p => assign o p.1 p.2) [])
  | .boolean b => .boolean b
  | .number n => .number n
  | .string s => .string s

def serializeItems : List Value → List Value
  | [] => []
  | item :: items => serializeBigInt item :: serializeItems items

def serializeProperties : Properties → Properties
  | [] => []
  | (key, value) :: properties => (key, serializeBigInt value) :: serializeProperties properties

end

end BigIntInterceptor

open BigIntInterceptor

/-- The body of the answer, once the interceptor has seen the payload. -/
def responseBody (payload : Value) : Except String (Option JsString) :=
  stringify (serializeBigInt payload)

/-! ## RedisService -/

abbrev Keyspace := JsString → Option JsString

namespace RedisService

/-- `set` of a connected client; an argument that is `undefined` is sent as an empty string. -/
def setValue (store : Keyspace) (key : JsString) (value : Value) (nx : Bool) :
    Except String (Bool × Keyspace) := do
  let data ← stringify value
  pure (if nx ∧ (store key).isSome then (false, store)
    else (true, Function.update store key (some (data.getD []))))

/-- `get` of a connected client; a text that cannot be read counts as none. -/
def getValue (store : Keyspace) (key : JsString) : Value :=
  match store key with
  | none | some [] => .null
  | some data => (Runtime.parse data).getD .null

end RedisService

/-! ## IdempotencyInterceptor -/

def truthy : Value → Bool
  | .undefined | .null => false
  | .boolean b => b
  | .number (.finite x) => x.significand ≠ 0
  | .number (.infinite _) => true
  | .number .nan => false
  | .bigint n => n ≠ 0
  | .string s => s ≠ []
  | .date _ | .array _ | .object _ => true

/-- What the interceptor makes of the state it finds in the cache. -/
inductive CacheDecision where
  | beingProcessed
  | replay (payload : Value)
  | newRequest

def decideCacheState (cacheState : Value) : CacheDecision :=
  match cacheState with
  | .string s =>
      if s = js "PROCESSING" then .beingProcessed
      else if truthy (.string s) then .replay (.string s)
      else .newRequest
  | state => if truthy state then .replay state else .newRequest

/-! ## Serialising -/

section

variable {value : Value} {properties : Properties} {items : List Value}

theorem serializeItems_eq (items : List Value) :
    serializeItems items = items.map serializeBigInt := by
  induction items with
  | nil => rfl
  | cons item items ih => rw [serializeItems, ih, List.map_cons]

theorem serializeProperties_eq (properties : Properties) :
    serializeProperties properties = properties.map fun p => (p.1, serializeBigInt p.2) := by
  induction properties with
  | nil => rfl
  | cons p properties ih =>
      obtain ⟨key, value⟩ := p
      rw [serializeProperties, ih, List.map_cons]

def serializedProperties (properties : Properties) : Properties :=
  (serializeProperties properties).filter fun p => p.1 ≠ js "__proto__"

theorem serialized_keys (properties : Properties) :
    ((serializedProperties properties).map Prod.fst).Sublist (properties.map Prod.fst) := by
  have hkeys : (serializeProperties properties).map Prod.fst = properties.map Prod.fst := by
    rw [serializeProperties_eq, List.map_map]
    rfl
  rw [← hkeys]
  exact List.filter_sublist.map Prod.fst

theorem serialize_object (h : Enumerated properties) :
    serializeBigInt (.object properties) = .object (serializedProperties properties) := by
  have hmade : Enumerated ([] ++ serializeProperties properties) := by
    apply h.of_keys
    rw [List.nil_append, serializeProperties_eq, List.map_map]
    exact List.Sublist.refl _
  rw [serializeBigInt, foldl_assign [] _ hmade, List.nil_append, serializedProperties]

theorem mem_serialized {p : JsString × Value} (h : p ∈ serializedProperties properties) :
    ∃ q ∈ properties, p = (q.1, serializeBigInt q.2) := by
  rw [serializedProperties, serializeProperties_eq] at h
  obtain ⟨q, hq, hp⟩ := List.mem_map.1 (List.mem_filter.1 h).1
  exact ⟨q, hq, hp.symm⟩

theorem serialize_plain (h : Plain value) : Plain (serializeBigInt value) := by
  induction h with
  | undefined => exact .undefined
  | null => exact .null
  | boolean b => exact .boolean b
  | number x => exact .number x
  | string s => exact .string s
  | date t => exact .string _
  | array items _ ih =>
      rw [serializeBigInt, serializeItems_eq]
      apply Plain.array
      intro item hitem
      obtain ⟨original, horiginal, rfl⟩ := List.mem_map.1 hitem
      exact ih original horiginal
  | object properties horder _ ih =>
      rw [serialize_object horder]
      apply Plain.object
      · exact horder.of_keys (serialized_keys properties)
      · intro p hp
        obtain ⟨q, hq, rfl⟩ := mem_serialized hp
        exact ih q hq

theorem serialize_serialize (h : Plain value) :
    serializeBigInt (serializeBigInt value) = serializeBigInt value := by
  induction h with
  | undefined => rfl
  | null => rfl
  | boolean b => rfl
  | number x => rfl
  | string s => rfl
  | date t => rfl
  | array items _ ih =>
      rw [serializeBigInt, serializeItems_eq, serializeBigInt, serializeItems_eq, List.map_map]
      congr 1
      exact List.map_congr_left ih
  | object properties horder _ ih =>
      have horder' := horder.of_keys (serialized_keys properties)
      rw [serialize_object horder, serialize_object horder']
      congr 1
      rw [serializedProperties, serializeProperties_eq (serializedProperties properties)]
      have hsame : (serializedProperties properties).map
          (fun p => (p.1, serializeBigInt p.2)) = serializedProperties properties := by
        refine (List.map_congr_left fun p hp => ?_).trans (List.map_id _)
        obtain ⟨q, hq, rfl⟩ := mem_serialized hp
        rw [id_eq, ih q hq]
      rw [hsame, serializedProperties, List.filter_filter]
      simp

/-! ## Reading back -/

/-- An item that is not written is written as `null`, and so it is when it is read back. -/
theorem toItems_replayed
    (hitems : ∀ item ∈ items, Plain item ∧ ∀ json, toJson item = .ok (some json) →
      toJson (serializeBigInt (ofJson json)) = toJson (serializeBigInt item))
    {jsons : List (Json Numeral)} (h : toItems items = .ok jsons) :
    toItems (serializeItems (ofItems jsons)) = toItems (serializeItems items) := by
  induction items generalizing jsons with
  | nil =>
      rw [← Except.ok.inj h]
      rfl
  | cons item items ih =>
      obtain ⟨hplain, hitem⟩ := hitems item (.head _)
      obtain ⟨json, hjson⟩ := hplain.toJson_ok
      obtain ⟨later, hlater⟩ := toItems_ok fun item hmem => (hitems item (.tail _ hmem)).1.toJson_ok
      have hrest := ih (fun item hmem => hitems item (.tail _ hmem)) hlater
      have hjsons : jsons = json.getD .null :: later := by
        rw [toItems, hjson, hlater] at h
        exact (Except.ok.inj h).symm
      rw [hjsons, ofItems, serializeItems, serializeItems, toItems, toItems, hrest]
      cases json with
      | some json => rw [Option.getD_some, hitem json hjson]
      | none =>
          have hundefined := toJson_none hjson
          rw [hundefined]
          rfl

theorem serializedProperties_cons (key : JsString) (value : Value) (properties : Properties) :
    serializedProperties ((key, value) :: properties) =
      if key = js "__proto__" then serializedProperties properties
      else (key, serializeBigInt value) :: serializedProperties properties := by
  by_cases hproto : key = js "__proto__"
  · rw [if_pos hproto, serializedProperties, serializeProperties,
      List.filter_cons_of_neg (by simp [hproto])]
    rfl
  · rw [if_neg hproto, serializedProperties, serializeProperties,
      List.filter_cons_of_pos (by simp [hproto])]
    rfl

/-- A member that is not written is not read back, and is not written later either. -/
theorem toMembers_replayed
    (hproperties : ∀ p ∈ properties, Plain p.2 ∧ ∀ json, toJson p.2 = .ok (some json) →
      toJson (serializeBigInt (ofJson json)) = toJson (serializeBigInt p.2))
    {members : List (JsString × Json Numeral)} (h : toMembers properties = .ok members) :
    toMembers (serializedProperties (ofMembers members)) =
      toMembers (serializedProperties properties) := by
  induction properties generalizing members with
  | nil =>
      rw [← Except.ok.inj h]
      rfl
  | cons p properties ih =>
      obtain ⟨key, value⟩ := p
      obtain ⟨hplain, hvalue⟩ := hproperties _ (.head _)
      obtain ⟨json, hjson⟩ := hplain.toJson_ok
      obtain ⟨later, hlater⟩ :=
        toMembers_ok fun p hmem => (hproperties p (.tail _ hmem)).1.toJson_ok
      have hrest := ih (fun p hmem => hproperties p (.tail _ hmem)) hlater
      rw [toMembers_cons key value properties hjson hlater] at h
      rw [← Except.ok.inj h]
      cases json with
      | none =>
          have hundefined : value = .undefined := toJson_none hjson
          rw [hundefined, serializedProperties_cons]
          split
          · exact hrest
          · exact hrest.trans (toMembers_undefined key _).symm
      | some json =>
          rw [Option.map_some, Option.toList_some, List.singleton_append, ofMembers,
            serializedProperties_cons, serializedProperties_cons]
          split
          · exact hrest
          · have hreplayed : toJson (serializeBigInt (ofJson json)) =
                toJson (serializeBigInt value) := hvalue json hjson
            rw [toMembers, toMembers, hrest, hreplayed]

theorem toJson_replayed (h : Plain value) :
    ∀ json, toJson value = .ok (some json) →
      toJson (serializeBigInt (ofJson json)) = toJson (serializeBigInt value) := by
  induction h with
  | undefined => exact fun json hjson => absurd (Except.ok.inj hjson) (by simp)
  | null =>
      intro json hjson
      rw [← Option.some.inj (Except.ok.inj hjson)]
      rfl
  | boolean b =>
      intro json hjson
      rw [← Option.some.inj (Except.ok.inj hjson)]
      rfl
  | string s =>
      intro json hjson
      rw [← Option.some.inj (Except.ok.inj hjson)]
      rfl
  | date t =>
      intro json hjson
      rw [← Option.some.inj (Except.ok.inj hjson)]
      rfl
  | number x =>
      intro json hjson
      rw [← Option.some.inj (Except.ok.inj hjson), ofJson, Double.numeral_value]
      simp only [serializeBigInt, toJson, Double.numeral_unsignedZero]
  | array items hplain ih =>
      intro json hjson
      obtain ⟨jsons, hjsons, hsome⟩ := toJson_array hjson
      rw [Option.some.inj hsome, ofJson, serializeBigInt, serializeBigInt, toJson, toJson,
        toItems_replayed (fun item hitem => ⟨hplain item hitem, ih item hitem⟩) hjsons]
  | object properties horder hplain ih =>
      intro json hjson
      obtain ⟨members, hmembers, hsome⟩ := toJson_object hjson
      have hkeys : (ofMembers members).map Prod.fst = members.map Prod.fst := by
        rw [ofMembers_eq, List.map_map]
        rfl
      rw [Option.some.inj hsome, ofJson_members horder hmembers,
        serialize_object (horder.of_keys (hkeys ▸ toMembers_keys hmembers)),
        serialize_object horder, toJson, toJson,
        toMembers_replayed (fun p hp => ⟨hplain p hp, ih p hp⟩) hmembers]

/--
The payload of a response is replayed as it was sent: the cached text is found again, it
does not stand for a request in progress, and its body is the body of the first answer.
Serialising what has been serialised changes nothing.
-/
theorem replay_identical (h : Plain (.object properties)) (store : Keyspace) (key : JsString) :
    ∃ stored replayed body,
      RedisService.setValue store key (.object properties) false = .ok (true, stored) ∧
      (∀ later : Keyspace, later key = stored key →
        decideCacheState (RedisService.getValue later key) = .replay replayed) ∧
      responseBody (.object properties) = .ok (some body) ∧
      responseBody replayed = .ok (some body) ∧
      serializeBigInt (serializeBigInt (.object properties)) =
        serializeBigInt (.object properties) := by
  obtain ⟨members, hmembers, hwritten⟩ := h.stringify_object
  have horder : Enumerated properties := by
    cases h
    assumption
  have hjson : toJson (.object properties) = .ok (some (.object members)) := by
    rw [toJson, hmembers]
    rfl
  have hserialized := serialize_plain h
  rw [serialize_object horder] at hserialized
  obtain ⟨sent, -, hbody⟩ := hserialized.stringify_object
  have hsent : responseBody (.object properties) =
      .ok (some (Json.text numerals (.object sent))) := by
    rw [responseBody, serialize_object horder, hbody]
  have hreplayed : responseBody (ofJson (.object members)) = responseBody (.object properties) := by
    rw [responseBody, responseBody, stringify, stringify, toJson_replayed h _ hjson]
  refine ⟨Function.update store key (some (Json.text numerals (.object members))),
    ofJson (.object members), Json.text numerals (.object sent), ?_, ?_, hsent,
    hreplayed.trans hsent, serialize_serialize h⟩
  · rw [RedisService.setValue, hwritten]
    rfl
  · intro later hlater
    rw [Function.update_self] at hlater
    have hread : RedisService.getValue later key = ofJson (.object members) := by
      have hparsed : Runtime.parse (Json.text numerals (.object members)) =
          some (ofJson (.object members)) := by
        rw [Runtime.parse, Json.parse_text, Option.map_some]
      rw [RedisService.getValue, hlater]
      exact congrArg (Option.getD · .null) hparsed
    rw [hread, ofJson_members horder hmembers]
    rfl

end

/-! ## The responses -/

def TransactionResultResponse.properties (response : TransactionResultResponse)
    (createdAt : TimeValue) : Properties :=
  [(js "trxId", .string response.trxId), (js "type", .string (js response.type.text)),
    (js "status", .string (js response.status.text)), (js "amount", .string response.amount),
    (js "fee", .string response.fee), (js "createdAt", .date createdAt),
    (js "newBalance", .string response.newBalance)]

theorem TransactionResultResponse.plain (response : TransactionResultResponse)
    (createdAt : TimeValue) : Plain (.object (response.properties createdAt)) := by
  apply Plain.object
  · have hkeys : ([js "trxId", js "type", js "status", js "amount", js "fee", js "createdAt",
        js "newBalance"]).Pairwise fun a b => a ≠ b ∧ goesBefore b a = false := by
      decide +kernel
    have horder : ((response.properties createdAt).map Prod.fst).Pairwise
        fun a b => a ≠ b ∧ goesBefore b a = false := hkeys
    exact List.pairwise_map.1 horder
  · intro p hp
    simp only [TransactionResultResponse.properties, List.mem_cons, List.not_mem_nil,
      or_false] at hp
    rcases hp with rfl | rfl | rfl | rfl | rfl | rfl | rfl
    · exact .string _
    · exact .string _
    · exact .string _
    · exact .string _
    · exact .string _
    · exact .date _
    · exact .string _

namespace Sample

def resultResponse : TransactionResultResponse :=
  { trxId := js "TX-261005-0000AB12", type := .sendMoney, status := .completed,
    amount := js "2500", fee := js "500", createdAt := ⟨1790000000123, 2026, 8, 21⟩,
    newBalance := js "7000" }

end Sample

theorem replay_identical_response :
    ∃ stored replayed body,
      RedisService.setValue (fun _ => none) (js "idempotency:trx:k")
        (.object (Sample.resultResponse.properties ⟨1790000000123, by decide⟩)) false =
          .ok (true, stored) ∧
      (∀ later : Keyspace, later (js "idempotency:trx:k") = stored (js "idempotency:trx:k") →
        decideCacheState (RedisService.getValue later (js "idempotency:trx:k")) =
          .replay replayed) ∧
      responseBody (.object (Sample.resultResponse.properties ⟨1790000000123, by decide⟩)) =
        .ok (some body) ∧
      responseBody replayed = .ok (some body) ∧
      serializeBigInt (serializeBigInt
        (.object (Sample.resultResponse.properties ⟨1790000000123, by decide⟩))) =
          serializeBigInt (.object (Sample.resultResponse.properties ⟨1790000000123, by decide⟩)) :=
  replay_identical (Sample.resultResponse.plain _) _ _

end Kori
