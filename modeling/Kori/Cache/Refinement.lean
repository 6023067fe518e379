import Kori.Cache.Texts
import Kori.Conduct.Keys

/-!
# Values and their texts

The values of the model stand for the texts that Redis holds: each command does to the texts
what it does to the values, and its answer is read as the same.
-/

namespace Kori

open Foundation Kori.Runtime

/-! ## The relation -/

/-- Strings can be sent, and counters have counted to `bound` at most. -/
def RedisValue.Fits (bound : Nat) : (k : RedisKey) → RedisValue k → Prop
  | .loginFailure _, count | .otpFailure _, count => (count : Nat) ≤ bound
  | .otpChallenge _ _, challenge => ∀ f ∈ challenge.fields, IsWellFormed f.2
  | .otpActiveChallenge _, challengeId => IsWellFormed challengeId
  | .registrationAuthorization _, state => ∀ f ∈ state.fields, IsWellFormed f.2
  | .deviceEnrollmentAuthorization _, state => ∀ f ∈ state.fields, IsWellFormed f.2
  | .idempotency _, _ | .loginThrottle _, _ | .otpResend _, _ => True

/-- The texts are those of the values. -/
structure Represents (bound : Nat) (store : Keyspace) (r : Redis) : Prop where
  text : ∀ k, k.Proper →
    store k.sent = (r k).map fun entry => RedisValue.text k entry.value
  fits : ∀ k entry, r k = some entry → k.Proper ∧ RedisValue.Fits bound k entry.value

section

variable {bound : Nat} {store : Keyspace} {r : Redis} {k k' : RedisKey} {p : Pid}

theorem RedisKey.sent_inj (h : k.Proper) (h' : k'.Proper) (heq : k.sent = k'.sent) : k = k' := by
  have htext : k.text = k'.text :=
    (text_isWellFormed h).symm.trans (heq.trans (text_isWellFormed h'))
  exact text_injective h h' htext

theorem RedisValue.Fits.mono {bound' : Nat} {value : RedisValue k} (h : Fits bound k value)
    (hle : bound ≤ bound') : Fits bound' k value := by
  cases k with
  | loginFailure _ | otpFailure _ => exact Nat.le_trans h hle
  | _ => exact h

theorem Represents.mono {bound' : Nat} (h : Represents bound store r) (hle : bound ≤ bound') :
    Represents bound' store r where
  text := h.text
  fits k entry hk := ⟨(h.fits k entry hk).1, (h.fits k entry hk).2.mono hle⟩

theorem Represents.put {value : RedisValue k} (h : Represents bound store r) (hk : k.Proper)
    (hfits : RedisValue.Fits bound k value) :
    Represents bound (Function.update store k.sent (some (RedisValue.text k value)))
      (r.put k value p) where
  text k' hk' := by
    by_cases hsame : k' = k
    · subst k'
      simp
    · have hsent : k'.sent ≠ k.sent := fun heq => hsame (RedisKey.sent_inj hk' hk heq)
      rw [Function.update_of_ne hsent, Redis.put_of_ne hsame, h.text k' hk']
  fits k' entry hentry := by
    obtain hold | ⟨hnew, -⟩ := Redis.of_put hentry
    · exact h.fits k' entry hold
    · obtain ⟨rfl, hvalue⟩ := Sigma.mk.inj hnew
      cases hvalue
      exact ⟨hk, hfits⟩

theorem Represents.remove (h : Represents bound store r) (hk : k.Proper) :
    Represents bound (Keyspace.remove store k.sent) (r.remove k) where
  text k' hk' := by
    by_cases hsame : k' = k
    · subst k'
      simp [Keyspace.remove]
    · have hsent : k'.sent ≠ k.sent := fun heq => hsame (RedisKey.sent_inj hk' hk heq)
      rw [Keyspace.remove, Function.update_of_ne hsent, Redis.remove_of_ne hsame, h.text k' hk']
  fits k' entry hentry := h.fits k' entry (Redis.of_remove hentry)

end

/-! ## Texts of values -/

section

variable {k : RedisKey} {fields : List (JsString × JsString)}

theorem toMembers_strings (fields : List (JsString × JsString)) :
    toMembers (fields.map fun f => (f.1, .string f.2)) =
      .ok (fields.map fun f => (f.1, .string f.2)) := by
  induction fields with
  | nil => rfl
  | cons f fields ih =>
      rw [List.map_cons, toMembers_cons _ _ _ rfl ih]
      rfl

def objectText (fields : List (JsString × JsString)) : JsString :=
  Json.text numerals (.object (fields.map fun f => (f.1, .string f.2)))

theorem stringify_stringObject (fields : List (JsString × JsString)) :
    stringify (stringObject fields) = .ok (some (objectText fields)) := by
  rw [stringify, stringObject, toJson, toMembers_strings]
  rfl

theorem dateValue_plain (ms : Nat) : Plain (dateValue ms) := by
  unfold dateValue
  split
  · exact .date _
  · exact .null

theorem payload_plain (response : TransactionResultResponse) :
    Plain (.object response.payload) := by
  have hkeys : (response.payload.map Prod.fst).Pairwise
      fun a b => a ≠ b ∧ goesBefore b a = false := by
    have horder : ([js "trxId", js "type", js "status", js "amount", js "fee", js "createdAt",
        js "newBalance"]).Pairwise fun a b => a ≠ b ∧ goesBefore b a = false := by
      decide +kernel
    exact horder
  apply Plain.object
  · exact List.pairwise_map.1 hkeys
  · intro p hp
    simp only [TransactionResultResponse.payload, List.mem_cons, List.not_mem_nil,
      or_false] at hp
    rcases hp with rfl | rfl | rfl | rfl | rfl | rfl | rfl
    · exact .string _
    · exact .string _
    · exact .string _
    · exact .string _
    · exact .string _
    · exact dateValue_plain _
    · exact .string _

theorem stringify_json (hk : ¬k.IsCounter) (value : RedisValue k) :
    stringify (RedisValue.json k value) = .ok (some (RedisValue.text k value)) := by
  have hwritten : ∀ text, stringify (RedisValue.json k value) = .ok (some text) →
      RedisValue.counted k value = none →
      stringify (RedisValue.json k value) = .ok (some (RedisValue.text k value)) := by
    intro text htext hcounted
    simp [RedisValue.text, hcounted, htext, Except.toOption]
  cases k with
  | idempotency header =>
      cases value with
      | processing => rfl
      | response response =>
          obtain ⟨members, -, htext⟩ := (payload_plain response).stringify_object
          exact hwritten _ htext rfl
  | loginFailure _ | otpFailure _ => exact absurd trivial hk
  | loginThrottle _ | otpResend _ | otpActiveChallenge _ => rfl
  | otpChallenge _ _ | registrationAuthorization _ | deviceEnrollmentAuthorization _ =>
      exact hwritten _ (stringify_stringObject _) rfl

end

/-! ## Reading answers -/

def OtpVerificationStatus.text : OtpVerificationStatus → String
  | verified => "VERIFIED"
  | tooManyAttempts => "TOO_MANY_ATTEMPTS"
  | noActiveChallenge => "NO_ACTIVE_CHALLENGE"
  | superseded => "SUPERSEDED"
  | challengeMissing => "CHALLENGE_MISSING"
  | invalidChallenge => "INVALID_CHALLENGE"
  | invalidOtp => "INVALID_OTP"

def AuthorizationConsumeStatus.text : AuthorizationConsumeStatus → String
  | consumed => "CONSUMED"
  | missing => "MISSING"
  | invalid => "INVALID"

/-- The interceptor goes on with the value as it does with the state, and a body that it
answers from the cache is the one that was sent. -/
def CacheReads (value : Value) : Option IdempotencyCacheState → Prop
  | none => decideCacheState value = .newRequest
  | some .processing => decideCacheState value = .beingProcessed
  | some (.response response) => ∃ payload, decideCacheState value = .replay payload ∧
      responseBody payload = responseBody (.object response.payload)

/-- The answer of a command is what the server gets from the client library. -/
def RedisCommand.Reads (answer : TextAnswer) : (command : RedisCommand) → command.Ans → Prop
  | .get (.idempotency _), state => ∃ value, answer = .value value ∧ CacheReads value state
  | .get (.otpFailure _), count =>
      answer = .value (count.elim .null fun n : Nat => .number (Number.ofInt n))
  | .get (.otpResend _), lock | .get (.loginThrottle _), lock =>
      answer = .value (lock.elim .null fun _ => .boolean true)
  | .get (.loginFailure _), _ | .get (.otpChallenge _ _), _ | .get (.otpActiveChallenge _), _
  | .get (.registrationAuthorization _), _ | .get (.deviceEnrollmentAuthorization _), _ => False
  | .set _ _ _, result | .del _, result => answer = .done result
  | .incrementWithTtl _, count => answer = .count (Number.ofInt (count : Nat))
  | .verifyOtp _ _ _ _ _, status => ∃ rest, answer = .reply (js status.text :: rest)
  | .consumeRegistrationAuthorization _ _ _, status
  | .consumeDeviceEnrollmentAuthorization _ _ _ _, status => answer = .reply [js status.text]

/-! ## Commands that the server sends -/

def RedisKey.IsRead : RedisKey → Prop
  | .idempotency _ | .otpFailure _ | .otpResend _ | .loginThrottle _ => True
  | _ => False

def RedisCommand.Proper : RedisCommand → Prop
  | .get key => key.Proper ∧ key.IsRead
  | .set key value _ => key.Proper ∧ ¬key.IsCounter ∧ RedisValue.Fits 0 key value
  | .del key => key.Proper
  | .incrementWithTtl phone => IsDialable phone
  | .verifyOtp phone challengeId deviceId otp maxFailures => IsDialable phone ∧
      IsWellFormed challengeId ∧ IsWellFormed deviceId ∧ IsWellFormed otp ∧
      maxFailures.natAbs ≤ 2 ^ 53
  | .consumeRegistrationAuthorization tokenHash phone deviceId
  | .consumeDeviceEnrollmentAuthorization tokenHash _ phone deviceId =>
      IsWellFormed tokenHash ∧ IsDialable phone ∧ IsWellFormed deviceId

/-- What the libraries of Redis document: strings and objects of strings are decoded, and
integers are numbers. -/
structure Lua.Standard (lua : Lua) : Prop where
  decode_string {s : JsString} : IsWellFormed s → lua.decode (quote s) = .ok (.string s)
  decode_object {fields : List (JsString × JsString)} : (fields.map Prod.fst).Nodup →
    (∀ f ∈ fields, IsWellFormed f.1 ∧ IsWellFormed f.2) →
    ∃ entries, lua.decode (objectText fields) = .ok (.table entries) ∧
      ∀ f ∈ fields, entries.lookup f.1 = some (.string f.2)
  tonumber_int {n : Int} : n.natAbs ≤ 2 ^ 53 → lua.tonumber (intText n) = some (.ofInt n)

section

variable {bound : Nat} {store : Keyspace} {r : Redis} {k : RedisKey} {p : Pid}
variable {key : JsString} {n : Nat}

/-! ## Counting -/

theorem intText_natCast (n : Nat) : intText n = natText n := by
  have hsign : ¬(n : Int) < 0 := by omega
  rw [intText, if_neg hsign, Int.toNat_natCast]

theorem integerOf_natText (hn : n < 2 ^ 63) : integerOf (natText n) = some (n : Int) := by
  have hread : bigInt (natText n) = some (n : Int) := by
    by_cases hzero : n = 0
    · rw [hzero]
      decide
    · exact bigInt_natText (by omega)
  rw [integerOf, hread, Option.filter_some, if_pos]
  exact decide_eq_true ⟨intText_natCast n, by omega, by omega⟩

theorem incr_counter (count : Option Nat) (hstore : store key = count.map natText)
    (hcount : count.getD 0 + 1 < 2 ^ 63) :
    Keyspace.incr store key = .ok ((count.getD 0 + 1 : Nat),
      Function.update store key (some (natText (count.getD 0 + 1)))) := by
  have hread : (store key).elim (some 0) integerOf = some ((count.getD 0 : Nat) : Int) := by
    rw [hstore]
    cases count with
    | none => rfl
    | some n =>
        rw [Option.getD_some] at hcount
        exact integerOf_natText (by omega)
  have hnext : ((count.getD 0 : Nat) : Int) + 1 = ((count.getD 0 + 1 : Nat) : Int) := by omega
  have hroom : ((count.getD 0 + 1 : Nat) : Int) ≠ 2 ^ 63 := by omega
  rw [Keyspace.incr, hread]
  simp only [hnext, if_neg hroom, intText_natCast]

theorem Represents.isSome (h : Represents bound store r) (hk : k.Proper) :
    (store k.sent).isSome = (r k).isSome := by
  rw [h.text k hk, Option.isSome_map]

/-! ## GET, SET and DEL -/

theorem getValue_stored {json : Json Numeral} (hstore : store key = some (Json.text numerals json))
    (hne : Json.text numerals json ≠ []) : RedisService.getValue store key = ofJson json := by
  have hparsed : Runtime.parse (Json.text numerals json) = some (ofJson json) := by
    rw [Runtime.parse, Json.parse_text, Option.map_some]
  unfold RedisService.getValue
  rw [hstore]
  split
  · contradiction
  · rename_i heq
    exact absurd (Option.some.inj heq) hne
  · rename_i data hdata
    rw [← Option.some.inj hdata, hparsed]
    rfl

theorem Runtime.Plain.enumerated {properties : Properties} (h : Plain (.object properties)) :
    Enumerated properties := by
  cases h
  assumption

theorem cacheReads_stored {header : JsString} (h : Represents bound store r)
    (hk : (RedisKey.idempotency header).Proper) :
    CacheReads (RedisService.getValue store (RedisKey.idempotency header).sent)
      ((r (.idempotency header)).map RedisEntry.value) := by
  have htext := h.text _ hk
  cases hentry : r (.idempotency header) with
  | none =>
      rw [hentry] at htext
      have hnull : RedisService.getValue store (RedisKey.idempotency header).sent = .null := by
        unfold RedisService.getValue
        rw [htext]
        rfl
      rw [hnull]
      rfl
  | some entry =>
      rw [hentry, Option.map_some] at htext
      obtain ⟨state, writer⟩ := entry
      cases state with
      | processing =>
          have hread : RedisService.getValue store (RedisKey.idempotency header).sent =
              ofJson (.string (js "PROCESSING")) := getValue_stored htext (by decide)
          rw [hread]
          rfl
      | response response =>
          have hplain := payload_plain response
          obtain ⟨members, hmembers, hwritten⟩ := hplain.stringify_object
          have hstored : RedisValue.text (.idempotency header) (.response response) =
              Json.text numerals (.object members) := by
            have hboth := (stringify_json (k := .idempotency header) id
              (.response response)).symm.trans hwritten
            exact Option.some.inj (Except.ok.inj hboth)
          have hread : RedisService.getValue store (RedisKey.idempotency header).sent =
              ofJson (.object members) := by
            rw [hstored] at htext
            exact getValue_stored htext (by simp [Json.text])
          have hjson : toJson (.object response.payload) = .ok (some (.object members)) := by
            rw [toJson, hmembers]
            rfl
          refine ⟨ofJson (.object members), ?_, ?_⟩
          · rw [hread, ofJson_members hplain.enumerated hmembers]
            rfl
          · rw [responseBody, responseBody, stringify, stringify, toJson_replayed hplain _ hjson]

theorem getStrict_stored {value : Value} {text : Option JsString} (hstore : store key = text)
    (hparse : ∀ data, text = some data → Runtime.parse data = some value) :
    RedisService.getStrictValue store key = .ok (if text.isSome then value else .null) := by
  unfold RedisService.getStrictValue
  rw [hstore]
  cases text with
  | none => rfl
  | some data =>
      simp only [hparse data rfl]
      rfl

theorem getStrict_flag (h : Represents bound store r) (hk : k.Proper)
    (htrue : ∀ value, RedisValue.text k value = js "true") :
    RedisService.getStrictValue store k.sent =
      .ok ((r k).elim .null fun _ => .boolean true) := by
  have htext := h.text k hk
  have hparse : ∀ data, ((r k).map fun entry => RedisValue.text k entry.value) = some data →
      Runtime.parse data = some (.boolean true) := by
    intro data hdata
    obtain ⟨entry, -, rfl⟩ := Option.map_eq_some_iff.1 hdata
    rw [htrue]
    rfl
  rw [getStrict_stored htext hparse]
  cases r k with
  | none => rfl
  | some entry => rfl

theorem get_represents (h : Represents bound store r) (hk : k.Proper) (hread : k.IsRead)
    (lua : Lua) : ∃ answer, RedisCommand.send lua store (.get k) = .ok (answer, store) ∧
      (RedisCommand.get k).Reads answer ((r k).map RedisEntry.value) := by
  have hvalue : ∀ value, RedisService.getStrictValue store k.sent = .ok value →
      (do
        let value ← RedisService.getStrictValue store k.sent
        pure (TextAnswer.value value, store) : Except String (TextAnswer × Keyspace)) =
        .ok (.value value, store) := by
    intro value hget
    rw [hget]
    rfl
  cases k with
  | idempotency header => exact ⟨_, rfl, _, rfl, cacheReads_stored h hk⟩
  | otpFailure phone =>
      have htext := h.text _ hk
      cases hentry : r (.otpFailure phone) with
      | none =>
          rw [hentry] at htext
          refine ⟨.value .null, hvalue _ ?_, rfl⟩
          rw [RedisService.getStrictValue, htext]
          rfl
      | some entry =>
          rw [hentry, Option.map_some] at htext
          refine ⟨.value (.number (Number.ofInt (entry.value : Nat))), hvalue _ ?_, rfl⟩
          have hparse := parse_natText entry.value
          rw [RedisService.getStrictValue, htext]
          simp only [RedisValue.text, RedisValue.counted, hparse]
  | otpResend phone =>
      refine ⟨_, hvalue _ (getStrict_flag h hk fun _ => rfl), ?_⟩
      cases r (.otpResend phone) <;> rfl
  | loginThrottle phone =>
      refine ⟨_, hvalue _ (getStrict_flag h hk fun _ => rfl), ?_⟩
      cases r (.loginThrottle phone) <;> rfl
  | _ => exact hread.elim

theorem set_represents {value : RedisValue k} {nx : Bool} (h : Represents bound store r)
    (hk : k.Proper) (hset : ¬k.IsCounter) (hfits : RedisValue.Fits 0 k value) (lua : Lua) :
    ∃ store', RedisCommand.send lua store (.set k value nx) =
        .ok (.done (r.exec p (.set k value nx)).1, store') ∧
      Represents bound store' (r.exec p (.set k value nx)).2 := by
  simp only [RedisCommand.send, RedisService.setValue, stringify_json hset, Redis.exec,
    ← h.isSome hk]
  by_cases hheld : nx = true ∧ (store k.sent).isSome = true
  · simp only [if_pos hheld]
    exact ⟨store, rfl, h⟩
  · simp only [if_neg hheld]
    exact ⟨_, rfl, h.put hk (hfits.mono (Nat.zero_le _))⟩

theorem del_represents (h : Represents bound store r) (hk : k.Proper) (lua : Lua) :
    RedisCommand.send lua store (.del k) =
        .ok (.done (r.exec p (.del k)).1, Keyspace.remove store k.sent) ∧
      Represents bound (Keyspace.remove store k.sent) (r.exec p (.del k)).2 := by
  refine ⟨?_, h.remove hk⟩
  rw [RedisCommand.send, h.isSome hk]
  rfl

/-! ## Counters -/

theorem redis_count (r : Redis) (phone : JsString) :
    r.count phone = ((r (.otpFailure phone)).map RedisEntry.value : Option Nat).getD 0 := by
  unfold Redis.count
  cases r (.otpFailure phone) with
  | none => rfl
  | some entry => rfl

theorem increment_represents {phone : JsString} (h : Represents bound store r)
    (hphone : IsDialable phone) (hbound : bound < 2 ^ 53) (lua : Lua) :
    ∃ store', RedisCommand.send lua store (.incrementWithTtl phone) =
        .ok (.count (Number.ofInt (r.exec p (.incrementWithTtl phone)).1), store') ∧
      Represents (bound + 1) store' (r.exec p (.incrementWithTtl phone)).2 := by
  have htext := h.text (.loginFailure phone) hphone
  have hfits := h.fits (.loginFailure phone)
  cases hentry : r (.loginFailure phone) with
  | none =>
      rw [hentry] at htext
      have hincr := incr_counter none htext (by decide)
      simp only [RedisCommand.send, hincr, Redis.exec, hentry]
      exact ⟨_, rfl, (h.mono (Nat.le_succ _)).put hphone (by simp [RedisValue.Fits])⟩
  | some entry =>
      rw [hentry] at htext
      have hcount : (entry.value : Nat) ≤ bound := (hfits entry hentry).2
      have hroom : bound + 1 < 2 ^ 63 := by omega
      have hnext : (entry.value : Nat) + 1 ≤ bound + 1 := Nat.succ_le_succ hcount
      have hincr := incr_counter (some entry.value) htext
        (Nat.lt_of_le_of_lt hnext hroom)
      simp only [RedisCommand.send, hincr, Redis.exec, hentry]
      exact ⟨_, rfl, (h.mono (Nat.le_succ _)).put hphone hnext⟩

/-! ## Scripts -/

theorem ok_bind {α β : Type} (a : α) (next : α → Except String β) :
    (Except.ok a >>= next) = next a := rfl

theorem Lua.Standard.number {lua : Lua} (hlua : lua.Standard) {n : Int}
    (hn : n.natAbs ≤ 2 ^ 53) : lua.number (intText n) = .ok (Number.ofInt n) := by
  rw [Lua.number, hlua.tonumber_int hn]

theorem text_object {value : RedisValue k} {fields : List (JsString × JsString)}
    (hjson : RedisValue.json k value = stringObject fields)
    (hcounted : RedisValue.counted k value = none) :
    RedisValue.text k value = objectText fields := by
  simp [RedisValue.text, hcounted, hjson, stringify_stringObject, Except.toOption]

theorem differs_fields {entries : List (JsString × LuaValue)}
    (found : List (JsString × JsString))
    (h : ∀ f ∈ found, entries.lookup f.1 = some (.string f.2)) (expected : List JsString)
    (hlength : expected.length = found.length) :
    (LuaValue.table entries).differs ((found.map Prod.fst).zip expected) =
      .ok (decide (found.map Prod.snd ≠ expected)) := by
  induction found generalizing expected with
  | nil =>
      obtain rfl := List.eq_nil_of_length_eq_zero hlength
      rfl
  | cons f found ih =>
      cases expected with
      | nil => simp at hlength
      | cons e expected =>
          have hrest := ih (fun f hf => h f (.tail _ hf)) expected (by simpa using hlength)
          simp only [List.map_cons, List.zip_cons_cons, LuaValue.differs, LuaValue.index,
            h f (.head _), Option.getD_some, ok_bind, LuaValue.isString, hrest]
          by_cases hsame : f.2 = e
          · simp [hsame]
          · simp [hsame]
            rfl

section

variable {lua : Lua} {phone challengeId deviceId otp : JsString} {maxFailures : Int}

theorem fields_isWellFormed {fields : List (JsString × JsString)} {names : List JsString}
    (hfields : fields.map Prod.fst = names) (hnames : ∀ name ∈ names, IsWellFormed name)
    (hstrings : ∀ f ∈ fields, IsWellFormed f.2) :
    ∀ f ∈ fields, IsWellFormed f.1 ∧ IsWellFormed f.2 := by
  intro f hf
  exact ⟨hnames f.1 (hfields ▸ List.mem_map_of_mem hf), hstrings f hf⟩

theorem decode_fields {fields : List (JsString × JsString)} (names : List JsString)
    (hlua : lua.Standard) (hfields : fields.map Prod.fst = names)
    (hnames : names.Nodup ∧ ∀ name ∈ names, IsWellFormed name)
    (hstrings : ∀ f ∈ fields, IsWellFormed f.2) :
    ∃ entries, lua.decode (objectText fields) = .ok (.table entries) ∧
      ∀ f ∈ fields, entries.lookup f.1 = some (.string f.2) :=
  hlua.decode_object (hfields ▸ hnames.1) (fields_isWellFormed hfields hnames.2 hstrings)

theorem consume_found {fields : List (JsString × JsString)} (names : List JsString)
    (hlua : lua.Standard) (hfields : fields.map Prod.fst = names)
    (hnames : names.Nodup ∧ ∀ name ∈ names, IsWellFormed name)
    (hstrings : ∀ f ∈ fields, IsWellFormed f.2) (hstore : store key = some (objectText fields))
    (found : List (JsString × JsString)) (hfound : found ⊆ fields) (expected : List JsString)
    (hlength : expected.length = found.length) :
    Keyspace.consumeScript lua store key ((found.map Prod.fst).zip expected) =
      .ok (if found.map Prod.snd ≠ expected then ([js "INVALID"], store)
        else ([js "CONSUMED"], Keyspace.remove store key)) := by
  obtain ⟨entries, hdecode, hlookup⟩ := decode_fields names hlua hfields hnames hstrings
  have hdiffers := differs_fields found (fun f hf => hlookup f (hfound hf)) expected hlength
  simp only [Keyspace.consumeScript, hstore, hdecode, ok_bind, hdiffers, decide_eq_true_eq]
  split <;> rfl

theorem consumeRegistration_represents (hlua : lua.Standard) (h : Represents bound store r)
    {tokenHash : JsString} (hphone : IsDialable phone) (hhash : IsWellFormed tokenHash)
    (hdevice : IsWellFormed deviceId) :
    ∃ store', RedisCommand.send lua store
        (.consumeRegistrationAuthorization tokenHash phone deviceId) =
        .ok (.reply [js (r.consumeRegistrationScript tokenHash phone deviceId).1.text], store') ∧
      Represents bound store' (r.consumeRegistrationScript tokenHash phone deviceId).2 := by
  have hk : (RedisKey.registrationAuthorization phone).Proper := hphone
  have htext := h.text _ hk
  have hsent : toWellFormed phone = phone := hphone.isWellFormed
  have hsent' : toWellFormed tokenHash = tokenHash := hhash
  have hsent'' : toWellFormed deviceId = deviceId := hdevice
  simp only [RedisCommand.send, hsent, hsent', hsent'']
  cases hentry : r (.registrationAuthorization phone) with
  | none =>
      rw [hentry, Option.map_none] at htext
      simp only [Keyspace.consumeRegistrationScript, Keyspace.consumeScript, htext,
        Redis.consumeRegistrationScript, hentry]
      exact ⟨store, rfl, h⟩
  | some entry =>
      obtain ⟨proof, writer⟩ := entry
      rw [hentry, Option.map_some, text_object rfl rfl] at htext
      have hscript : Keyspace.consumeRegistrationScript lua store
          (RedisKey.registrationAuthorization phone).sent tokenHash phone deviceId =
          .ok (if [proof.tokenHash, proof.phone, proof.deviceId] ≠ [tokenHash, phone, deviceId]
            then ([js "INVALID"], store)
            else ([js "CONSUMED"],
              Keyspace.remove store (RedisKey.registrationAuthorization phone).sent)) :=
        consume_found [js "tokenHash", js "phone", js "deviceId"] hlua rfl (by decide +kernel)
          (h.fits _ _ hentry).2 htext proof.fields (List.Subset.refl _)
          [tokenHash, phone, deviceId] rfl
      have hsame : ([proof.tokenHash, proof.phone, proof.deviceId] ≠
            [tokenHash, phone, deviceId]) ↔
          proof.tokenHash ≠ tokenHash ∨ proof.phone ≠ phone ∨ proof.deviceId ≠ deviceId := by
        simp [imp_iff_not_or]
      simp only [hscript, hsame, Redis.consumeRegistrationScript, hentry]
      split
      · exact ⟨store, rfl, h⟩
      · exact ⟨_, rfl, h.remove hk⟩

theorem consumeEnrollment_represents (hlua : lua.Standard) (h : Represents bound store r)
    {tokenHash : JsString} {userId : Uuid} (hphone : IsDialable phone)
    (hhash : IsWellFormed tokenHash) (hdevice : IsWellFormed deviceId) :
    ∃ store', RedisCommand.send lua store
        (.consumeDeviceEnrollmentAuthorization tokenHash userId phone deviceId) =
        .ok (.reply [js (r.consumeDeviceEnrollmentScript tokenHash userId phone deviceId).1.text],
          store') ∧
      Represents bound store'
        (r.consumeDeviceEnrollmentScript tokenHash userId phone deviceId).2 := by
  have hk : (RedisKey.deviceEnrollmentAuthorization phone).Proper := hphone
  have htext := h.text _ hk
  have hsent : toWellFormed phone = phone := hphone.isWellFormed
  have hsent' : toWellFormed tokenHash = tokenHash := hhash
  have hsent'' : toWellFormed deviceId = deviceId := hdevice
  simp only [RedisCommand.send, hsent, hsent', hsent'']
  cases hentry : r (.deviceEnrollmentAuthorization phone) with
  | none =>
      rw [hentry, Option.map_none] at htext
      simp only [Keyspace.consumeDeviceEnrollmentScript, Keyspace.consumeScript, htext,
        Redis.consumeDeviceEnrollmentScript, hentry]
      exact ⟨store, rfl, h⟩
  | some entry =>
      obtain ⟨proof, writer⟩ := entry
      rw [hentry, Option.map_some, text_object rfl rfl] at htext
      -- the account comes before the phone in the script, after it in the object
      have hscript : Keyspace.consumeDeviceEnrollmentScript lua store
          (RedisKey.deviceEnrollmentAuthorization phone).sent tokenHash (uuidText userId) phone
            deviceId =
          .ok (if [proof.tokenHash, uuidText proof.userId, proof.phone, proof.deviceId] ≠
              [tokenHash, uuidText userId, phone, deviceId] then ([js "INVALID"], store)
            else ([js "CONSUMED"],
              Keyspace.remove store (RedisKey.deviceEnrollmentAuthorization phone).sent)) :=
        consume_found [js "tokenHash", js "phone", js "userId", js "deviceId"] hlua rfl
          (by decide +kernel) (h.fits _ _ hentry).2 htext
          [(js "tokenHash", proof.tokenHash), (js "userId", uuidText proof.userId),
            (js "phone", proof.phone), (js "deviceId", proof.deviceId)]
          (by simp [DeviceEnrollmentAuthorizationState.fields])
          [tokenHash, uuidText userId, phone, deviceId] rfl
      have huser : uuidText proof.userId = uuidText userId ↔ proof.userId = userId :=
        ⟨uuidText_inj, congrArg uuidText⟩
      have hsame : ([proof.tokenHash, uuidText proof.userId, proof.phone, proof.deviceId] ≠
            [tokenHash, uuidText userId, phone, deviceId]) ↔
          proof.tokenHash ≠ tokenHash ∨ proof.userId ≠ userId ∨ proof.phone ≠ phone ∨
            proof.deviceId ≠ deviceId := by
        simp [imp_iff_not_or, huser]
      simp only [hscript, hsame, Redis.consumeDeviceEnrollmentScript, hentry]
      split
      · exact ⟨store, rfl, h⟩
      · exact ⟨_, rfl, h.remove hk⟩

theorem otpFailure_number (hlua : lua.Standard) (h : Represents bound store r)
    (hphone : IsDialable phone) (hbound : bound < 2 ^ 53) :
    (store (RedisKey.otpFailure phone).sent).elim (pure (Number.ofInt 0)) lua.number =
      .ok (Number.ofInt (r.count phone)) := by
  have htext := h.text (.otpFailure phone) hphone
  rw [htext, Redis.count]
  cases hentry : r (.otpFailure phone) with
  | none => rfl
  | some entry =>
      have hcount : (entry.value : Nat) ≤ bound := (h.fits _ _ hentry).2
      have hsafe : ((entry.value : Nat) : Int).natAbs ≤ 2 ^ 53 := by
        rw [Int.natAbs_natCast]
        exact Nat.le_of_lt (Nat.lt_of_le_of_lt hcount hbound)
      have hnumber := hlua.number hsafe
      rw [intText_natCast] at hnumber
      exact hnumber

theorem Represents.count_le (h : Represents bound store r) (phone : JsString) :
    r.count phone ≤ bound := by
  unfold Redis.count
  split
  · rename_i entry hentry
    exact (h.fits _ _ hentry).2
  · exact Nat.zero_le bound

theorem otpFailure_counted (h : Represents bound store r) (hphone : IsDialable phone)
    (hbound : bound < 2 ^ 53) :
    Keyspace.incr store (RedisKey.otpFailure phone).sent = .ok ((r.count phone + 1 : Nat),
      Function.update store (RedisKey.otpFailure phone).sent
        (some (natText (r.count phone + 1)))) := by
  have hroom := h.count_le phone
  rw [redis_count] at hroom ⊢
  apply incr_counter _ _ (by omega)
  rw [h.text (.otpFailure phone) hphone, Option.map_map]
  rfl

/-- The script has found the active challenge and compares it with the request. -/
theorem verifyOtpScript_compares {active challengeKey failures limit : JsString}
    {activeRaw : JsString} {challenge : OtpChallenge} {count : Int} (hlua : lua.Standard)
    (hfailures : (store failures).elim (pure (Number.ofInt 0)) lua.number =
      .ok (Number.ofInt count))
    (hlimit : lua.number limit = .ok (Number.ofInt maxFailures))
    (hbelow : (Number.ofInt count).atLeast (Number.ofInt maxFailures) = false)
    (hactive : store active = some activeRaw)
    (hdecode : lua.decode activeRaw = .ok (.string challengeId))
    (hstored : store challengeKey = some (objectText challenge.fields))
    (hstrings : ∀ f ∈ challenge.fields, IsWellFormed f.2) :
    Keyspace.verifyOtpScript lua store active challengeKey failures challengeId phone deviceId otp
        limit =
      if challenge.phone ≠ phone ∨ challenge.deviceId ≠ deviceId then
        .ok ([js "INVALID_CHALLENGE"], store)
      else if challenge.code ≠ otp then do
        let (count, store) ← Keyspace.incr store failures
        let status := if (Number.ofInt count).atLeast (Number.ofInt maxFailures) then
          "TOO_MANY_ATTEMPTS" else "INVALID_OTP"
        pure ([js status, lua.tostring (Number.ofInt count)], store)
      else
        .ok ([js "VERIFIED"], Keyspace.remove (Keyspace.remove (Keyspace.remove store challengeKey)
          active) failures) := by
  obtain ⟨entries, hobject, hfields⟩ := decode_fields
    [js "phone", js "deviceId", js "code"] hlua rfl (by decide +kernel) hstrings
  have hforeign : (LuaValue.table entries).differs
      [(js "phone", phone), (js "deviceId", deviceId)] =
      .ok (decide ([challenge.phone, challenge.deviceId] ≠ [phone, deviceId])) := by
    apply differs_fields [(js "phone", challenge.phone), (js "deviceId", challenge.deviceId)] _
      [phone, deviceId] rfl
    intro f hf
    apply hfields
    rw [List.mem_cons, List.mem_singleton] at hf
    rcases hf with rfl | rfl <;> simp [OtpChallenge.fields]
  have hwrong : (LuaValue.table entries).differs [(js "code", otp)] =
      .ok (decide ([challenge.code] ≠ [otp])) := by
    apply differs_fields [(js "code", challenge.code)] _ [otp] rfl
    intro f hf
    apply hfields
    rw [List.mem_singleton.1 hf]
    simp [OtpChallenge.fields]
  have hforeign' : [challenge.phone, challenge.deviceId] ≠ [phone, deviceId] ↔
      challenge.phone ≠ phone ∨ challenge.deviceId ≠ deviceId := by
    simp [imp_iff_not_or]
  have hwrong' : [challenge.code] ≠ [otp] ↔ challenge.code ≠ otp := by simp
  simp only [Keyspace.verifyOtpScript, hfailures, hlimit, hbelow, hactive, hdecode, hstored,
    hobject, hforeign, hwrong, ok_bind, LuaValue.isString, decide_true, Bool.not_true,
    Bool.false_eq_true, if_false, decide_eq_true_eq, hforeign', hwrong']
  rfl

theorem verifyOtp_represents (hlua : lua.Standard) (h : Represents bound store r)
    (hbound : bound < 2 ^ 53) (hphone : IsDialable phone) (hchallenge : IsWellFormed challengeId)
    (hdevice : IsWellFormed deviceId) (hotp : IsWellFormed otp)
    (hlimit : maxFailures.natAbs ≤ 2 ^ 53) :
    ∃ rest store', RedisCommand.send lua store
        (.verifyOtp phone challengeId deviceId otp maxFailures) =
        .ok (.reply (js (r.verifyOtpScript p phone challengeId deviceId otp
          maxFailures).1.text :: rest), store') ∧
      Represents (bound + 1) store'
        (r.verifyOtpScript p phone challengeId deviceId otp maxFailures).2 := by
  have hphone' : toWellFormed phone = phone := hphone.isWellFormed
  have hchallenge' : toWellFormed challengeId = challengeId := hchallenge
  have hdevice' : toWellFormed deviceId = deviceId := hdevice
  have hotp' : toWellFormed otp = otp := hotp
  have hlater := h.mono (Nat.le_succ bound)
  have hfailures := otpFailure_number hlua h hphone hbound
  have hmax := hlua.number hlimit
  have hcount := h.count_le phone
  have hcompare : ∀ n : Nat, n ≤ bound + 1 →
      (Number.ofInt n).atLeast (Number.ofInt maxFailures) = decide ((n : Int) ≥ maxFailures) :=
    fun n hn => atLeast_ofInt (by omega) hlimit
  have hreached := hcompare _ (Nat.le_succ_of_le hcount)
  simp only [RedisCommand.send, hphone', hchallenge', hdevice', hotp', Redis.verifyOtpScript]
  by_cases hblocked : (r.count phone : Int) ≥ maxFailures
  · simp only [Keyspace.verifyOtpScript, hfailures, hmax, ok_bind, hreached, hblocked,
      decide_true, if_true]
    exact ⟨_, store, rfl, hlater⟩
  · rw [decide_eq_false hblocked] at hreached
    rw [if_neg hblocked]
    have hactiveText := h.text (.otpActiveChallenge phone) hphone
    cases hactive : r (.otpActiveChallenge phone) with
    | none =>
        rw [hactive, Option.map_none] at hactiveText
        simp only [Keyspace.verifyOtpScript, hfailures, hmax, ok_bind, hreached, hactiveText]
        exact ⟨_, store, rfl, hlater⟩
    | some active =>
        obtain ⟨value, writer⟩ := active
        rw [hactive, Option.map_some] at hactiveText
        have hdecode : lua.decode (RedisValue.text (.otpActiveChallenge phone) value) =
            .ok (.string value) := hlua.decode_string (h.fits _ _ hactive).2
        by_cases hsame : value = challengeId
        · obtain rfl := hsame
          have hchallengeText := h.text (.otpChallenge phone value) ⟨hphone, hchallenge⟩
          cases hentry : r (.otpChallenge phone value) with
          | none =>
              rw [hentry, Option.map_none] at hchallengeText
              simp only [Keyspace.verifyOtpScript, hfailures, hmax, ok_bind, hreached,
                hactiveText, hdecode, LuaValue.isString, hchallengeText, decide_true,
                Bool.not_true, Bool.false_eq_true, if_false, ne_eq, not_true_eq_false]
              exact ⟨_, store, rfl, hlater⟩
          | some entry =>
              obtain ⟨challenge, writer⟩ := entry
              rw [hentry, Option.map_some, text_object rfl rfl] at hchallengeText
              have hscript : Keyspace.verifyOtpScript lua store
                  (RedisKey.otpActiveChallenge phone).sent (RedisKey.otpChallenge phone value).sent
                  (RedisKey.otpFailure phone).sent value phone deviceId otp
                    (intText maxFailures) = _ :=
                verifyOtpScript_compares hlua hfailures hmax hreached hactiveText hdecode
                  hchallengeText (h.fits _ _ hentry).2
              simp only [hscript, ne_eq, not_true_eq_false, if_false]
              split
              · exact ⟨_, store, rfl, hlater⟩
              · split
                · have hcounted : Represents (bound + 1)
                      (Function.update store (RedisKey.otpFailure phone).sent
                        (some (natText (r.count phone + 1))))
                      (r.put (.otpFailure phone) (r.count phone + 1) p) :=
                    hlater.put hphone (Nat.succ_le_succ hcount)
                  simp only [otpFailure_counted h hphone hbound, ok_bind,
                    hcompare _ (Nat.succ_le_succ hcount), decide_eq_true_eq]
                  split
                  · exact ⟨_, _, rfl, hcounted⟩
                  · exact ⟨_, _, rfl, hcounted⟩
                · have hkey : (RedisKey.otpChallenge phone value).Proper := ⟨hphone, hchallenge⟩
                  have hactiveKey : (RedisKey.otpActiveChallenge phone).Proper := hphone
                  have hfailureKey : (RedisKey.otpFailure phone).Proper := hphone
                  exact ⟨_, _, rfl, ((hlater.remove hkey).remove hactiveKey).remove hfailureKey⟩
        · simp only [Keyspace.verifyOtpScript, hfailures, hmax, ok_bind, hreached, hactiveText,
            hdecode, LuaValue.isString, hsame, decide_false, Bool.not_false, if_true, ne_eq,
            not_false_eq_true, Bool.false_eq_true, if_false]
          exact ⟨_, store, rfl, hlater⟩

/-! ## All commands -/

/-- A command does to the texts what it does to the values, and is answered alike. -/
theorem send_represents {command : RedisCommand} (hlua : lua.Standard)
    (h : Represents bound store r) (hbound : bound < 2 ^ 53) (hproper : command.Proper) :
    ∃ answer store', command.send lua store = .ok (answer, store') ∧
      command.Reads answer (r.exec p command).1 ∧
      Represents (bound + 1) store' (r.exec p command).2 := by
  have hlater : ∀ {store r}, Represents bound store r → Represents (bound + 1) store r :=
    fun h => h.mono (Nat.le_succ bound)
  cases command with
  | get k =>
      obtain ⟨answer, hsend, hreads⟩ := get_represents h hproper.1 hproper.2 lua
      exact ⟨answer, store, hsend, hreads, hlater h⟩
  | set k value nx =>
      obtain ⟨hk, hset, hfits⟩ := hproper
      obtain ⟨store', hsend, h'⟩ := set_represents h hk hset hfits lua
      exact ⟨_, store', hsend, rfl, hlater h'⟩
  | del k =>
      obtain ⟨hsend, h'⟩ := del_represents h hproper lua
      exact ⟨_, _, hsend, rfl, hlater h'⟩
  | incrementWithTtl phone =>
      obtain ⟨store', hsend, h'⟩ := increment_represents h hproper hbound lua
      exact ⟨_, store', hsend, rfl, h'⟩
  | verifyOtp phone challengeId deviceId otp maxFailures =>
      obtain ⟨hphone, hchallenge, hdevice, hotp, hlimit⟩ := hproper
      obtain ⟨rest, store', hsend, h'⟩ :=
        verifyOtp_represents hlua h hbound hphone hchallenge hdevice hotp hlimit
      exact ⟨_, store', hsend, ⟨rest, rfl⟩, h'⟩
  | consumeRegistrationAuthorization tokenHash phone deviceId =>
      obtain ⟨hhash, hphone, hdevice⟩ := hproper
      obtain ⟨store', hsend, h'⟩ := consumeRegistration_represents hlua h hphone hhash hdevice
      exact ⟨_, store', hsend, rfl, hlater h'⟩
  | consumeDeviceEnrollmentAuthorization tokenHash userId phone deviceId =>
      obtain ⟨hhash, hphone, hdevice⟩ := hproper
      obtain ⟨store', hsend, h'⟩ := consumeEnrollment_represents hlua h hphone hhash hdevice
      exact ⟨_, store', hsend, rfl, hlater h'⟩

end

end

end Kori
