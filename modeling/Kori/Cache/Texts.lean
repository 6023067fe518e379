import Kori.Cache.Keys
import Kori.Idempotency.Bodies
import Kori.Runtime.Integers

/-!
# Redis as it holds texts

What the server sends for each of its commands, what Redis does with the texts under its keys
and what the client library makes of the answer.  Texts are compared as strings, which is how
Redis compares them once they have been encoded.
-/

namespace Kori

open Foundation Kori.Runtime

/-! ## What is stored -/

/-- `new Date(ms)`, which JSON writes as `null` unless the time is valid. -/
def dateValue (ms : Nat) : Value :=
  if h : (ms : Int).natAbs ≤ 8640000000000000 then .date ⟨ms, h⟩ else .null

def TransactionResultResponse.payload (response : TransactionResultResponse) : Properties :=
  [(js "trxId", .string response.trxId), (js "type", .string (js response.type.text)),
    (js "status", .string (js response.status.text)), (js "amount", .string response.amount),
    (js "fee", .string response.fee), (js "createdAt", dateValue response.createdAt.ms),
    (js "newBalance", .string response.newBalance)]

def OtpChallenge.fields (challenge : OtpChallenge) : List (JsString × JsString) :=
  [(js "phone", challenge.phone), (js "deviceId", challenge.deviceId),
    (js "code", challenge.code)]

def RegistrationAuthorizationState.fields (state : RegistrationAuthorizationState) :
    List (JsString × JsString) :=
  [(js "tokenHash", state.tokenHash), (js "phone", state.phone),
    (js "deviceId", state.deviceId)]

def DeviceEnrollmentAuthorizationState.fields (state : DeviceEnrollmentAuthorizationState) :
    List (JsString × JsString) :=
  [(js "tokenHash", state.tokenHash), (js "phone", state.phone),
    (js "userId", uuidText state.userId), (js "deviceId", state.deviceId)]

def stringObject (fields : List (JsString × JsString)) : Value :=
  .object (fields.map fun f => (f.1, .string f.2))

/-- The value that the server hands to `RedisService.set`. -/
def RedisValue.json : (k : RedisKey) → RedisValue k → Value
  | .idempotency _, .processing => .string (js "PROCESSING")
  | .idempotency _, .response response => .object response.payload
  | .loginThrottle _, _ | .otpResend _, _ => .boolean true
  | .otpChallenge _ _, challenge => stringObject challenge.fields
  | .otpActiveChallenge _, challengeId => .string challengeId
  | .registrationAuthorization _, state => stringObject state.fields
  | .deviceEnrollmentAuthorization _, state => stringObject state.fields
  | .loginFailure _, count | .otpFailure _, count => .number (Number.ofInt (count : Nat))

def RedisValue.counted : (k : RedisKey) → RedisValue k → Option Nat
  | .loginFailure _, count | .otpFailure _, count => some count
  | _, _ => none

def RedisValue.text (k : RedisKey) (value : RedisValue k) : JsString :=
  match RedisValue.counted k value with
  | some count => natText count
  | none => ((stringify (RedisValue.json k value)).toOption.bind id).getD []

def RedisKey.sent (k : RedisKey) : JsString := toWellFormed k.text

/-! ## Redis -/

def integerOf (s : JsString) : Option Int :=
  (bigInt s).filter fun n => intText n = s ∧ -2 ^ 63 ≤ n ∧ n < 2 ^ 63

namespace Keyspace

def remove (store : Keyspace) (key : JsString) : Keyspace := Function.update store key none

def incr (store : Keyspace) (key : JsString) : Except String (Int × Keyspace) :=
  match (store key).elim (some 0) integerOf with
  | none => .error "ERR value is not an integer or out of range"
  | some n =>
      if n + 1 = 2 ^ 63 then .error "ERR increment or decrement would overflow"
      else .ok (n + 1, Function.update store key (some (intText (n + 1))))

end Keyspace

/-! ## Lua -/

inductive LuaValue where
  | nil
  | boolean (b : Bool)
  | number (x : Number)
  | string (s : JsString)
  | table (fields : List (JsString × LuaValue))
  /-- `cjson.null` -/
  | null

/-- The functions that the scripts call. -/
structure Lua where
  /-- `cjson.decode` -/
  decode : JsString → Except String LuaValue
  tonumber : JsString → Option Number
  tostring : Number → JsString

namespace LuaValue

def isString (s : JsString) : LuaValue → Bool
  | string t => t = s
  | _ => false

/-- `value.name`, where no function on strings has the name. -/
def index (name : JsString) : LuaValue → Except String LuaValue
  | table fields => .ok ((fields.lookup name).getD nil)
  | string _ => .ok nil
  | _ => .error "attempt to index a value that has no fields"

/-- `value.name ~= expected or ...` -/
def differs (value : LuaValue) : List (JsString × JsString) → Except String Bool
  | [] => .ok false
  | (name, expected) :: rest => do
      let found ← value.index name
      if found.isString expected then value.differs rest else pure true

end LuaValue

/-- `tonumber(s)`, where the result is compared with a number. -/
def Lua.number (lua : Lua) (s : JsString) : Except String Number :=
  match lua.tonumber s with
  | some x => .ok x
  | none => .error "attempt to compare nil with number"

abbrev ScriptResult := Except String (List JsString × Keyspace)

namespace Keyspace

/-- `VERIFY_OTP_SCRIPT` -/
def verifyOtpScript (lua : Lua) (store : Keyspace) (active challengeKey failures : JsString)
    (challengeId phone deviceId otp limit : JsString) : ScriptResult := do
  let failureCount ← (store failures).elim (pure (Number.ofInt 0)) lua.number
  let maxFailures ← lua.number limit
  if failureCount.atLeast maxFailures then
    pure ([js "TOO_MANY_ATTEMPTS", lua.tostring failureCount], store)
  else
    match store active with
    | none => pure ([js "NO_ACTIVE_CHALLENGE"], store)
    | some activeRaw =>
        let activeChallengeId ← lua.decode activeRaw
        if !activeChallengeId.isString challengeId then pure ([js "SUPERSEDED"], store)
        else
          match store challengeKey with
          | none => pure ([js "CHALLENGE_MISSING"], store)
          | some challengeRaw =>
              let challenge ← lua.decode challengeRaw
              if ← challenge.differs [(js "phone", phone), (js "deviceId", deviceId)] then
                pure ([js "INVALID_CHALLENGE"], store)
              else if ← challenge.differs [(js "code", otp)] then
                let (count, store) ← incr store failures
                let status := if (Number.ofInt count).atLeast maxFailures then
                  "TOO_MANY_ATTEMPTS" else "INVALID_OTP"
                pure ([js status, lua.tostring (Number.ofInt count)], store)
              else
                pure ([js "VERIFIED"], remove (remove (remove store challengeKey) active) failures)

/-- The scripts that consume a proof, which differ in the fields they compare. -/
def consumeScript (lua : Lua) (store : Keyspace) (key : JsString)
    (expected : List (JsString × JsString)) : ScriptResult :=
  match store key with
  | none => pure ([js "MISSING"], store)
  | some raw => do
      let proof ← lua.decode raw
      if ← proof.differs expected then pure ([js "INVALID"], store)
      else pure ([js "CONSUMED"], remove store key)

/-- `CONSUME_REGISTRATION_AUTHORIZATION_SCRIPT` -/
def consumeRegistrationScript (lua : Lua) (store : Keyspace) (key : JsString)
    (tokenHash phone deviceId : JsString) : ScriptResult :=
  consumeScript lua store key
    [(js "tokenHash", tokenHash), (js "phone", phone), (js "deviceId", deviceId)]

/-- `CONSUME_DEVICE_ENROLLMENT_AUTHORIZATION_SCRIPT` -/
def consumeDeviceEnrollmentScript (lua : Lua) (store : Keyspace) (key : JsString)
    (tokenHash userId phone deviceId : JsString) : ScriptResult :=
  consumeScript lua store key
    [(js "tokenHash", tokenHash), (js "userId", userId), (js "phone", phone),
      (js "deviceId", deviceId)]

end Keyspace

/-! ## Commands -/

/-- `getStrict` of a connected client. -/
def RedisService.getStrictValue (store : Keyspace) (key : JsString) : Except String Value :=
  match store key with
  | none => .ok .null
  | some data =>
      match Runtime.parse data with
      | some value => .ok value
      | none => .error "SyntaxError"

/-- What the client library makes of an answer. -/
inductive TextAnswer where
  | value (value : Value)
  | done (result : Bool)
  | count (x : Number)
  | reply (result : List JsString)

/-- The command as the server sends it: its answer and what it leaves, or its error. -/
def RedisCommand.send (lua : Lua) (store : Keyspace) :
    RedisCommand → Except String (TextAnswer × Keyspace)
  | .get (.idempotency header) =>
      .ok (.value (RedisService.getValue store (RedisKey.idempotency header).sent), store)
  | .get key => do
      let value ← RedisService.getStrictValue store key.sent
      pure (.value value, store)
  | .set key value nx => do
      let (result, store) ← RedisService.setValue store key.sent (RedisValue.json key value) nx
      pure (.done result, store)
  | .del key => .ok (.done (store key.sent).isSome, Keyspace.remove store key.sent)
  | .incrementWithTtl phone => do
      let (count, store) ← Keyspace.incr store (RedisKey.loginFailure phone).sent
      pure (.count (Number.ofInt count), store)
  | .verifyOtp phone challengeId deviceId otp maxFailures => do
      let (result, store) ← Keyspace.verifyOtpScript lua store
        (RedisKey.otpActiveChallenge phone).sent (RedisKey.otpChallenge phone challengeId).sent
        (RedisKey.otpFailure phone).sent (toWellFormed challengeId) (toWellFormed phone)
        (toWellFormed deviceId) (toWellFormed otp) (intText maxFailures)
      pure (.reply result, store)
  | .consumeRegistrationAuthorization tokenHash phone deviceId => do
      let (result, store) ← Keyspace.consumeRegistrationScript lua store
        (RedisKey.registrationAuthorization phone).sent (toWellFormed tokenHash)
        (toWellFormed phone) (toWellFormed deviceId)
      pure (.reply result, store)
  | .consumeDeviceEnrollmentAuthorization tokenHash userId phone deviceId => do
      let (result, store) ← Keyspace.consumeDeviceEnrollmentScript lua store
        (RedisKey.deviceEnrollmentAuthorization phone).sent (toWellFormed tokenHash)
        (uuidText userId) (toWellFormed phone) (toWellFormed deviceId)
      pure (.reply result, store)

end Kori
