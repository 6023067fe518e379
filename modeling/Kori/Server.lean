import Kori.Schema
import Kori.Foundation.Interleaving

/-!
# The server's environment

What a request handler can do: make a database statement, send a Redis command,
read the clock, draw random values.  Every outcome that the outside world
decides is part of the `Choice` under which an operation runs.

Redis keys are removed by the environment at any time, which covers the expiry
of every time to live and the loss of data.
-/

namespace Kori

open Foundation

/-! ## Requests and replies -/

structure TransferBody where
  /-- `none` stands for a value that is not a string. -/
  amountMinorUnits : Option JsString
  /-- `recipientPhone`, `customerPhone`, `agentPhone` or `merchantPhone`. -/
  phone : JsString
  reference : Option JsString
  invoiceNumber : Option JsString
  deriving DecidableEq, Repr

/-- A request to one of the four transaction endpoints. -/
structure TransferRequest where
  /-- The `sub` of the access token, `none` without a valid token. -/
  actor : Option Uuid
  endpoint : TransactionType
  /-- The `x-idempotency-key` header. -/
  idempotencyKey : Option JsString
  body : TransferBody
  deriving DecidableEq, Repr

structure SendOtpDto where
  phone : JsString
  deviceId : JsString
  deriving DecidableEq, Repr

structure VerifyOtpDto extends SendOtpDto where
  otp : JsString
  challengeId : JsString
  deviceEnrollmentToken : Option JsString
  deriving DecidableEq, Repr

structure AuthCredentialsDto where
  phone : JsString
  pin : JsString
  deviceId : JsString
  deriving DecidableEq, Repr

structure RegisterDto extends AuthCredentialsDto where
  registrationToken : JsString
  deriving DecidableEq, Repr

structure ApproveBusinessDto where
  phone : JsString
  role : Role
  deriving DecidableEq, Repr

structure AccessTokenPayload where
  sub : Uuid
  role : Role
  deriving DecidableEq, Repr

structure RefreshTokenPayload where
  sub : Uuid
  deviceId : JsString
  sid : Uuid
  jti : Uuid
  deriving DecidableEq, Repr

structure TokensResponse where
  accessToken : AccessTokenPayload
  refreshToken : RefreshTokenPayload
  deriving DecidableEq, Repr

structure TransactionResultResponse where
  trxId : JsString
  type : TransactionType
  status : TransactionStatus
  amount : JsString
  fee : JsString
  createdAt : Instant
  newBalance : JsString
  deriving DecidableEq, Repr

/-- A request.  Tokens are given as what their verified payload says, `none`
when there is no valid token. -/
inductive Call where
  | transfer (request : TransferRequest)
  | deactiveWallet (actor : Option Uuid) (walletId : Uuid)
  | activeWallet (actor : Option Uuid) (walletId : Uuid)
  | suspend (actor : Option Uuid) (targetUserId : Uuid)
  | reactivate (actor : Option Uuid) (targetUserId : Uuid)
  | sendOtp (dto : SendOtpDto)
  | verifyOtp (dto : VerifyOtpDto)
  | register (dto : RegisterDto)
  | registerBusiness (dto : RegisterDto)
  | login (dto : AuthCredentialsDto)
  | refresh (token : Option RefreshTokenPayload)
  | logout (token : Option RefreshTokenPayload)
  | revokeTrustedDevice (actor : Option Uuid) (deviceRecordId : Uuid)
  | approveBusinessAccount (actor : Option Uuid) (dto : ApproveBusinessDto)
  deriving DecidableEq, Repr

inductive Exn where
  | http (status : Nat) (code : Option String) (message : String)
  | deviceVerificationRequired (token : JsString) (expiresIn : Nat)
  | invalidMoney (e : InvalidMoney)
  | invalidPhoneNumber (message : String)
  | sql (e : SqlError)
  | error (message : String)
  /-- `InternalServerErrorException(error, ...)`, whose body is the caught error. -/
  | wrapped (e : Exn)
  deriving DecidableEq, Repr

inductive Reply where
  /-- The handler of a transaction endpoint returned. -/
  | transferred (response : TransactionResultResponse)
  /-- The interceptor answered from the cache. -/
  | replayed (response : TransactionResultResponse)
  | tokens (response : TokensResponse)
  | otpSent (challengeId : JsString) (expiresIn : Nat)
  | registrationAuthorized (token : JsString) (expiresIn : Nat)
  | success
  | failed (e : Exn)
  deriving DecidableEq, Repr

namespace Exn

def badRequest (message : String) : Exn := http 400 none message
def unauthorized (message : String) : Exn := http 401 none message
def forbidden (message : String) : Exn := http 403 none message
def notFound (message : String) : Exn := http 404 none message
def conflict (message : String) : Exn := http 409 none message
def tooManyRequests (message : String) : Exn := http 429 none message
def internalServerError (message : String) : Exn := http 500 none message
def serviceUnavailable (message : String) : Exn := http 503 none message

/-- The status that `AllExceptionFilter` answers with. -/
def status : Exn → Nat
  | http status _ _ => status
  | deviceVerificationRequired _ _ => 403
  | invalidMoney _ | invalidPhoneNumber _ | sql _ | error _ | wrapped _ => 500

end Exn

/-! ## Redis -/

structure OtpChallenge where
  phone : JsString
  deviceId : JsString
  code : JsString
  deriving DecidableEq, Repr

structure RegistrationAuthorizationState where
  tokenHash : JsString
  phone : JsString
  deviceId : JsString
  deriving DecidableEq, Repr

structure DeviceEnrollmentAuthorizationState where
  tokenHash : JsString
  phone : JsString
  userId : Uuid
  deviceId : JsString
  deriving DecidableEq, Repr

inductive IdempotencyCacheState where
  | processing
  | response (payload : TransactionResultResponse)
  deriving DecidableEq, Repr

inductive RedisKey where
  | idempotency (header : JsString)
  | loginFailure (phone : JsString)
  | loginThrottle (phone : JsString)
  | otpChallenge (phone challengeId : JsString)
  | otpActiveChallenge (phone : JsString)
  | otpResend (phone : JsString)
  | otpFailure (phone : JsString)
  | registrationAuthorization (phone : JsString)
  | deviceEnrollmentAuthorization (phone : JsString)
  deriving DecidableEq, Repr

@[reducible] def RedisValue : RedisKey → Type
  | .idempotency _ => IdempotencyCacheState
  | .loginFailure _ | .otpFailure _ => Nat
  | .loginThrottle _ | .otpResend _ => Unit
  | .otpChallenge _ _ => OtpChallenge
  | .otpActiveChallenge _ => JsString
  | .registrationAuthorization _ => RegistrationAuthorizationState
  | .deviceEnrollmentAuthorization _ => DeviceEnrollmentAuthorizationState

/-- A stored value and the request that stored it. -/
structure RedisEntry (k : RedisKey) where
  value : RedisValue k
  writer : Pid

abbrev Redis := (k : RedisKey) → Option (RedisEntry k)

inductive OtpVerificationStatus where
  | verified | tooManyAttempts | noActiveChallenge | superseded
  | challengeMissing | invalidChallenge | invalidOtp
  deriving DecidableEq, Repr

inductive AuthorizationConsumeStatus where
  | consumed | missing | invalid
  deriving DecidableEq, Repr

inductive RedisCommand where
  | get (key : RedisKey)
  | set (key : RedisKey) (value : RedisValue key) (nx : Bool)
  | del (key : RedisKey)
  /-- `MULTI; INCR; EXPIRE; EXEC` on the login failure counter. -/
  | incrementWithTtl (phone : JsString)
  | verifyOtp (phone challengeId deviceId otp : JsString) (maxFailures : Int)
  | consumeRegistrationAuthorization (tokenHash phone deviceId : JsString)
  | consumeDeviceEnrollmentAuthorization (tokenHash : JsString) (userId : Uuid)
      (phone deviceId : JsString)

@[reducible] def RedisCommand.Ans : RedisCommand → Type
  | .get key => Option (RedisValue key)
  | .set _ _ _ | .del _ => Bool
  | .incrementWithTtl _ => Nat
  | .verifyOtp _ _ _ _ _ => OtpVerificationStatus
  | .consumeRegistrationAuthorization _ _ _
  | .consumeDeviceEnrollmentAuthorization _ _ _ _ => AuthorizationConsumeStatus

/-- What the client library makes of a command. -/
inductive RedisReply (α : Type) where
  /-- The client is not connected and sends nothing. -/
  | offline
  | error
  | ok (a : α)

/-! The scripts are given for strings that can be sent.  What Redis receives of others is
`RedisCommand.received`. -/

namespace Redis

def put (r : Redis) (k : RedisKey) (value : RedisValue k) (writer : Pid) : Redis :=
  Function.update r k (some ⟨value, writer⟩)

def remove (r : Redis) (k : RedisKey) : Redis := Function.update r k none

def count (r : Redis) (phone : JsString) : Nat :=
  match r (.otpFailure phone) with
  | some entry => entry.value
  | none => 0

/-- `VERIFY_OTP_SCRIPT` -/
def verifyOtpScript (r : Redis) (p : Pid) (phone challengeId deviceId otp : JsString)
    (maxFailures : Int) : OtpVerificationStatus × Redis :=
  if (r.count phone : Int) ≥ maxFailures then (.tooManyAttempts, r)
  else
    match r (.otpActiveChallenge phone) with
    | none => (.noActiveChallenge, r)
    | some active =>
        if active.value ≠ challengeId then (.superseded, r)
        else
          match r (.otpChallenge phone challengeId) with
          | none => (.challengeMissing, r)
          | some ⟨challenge, _⟩ =>
              if challenge.phone ≠ phone ∨ challenge.deviceId ≠ deviceId then
                (.invalidChallenge, r)
              else if challenge.code ≠ otp then
                let count := r.count phone + 1
                let r' := r.put (.otpFailure phone) count p
                if (count : Int) ≥ maxFailures then (.tooManyAttempts, r')
                else (.invalidOtp, r')
              else
                (.verified, ((r.remove (.otpChallenge phone challengeId)).remove
                  (.otpActiveChallenge phone)).remove (.otpFailure phone))

/-- `CONSUME_REGISTRATION_AUTHORIZATION_SCRIPT` -/
def consumeRegistrationScript (r : Redis) (tokenHash phone deviceId : JsString) :
    AuthorizationConsumeStatus × Redis :=
  match r (.registrationAuthorization phone) with
  | none => (.missing, r)
  | some ⟨proof, _⟩ =>
      if proof.tokenHash ≠ tokenHash ∨ proof.phone ≠ phone ∨ proof.deviceId ≠ deviceId then
        (.invalid, r)
      else (.consumed, r.remove (.registrationAuthorization phone))

/-- `CONSUME_DEVICE_ENROLLMENT_AUTHORIZATION_SCRIPT` -/
def consumeDeviceEnrollmentScript (r : Redis) (tokenHash : JsString) (userId : Uuid)
    (phone deviceId : JsString) : AuthorizationConsumeStatus × Redis :=
  match r (.deviceEnrollmentAuthorization phone) with
  | none => (.missing, r)
  | some ⟨proof, _⟩ =>
      if proof.tokenHash ≠ tokenHash ∨ proof.userId ≠ userId ∨ proof.phone ≠ phone ∨
          proof.deviceId ≠ deviceId then
        (.invalid, r)
      else (.consumed, r.remove (.deviceEnrollmentAuthorization phone))

/-- The effect and the answer of a command. -/
def exec (r : Redis) (p : Pid) : (command : RedisCommand) → command.Ans × Redis
  | .get key => ((r key).map RedisEntry.value, r)
  | .set key value nx =>
      if nx ∧ (r key).isSome then (false, r) else (true, r.put key value p)
  | .del key => ((r key).isSome, r.remove key)
  | .incrementWithTtl phone =>
      let count := (match r (.loginFailure phone) with
        | some entry => entry.value
        | none => 0) + 1
      (count, r.put (.loginFailure phone) count p)
  | .verifyOtp phone challengeId deviceId otp maxFailures =>
      r.verifyOtpScript p phone challengeId deviceId otp maxFailures
  | .consumeRegistrationAuthorization tokenHash phone deviceId =>
      r.consumeRegistrationScript tokenHash phone deviceId
  | .consumeDeviceEnrollmentAuthorization tokenHash userId phone deviceId =>
      r.consumeDeviceEnrollmentScript tokenHash userId phone deviceId

end Redis

/-! ## Operations -/

/-- Where a random UUID comes from. -/
inductive Origin where
  /-- It was in use before the first request. -/
  | opening
  | request (p : Pid)
  deriving DecidableEq, Repr

/-- What all server instances share. -/
structure Shared where
  db : Database
  redis : Redis
  /-- The random UUIDs drawn so far. -/
  minted : Uuid → Option Origin
  /-- The random tokens drawn so far. -/
  tokens : List JsString
  /-- The idempotency key whose marker a request has acquired and for which it
  has not yet issued the command that completes it. -/
  leases : Pid → Option JsString

/-- A payload that `ValidationPipe` checks before the handler sees it. -/
inductive Payload where
  | transfer (endpoint : TransactionType) (body : TransferBody)
  | sendOtp (dto : SendOtpDto)
  | verifyOtp (dto : VerifyOtpDto)
  | credentials (dto : AuthCredentialsDto)
  | register (dto : RegisterDto)
  | approveBusiness (dto : ApproveBusinessDto)
  deriving DecidableEq, Repr

/-- Libraries, configuration and start-up state that the code relies on. -/
structure Env where
  /-- `parsePhoneNumberFromString` with its checks, as the normalised number. -/
  parsePhoneNumber : JsString → Option JsString
  /-- The value PostgreSQL stores for a string in a `uuid` column. -/
  castUuid : JsString → Option Uuid
  validates : Payload → Bool
  verifyPin : JsString → JsString → Bool
  sha256 : JsString → JsString
  loginMaxFailures : Int
  otpMaxFailures : Int
  otpTtl : Nat
  registrationTtl : Nat
  deviceEnrollmentTtl : Nat
  cachedSystemWalletId : Uuid

inductive Op where
  | sql (statement : Statement)
  | redis (command : RedisCommand)
  | now
  | randomUUID
  /-- `@default(uuid())` -/
  | generatedId
  /-- `randomBytes(4)` -/
  | randomBytes
  /-- `randomInt(0, 1000000)` -/
  | randomInt
  /-- `randomBytes(32).toString('base64url')` -/
  | randomToken
  | hashPin (pin : JsString)
  /-- The order in which the database server visits rows. -/
  | arrange (keys : List Key)
  /-- Which of two concurrent branches goes first. -/
  | turn

@[reducible] def Op.Ans : Op → Type
  | .sql statement => Except SqlError statement.Ans
  | .redis command => RedisReply command.Ans
  | .now => Instant
  | .randomUUID | .generatedId => Uuid
  | .randomBytes => BitVec 32
  | .randomInt => Nat
  | .randomToken | .hashPin _ => JsString
  | .arrange _ => List Key
  | .turn => Bool

inductive Choice where
  | go
  /-- The operation fails without effect; a `COMMIT` that fails rolls back.  Statements that
  take effect are acknowledged. -/
  | fail
  /-- A Redis command takes effect but its answer is lost. -/
  | lost
  | offline
  | instant (t : Instant)
  | uuid (u : Uuid)
  | bytes (b : BitVec 32)
  | int (n : Nat)
  | text (s : JsString)
  | order (keys : List Key)
  | turn (first : Bool)
  deriving DecidableEq, Repr

namespace Shared

/-- Acquiring the marker opens the lease, the completing command ends it. -/
def lease (s : Shared) (p : Pid) (acquired : Bool) : RedisCommand → Pid → Option JsString
  | .set (.idempotency header) _ true =>
      if acquired then Function.update s.leases p (some header) else s.leases
  | .set (.idempotency _) _ false | .del (.idempotency _) =>
      Function.update s.leases p none
  | _ => s.leases

def granted : (command : RedisCommand) → command.Ans → Bool
  | .set _ _ _, answer => answer
  | _, _ => false

def redisGo (s : Shared) (p : Pid) (command : RedisCommand) :
    RedisReply command.Ans × Shared :=
  let result := s.redis.exec p command
  (.ok result.1, { s with
    redis := result.2
    leases := s.lease p (granted command result.1) command })

def redisLost (s : Shared) (p : Pid) (command : RedisCommand) : Shared :=
  { s with
    redis := (s.redis.exec p command).2
    leases := s.lease p false command }

def redisFail (s : Shared) (p : Pid) (command : RedisCommand) : Shared :=
  { s with leases := s.lease p false command }

def exec (env : Env) (p : Pid) : (op : Op) → Choice → Shared → Option (op.Ans × Shared)
  | .sql statement, .go, s =>
      (s.db.exec p statement).map fun result => (result.1, { s with db := result.2 })
  | .sql statement, .fail, s =>
      some ((s.db.fail p statement).1, { s with db := (s.db.fail p statement).2 })
  | .redis command, .go, s => some (s.redisGo p command)
  | .redis command, .lost, s => some (.error, s.redisLost p command)
  | .redis command, .fail, s => some (.error, s.redisFail p command)
  | .redis command, .offline, s => some (.offline, s.redisFail p command)
  | .now, .instant t, s => some (t, s)
  | .randomUUID, .uuid u, s =>
      if s.minted u = none then
        some (u, { s with minted := Function.update s.minted u (some (.request p)) })
      else none
  | .generatedId, .uuid u, s => some (u, s)
  | .randomBytes, .bytes b, s => some (b, s)
  | .randomInt, .int n, s => if n < 1000000 then some (n, s) else none
  | .randomToken, .text token, s =>
      if token ∈ s.tokens then none
      else some (token, { s with tokens := token :: s.tokens })
  | .hashPin pin, .text hash, s => if env.verifyPin pin hash then some (hash, s) else none
  | .arrange keys, .order keys', s => if keys'.Perm keys then some (keys', s) else none
  | .turn, .turn first, s => some (first, s)
  | _, _, _ => none

/-- A server that dies: its open transaction is rolled back. -/
def abort (p : Pid) (s : Shared) : Shared :=
  { s with db := s.db.rollback p, leases := Function.update s.leases p none }

/-- A Redis key expires or is lost. -/
def expire (k : RedisKey) (s : Shared) : Shared := { s with redis := s.redis.remove k }

end Shared

abbrev Action (α : Type) := Code Op Op.Ans Reply Exn α

end Kori
