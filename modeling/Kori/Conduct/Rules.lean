import Kori.Contract.Requests
import Kori.Foundation.Statements

/-!
# What each request may ask for

One table per kind of request: the operations that write rows or Redis keys, and
what the request has been answered before it makes them.  A free operation writes
nothing.  Only `login` is followed through all of its operations, because the
throttling of logins depends on their order.
-/

namespace Kori

open Foundation

abbrev History := List (Entry Op Op.Ans)

def executed : Entry Op Op.Ans → Option (Executed Key Row LedgerEntry Query)
  | ⟨.sql statement, answer⟩ => some ⟨statement, answer⟩
  | _ => none

def statements (past : History) : List (Executed Key Row LedgerEntry Query) :=
  past.filterMap executed

def InTransaction (past : History) : Prop := (uncommitted (statements past)).isSome

def Never (P : Op → Prop) (past : History) : Prop := ∀ e ∈ past, ¬P e.op

def phoneOf (env : Env) (value : JsString) : Option JsString :=
  if trim value = [] then none else env.parsePhoneNumber (trim value)

def Data.accountByPhone (t : Data) (phone : JsString) : Option (Uuid × User) :=
  (t.row (.userByPhone phone)).bind fun id =>
    (t.row (.user id)).map fun user => (id, user)

def LookedUp (past : History) (phone : JsString) (account : Option (Uuid × User)) : Prop :=
  ∃ t : Data, ⟨.sql (.select (.userByPhone phone)), .ok t⟩ ∈ past ∧
    t.accountByPhone phone = account

/-! ## Kinds of operations -/

namespace Op

/-- Statements on the rows under `keys`, and no command that writes a Redis key. -/
def OnRows (keys : Key → Prop) : Op → Prop
  | .sql (.update k _) | .sql (.insert k _) => keys k
  | .sql _ | .redis (.get _) => True
  | .redis _ => False
  | _ => True

def OnCache : Op → Prop
  | .redis (.set (.idempotency _) _ _) | .redis (.del (.idempotency _)) => True
  | _ => False

def StoresChallenge (op : Op) : Prop :=
  ∃ phone challengeId value, op = .redis (.set (.otpChallenge phone challengeId) value false)

def StoresPointer (op : Op) : Prop :=
  ∃ phone challengeId, op = .redis (.set (.otpActiveChallenge phone) challengeId false)

def VerifiesOtp (op : Op) : Prop :=
  ∃ phone challengeId deviceId otp maxFailures,
    op = .redis (.verifyOtp phone challengeId deviceId otp maxFailures)

def IssuesRegistration (op : Op) : Prop :=
  ∃ phone value, op = .redis (.set (.registrationAuthorization phone) value false)

def IssuesEnrollment (op : Op) : Prop :=
  ∃ phone value, op = .redis (.set (.deviceEnrollmentAuthorization phone) value false)

def ConsumesRegistration (op : Op) : Prop :=
  ∃ tokenHash phone deviceId,
    op = .redis (.consumeRegistrationAuthorization tokenHash phone deviceId)

def ConsumesEnrollment (op : Op) : Prop :=
  ∃ tokenHash userId phone deviceId,
    op = .redis (.consumeDeviceEnrollmentAuthorization tokenHash userId phone deviceId)

end Op

/-! ## OTP challenges -/

def BelowLimit (env : Env) (phone : JsString) (past : History) : Prop :=
  ∀ count : Option Nat, ⟨.redis (.get (.otpFailure phone)), .ok count⟩ ∈ past →
    ¬((count.getD 0 : Nat) : Int) ≥ env.otpMaxFailures

inductive SendOtpAsks (env : Env) (dto : SendOtpDto) (past : History) : Op → Prop
  | free {op} : op.Free → (∀ phone, op ≠ .redis (.get (.otpFailure phone))) →
      SendOtpAsks env dto past op
  | count {phone} : phoneOf env dto.phone = some phone → past = [] →
      SendOtpAsks env dto past (.redis (.get (.otpFailure phone)))
  | lock {phone} : SendOtpAsks env dto past (.redis (.set (.otpResend phone) () true))
  | unlock {phone} : SendOtpAsks env dto past (.redis (.del (.otpResend phone)))
  | challenge {phone u code} : phoneOf env dto.phone = some phone →
      BelowLimit env phone past → ⟨.randomUUID, u⟩ ∈ past → Never Op.StoresChallenge past →
      SendOtpAsks env dto past
        (.redis (.set (.otpChallenge phone (uuidText u)) ⟨phone, dto.deviceId, code⟩ false))
  | retract {phone u} : ⟨.randomUUID, u⟩ ∈ past →
      SendOtpAsks env dto past (.redis (.del (.otpChallenge phone (uuidText u))))
  | pointer {phone u} : phoneOf env dto.phone = some phone → ⟨.randomUUID, u⟩ ∈ past →
      Never Op.StoresPointer past →
      SendOtpAsks env dto past (.redis (.set (.otpActiveChallenge phone) (uuidText u) false))

def OtpVerified (env : Env) (dto : VerifyOtpDto) (phone : JsString) (past : History) : Prop :=
  phoneOf env dto.phone = some phone ∧
    ⟨.redis (.verifyOtp phone dto.challengeId dto.deviceId dto.otp env.otpMaxFailures),
      .ok .verified⟩ ∈ past

/-- The request has both proofs for its device to be trusted by the account `id`. -/
structure Enrolls (env : Env) (dto : VerifyOtpDto) (phone : JsString) (id : Uuid)
    (past : History) : Prop where
  verified : OtpVerified env dto phone past
  account : ∃ user, LookedUp past phone (some (id, user))
  consumed : ∃ token, dto.deviceEnrollmentToken = some token ∧
    ⟨.redis (.consumeDeviceEnrollmentAuthorization (env.sha256 token) id phone dto.deviceId),
      .ok .consumed⟩ ∈ past

inductive UpsertAsks (id : Uuid) (deviceId : JsString) (past : History) : Statement → Prop
  | start : Never (· = .sql .start) past → UpsertAsks id deviceId past .start
  | lock : UpsertAsks id deviceId past (.lock (.device id deviceId))
  | update {change} : InTransaction past →
      UpsertAsks id deviceId past (.update (.device id deviceId) change)
  | insert {device} : InTransaction past →
      UpsertAsks id deviceId past (.insert (.device id deviceId) device)
  | index {recordId} : InTransaction past →
      UpsertAsks id deviceId past (.insert (.deviceById recordId) (id, deviceId))
  | commit : Never (· = .sql .commit) past → UpsertAsks id deviceId past .commit
  | rollback : UpsertAsks id deviceId past .rollback

inductive VerifyOtpAsks (env : Env) (dto : VerifyOtpDto) (past : History) : Op → Prop
  | free {op} : op.Free → VerifyOtpAsks env dto past op
  | verify {phone} : phoneOf env dto.phone = some phone → Never Op.VerifiesOtp past →
      VerifyOtpAsks env dto past
        (.redis (.verifyOtp phone dto.challengeId dto.deviceId dto.otp env.otpMaxFailures))
  | issue {phone token} : OtpVerified env dto phone past → LookedUp past phone none →
      ⟨.randomToken, token⟩ ∈ past → Never Op.IssuesRegistration past →
      VerifyOtpAsks env dto past (.redis (.set (.registrationAuthorization phone)
        ⟨env.sha256 token, phone, dto.deviceId⟩ false))
  | consume {phone id user token} : OtpVerified env dto phone past →
      LookedUp past phone (some (id, user)) → dto.deviceEnrollmentToken = some token →
      Never Op.ConsumesEnrollment past →
      VerifyOtpAsks env dto past (.redis (.consumeDeviceEnrollmentAuthorization
        (env.sha256 token) id phone dto.deviceId))
  | upsert {phone id statement} : Enrolls env dto phone id past →
      UpsertAsks id dto.deviceId past statement → VerifyOtpAsks env dto past (.sql statement)

/-! ## Registration -/

/-- The request has consumed the proof that its phone was verified. -/
def ProofConsumed (env : Env) (dto : RegisterDto) (phone : JsString) (past : History) : Prop :=
  phoneOf env dto.phone = some phone ∧
    ⟨.redis (.consumeRegistrationAuthorization (env.sha256 dto.registrationToken) phone
      dto.deviceId), .ok .consumed⟩ ∈ past

inductive ProvisionAsks (phone deviceId : JsString) (past : History) : Statement → Prop
  | start : Never (· = .sql .start) past → ProvisionAsks phone deviceId past .start
  | user {id user} : InTransaction past → user.phone = phone → user.status = .active →
      (∀ id' user', ⟨.sql (.insert (.user id') user'), .ok ()⟩ ∉ past) →
      ProvisionAsks phone deviceId past (.insert (.user id) user)
  | device {id user device} : InTransaction past →
      ⟨.sql (.insert (.user id) user), .ok ()⟩ ∈ past →
      ProvisionAsks phone deviceId past (.insert (.device id deviceId) device)
  | other {k v} : InTransaction past → (∀ id, k ≠ .user id) → (∀ u d, k ≠ .device u d) →
      ProvisionAsks phone deviceId past (.insert k v)
  | claim {id change} : InTransaction past →
      ProvisionAsks phone deviceId past (.update (.approval id) change)
  | commit : Never (· = .sql .commit) past → ProvisionAsks phone deviceId past .commit
  | rollback : ProvisionAsks phone deviceId past .rollback

inductive RegisterAsks (env : Env) (dto : RegisterDto) (past : History) : Op → Prop
  | free {op} : op.Free → RegisterAsks env dto past op
  | consume {phone} : phoneOf env dto.phone = some phone → Never Op.ConsumesRegistration past →
      RegisterAsks env dto past (.redis (.consumeRegistrationAuthorization
        (env.sha256 dto.registrationToken) phone dto.deviceId))
  | provision {phone statement} : ProofConsumed env dto phone past →
      ProvisionAsks phone dto.deviceId past statement →
      RegisterAsks env dto past (.sql statement)

/-! ## Logins -/

def unthrottled (phone : JsString) : Entry Op Op.Ans :=
  ⟨.redis (.get (.loginThrottle phone)), .ok none⟩

def lookup (phone : JsString) (t : Data) : History :=
  [⟨.sql (.select (.userByPhone phone)), .ok t⟩, unthrottled phone]

def comparison (phone : JsString) (id : Uuid) (t devices : Data) : History :=
  ⟨.sql (.select (.devices id)), .ok devices⟩ :: lookup phone t

/-- There is no account, or the PIN has just turned out to be wrong. -/
inductive LoginFails (env : Env) (dto : AuthCredentialsDto) (phone : JsString) : History → Prop
  | noAccount {t : Data} : t.accountByPhone phone = none → LoginFails env dto phone (lookup phone t)
  | wrongPin {t : Data} {id user devices} : t.accountByPhone phone = some (id, user) →
      env.verifyPin dto.pin user.pin = false →
      LoginFails env dto phone (comparison phone id t devices)

structure PinVerified (env : Env) (dto : AuthCredentialsDto) (phone : JsString) (id : Uuid)
    (user : User) (devices : Data) (past : History) : Prop where
  compared : ∃ t : Data, t.accountByPhone phone = some (id, user) ∧
    comparison phone id t devices <:+ past
  pin : env.verifyPin dto.pin user.pin = true

def Data.trusts (t : Data) (id : Uuid) (deviceId : JsString) : Bool :=
  ((t.row (.device id deviceId)).filter TrustDevice.isAuthorized).isSome

inductive EstablishAsks (id : Uuid) (deviceId : JsString) : Op → Prop
  | uuid : EstablishAsks id deviceId .randomUUID
  | now : EstablishAsks id deviceId .now
  | select : EstablishAsks id deviceId (.sql (.select (.device id deviceId)))
  | update {change} : (∀ device device', change device = .ok (some device') →
        device.isAuthorized = true ∧ device'.isAuthorized = true) →
      EstablishAsks id deviceId (.sql (.update (.device id deviceId) change))

inductive LoginAsks (env : Env) (dto : AuthCredentialsDto) (phone : JsString)
    (past : History) : Op → Prop
  | throttle : past = [] → LoginAsks env dto phone past (.redis (.get (.loginThrottle phone)))
  | account : past = [unthrottled phone] →
      LoginAsks env dto phone past (.sql (.select (.userByPhone phone)))
  | compare {t : Data} {id user} : past = lookup phone t →
      t.accountByPhone phone = some (id, user) →
      LoginAsks env dto phone past (.sql (.select (.devices id)))
  | record : LoginFails env dto phone past →
      LoginAsks env dto phone past (.redis (.incrementWithTtl phone))
  | impose {count before} : past = ⟨.redis (.incrementWithTtl phone), .ok count⟩ :: before →
      LoginFails env dto phone before → (count : Int) ≥ env.loginMaxFailures →
      LoginAsks env dto phone past (.redis (.set (.loginThrottle phone) () false))
  | turn {id user devices} : PinVerified env dto phone id user devices past →
      LoginAsks env dto phone past .turn
  | forget {id user devices} : PinVerified env dto phone id user devices past →
      LoginAsks env dto phone past (.redis (.del (.loginFailure phone)))
  | release {id user devices} : PinVerified env dto phone id user devices past →
      LoginAsks env dto phone past (.redis (.del (.loginThrottle phone)))
  | token {id user devices} : PinVerified env dto phone id user devices past →
      LoginAsks env dto phone past .randomToken
  | issue {id user devices token} : PinVerified env dto phone id user devices past →
      devices.trusts id dto.deviceId = false → ⟨.randomToken, token⟩ ∈ past →
      Never Op.IssuesEnrollment past →
      LoginAsks env dto phone past (.redis (.set (.deviceEnrollmentAuthorization phone)
        ⟨env.sha256 token, phone, id, dto.deviceId⟩ false))
  | establish {id user devices op} : PinVerified env dto phone id user devices past →
      devices.trusts id dto.deviceId = true → EstablishAsks id dto.deviceId op →
      LoginAsks env dto phone past op

/-- A login ends only when its failure, if it was one, is recorded. -/
structure LoginEnds (env : Env) (dto : AuthCredentialsDto) (phone : JsString)
    (past : History) : Prop where
  recorded : ¬LoginFails env dto phone past
  imposed : ∀ count before, past = ⟨.redis (.incrementWithTtl phone), .ok count⟩ :: before →
    LoginFails env dto phone before → ¬(count : Int) ≥ env.loginMaxFailures

/-- A login asks before it answers, and one that was throttled is answered so. -/
structure LoginTells (phone : JsString) (past : History) (reply : Reply) : Prop where
  asked : past ≠ []
  throttled : ⟨.redis (.get (.loginThrottle phone)), .ok (some ())⟩ ∈ past →
    reply = .failed tooManyLogins

/-! ## Sessions -/

/-- Writes on the row of the device that a refresh token names, as long as the row
holds the token's session.  They rotate the session's token or end the session. -/
inductive SessionAsks (payload : RefreshTokenPayload) : Op → Prop
  | free {op} : op.Free → SessionAsks payload op
  | update {change} : (∀ device device', change device = .ok (some device') →
        device.refreshSessionId = some payload.sid ∧
          device'.isAuthorized = device.isAuthorized) →
      SessionAsks payload (.sql (.update (.device payload.sub payload.deviceId) change))

inductive RevokeAsks (userId deviceRecordId : Uuid) (past : History) : Op → Prop
  | free {op} : op.Free → RevokeAsks userId deviceRecordId past op
  | update {t : Data} {deviceId change} :
      ⟨.sql (.select (.deviceById deviceRecordId)), .ok t⟩ ∈ past →
      t.row (.deviceById deviceRecordId) = some (userId, deviceId) →
      RevokeAsks userId deviceRecordId past (.sql (.update (.device userId deviceId) change))

/-! ## Restrictions -/

def clearRow (device : TrustDevice) : Except SqlError (Option TrustDevice) :=
  .ok (some device.clearSession)

def Listed (userId : Uuid) (past : History) (t : Data) : Prop :=
  ⟨.sql (.select (.devices userId)), .ok t⟩ ∈ past

def Restricting (userId : Uuid) (past : History) : Prop :=
  ∃ own, uncommitted (statements past) = some own ∧ (own (.user userId)).isSome

def Arranged (userId : Uuid) (past : History) (keys : List Key) : Prop :=
  ∃ t, Listed userId past t ∧
    ⟨.arrange ((Data.devicesOf t userId).map (.device userId)), keys⟩ ∈ past

/-- The suspension has written the device row `k` in its transaction, unless there is
no such row. -/
def ClearedRow (userId : Uuid) (past : History) (k : Key) : Prop :=
  ∀ deviceId, k = .device userId deviceId →
    (∃ own, uncommitted (statements past) = some own ∧
      (own (.device userId deviceId)).isSome) ∨
    ⟨.sql (.update (.device userId deviceId) clearRow), .ok none⟩ ∈ past

inductive SuspendAsks (userId : Uuid) (past : History) : Op → Prop
  | free {op} : op.Free → (∀ u, op ≠ .sql (.select (.devices u))) →
      SuspendAsks userId past op
  | start : (∀ t, ¬Listed userId past t) → SuspendAsks userId past (.sql .start)
  | freeze {id change} : SuspendAsks userId past (.sql (.update (.wallet id) change))
  | restrict {change} : InTransaction past →
      SuspendAsks userId past (.sql (.update (.user userId) change))
  | list : Restricting userId past → (∀ t, ¬Listed userId past t) →
      SuspendAsks userId past (.sql (.select (.devices userId)))
  | clear {keys owner deviceId} : Arranged userId past keys → .device owner deviceId ∈ keys →
      SuspendAsks userId past (.sql (.update (.device owner deviceId) clearRow))
  | commit {keys} : Arranged userId past keys → (∀ k ∈ keys, ClearedRow userId past k) →
      SuspendAsks userId past (.sql .commit)
  | rollback : SuspendAsks userId past (.sql .rollback)

inductive ReactivateAsks (userId : Uuid) : Op → Prop
  | free {op} : op.Free → ReactivateAsks userId op
  | update {change} : (∀ user user', change user = .ok (some user') → user'.status = .active) →
      ReactivateAsks userId (.sql (.update (.user userId) change))

/-! ## The rules of every call -/

def Key.IsWallet (k : Key) : Prop := ∃ id, k = .wallet id

def Key.IsApproval (k : Key) : Prop :=
  (∃ id, k = .approval id) ∨ ∃ phone, k = .approvalByPhone phone

def Key.IsTransfer (k : Key) : Prop :=
  k.IsWallet ∨ (∃ id, k = .transaction id) ∨ (∃ trxId, k = .transactionByTrxId trxId) ∨
    ∃ key, k = .transactionByKey key

/-- What a call may ask for after the history `past`. -/
def Asks (env : Env) : Call → History → Op → Prop
  | .transfer _, _, op => op.OnCache ∨ op.OnRows Key.IsTransfer
  | .deactiveWallet _ _, _, op | .activeWallet _ _, _, op => op.OnRows Key.IsWallet
  | .suspend _ targetUserId, past, op => SuspendAsks targetUserId past op
  | .reactivate _ targetUserId, _, op => ReactivateAsks targetUserId op
  | .sendOtp dto, past, op => SendOtpAsks env dto past op
  | .verifyOtp dto, past, op => VerifyOtpAsks env dto past op
  | .register dto, past, op | .registerBusiness dto, past, op => RegisterAsks env dto past op
  | .login dto, past, op => env.validates (.credentials dto) = true ∧
      ∃ phone, phoneOf env dto.phone = some phone ∧ LoginAsks env dto phone past op
  | .refresh token, _, op | .logout token, _, op => ∃ payload, token = some payload ∧
      SessionAsks payload op
  | .revokeTrustedDevice actor deviceRecordId, past, op => ∃ userId, actor = some userId ∧
      RevokeAsks userId deviceRecordId past op
  | .approveBusinessAccount _ _, _, op => op.OnRows Key.IsApproval

/-- What a login reports; nothing is asked of the other calls here. -/
def Tells (env : Env) : Call → History → Reply → Prop
  | .login dto, past, reply => env.validates (.credentials dto) = true → ∀ phone,
      phoneOf env dto.phone = some phone → LoginTells phone past reply
  | _, _, _ => True

def Ends (env : Env) : Call → History → Prop
  | .login dto, past => ∀ phone, phoneOf env dto.phone = some phone →
      LoginEnds env dto phone past
  | _, _ => True

def rules (env : Env) (call : Call) : Rules Op Op.Ans Reply :=
  ⟨Asks env call, Tells env call, Ends env call⟩

end Kori
