import Kori.Conduct.Guards

/-!
# The commands of requests

Which Redis commands a request may send.  Their keys are made of the request's idempotency
key or phone number and of identifiers that it has drawn.
-/

namespace Kori

open Foundation Code

variable {env : Env} {past past' : History} {α β : Type}

inductive Sends (env : Env) : Call → RedisCommand → Prop
  | cached {request key} : request.idempotencyKey = some key →
      Sends env (.transfer request) (.get (.idempotency key))
  | mark {request key} : request.idempotencyKey = some key →
      Sends env (.transfer request) (.set (.idempotency key) .processing true)
  | keep {request key response} : request.idempotencyKey = some key →
      Sends env (.transfer request) (.set (.idempotency key) (.response response) false)
  | unmark {request key} : request.idempotencyKey = some key →
      Sends env (.transfer request) (.del (.idempotency key))
  | failures {dto phone} : phoneOf env dto.phone = some phone →
      Sends env (.sendOtp dto) (.get (.otpFailure phone))
  | lock {dto phone} : phoneOf env dto.phone = some phone →
      Sends env (.sendOtp dto) (.set (.otpResend phone) () true)
  | cooldown {dto phone} : phoneOf env dto.phone = some phone →
      Sends env (.sendOtp dto) (.get (.otpResend phone))
  | unlock {dto phone} : phoneOf env dto.phone = some phone →
      Sends env (.sendOtp dto) (.del (.otpResend phone))
  | challenge {dto phone u code} : phoneOf env dto.phone = some phone →
      Sends env (.sendOtp dto) (.set (.otpChallenge phone (uuidText u))
        ⟨phone, dto.deviceId, padStart 6 (natText code)⟩ false)
  | activate {dto phone u} : phoneOf env dto.phone = some phone →
      Sends env (.sendOtp dto) (.set (.otpActiveChallenge phone) (uuidText u) false)
  | retract {dto phone u} : phoneOf env dto.phone = some phone →
      Sends env (.sendOtp dto) (.del (.otpChallenge phone (uuidText u)))
  | verify {dto phone} : phoneOf env dto.phone = some phone →
      Sends env (.verifyOtp dto)
        (.verifyOtp phone dto.challengeId dto.deviceId dto.otp env.otpMaxFailures)
  | permit {dto phone token} : phoneOf env dto.phone = some phone →
      Sends env (.verifyOtp dto) (.set (.registrationAuthorization phone)
        ⟨env.sha256 token, phone, dto.deviceId⟩ false)
  | enroll {dto phone id token} : phoneOf env dto.phone = some phone →
      Sends env (.verifyOtp dto) (.consumeDeviceEnrollmentAuthorization (env.sha256 token) id
        phone dto.deviceId)
  | register {call dto phone} : call = .register dto ∨ call = .registerBusiness dto →
      phoneOf env dto.phone = some phone →
      Sends env call (.consumeRegistrationAuthorization (env.sha256 dto.registrationToken) phone
        dto.deviceId)
  | throttled {dto phone} : phoneOf env dto.phone = some phone →
      Sends env (.login dto) (.get (.loginThrottle phone))
  | record {dto phone} : phoneOf env dto.phone = some phone →
      Sends env (.login dto) (.incrementWithTtl phone)
  | impose {dto phone} : phoneOf env dto.phone = some phone →
      Sends env (.login dto) (.set (.loginThrottle phone) () false)
  | forget {dto phone} : phoneOf env dto.phone = some phone →
      Sends env (.login dto) (.del (.loginFailure phone))
  | release {dto phone} : phoneOf env dto.phone = some phone →
      Sends env (.login dto) (.del (.loginThrottle phone))
  | invite {dto phone id token} : phoneOf env dto.phone = some phone →
      Sends env (.login dto) (.set (.deviceEnrollmentAuthorization phone)
        ⟨env.sha256 token, phone, id, dto.deviceId⟩ false)

namespace Op

def SentBy (env : Env) (call : Call) : Op → Prop
  | .redis command => Sends env call command
  | _ => True

def OffRedis : Op → Prop
  | .redis _ => False
  | _ => True

theorem OffRedis.sentBy {op : Op} (h : op.OffRedis) (call : Call) : op.SentBy env call := by
  cases op with
  | redis command => exact h.elim
  | _ => trivial

end Op

def sendRules (env : Env) (call : Call) : Rules Op Op.Ans Reply where
  asks := fun _ op => op.SentBy env call
  tells := fun _ _ => True
  ends := fun _ => True

/-! ## Code without commands -/

section OffRedis

theorem off_select (query : Query) : (select query).Only Op.OffRedis := sql_only (by trivial)

theorem off_sql (statement : Statement) : (sql statement).Only Op.OffRedis :=
  sql_only (by trivial)

theorem off_updateRow {query : Query} {k : Key} {conditions : Row k → Bool}
    {relations : Data → Bool} {data : Row k → Row k} :
    (updateRow query k conditions relations data).Only Op.OffRedis :=
  updateRow_only (by trivial) (by trivial)

theorem off_transaction {body : Action α} (h : body.Only Op.OffRedis) :
    (transaction body).Only Op.OffRedis := by
  apply (off_sql .start).bind
  intro _
  apply Only.bind
  · apply h.tryCatch
    exact fun e => (ask_only (by trivial)).bind fun _ => only_throw e
  · exact fun a => (off_sql .commit).bind fun _ => only_pure a

theorem off_roleGuards (required : Role) (actor : Option Uuid) :
    (roleGuards required actor).Only Op.OffRedis := by
  apply (roleGuards_asks required actor).mono
  rintro _ ⟨sub, rfl⟩
  trivial

/-! ### Wallets and accounts -/

theorem off_getWalletById (walletId : Uuid) : (getWalletById walletId).Only Op.OffRedis := by
  apply ((off_select _).tryCatch fun _ => only_throw _).bind
  intro snapshot
  split <;> trivial

theorem off_assertManageableWallet (walletId : Uuid) :
    (assertManageableWallet walletId).Only Op.OffRedis := by
  apply (off_select _).bind
  intro snapshot
  split
  · exact only_throw _
  · split
    · exact only_throw _
    · split <;> trivial

theorem off_deactiveWallet (actor : Option Uuid) (walletId : Uuid) :
    (WalletsController.deactiveWallet actor walletId).Only Op.OffRedis := by
  apply (off_roleGuards _ _).bind
  intro _
  refine Only.bind ?_ fun _ => only_pure _
  apply (off_assertManageableWallet _).bind
  intro _
  apply off_updateRow.bind
  intro count
  exact (only_throwIf _ _).bind fun _ => off_getWalletById _

theorem off_activeWallet (actor : Option Uuid) (walletId : Uuid) :
    (WalletsController.activeWallet actor walletId).Only Op.OffRedis := by
  apply (off_roleGuards _ _).bind
  intro _
  refine Only.bind ?_ fun _ => only_pure _
  apply (off_assertManageableWallet _).bind
  intro _
  apply Only.bind
  · apply off_transaction
    apply off_updateRow.bind
    intro count
    exact (only_throwIf _ _).bind fun _ => (off_select _).bind fun _ => only_throwIf _ _
  · exact fun _ => off_getWalletById _

theorem off_clearSessions (userId : Uuid) : (clearSessions userId).Only Op.OffRedis := by
  apply (off_select _).bind
  intro snapshot
  apply (ask_only (by trivial)).bind
  intro keys
  apply Only.forEach
  intro k _
  cases k with
  | device owner deviceId => exact (off_sql _).bind fun _ => only_pure _
  | _ => exact only_pure _

theorem off_suspend (actor : Option Uuid) (targetUserId : Uuid) :
    (AccountsController.suspend actor targetUserId).Only Op.OffRedis := by
  apply (off_roleGuards _ _).bind
  intro _
  refine Only.bind ?_ fun _ => only_pure _
  apply off_transaction
  apply (findSuspendable_only (by trivial) (by trivial)).bind
  intro walletId
  apply off_updateRow.bind
  intro frozen
  apply (only_throwIf _ _).bind
  intro _
  apply off_updateRow.bind
  intro restricted
  exact (only_throwIf _ _).bind fun _ => off_clearSessions _

theorem off_reactivate (actor : Option Uuid) (targetUserId : Uuid) :
    (AccountsController.reactivate actor targetUserId).Only Op.OffRedis := by
  apply (off_roleGuards _ _).bind
  intro _
  refine Only.bind ?_ fun _ => only_pure _
  apply off_updateRow.bind
  intro updated
  split
  · exact only_pure _
  · apply (off_select _).bind
    intro accounts
    split <;> exact only_throw _

/-! ### Sessions and approvals -/

theorem off_refresh (token : Option RefreshTokenPayload) :
    (AuthController.refresh token).Only Op.OffRedis := by
  cases token with
  | none => exact only_throw _
  | some payload =>
      refine Only.bind ?_ fun _ => only_pure _
      apply (off_select _).bind
      intro users
      split
      · exact only_throw _
      · apply (ask_only (by trivial)).bind
        intro newJti
        apply (ask_only (by trivial)).bind
        intro now
        apply off_updateRow.bind
        intro count
        split
        · exact only_pure _
        · refine Only.bind ?_ fun _ => only_throw _
          apply (off_select _).bind
          intro snapshot
          dsimp only
          split
          · exact off_updateRow.bind fun _ => only_pure _
          · exact only_pure _

theorem off_logout (token : Option RefreshTokenPayload) :
    (AuthController.logout token).Only Op.OffRedis := by
  refine Only.bind ?_ fun _ => only_pure _
  cases token with
  | none => exact only_pure _
  | some payload =>
      apply Only.tryCatch
      · exact off_updateRow.bind fun _ => only_pure _
      · exact fun _ => only_throw _

theorem off_revokeDevice (actor : Option Uuid) (deviceRecordId : Uuid) :
    (AuthController.revokeDevice actor deviceRecordId).Only Op.OffRedis := by
  apply (accessTokenGuard_only _).bind
  intro sub
  apply Only.bind
  · apply ((off_select _).tryCatch fun _ => only_throw _).bind
    intro snapshot
    split
    · exact only_throw _
    · split <;> trivial
  intro _
  refine Only.bind ?_ fun _ => only_pure _
  apply (off_select _).bind
  intro snapshot
  split
  · exact only_throw _
  · split
    · exact (off_sql _).bind fun _ => only_throwIf _ _
    · exact only_throw _

theorem off_approveBusiness (actor : Option Uuid) (dto : ApproveBusinessDto) :
    (AuthController.approveBusiness env actor dto).Only Op.OffRedis := by
  apply (off_roleGuards _ _).bind
  intro sub
  apply (validationPipe_only _).bind
  intro _
  refine Only.bind ?_ fun _ => only_pure _
  apply (phoneNumberFrom_only _).bind
  intro phone
  apply (only_throwIf _ _).bind
  intro _
  apply (off_select _).bind
  intro users
  apply (only_throwIf _ _).bind
  intro _
  apply (ask_only (by trivial)).bind
  intro now
  apply (ask_only (by trivial)).bind
  intro later
  apply (off_select _).bind
  intro snapshot
  split
  · apply (only_throwIf _ _).bind
    intro _
    apply off_updateRow.bind
    intro updated
    exact (only_throwIf _ _).bind fun _ => (off_select _).bind fun _ => only_throwIf _ _
  · apply (ask_only (by trivial)).bind
    intro id
    apply Only.tryCatch
    · exact off_transaction ((off_sql _).bind fun _ => off_sql _)
    · intro e
      split <;> exact only_throw _

theorem off_upsertTrustDevice (userId : Uuid) (deviceId : JsString) :
    (upsertTrustDevice userId deviceId).Only Op.OffRedis := by
  apply (ask_only (by trivial)).bind
  intro now
  apply (ask_only (by trivial)).bind
  intro id
  apply off_transaction
  apply (off_sql _).bind
  intro _
  apply (off_select _).bind
  intro snapshot
  split
  · exact (off_sql _).bind fun _ => only_pure _
  · exact (off_sql _).bind fun _ => off_sql _

/-! ### Registration -/

theorem off_createUser (user : User) : (createUser user).Only Op.OffRedis := by
  apply (ask_only (by trivial)).bind
  intro id
  exact (off_sql _).bind fun _ => (off_sql _).bind fun _ => only_pure _

theorem off_createWallet (userId : Uuid) (type : WalletType) :
    (createWallet userId type).Only Op.OffRedis := by
  apply (ask_only (by trivial)).bind
  intro id
  exact (off_sql _).bind fun _ => off_sql _

theorem off_createTrustedDevice (userId : Uuid) (deviceId : JsString) (sid jti : Uuid) :
    (createTrustedDevice userId deviceId sid jti).Only Op.OffRedis := by
  apply (ask_only (by trivial)).bind
  intro id
  apply (ask_only (by trivial)).bind
  intro now
  exact (off_sql _).bind fun _ => off_sql _

theorem off_provisionPersonal (phone hashPin deviceId : JsString) :
    (provisionPersonal phone hashPin deviceId).Only Op.OffRedis := by
  apply (off_createUser _).bind
  intro userId
  apply (ask_only (by trivial)).bind
  intro sid
  apply (ask_only (by trivial)).bind
  intro jti
  apply (off_createWallet _ _).bind
  intro _
  exact (off_createTrustedDevice _ _ _ _).bind fun _ => only_pure _

theorem off_claimApproval (phone : JsString) : (claimApproval phone).Only Op.OffRedis := by
  apply (ask_only (by trivial)).bind
  intro now
  apply (off_select _).bind
  intro snapshot
  split
  · exact only_throw _
  · apply (only_throwIf _ _).bind
    intro _
    apply (ask_only (by trivial)).bind
    intro claimedAt
    apply (ask_only (by trivial)).bind
    intro activatedAt
    apply off_updateRow.bind
    intro claimed
    exact (only_throwIf _ _).bind fun _ => only_pure _

theorem off_provisionBusiness (phone hashedPin deviceId : JsString) :
    (provisionBusiness phone hashedPin deviceId).Only Op.OffRedis := by
  apply (off_claimApproval _).bind
  intro role
  apply (off_createUser _).bind
  intro userId
  apply Only.bind
  · exact (only_throwIf _ _).bind fun _ => off_createWallet _ _
  intro _
  apply (ask_only (by trivial)).bind
  intro sid
  apply (ask_only (by trivial)).bind
  intro jti
  exact (off_createTrustedDevice _ _ _ _).bind fun _ => only_pure _

/-! ### Transfers -/

theorem off_updateBalance (id : Uuid) (delta : Int) :
    (updateBalance id delta).Only Op.OffRedis := by
  apply (off_sql _).bind
  intro updated
  cases updated <;> trivial

theorem off_createTransaction (order : TransferOrder) :
    (createTransaction env order).Only Op.OffRedis := by
  apply (ask_only (by trivial)).bind
  intro now
  apply (ask_only (by trivial)).bind
  intro random
  apply (ask_only (by trivial)).bind
  intro id
  apply (ask_only (by trivial)).bind
  intro createdAt
  split
  · exact only_throw _
  · exact (off_sql _).bind fun _ => (off_sql _).bind fun _ => (off_sql _).bind fun _ =>
      only_pure _

theorem off_postLedger (order : TransferOrder) (id : Uuid) (record : Transaction) :
    (postLedger order id record).Only Op.OffRedis := by
  apply (off_updateBalance _ _).bind
  intro sender
  apply (off_sql _).bind
  intro _
  apply (off_updateBalance _ _).bind
  intro receiver
  apply (off_sql _).bind
  intro _
  refine Only.bind ?_ fun _ => only_pure _
  unfold collectFee
  split
  · exact only_pure _
  · exact (off_updateBalance _ _).bind fun _ => off_sql _

theorem off_lockWallets (ids : List Uuid) : (lockWallets ids).Only Op.OffRedis := by
  apply (off_select _).bind
  intro snapshot
  apply (ask_only (by trivial)).bind
  intro keys
  exact Only.forEach fun k _ => off_sql _

theorem off_findLocked (id : Uuid) :
    (findLockedWallet id).Only Op.OffRedis ∧ (findLockedSystem id).Only Op.OffRedis :=
  ⟨(off_select _).bind fun _ => only_pure _, (off_select _).bind fun _ => only_pure _⟩

theorem off_acidBlock (order : TransferOrder) : (acidBlock env order).Only Op.OffRedis := by
  apply (off_lockWallets _).bind
  intro _
  apply Only.bind
  · apply (Only.both (by trivial) (off_findLocked _).1
      (Only.both (by trivial) (off_findLocked _).1 (off_findLocked _).2)).bind
    intro found
    split
    split <;> trivial
  intro wallets
  exact (assertFunds_only _ _).bind fun _ => (off_createTransaction order).bind fun _ =>
    off_postLedger _ _ _

theorem off_getWalletStateForTransaction (walletId : Uuid) :
    (getWalletStateForTransaction walletId).Only Op.OffRedis := by
  apply ((off_select _).tryCatch fun _ => only_throw _).bind
  intro snapshot
  split <;> trivial

theorem off_getOwnWalletId (userId : Uuid) : (getOwnWalletId userId).Only Op.OffRedis := by
  apply ((off_select _).tryCatch fun _ => only_throw _).bind
  intro snapshot
  split <;> trivial

theorem off_resolveWalletIdByPhone (phone : JsString) :
    (resolveWalletIdByPhone phone).Only Op.OffRedis := by
  apply Only.tryCatch
  · apply (off_select _).bind
    intro users
    split
    · exact only_throw _
    · apply (off_select _).bind
      intro wallets
      split <;> trivial
  · intro e
    split <;> exact only_throw _

theorem off_transferBetween (type : TransactionType) (senderType receiverType : WalletType)
    (reference : TransferBody → Option JsString) (actor : Uuid) (dto : TransferBody)
    (key : JsString) :
    (transferBetween env type senderType receiverType reference actor dto key).Only
      Op.OffRedis := by
  apply (phoneNumberFrom_only _).bind
  intro phone
  apply Only.bind
  · unfold liftAmounts
    split <;> trivial
  intro amounts
  apply (Only.both (by trivial) (off_getOwnWalletId _) (off_resolveWalletIdByPhone _)).bind
  intro ids
  apply Only.bind
  · apply (only_throwIf _ _).bind
    intro _
    apply (Only.both (by trivial) (off_getWalletStateForTransaction _)
      (off_getWalletStateForTransaction _)).bind
    intro states
    exact (only_throwIf _ _).bind fun _ => (only_throwIf _ _).bind fun _ =>
      (only_throwIf _ _).bind fun _ => assertFunds_only _ _
  intro _
  apply Only.tryCatch
  · exact off_transaction (off_acidBlock _)
  · intro e
    split <;> exact only_throw _

theorem off_endpointHandler (endpoint : TransactionType) (actor : Uuid) (dto : TransferBody)
    (key : JsString) : (endpointHandler env endpoint actor dto key).Only Op.OffRedis := by
  cases endpoint with
  | addMoney => exact only_throw _
  | sendMoney | cashIn | cashOut | payment => exact off_transferBetween _ _ _ _ _ _ _

end OffRedis

/-! ## Code with commands -/

section Commands

variable {call : Call} {P : Op → Prop} {phone deviceId : JsString}

theorem phoneNumberFrom_bind {value : JsString} {next : JsString → Action α}
    (h : ∀ phone, phoneOf env value = some phone → (next phone).Only P) :
    (phoneNumberFrom env value >>= next).Only P := by
  unfold phoneOf at h
  unfold phoneNumberFrom
  dsimp only
  split
  · exact only_throw _
  · rename_i hgiven
    rw [if_neg hgiven] at h
    split
    · exact only_throw _
    · rename_i number hsome
      exact h number hsome

theorem off_sent {m : Action α} (h : m.Only Op.OffRedis) : m.Only (Op.SentBy env call) :=
  h.mono fun _ hop => hop.sentBy call

theorem sent_ask {op : Op} (h : op.OffRedis) :
    (ask op : Code Op Op.Ans Reply Exn op.Ans).Only (Op.SentBy env call) :=
  ask_only (h.sentBy call)

/-! ### One-time passwords -/

theorem acquireResendLock_sent {dto : SendOtpDto} (hphone : phoneOf env dto.phone = some phone) :
    (acquireResendLock phone).Only (Op.SentBy env (.sendOtp dto)) := by
  have hlock : Op.SentBy env (.sendOtp dto) (.redis (.set (.otpResend phone) () true)) :=
    .lock hphone
  have hcooldown : Op.SentBy env (.sendOtp dto) (.redis (.get (.otpResend phone))) :=
    .cooldown hphone
  apply (RedisService.set_only hlock).bind
  intro acquired
  split
  · apply Only.bind
    · exact (RedisService.getStrict_only hcooldown).tryCatch fun _ => only_throw _
    · intro existing
      cases existing <;> trivial
  · exact only_pure _

theorem storeChallenge_sent {dto : SendOtpDto} (hphone : phoneOf env dto.phone = some phone)
    (u : Uuid) (code : Nat) :
    (storeChallenge phone dto.deviceId (uuidText u) (padStart 6 (natText code))).Only
      (Op.SentBy env (.sendOtp dto)) := by
  have hunlock : (RedisService.del (.otpResend phone)).Only (Op.SentBy env (.sendOtp dto)) :=
    RedisService.del_only (.unlock hphone)
  have hretract : (RedisService.del (.otpChallenge phone (uuidText u))).Only
      (Op.SentBy env (.sendOtp dto)) := RedisService.del_only (.retract hphone)
  have hchallenge : Op.SentBy env (.sendOtp dto) (.redis (.set (.otpChallenge phone (uuidText u))
      ⟨phone, dto.deviceId, padStart 6 (natText code)⟩ false)) := .challenge hphone
  have hactivate : Op.SentBy env (.sendOtp dto)
      (.redis (.set (.otpActiveChallenge phone) (uuidText u) false)) := .activate hphone
  apply (RedisService.set_only hchallenge).bind
  intro stored
  split
  · exact hunlock.bind fun _ => only_throw _
  · apply (RedisService.set_only hactivate).bind
    intro active
    split
    · exact (Only.both (by trivial) hretract hunlock).bind fun _ => only_throw _
    · exact only_pure _

theorem sendOtp_sent (dto : SendOtpDto) :
    (AuthController.sendOtp env dto).Only (Op.SentBy env (.sendOtp dto)) := by
  apply (validationPipe_only _).bind
  intro _
  apply phoneNumberFrom_bind
  intro phone hphone
  have hfailures : Op.SentBy env (.sendOtp dto) (.redis (.get (.otpFailure phone))) :=
    .failures hphone
  apply ((RedisService.getStrict_only hfailures).tryCatch fun _ => only_throw _).bind
  intro failureCount
  apply (only_throwIf _ _).bind
  intro _
  apply (acquireResendLock_sent hphone).bind
  intro _
  apply (sent_ask (by trivial)).bind
  intro challengeId
  apply (sent_ask (by trivial)).bind
  intro code
  exact (storeChallenge_sent hphone _ _).bind fun _ => only_pure _

theorem verifyOtp_sent (dto : VerifyOtpDto) :
    (AuthController.verifyOtp env dto).Only (Op.SentBy env (.verifyOtp dto)) := by
  apply (validationPipe_only _).bind
  intro _
  apply phoneNumberFrom_bind
  intro phone hphone
  have hverify : Op.SentBy env (.verifyOtp dto)
      (.redis (.verifyOtp phone dto.challengeId dto.deviceId dto.otp env.otpMaxFailures)) :=
    .verify hphone
  apply (RedisService.evalScript_only hverify _).bind
  intro status
  split
  · exact only_throw _
  · apply (off_sent (off_select _)).bind
    intro users
    split
    · rename_i id user _
      unfold enrollDevice
      split
      · exact only_throw _
      · exact only_throw _
      · rename_i token _ _
        have henroll : Op.SentBy env (.verifyOtp dto)
            (.redis (.consumeDeviceEnrollmentAuthorization (env.sha256 token) id phone
              dto.deviceId)) := .enroll hphone
        apply (only_throwIf _ _).bind
        intro _
        apply (RedisService.evalScript_only henroll _).bind
        intro authorizationStatus
        apply (only_throwIf _ _).bind
        intro _
        exact (off_sent (off_upsertTrustDevice _ _)).bind fun _ => only_pure _
    · refine Only.bind ?_ fun _ => only_pure _
      apply (sent_ask (by trivial)).bind
      intro token
      have hpermit : Op.SentBy env (.verifyOtp dto)
          (.redis (.set (.registrationAuthorization phone)
            ⟨env.sha256 token, phone, dto.deviceId⟩ false)) := .permit hphone
      exact (RedisService.set_only hpermit).bind fun _ => (only_throwIf _ _).bind fun _ =>
        only_pure _

/-! ### Registration and login -/

theorem consumeRegistrationAuthorization_sent {dto : RegisterDto}
    (hcall : call = .register dto ∨ call = .registerBusiness dto)
    (hphone : phoneOf env dto.phone = some phone) :
    (consumeRegistrationAuthorization env phone dto.deviceId dto.registrationToken).Only
      (Op.SentBy env call) := by
  have hconsume : Op.SentBy env call (.redis (.consumeRegistrationAuthorization
      (env.sha256 dto.registrationToken) phone dto.deviceId)) := .register hcall hphone
  exact RedisService.evalScript_only hconsume _

theorem register_sent (dto : RegisterDto) :
    (AuthController.register env dto).Only (Op.SentBy env (.register dto)) := by
  apply (validationPipe_only _).bind
  intro _
  refine Only.bind ?_ fun _ => only_pure _
  apply phoneNumberFrom_bind
  intro phone hphone
  apply (consumeRegistrationAuthorization_sent (.inl rfl) hphone).bind
  intro authorizationStatus
  apply (only_throwIf _ _).bind
  intro _
  apply (off_sent (off_select _)).bind
  intro existing
  apply (only_throwIf _ _).bind
  intro _
  apply (sent_ask (by trivial)).bind
  intro hashPin
  apply Only.tryCatch
  · exact off_sent (off_transaction (off_provisionPersonal _ _ _))
  · exact fun _ => only_throw _

theorem registerBusiness_sent (dto : RegisterDto) :
    (AuthController.registerBusiness env dto).Only (Op.SentBy env (.registerBusiness dto)) := by
  apply (validationPipe_only _).bind
  intro _
  refine Only.bind ?_ fun _ => only_pure _
  apply phoneNumberFrom_bind
  intro phone hphone
  apply (consumeRegistrationAuthorization_sent (.inr rfl) hphone).bind
  intro proofStatus
  apply (only_throwIf _ _).bind
  intro _
  apply (sent_ask (by trivial)).bind
  intro hashedPin
  apply Only.tryCatch
  · exact off_sent (off_transaction (off_provisionBusiness _ _ _))
  · intro e
    split <;> exact only_throw _

theorem recordLoginFailure_sent {dto : AuthCredentialsDto}
    (hphone : phoneOf env dto.phone = some phone) :
    (recordLoginFailure env phone).Only (Op.SentBy env (.login dto)) := by
  have hrecord : Op.SentBy env (.login dto) (.redis (.incrementWithTtl phone)) := .record hphone
  have himpose : Op.SentBy env (.login dto) (.redis (.set (.loginThrottle phone) () false)) :=
    .impose hphone
  exact recordLoginFailure_only hrecord himpose

theorem loginVerified_sent {dto : AuthCredentialsDto} {id : Uuid} {user : User}
    {device : Option TrustDevice} (hphone : phoneOf env dto.phone = some phone) :
    (loginVerified env phone dto.deviceId id user device).Only (Op.SentBy env (.login dto)) := by
  have hforget : (RedisService.del (.loginFailure phone)).Only (Op.SentBy env (.login dto)) :=
    RedisService.del_only (.forget hphone)
  have hrelease : (RedisService.del (.loginThrottle phone)).Only (Op.SentBy env (.login dto)) :=
    RedisService.del_only (.release hphone)
  apply Only.bind
  · exact (Only.both (by trivial) hforget hrelease).bind fun _ => only_pure _
  intro _
  apply (only_throwIf _ _).bind
  intro _
  split
  · refine Only.bind ?_ fun _ => only_throw _
    apply (sent_ask (by trivial)).bind
    intro token
    have hinvite : Op.SentBy env (.login dto) (.redis (.set (.deviceEnrollmentAuthorization phone)
        ⟨env.sha256 token, phone, id, dto.deviceId⟩ false)) := .invite hphone
    exact (RedisService.set_only hinvite).bind fun _ => (only_throwIf _ _).bind fun _ =>
      only_pure _
  · apply (establishSession_only _ _ _).mono
    intro op hop
    cases hop <;> trivial

theorem login_sent (dto : AuthCredentialsDto) :
    (AuthController.login env dto).Only (Op.SentBy env (.login dto)) := by
  apply (validationPipe_only _).bind
  intro _
  refine Only.bind ?_ fun _ => only_pure _
  apply phoneNumberFrom_bind
  intro phone hphone
  have hthrottled : Op.SentBy env (.login dto) (.redis (.get (.loginThrottle phone))) :=
    .throttled hphone
  apply (assertLoginNotThrottled_only hthrottled).bind
  intro _
  apply (off_sent (off_select _)).bind
  intro users
  split
  · exact (recordLoginFailure_sent hphone).bind fun _ => only_throw _
  · apply (off_sent (off_select _)).bind
    intro devices
    split
    · exact loginVerified_sent hphone
    · exact (recordLoginFailure_sent hphone).bind fun _ => only_throw _

end Commands

/-! ## Every request -/

theorem sent_heeds {call : Call} {m : Action α} (h : m.Only (Op.SentBy env call)) :
    Heeds (sendRules env call) m (fun _ _ => True) (fun _ _ => True) past := by
  apply heeds_only h
  · exact fun _ _ _ hop => hop
  · exact fun _ _ _ => trivial
  · exact fun _ _ _ => trivial

theorem intercept_sent {request : TransferRequest} {key : JsString}
    {handle : Action TransactionResultResponse} (hkey : request.idempotencyKey = some key)
    (h : handle.Only Op.OffRedis) :
    Heeds (sendRules env (.transfer request)) (intercept key handle) (fun _ _ => True)
      (fun _ _ => True) past := by
  have hget : (RedisService.get (.idempotency key)).Only (Op.SentBy env (.transfer request)) := by
    have hcached : Op.SentBy env (.transfer request) (.redis (.get (.idempotency key))) :=
      .cached hkey
    apply (RedisService.send_only hcached).bind
    intro reply
    cases reply <;> trivial
  have hset : ∀ value nx, Sends env (.transfer request) (.set (.idempotency key) value nx) →
      (RedisService.set (.idempotency key) value nx).Only (Op.SentBy env (.transfer request)) :=
    fun _ _ hsends => RedisService.set_only hsends
  have hdel : (RedisService.del (.idempotency key)).Only (Op.SentBy env (.transfer request)) :=
    RedisService.del_only (.unmark hkey)
  apply (sent_heeds hget).bind
  intro cached past₁ _
  split
  · trivial
  · exact ⟨trivial, trivial⟩
  · apply (sent_heeds (hset _ _ (.mark hkey))).bind
    intro locked past₂ _
    apply heeds_bind.2
    apply heeds_throwIf fun _ => trivial
    intro _
    apply Heeds.bind (R := fun _ _ => True)
    · apply sent_heeds
      exact ((off_sent h).bind fun _ => only_pure _).tryCatch fun _ => only_pure _
    · intro outcome past₃ _
      split
      · exact heeds_bind.2 ⟨trivial, (sent_heeds (hset _ _ (.keep hkey))).bind
          fun _ _ _ => trivial⟩
      · exact heeds_bind.2 ⟨trivial, (sent_heeds hdel).bind fun _ _ _ => trivial⟩

theorem transfer_sent (request : TransferRequest) :
    Heeds (sendRules env (.transfer request)) (transfer env request) (fun _ _ => True)
      (fun _ _ => True) [] := by
  refine Heeds.tryCatch (E := fun _ _ => True) ?_ fun e past' _ => ⟨trivial, trivial⟩
  split
  · trivial
  · apply (sent_heeds (off_sent (off_roleGuards _ _))).bind
    intro sub past _
    split
    · trivial
    · trivial
    · rename_i key _ hkey
      apply intercept_sent hkey
      exact (validationPipe_only _).bind fun _ => off_endpointHandler _ _ _ _

theorem sends_only : Obeyed (kori env) (sendRules env) := by
  have hrespond : ∀ {call : Call} {m : Action Reply}, m.Only (Op.SentBy env call) →
      Heeds (sendRules env call) (respond m) (fun _ _ => True) (fun _ _ => True) [] := by
    intro call m h
    apply heeds_respond
    exact (sent_heeds h).imp (fun _ _ _ => ⟨trivial, trivial⟩) fun _ _ _ => ⟨trivial, trivial⟩
  intro call
  cases call with
  | transfer request => exact transfer_sent request
  | deactiveWallet actor walletId => exact hrespond (off_sent (off_deactiveWallet _ _))
  | activeWallet actor walletId => exact hrespond (off_sent (off_activeWallet _ _))
  | suspend actor targetUserId => exact hrespond (off_sent (off_suspend _ _))
  | reactivate actor targetUserId => exact hrespond (off_sent (off_reactivate _ _))
  | sendOtp dto => exact hrespond (sendOtp_sent dto)
  | verifyOtp dto => exact hrespond (verifyOtp_sent dto)
  | register dto => exact hrespond (register_sent dto)
  | registerBusiness dto => exact hrespond (registerBusiness_sent dto)
  | login dto => exact hrespond (login_sent dto)
  | refresh token => exact hrespond (off_sent (off_refresh token))
  | logout token => exact hrespond (off_sent (off_logout token))
  | revokeTrustedDevice actor deviceRecordId => exact hrespond (off_sent (off_revokeDevice _ _))
  | approveBusinessAccount actor dto => exact hrespond (off_sent (off_approveBusiness _ _))

end Kori
