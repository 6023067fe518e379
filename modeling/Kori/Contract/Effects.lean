import Kori.App
import Kori.Data.Integrity

/-!
# What the requests do to the committed tables

`Effect` lists everything that one step of any request may do to the committed
tables, together with what the step reports.  The later modules show that every
handler keeps to this list; what holds of all runs is derived from the list.
-/

namespace Kori

open Foundation

abbrev State.data (c : State) : Data := c.shared.db.committed

def State.Requested (c : State) (p : Pid) (header : JsString) : Prop :=
  ∃ request, c.calls p = some (.transfer request) ∧
    request.idempotencyKey = some header

/-! ## Transfers -/

def senderType : TransactionType → WalletType
  | .cashIn => .agent
  | .sendMoney | .cashOut | .payment | .addMoney => .personal

def receiverType : TransactionType → WalletType
  | .cashOut => .agent
  | .payment => .merchant
  | .sendMoney | .cashIn | .addMoney => .personal

theorem senderType_ne_system (type : TransactionType) : senderType type ≠ .system := by
  cases type <;> simp [senderType]

theorem receiverType_ne_system (type : TransactionType) : receiverType type ≠ .system := by
  cases type <;> simp [receiverType]

/-- The reference that the operation behind an endpoint records. -/
def endpointReference : TransactionType → TransferBody → Option JsString
  | .payment => paymentReference
  | .sendMoney | .cashIn | .cashOut | .addMoney => TransferBody.reference

/-- `order` is what the checks before the database transaction made of `request`.
Nothing in it can become false later. -/
structure Ordered (env : Env) (request : TransferRequest) (order : TransferOrder)
    (t : Data) : Prop where
  key : request.idempotencyKey = some order.idempotencyKey
  keyGiven : order.idempotencyKey ≠ []
  valid : env.validates (.transfer request.endpoint request.body) = true
  type : order.type = request.endpoint
  amounts : calculateTransferMath request.body.amountMinorUnits request.endpoint =
    .ok order.amounts
  system : order.systemWalletId = env.cachedSystemWalletId
  reference : order.reference = endpointReference request.endpoint request.body
  sender : ∃ actor user, request.actor = some actor ∧
    t.row (.user actor) = some user ∧ endpointRole request.endpoint = some user.role ∧
    t.row (.walletByUser actor) = some order.senderWalletId
  receiver : ∃ phone userId, trim request.body.phone ≠ [] ∧
    env.parsePhoneNumber (trim request.body.phone) = some phone ∧
    t.row (.userByPhone phone) = some userId ∧
    t.row (.walletByUser userId) = some order.receiverWalletId
  distinct : order.senderWalletId ≠ order.receiverWalletId
  senderType : ∃ w, t.row (.wallet order.senderWalletId) = some w ∧
    w.type = senderType order.type
  receiverType : ∃ w, t.row (.wallet order.receiverWalletId) = some w ∧
    w.type = receiverType order.type

/-- What `p` knows of the three wallets while it holds their locks. -/
structure Participants (c : State) (p : Pid) (order : TransferOrder)
    (sender receiver system : Wallet) : Prop where
  senderLock : c.shared.db.lock (.wallet order.senderWalletId) = some p
  receiverLock : c.shared.db.lock (.wallet order.receiverWalletId) = some p
  systemLock : c.shared.db.lock (.wallet order.systemWalletId) = some p
  senderRow : c.data.row (.wallet order.senderWalletId) = some sender
  receiverRow : c.data.row (.wallet order.receiverWalletId) = some receiver
  systemRow : c.data.row (.wallet order.systemWalletId) = some system
  senderActive : sender.isActive = true
  receiverActive : receiver.isActive = true
  systemActive : system.isActive = true
  senderOwner : c.data.ownerActive sender = true
  receiverOwner : c.data.ownerActive receiver = true
  funds : order.amounts.totalRequiredAmount.minorUnits ≤ sender.balance

def Wallet.plus (w : Wallet) (delta : Int) : Wallet := { w with balance := w.balance + delta }

namespace TransferOrder

variable (order : TransferOrder) (id : Uuid) (r : Transaction)

def total : Int := order.amounts.totalRequiredAmount.minorUnits
def amount : Int := order.amounts.transferAmount.minorUnits
def fee : Int := order.amounts.feeAmount.minorUnits

def postRecord (t : Data) : Data :=
  ((t.put (.transaction id) r).put (.transactionByTrxId r.trxId) id).put
    (.transactionByKey r.idempotencyKey) id

def postDebit (sender : Wallet) (t : Data) : Data :=
  (t.put (.wallet order.senderWalletId) (sender.plus (-order.total))).append
    (order.debit id (sender.plus (-order.total)).balance)

def postCredit (receiver : Wallet) (t : Data) : Data :=
  (t.put (.wallet order.receiverWalletId) (receiver.plus order.amount)).append
    (order.credit id (receiver.plus order.amount).balance)

def postFee (system : Wallet) (t : Data) : Data :=
  if order.amounts.feeAmount.isZero then t
  else (t.put (.wallet order.systemWalletId) (system.plus order.fee)).append
    (order.feeCredit id r.trxId (system.plus order.fee).balance)

def post (sender receiver system : Wallet) (t : Data) : Data :=
  order.postFee id r system
    (order.postCredit id receiver (order.postDebit id sender (postRecord id r t)))

theorem post_overlay (sender receiver system : Wallet) (own base : Data) :
    (order.post id r sender receiver system own).overlay base =
      order.post id r sender receiver system (own.overlay base) := by
  unfold post postFee
  split <;> simp [postCredit, postDebit, postRecord]

end TransferOrder

/-- `p` is about to commit the transfer `order` as row `id`. -/
structure Posting (env : Env) (c : State) (p : Pid) (order : TransferOrder) (id : Uuid)
    (r : Transaction) (sender receiver system : Wallet) : Prop
    extends Participants c p order sender receiver system where
  request : ∃ request, c.calls p = some (.transfer request) ∧
    Ordered env request order c.data
  record : ∃ trxId createdAt, r = order.record trxId r.idempotencyKey createdAt
  key : env.castUuid order.idempotencyKey = some r.idempotencyKey
  newId : c.data.row (.transaction id) = none
  newTrxId : c.data.row (.transactionByTrxId r.trxId) = none
  newKey : c.data.row (.transactionByKey r.idempotencyKey) = none

/-! ## Sessions -/

/-- A random UUID that no device row and no token carries yet. -/
structure Unused (u : Uuid) (c : State) : Prop where
  rows : ∀ userId deviceId device, c.data.row (.device userId deviceId) = some device →
    device.refreshSessionId ≠ some u ∧ device.currentRefreshJti ≠ some u
  tokens : ∀ q tokens, (q, Reply.tokens tokens) ∈ c.out →
    tokens.refreshToken.sid ≠ u ∧ tokens.refreshToken.jti ≠ u

structure Drawn (p : Pid) (u : Uuid) (c : State) : Prop where
  minted : c.shared.minted u = some (.request p)
  unused : Unused u c

/-- Replies that say nothing about committed transfers or sessions. -/
def Reply.Plain : Reply → Prop
  | .transferred _ | .replayed _ | .tokens _ => False
  | .otpSent _ _ | .registrationAuthorized _ _ | .success | .failed _ => True

def Call.SignIn : Call → Prop
  | .login _ | .register _ | .registerBusiness _ => True
  | _ => False

/-- How a request may change the row of the device `(userId, deviceId)`, and what
it answers in the same step. -/
inductive DeviceStep (c : State) (p : Pid) (userId : Uuid) (deviceId : JsString)
    (device : TrustDevice) : TrustDevice → List Reply → Prop
  | signedIn {call role sid jti now} : c.calls p = some call → call.SignIn →
      device.isAuthorized = true → Drawn p sid c → Drawn p jti c → sid ≠ jti →
      DeviceStep c p userId deviceId device
        { device with
          refreshSessionId := some sid, currentRefreshJti := some jti, lastUsedAt := now }
        [.tokens (getTokens userId role deviceId sid jti)]
  | rotated {payload role newJti now} :
      c.calls p = some (.refresh (some payload)) →
      payload.sub = userId → payload.deviceId = deviceId →
      holdsToken payload device = true → Drawn p newJti c →
      DeviceStep c p userId deviceId device
        { device with currentRefreshJti := some newJti, lastUsedAt := now }
        [.tokens (getTokens userId role deviceId payload.sid newJti)]
  | replayed {payload replies} : c.calls p = some (.refresh (some payload)) →
      payload.sub = userId → payload.deviceId = deviceId →
      isReplayWithinCurrentSession payload device = true →
      (∀ e ∈ replies, e.Plain) →
      DeviceStep c p userId deviceId device device.clearSession replies
  | loggedOut {payload replies} : c.calls p = some (.logout (some payload)) →
      payload.sub = userId → payload.deviceId = deviceId →
      device.refreshSessionId = some payload.sid → (∀ e ∈ replies, e.Plain) →
      DeviceStep c p userId deviceId device device.clearSession replies
  | revoked {replies} :
      (∃ id, c.calls p = some (.revokeTrustedDevice (some userId) id) ∧
        c.data.row (.deviceById id) = some (userId, deviceId)) →
      (∀ e ∈ replies, e.Plain) →
      DeviceStep c p userId deviceId device
        { device.clearSession with isAuthorized := false } replies
  | enrolled {dto now replies} : c.calls p = some (.verifyOtp dto) →
      (∀ e ∈ replies, e.Plain) →
      DeviceStep c p userId deviceId device
        { device.clearSession with isAuthorized := true, lastUsedAt := now } replies

/-! ## Accounts -/

def Data.addAccount (t : Data) (id : Uuid) (user : User) (walletId : Uuid)
    (type : WalletType) (deviceId : JsString) (device : TrustDevice) : Data :=
  let t := (t.put (.user id) user).put (.userByPhone user.phone) id
  let t := (t.put (.wallet walletId)
    { userId := some id, type := type, isActive := true, balance := 0,
      currency := .bdt }).put (.walletByUser id) walletId
  (t.put (.device id deviceId) device).put (.deviceById device.id) (id, deviceId)

structure NewAccount (c : State) (p : Pid) (id : Uuid) (user : User) (walletId : Uuid)
    (type : WalletType) (deviceId : JsString) (device : TrustDevice) (sid jti : Uuid) :
    Prop where
  call : ∃ call, c.calls p = some call ∧ call.SignIn
  newUser : c.data.row (.user id) = none
  newPhone : c.data.row (.userByPhone user.phone) = none
  newWallet : c.data.row (.wallet walletId) = none
  newIndex : c.data.row (.walletByUser id) = none
  newDevice : c.data.row (.device id deviceId) = none
  newDeviceId : c.data.row (.deviceById device.id) = none
  status : user.status = .active
  type : type = match user.role with
    | .agent => .agent
    | .merchant => .merchant
    | _ => .personal
  role : user.role ≠ .admin
  authorized : device.isAuthorized = true
  session : device.refreshSessionId = some sid ∧ device.currentRefreshJti = some jti
  drawnSid : Drawn p sid c
  drawnJti : Drawn p jti c
  distinct : sid ≠ jti

/-- The approval that a registration uses up, if it needs one. -/
inductive Claim (c : State) (user : User) : Data → Prop
  | personal : user.role = .customer → Claim c user c.data
  | business {id approval activatedAt} : c.data.row (.approval id) = some approval →
      approval.phone = user.phone → approval.role = user.role →
      approval.activatedAt = none → (user.role = .agent ∨ user.role = .merchant) →
      Claim c user (c.data.put (.approval id) { approval with activatedAt := some activatedAt })

def clearDevices (userId : Uuid) (devices : List (JsString × TrustDevice)) (t : Data) :
    Data :=
  devices.foldl (fun t entry => t.put (.device userId entry.1) entry.2.clearSession) t

/-! ## The effects -/

/-- `Effect env p c t replies`: a step of `p` from `c` may leave the committed
tables `t` and make the `replies`. -/
inductive Effect (env : Env) (p : Pid) (c : State) : Data → List Reply → Prop
  | none {replies} : (∀ e ∈ replies, e.Plain) → Effect env p c c.data replies
  | replayed {header response writer} : c.Requested p header →
      c.shared.redis (.idempotency header) = some ⟨.response response, writer⟩ →
      Effect env p c c.data [.replayed response]
  | transferred {order id r sender receiver system} :
      Posting env c p order id r sender receiver system →
      Effect env p c (order.post id r sender receiver system c.data)
        [.transferred (order.response r (sender.plus (-order.total))
          (receiver.plus order.amount))]
  | froze {id w replies} : c.data.row (.wallet id) = some w → w.type ≠ .system →
      (∀ e ∈ replies, e.Plain) →
      Effect env p c (c.data.put (.wallet id) { w with isActive := false }) replies
  | activated {id w replies} : c.data.row (.wallet id) = some w → w.type ≠ .system →
      w.isActive = false → c.data.ownerActive w = true → (∀ e ∈ replies, e.Plain) →
      Effect env p c (c.data.put (.wallet id) { w with isActive := true }) replies
  | suspended {userId user walletId w devices replies} :
      c.data.row (.user userId) = some user → user.role ≠ .admin →
      (user.status = .active ∨ user.status = .suspended) →
      c.data.row (.wallet walletId) = some w → w.userId = some userId →
      w.type ≠ .system → c.shared.db.lock (.wallet walletId) = some p →
      (∀ entry ∈ devices, c.data.row (.device userId entry.1) = some entry.2) →
      (∀ e ∈ replies, e.Plain) →
      Effect env p c
        (clearDevices userId devices
          ((c.data.put (.wallet walletId) { w with isActive := false }).put (.user userId)
            { user with status := .suspended })) replies
  | reactivated {userId user replies} : c.data.row (.user userId) = some user →
      user.role ≠ .admin → user.status = .suspended → (∀ e ∈ replies, e.Plain) →
      Effect env p c (c.data.put (.user userId) { user with status := .active }) replies
  | device {userId deviceId device device' replies} :
      c.data.row (.device userId deviceId) = some device →
      DeviceStep c p userId deviceId device device' replies →
      Effect env p c (c.data.put (.device userId deviceId) device') replies
  | enrolledNew {userId deviceId device replies} :
      c.data.row (.device userId deviceId) = none →
      c.data.row (.deviceById device.id) = none →
      device.refreshSessionId = none → device.currentRefreshJti = none →
      (∀ e ∈ replies, e.Plain) →
      Effect env p c ((c.data.put (.device userId deviceId) device).put
        (.deviceById device.id) (userId, deviceId)) replies
  | registered {id user walletId type deviceId device sid jti t} :
      NewAccount c p id user walletId type deviceId device sid jti → Claim c user t →
      Effect env p c (t.addAccount id user walletId type deviceId device)
        [.tokens (getTokens id user.role deviceId sid jti)]
  | approved {id approval replies} : c.data.row (.approval id) = none →
      c.data.row (.approvalByPhone approval.phone) = none →
      (∀ e ∈ replies, e.Plain) →
      Effect env p c ((c.data.put (.approval id) approval).put
        (.approvalByPhone approval.phone) id) replies
  | renewed {id approval role approvedById expiresAt replies} :
      c.data.row (.approval id) = some approval → approval.activatedAt = Option.none →
      (∀ e ∈ replies, e.Plain) →
      Effect env p c (c.data.put (.approval id)
        { approval with role, approvedById, expiresAt }) replies

end Kori
