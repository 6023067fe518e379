import Kori.Conduct.Rules
import Kori.Contract.Effects
import Kori.Foundation.Serial

/-!
# The bank

What the service is for, without requests in progress, locks and caches: accounts, wallets
and the books.  Every action is taken at once, and all that it needs is looked at on the
state in which it is taken.
-/

namespace Kori

open Foundation

structure Bank where
  account : Uuid → Option User
  /-- The account that is registered under a phone number. -/
  accountOf : JsString → Option Uuid
  wallet : Uuid → Option Wallet
  walletOf : Uuid → Option Uuid
  transaction : Uuid → Option Transaction
  /-- The transaction with a transaction number. -/
  numbered : JsString → Option Uuid
  /-- The transaction for an idempotency key. -/
  performed : Uuid → Option Uuid
  ledger : List LedgerEntry

namespace Bank

inductive Act where
  | transfer (request : TransferRequest) (id : Uuid) (trxId : JsString) (createdAt : Instant)
  | freeze (walletId : Uuid)
  | unfreeze (walletId : Uuid)
  | suspend (userId walletId : Uuid)
  | reinstate (userId : Uuid)
  | openAccount (id : Uuid) (user : User) (walletId : Uuid)

variable (b : Bank)

def setAccount (id : Uuid) (user : User) : Bank :=
  { b with account := Function.update b.account id (some user) }

def setWallet (id : Uuid) (w : Wallet) : Bank :=
  { b with wallet := Function.update b.wallet id (some w) }

def record (id : Uuid) (r : Transaction) : Bank :=
  { b with
    transaction := Function.update b.transaction id (some r)
    numbered := Function.update b.numbered r.trxId (some id)
    performed := Function.update b.performed r.idempotencyKey (some id) }

def enter (entry : LedgerEntry) : Bank := { b with ledger := b.ledger ++ [entry] }

def ownerActive (w : Wallet) : Bool :=
  ((w.userId.bind b.account).filter fun user => user.status = .active).isSome

/-! ## Transfers -/

/-- A wallet that may take part in a transfer. -/
def participant (id : Uuid) (type : WalletType) : Option Wallet :=
  (b.wallet id).filter fun w => w.type = type ∧ w.isActive = true ∧ b.ownerActive w = true

/-- What a request asks for, if its caller has the role of the endpoint. -/
def order (env : Env) (request : TransferRequest) : Option TransferOrder := do
  let actor ← request.actor
  let payer ← b.account actor
  guard (endpointRole request.endpoint = some payer.role)
  let idempotencyKey ← request.idempotencyKey
  guard (env.validates (.transfer request.endpoint request.body) = true)
  let phone ← phoneOf env request.body.phone
  let payee ← b.accountOf phone
  let amounts ←
    (calculateTransferMath request.body.amountMinorUnits request.endpoint).toOption
  let senderWalletId ← b.walletOf actor
  let receiverWalletId ← b.walletOf payee
  guard (senderWalletId ≠ receiverWalletId)
  pure
    { senderWalletId, receiverWalletId, systemWalletId := env.cachedSystemWalletId, amounts
      type := request.endpoint, idempotencyKey
      reference := endpointReference request.endpoint request.body }

def post (order : TransferOrder) (id : Uuid) (r : Transaction)
    (sender receiver system : Wallet) : Bank :=
  let debited := sender.plus (-order.total)
  let credited := receiver.plus order.amount
  let b := (b.record id r).setWallet order.senderWalletId debited
  let b := (b.enter (order.debit id debited.balance)).setWallet order.receiverWalletId credited
  let b := b.enter (order.credit id credited.balance)
  if order.amounts.feeAmount.isZero then b
  else
    (b.setWallet order.systemWalletId (system.plus order.fee)).enter
      (order.feeCredit id r.trxId (system.plus order.fee).balance)

def transfer (env : Env) (request : TransferRequest) (id : Uuid) (trxId : JsString)
    (createdAt : Instant) : Option (Bank × Option TransactionResultResponse) := do
  let order ← b.order env request
  let sender ← b.participant order.senderWalletId (senderType order.type)
  let receiver ← b.participant order.receiverWalletId (receiverType order.type)
  let system ← (b.wallet order.systemWalletId).filter Wallet.isActive
  guard (order.total ≤ sender.balance)
  let key ← env.castUuid order.idempotencyKey
  guard (b.transaction id = none ∧ b.numbered trxId = none ∧ b.performed key = none)
  let r := order.record trxId key createdAt
  pure (b.post order id r sender receiver system,
    some (order.response r (sender.plus (-order.total)) (receiver.plus order.amount)))

/-! ## Restrictions and accounts -/

def walletType : Role → WalletType
  | .agent => .agent
  | .merchant => .merchant
  | .customer | .admin => .personal

def freeze (id : Uuid) : Option Bank := do
  let w ← (b.wallet id).filter fun w => w.type ≠ .system ∧ w.isActive = true
  pure (b.setWallet id { w with isActive := false })

def unfreeze (id : Uuid) : Option Bank := do
  let w ← (b.wallet id).filter fun w =>
    w.type ≠ .system ∧ w.isActive = false ∧ b.ownerActive w = true
  pure (b.setWallet id { w with isActive := true })

def suspend (userId walletId : Uuid) : Option Bank := do
  let user ← (b.account userId).filter fun user =>
    user.role ≠ .admin ∧ (user.status = .active ∨ user.status = .suspended)
  let w ← (b.wallet walletId).filter fun w => w.userId = some userId ∧ w.type ≠ .system
  pure ((b.setWallet walletId { w with isActive := false }).setAccount userId
    { user with status := .suspended })

def reinstate (userId : Uuid) : Option Bank := do
  let user ← (b.account userId).filter fun user =>
    user.role ≠ .admin ∧ user.status = .suspended
  pure (b.setAccount userId { user with status := .active })

def openAccount (id : Uuid) (user : User) (walletId : Uuid) : Option Bank := do
  guard (user.role ≠ .admin ∧ user.status = .active)
  guard (b.account id = none ∧ b.accountOf user.phone = none)
  guard (b.wallet walletId = none ∧ b.walletOf id = none)
  let w : Wallet :=
    { userId := some id, type := walletType user.role, isActive := true, balance := 0
      currency := .bdt }
  pure
    { (b.setAccount id user).setWallet walletId w with
      accountOf := Function.update b.accountOf user.phone (some id)
      walletOf := Function.update b.walletOf id (some walletId) }

def apply (env : Env) (b : Bank) : Act → Option (Bank × Option TransactionResultResponse)
  | .transfer request id trxId createdAt => b.transfer env request id trxId createdAt
  | .freeze id => (b.freeze id).map fun b => (b, none)
  | .unfreeze id => (b.unfreeze id).map fun b => (b, none)
  | .suspend userId walletId => (b.suspend userId walletId).map fun b => (b, none)
  | .reinstate userId => (b.reinstate userId).map fun b => (b, none)
  | .openAccount id user walletId => (b.openAccount id user walletId).map fun b => (b, none)

theorem transfer_reports {env : Env} {request : TransferRequest} {id : Uuid} {trxId : JsString}
    {createdAt : Instant} {b b' : Bank} {res : Option TransactionResultResponse}
    (h : b.transfer env request id trxId createdAt = some (b', res)) : res.isSome := by
  unfold transfer at h
  simp only [Option.bind_eq_bind, Option.bind_eq_some_iff, Option.pure_def,
    Option.some.injEq, Prod.mk.injEq] at h
  obtain ⟨_, -, _, -, _, -, _, -, _, -, _, -, _, -, _, -, -, rfl⟩ := h
  rfl

/-! ## When the restrictions are possible -/

variable {b}

theorem freeze_eq {id : Uuid} {w : Wallet} (hwallet : b.wallet id = some w)
    (htype : w.type ≠ .system) (hactive : w.isActive = true) :
    b.freeze id = some (b.setWallet id { w with isActive := false }) := by
  simp [freeze, hwallet, Option.filter_some, htype, hactive]

theorem unfreeze_eq {id : Uuid} {w : Wallet} (hwallet : b.wallet id = some w)
    (htype : w.type ≠ .system) (hinactive : w.isActive = false)
    (howner : b.ownerActive w = true) :
    b.unfreeze id = some (b.setWallet id { w with isActive := true }) := by
  simp [unfreeze, hwallet, Option.filter_some, htype, hinactive, howner]

theorem suspend_eq {userId walletId : Uuid} {user : User} {w : Wallet}
    (haccount : b.account userId = some user) (hrole : user.role ≠ .admin)
    (hstatus : user.status = .active ∨ user.status = .suspended)
    (hwallet : b.wallet walletId = some w) (howner : w.userId = some userId)
    (htype : w.type ≠ .system) :
    b.suspend userId walletId =
      some ((b.setWallet walletId { w with isActive := false }).setAccount userId
        { user with status := .suspended }) := by
  simp [suspend, haccount, hwallet, Option.filter_some, hrole, hstatus, howner, htype]

theorem reinstate_eq {userId : Uuid} {user : User} (haccount : b.account userId = some user)
    (hrole : user.role ≠ .admin) (hstatus : user.status = .suspended) :
    b.reinstate userId = some (b.setAccount userId { user with status := .active }) := by
  simp [reinstate, haccount, Option.filter_some, hrole, hstatus]

/-- The bank as an object that is used by one at a time. -/
def object (env : Env) : SerialObject Bank Act TransactionResultResponse :=
  ⟨fun act b => b.apply env act⟩

end Bank

/-! ## The bank behind the tables -/

def Data.bank (t : Data) : Bank where
  account id := t.row (.user id)
  accountOf phone := t.row (.userByPhone phone)
  wallet id := t.row (.wallet id)
  walletOf userId := t.row (.walletByUser userId)
  transaction id := t.row (.transaction id)
  numbered trxId := t.row (.transactionByTrxId trxId)
  performed key := t.row (.transactionByKey key)
  ledger := t.log

/-- The action that a request stands for. -/
def Bank.Fits (env : Env) : Call → Bank.Act → Prop
  | .transfer req, .transfer request _ _ _ => request = req
  | .deactiveWallet _ id, .freeze walletId => walletId = id
  | .activeWallet _ id, .unfreeze walletId => walletId = id
  | .suspend _ target, .suspend userId _ => userId = target
  | .reactivate _ target, .reinstate userId => userId = target
  | .register dto, .openAccount _ user _ | .registerBusiness dto, .openAccount _ user _ =>
      phoneOf env dto.phone = some user.phone
  | _, _ => False

/-- The committed tables show the bank, and the answers to transfers are its reports. -/
def bankService (env : Env) :
    Service Pid Call Reply Shared Bank Bank.Act TransactionResultResponse where
  view s := Data.bank s.db.committed
  reported
    | .transferred response => some response
    | _ => none
  fits := Bank.Fits env

end Kori
