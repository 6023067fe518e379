import Mathlib.Data.List.Sort
import Kori.Wallets

/-!
# TransactionsService, its interceptor and its endpoints
-/

namespace Kori

open Foundation

def liftAmounts (result : Except AmountError TransactionAmounts) :
    Action TransactionAmounts :=
  match result with
  | .ok amounts => pure amounts
  | .error .invalidTransactionAmount =>
      throw (.http 400 (some "INVALID_TRANSACTION_AMOUNT") "Invalid transaction amount.")
  | .error .transactionAmountLimitExceeded =>
      throw (.http 400 (some "TRANSACTION_AMOUNT_LIMIT_EXCEEDED")
        "Maximum principal is 100,000 BDT.")
  | .error .bigIntSyntaxError => throw (.error "Cannot convert the string to a BigInt")
  | .error (.money e) => throw (.invalidMoney e)

def insufficientFunds : Exn := .badRequest "Insufficient funds"

/-- The sender's balance has to cover the total. -/
def assertFunds (balance : Int) (totalRequiredAmount : Money) : Action Unit := do
  let available ← liftMoney (Money.fromMinorUnits balance .bdt)
  let less ← liftMoney (available.isLessThan totalRequiredAmount)
  Code.throwIf (less = true) insufficientFunds

/-- `cachedSystemWalletId` is set before the first request, so the check that it
is there always passes. -/
def assertTransferEligibility (senderWalletId receiverWalletId : Uuid)
    (expectedSenderType expectedReceiverType : WalletType)
    (totalRequiredAmount : Money) : Action Unit := do
  Code.throwIf (senderWalletId = receiverWalletId)
    (.badRequest "Can not do transaction to own account")
  let (senderWallet, receiverWallet) ← Code.both Op.turn id
    (getWalletStateForTransaction senderWalletId)
    (getWalletStateForTransaction receiverWalletId)
  Code.throwIf (senderWallet.type ≠ expectedSenderType)
    (.badRequest ("Unauthorized: Sender wallet must be of type " ++
      expectedSenderType.text ++ "."))
  Code.throwIf (receiverWallet.type ≠ expectedReceiverType)
    (.badRequest ("Unauthorized: Receiver wallet must be of type " ++
      expectedReceiverType.text ++ "."))
  Code.throwIf (senderWallet.currency ≠ .bdt ∨ receiverWallet.currency ≠ .bdt)
    (.http 400 (some "CURRENCY_MISMATCH")
      "Transactions are currently only supported for BDT currency.")
  assertFunds senderWallet.balance totalRequiredAmount

/-! ## executeACIDTransfer -/

/-- `SELECT id FROM wallets WHERE id IN (ids) FOR NO KEY UPDATE` -/
def lockWallets (ids : List Uuid) : Action Unit := do
  let snapshot ← select (.walletsToLock ids)
  let found := ids.dedup.filter fun id => (snapshot.row (.wallet id)).isSome
  let keys ← Code.ask (Op.arrange (found.map .wallet))
  Code.forEach (fun k => sql (.lock k)) keys

/-- The wallet, if it is active and its owner's account is ACTIVE. -/
def findLockedWallet (id : Uuid) : Action (Option Wallet) := do
  let snapshot ← select (.lockedWallet id)
  pure ((snapshot.row (.wallet id)).filter fun wallet =>
    wallet.isActive && Data.ownerActive snapshot wallet)

def findLockedSystem (id : Uuid) : Action (Option Wallet) := do
  let snapshot ← select (.lockedWallet id)
  pure ((snapshot.row (.wallet id)).filter Wallet.isActive)

/-- `data: { balance: { increment: delta } }`, in a signed 64-bit column. -/
def addBalance (delta : Int) (wallet : Wallet) : Except SqlError (Option Wallet) :=
  let balance := wallet.balance + delta
  if minMinorUnits ≤ balance ∧ balance ≤ maxMinorUnits then
    .ok (some { wallet with balance := balance })
  else .error .outOfRange

def updateBalance (id : Uuid) (delta : Int) : Action Wallet := do
  match ← sql (.update (.wallet id) (addBalance delta)) with
  | some wallet => pure wallet
  | none => throw (.sql .recordNotFound)

structure TransferOrder where
  senderWalletId : Uuid
  receiverWalletId : Uuid
  systemWalletId : Uuid
  amounts : TransactionAmounts
  type : TransactionType
  idempotencyKey : JsString
  reference : Option JsString
  deriving DecidableEq

namespace TransferOrder

def record (order : TransferOrder) (trxId : JsString) (idempotencyKey : Uuid)
    (createdAt : Instant) : Transaction where
  trxId := trxId
  idempotencyKey := idempotencyKey
  type := order.type
  status := .completed
  amount := order.amounts.transferAmount.minorUnits
  fee := order.amounts.feeAmount.minorUnits
  reference := order.reference
  senderWalletId := order.senderWalletId
  receiverWalletId := order.receiverWalletId
  createdAt := createdAt

def debit (order : TransferOrder) (transactionId : Uuid) (balanceAfter : Int) :
    LedgerEntry where
  transactionId := transactionId
  walletId := order.senderWalletId
  type := .debit
  amount := order.amounts.totalRequiredAmount.minorUnits
  balanceAfter := balanceAfter
  description := (dynamicLedgerDescription order.type order.senderWalletId
    order.receiverWalletId).debitDescription

def credit (order : TransferOrder) (transactionId : Uuid) (balanceAfter : Int) :
    LedgerEntry where
  transactionId := transactionId
  walletId := order.receiverWalletId
  type := .credit
  amount := order.amounts.transferAmount.minorUnits
  balanceAfter := balanceAfter
  description := (dynamicLedgerDescription order.type order.senderWalletId
    order.receiverWalletId).creditDescription

def feeCredit (order : TransferOrder) (transactionId : Uuid) (trxId : JsString)
    (balanceAfter : Int) : LedgerEntry where
  transactionId := transactionId
  walletId := order.systemWalletId
  type := .credit
  amount := order.amounts.feeAmount.minorUnits
  balanceAfter := balanceAfter
  description := js "Fee collection for TRX " ++ trxId

/-- `cachedSystemWalletId` is the wallet passed as `systemWalletId`. -/
def response (order : TransferOrder) (record : Transaction)
    (updatedSender updatedReceiver : Wallet) : TransactionResultResponse where
  trxId := record.trxId
  type := record.type
  status := record.status
  amount := order.amounts.transferAmount.toText
  fee := order.amounts.feeAmount.toText
  createdAt := record.createdAt
  newBalance := intText
    (if order.senderWalletId = order.systemWalletId then updatedReceiver.balance
    else updatedSender.balance)

end TransferOrder

/-- The wallets as the transaction finds them once it holds their locks. -/
def fetchLocked (order : TransferOrder) : Action (Wallet × Wallet × Wallet) := do
  let (lockedSender, lockedReceiver, lockedSystem) ← Code.both Op.turn id
    (findLockedWallet order.senderWalletId)
    (Code.both Op.turn id (findLockedWallet order.receiverWalletId)
      (findLockedSystem order.systemWalletId))
  match lockedSender, lockedReceiver, lockedSystem with
  | some sender, some receiver, some system => pure (sender, receiver, system)
  | _, _, _ =>
      throw (.http 403 (some "TRANSACTION_PARTICIPANT_RESTRICTED")
        "One or more transaction participants are restricted.")

def createTransaction (env : Env) (order : TransferOrder) :
    Action (Uuid × Transaction) := do
  let now ← Code.ask Op.now
  let random ← Code.ask Op.randomBytes
  let trxId := generateTrxId now random
  let id ← Code.ask Op.generatedId
  let createdAt ← Code.ask Op.now
  match env.castUuid order.idempotencyKey with
  | none => throw (.sql .other)
  | some key =>
      let record := order.record trxId key createdAt
      sql (.insert (.transaction id) record)
      sql (.insert (.transactionByTrxId trxId) id)
      sql (.insert (.transactionByKey key) id)
      pure (id, record)

def collectFee (order : TransferOrder) (id : Uuid) (trxId : JsString) : Action Unit :=
  if order.amounts.feeAmount.isZero then pure ()
  else do
    let updatedSystem ← updateBalance order.systemWalletId
      order.amounts.feeAmount.minorUnits
    sql (.append (order.feeCredit id trxId updatedSystem.balance))

def postLedger (order : TransferOrder) (id : Uuid) (record : Transaction) :
    Action TransactionResultResponse := do
  let updatedSender ← updateBalance order.senderWalletId
    (-order.amounts.totalRequiredAmount.minorUnits)
  sql (.append (order.debit id updatedSender.balance))
  let updatedReceiver ← updateBalance order.receiverWalletId
    order.amounts.transferAmount.minorUnits
  sql (.append (order.credit id updatedReceiver.balance))
  collectFee order id record.trxId
  pure (order.response record updatedSender updatedReceiver)

def acidBlock (env : Env) (order : TransferOrder) : Action TransactionResultResponse := do
  lockWallets ([order.senderWalletId, order.receiverWalletId,
    order.systemWalletId].insertionSort (fun a b => a.toNat ≤ b.toNat))
  let (lockedSender, _, _) ← fetchLocked order
  assertFunds lockedSender.balance order.amounts.totalRequiredAmount
  let (id, record) ← createTransaction env order
  postLedger order id record

def alreadyProcessed : Exn :=
  .conflict "This Transaction was already securely possesed by the database"

def executeACIDTransfer (env : Env) (order : TransferOrder) :
    Action TransactionResultResponse :=
  tryCatch (transaction (acidBlock env order)) fun e =>
    match e with
    | .sql .uniqueViolation => throw alreadyProcessed
    | e => throw e

/-! ## The four operations -/

/-- What the four operations have in common; they differ in the wallet types
they expect and in the reference they record. -/
def transferBetween (env : Env) (type : TransactionType)
    (expectedSenderType expectedReceiverType : WalletType)
    (reference : TransferBody → Option JsString) (actorUserId : Uuid)
    (dto : TransferBody) (idempotencyKey : JsString) :
    Action TransactionResultResponse := do
  let phone ← phoneNumberFrom env dto.phone
  let amounts ← liftAmounts (calculateTransferMath dto.amountMinorUnits type)
  let (senderWalletId, receiverWalletId) ← Code.both Op.turn id
    (getOwnWalletId actorUserId) (resolveWalletIdByPhone phone)
  assertTransferEligibility senderWalletId receiverWalletId expectedSenderType
    expectedReceiverType amounts.totalRequiredAmount
  executeACIDTransfer env
    { senderWalletId := senderWalletId
      receiverWalletId := receiverWalletId
      systemWalletId := env.cachedSystemWalletId
      amounts := amounts
      type := type
      idempotencyKey := idempotencyKey
      reference := reference dto }

def sendMoney (env : Env) : Uuid → TransferBody → JsString →
    Action TransactionResultResponse :=
  transferBetween env .sendMoney .personal .personal TransferBody.reference

def cashIn (env : Env) : Uuid → TransferBody → JsString →
    Action TransactionResultResponse :=
  transferBetween env .cashIn .agent .personal TransferBody.reference

def cashOut (env : Env) : Uuid → TransferBody → JsString →
    Action TransactionResultResponse :=
  transferBetween env .cashOut .personal .agent TransferBody.reference

/-- `reference || invoiceNumber` -/
def paymentReference (dto : TransferBody) : Option JsString :=
  match dto.reference with
  | none | some [] => dto.invoiceNumber
  | some reference => some reference

def payment (env : Env) : Uuid → TransferBody → JsString →
    Action TransactionResultResponse :=
  transferBetween env .payment .personal .merchant paymentReference

/-! ## IdempotencyInterceptor -/

def beingProcessed : Exn :=
  .conflict "This request is currently being processed. Please wait."

/--
The completing commands, `SET` of the response and `DEL` of the marker, are not
awaited: the answer is on its way before they run.
-/
def intercept (idempotencyKey : JsString)
    (handle : Action TransactionResultResponse) : Action Unit := do
  let redisKey : RedisKey := .idempotency idempotencyKey
  match ← RedisService.get redisKey with
  | some .processing => throw beingProcessed
  | some (.response cached) => Code.tell (.replayed cached)
  | none =>
      let locked ← RedisService.set redisKey .processing true
      Code.throwIf (locked = false) beingProcessed
      let outcome ← tryCatch (do
        let response ← handle
        pure (Except.ok response)) fun e => pure (Except.error e)
      match outcome with
      | .ok response =>
          Code.tell (.transferred response)
          let _ ← RedisService.set redisKey (.response response) false
      | .error e =>
          Code.tell (.failed e)
          let _ ← RedisService.del redisKey

/-! ## TransactionsController -/

/-- `@Roles` of the endpoints; there is no endpoint for ADD_MONEY. -/
def endpointRole : TransactionType → Option Role
  | .sendMoney | .cashOut | .payment => some .customer
  | .cashIn => some .agent
  | .addMoney => none

def endpointHandler (env : Env) : TransactionType → Uuid → TransferBody → JsString →
    Action TransactionResultResponse
  | .sendMoney => sendMoney env
  | .cashIn => cashIn env
  | .cashOut => cashOut env
  | .payment => payment env
  | .addMoney => fun _ _ _ => throw (.notFound "Cannot POST")

def missingIdempotencyKey : Exn :=
  .badRequest ("CRITICAL: The x-idempotency-key header is required for this " ++
    "operation to prevent double-charging.")

/-- Guards, then the interceptor, then the validation pipe and the handler. -/
def transfer (env : Env) (request : TransferRequest) : Action Unit :=
  tryCatch (do
    match endpointRole request.endpoint with
    | none => throw (.notFound "Cannot POST")
    | some role =>
        let sub ← roleGuards role request.actor
        match request.idempotencyKey with
        | none | some [] => throw missingIdempotencyKey
        | some key =>
            intercept key (do
              validationPipe env (.transfer request.endpoint request.body)
              endpointHandler env request.endpoint sub request.body key))
    fun e => Code.tell (.failed e)

end Kori
