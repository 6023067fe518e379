import Kori.Infrastructure

/-!
# WalletsService and its endpoints
-/

namespace Kori

open Foundation

structure WalletStateForTransaction where
  type : WalletType
  balance : Int
  currency : Currency
  deriving DecidableEq, Repr

def createWallet (userId : Uuid) (type : WalletType) : Action Unit := do
  let id ← Code.ask Op.generatedId
  sql (.insert (.wallet id)
    { userId := some userId, type := type, isActive := true, balance := 0,
      currency := .bdt })
  sql (.insert (.walletByUser userId) id)

def createPersonalWallet (userId : Uuid) : Action Unit := createWallet userId .personal

def createBusinessWallet (userId : Uuid) (role : Role) : Action Unit := do
  Code.throwIf (role ≠ .agent ∧ role ≠ .merchant)
    (.badRequest "Only AGENT and MERCHANT wallets can be provisioned here.")
  createWallet userId (if role = .agent then .agent else .merchant)

def getWalletById (walletId : Uuid) : Action Wallet := do
  let snapshot ← tryCatch (select (.wallet walletId)) fun _ =>
    throw (.internalServerError "Failed to retrive wallet")
  match snapshot.row (.wallet walletId) with
  | none =>
      throw (.notFound ("Wallet with ID:" ++ uuidString walletId ++ " does not exist."))
  | some wallet => pure wallet

def assertManageableWallet (walletId : Uuid) : Action Unit := do
  let snapshot ← select (.wallet walletId)
  match snapshot.row (.wallet walletId) with
  | none => throw (.http 404 (some "WALLET_NOT_FOUND") "Wallet not found.")
  | some wallet =>
      if wallet.type = .system then
        throw (.http 409 (some "SYSTEM_WALLET_PROTECTED")
          "The SYSTEM wallet cannot be frozen or activated through this operation.")
      else if wallet.userId = none then
        throw (.http 409 (some "WALLET_OWNER_INVALID") "Wallet ownership is invalid.")
      else pure ()

/-- The wallet's activity is `isActive`, and the wallet is not the system's. -/
def manageable (isActive : Bool) (wallet : Wallet) : Bool :=
  wallet.isActive = isActive ∧ wallet.userId ≠ none ∧ wallet.type ≠ .system

def deactiveWallet (walletId : Uuid) : Action Wallet := do
  assertManageableWallet walletId
  let count ← updateRow (.wallet walletId) (.wallet walletId) (manageable true)
    (fun _ => true) (fun wallet => { wallet with isActive := false })
  Code.throwIf (count ≠ 1) (.http 409 (some "WALLET_STATE_CHANGED")
    "Wallet is already frozen or its state changed.")
  getWalletById walletId

def activateFrozen (walletId : Uuid) : Action Unit := do
  let count ← updateRow (.wallet walletId) (.wallet walletId) (manageable false)
    (fun _ => true) (fun wallet => { wallet with isActive := true })
  Code.throwIf (count ≠ 1) (.http 409 (some "WALLET_STATE_CHANGED")
    "Wallet is already active or its state changed.")
  let snapshot ← select (.wallet walletId)
  let wallet := (snapshot.row (.wallet walletId)).filter (Data.ownerActive snapshot)
  Code.throwIf (wallet = none) (.http 409 (some "ACCOUNT_NOT_ACTIVE")
    "Cannot activate a wallet whose owner account is restricted.")

def activeWallet (walletId : Uuid) : Action Wallet := do
  assertManageableWallet walletId
  transaction (activateFrozen walletId)
  getWalletById walletId

/-- Pre-flight financial checks read an active wallet outside any transaction. -/
def getWalletStateForTransaction (walletId : Uuid) :
    Action WalletStateForTransaction := do
  let snapshot ← tryCatch (select (.walletStateForTransaction walletId)) fun _ =>
    throw (.internalServerError
      "An error ocured while getting wallet state for transaction")
  match (snapshot.row (.wallet walletId)).filter Wallet.isActive with
  | none =>
      throw (.notFound ("Wallet with ID:" ++ uuidString walletId ++ " does not exist."))
  | some wallet => pure ⟨wallet.type, wallet.balance, wallet.currency⟩

def getOwnWalletId (userId : Uuid) : Action Uuid := do
  let snapshot ← tryCatch (select (.walletByUser userId)) fun _ =>
    throw (.internalServerError "Failed to resolve wallet")
  match snapshot.row (.walletByUser userId) with
  | none => throw (.notFound "No wallet found for this account. Contact support.")
  | some id => pure id

/-- The nested `select` of Prisma is a second query. -/
def findWalletIdByPhone (phone : JsString) : Action Uuid := do
  let users ← select (.userByPhone phone)
  match users.row (.userByPhone phone) with
  | none => throw (.notFound "Recipient account not found.")
  | some userId =>
      let wallets ← select (.walletByUser userId)
      match wallets.row (.walletByUser userId) with
      | none => throw (.notFound "Recipient account not found.")
      | some id => pure id

def resolveWalletIdByPhone (phone : JsString) : Action Uuid :=
  tryCatch (findWalletIdByPhone phone) fun e =>
    match e with
    | .http 404 code message => throw (.http 404 code message)
    | _ => throw (.internalServerError "Failed to resolve recipient account")

/-! ## WalletsController -/

namespace WalletsController

def deactiveWallet (actor : Option Uuid) (walletId : Uuid) : Action Reply := do
  let _ ← roleGuards .admin actor
  let _ ← Kori.deactiveWallet walletId
  pure .success

def activeWallet (actor : Option Uuid) (walletId : Uuid) : Action Reply := do
  let _ ← roleGuards .admin actor
  let _ ← Kori.activeWallet walletId
  pure .success

end WalletsController

end Kori
