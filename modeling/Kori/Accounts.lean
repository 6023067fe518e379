import Kori.Infrastructure

/-!
# AccountRestrictionService and its endpoints
-/

namespace Kori

open Foundation

/-- The account that `suspend` may restrict, with the wallet it owns. -/
def findSuspendable (targetUserId : Uuid) : Action Uuid := do
  let accounts ← select (.user targetUserId)
  let eligible := (accounts.row (.user targetUserId)).filter fun account =>
    account.role ≠ .admin ∧ account.status ≠ .locked ∧
      ((accounts.row (.walletByUser targetUserId)).bind fun id =>
        (accounts.row (.wallet id)).filter fun wallet => wallet.type ≠ .system).isSome
  match eligible with
  | none => throw (.http 404 (some "ACCOUNT_NOT_FOUND") "Account not found.")
  | some _ =>
      let wallets ← select (.walletByUser targetUserId)
      match wallets.row (.walletByUser targetUserId) with
      | none =>
          throw (.http 409 (some "ACCOUNT_WALLET_INVALID")
            "Account does not have a valid owned wallet.")
      | some walletId => pure walletId

/-- `refreshSessionId: null, currentRefreshJti: null` -/
def TrustDevice.clearSession (device : TrustDevice) : TrustDevice :=
  { device with refreshSessionId := none, currentRefreshJti := none }

def clearSessions (userId : Uuid) : Action Unit := do
  let snapshot ← select (.devices userId)
  let keys ← Code.ask
    (Op.arrange ((Data.devicesOf snapshot userId).map (.device userId)))
  Code.forEach (fun
    | .device owner deviceId => do
        let _ ← sql (.update (.device owner deviceId)
          (fun device => .ok (some device.clearSession)))
    | _ => pure ()) keys

/-- The body of the database transaction of `suspend`. -/
def restrictAccount (targetUserId : Uuid) : Action Unit := do
  let walletId ← findSuspendable targetUserId
  let frozen ← updateRow (.wallet walletId) (.wallet walletId)
    (fun wallet => wallet.userId = some targetUserId ∧ wallet.type ≠ .system)
    (fun _ => true) (fun wallet => { wallet with isActive := false })
  Code.throwIf (frozen ≠ 1) (.http 409 (some "ACCOUNT_WALLET_CHANGED")
    "Account wallet changed during suspension.")
  let restricted ← updateRow (.user targetUserId) (.user targetUserId)
    (fun account => account.role ≠ .admin ∧
      (account.status = .active ∨ account.status = .suspended))
    (fun _ => true) (fun account => { account with status := .suspended })
  Code.throwIf (restricted ≠ 1) (.http 409 (some "ACCOUNT_STATE_CHANGED")
    "Account state changed during suspension.")
  clearSessions targetUserId

def suspend (targetUserId : Uuid) : Action Unit := transaction (restrictAccount targetUserId)

def reactivate (targetUserId : Uuid) : Action Unit := do
  let updated ← updateRow (.user targetUserId) (.user targetUserId)
    (fun account => account.role ≠ .admin ∧ account.status = .suspended)
    (fun _ => true) (fun account => { account with status := .active })
  if updated = 1 then pure ()
  else do
    let accounts ← select (.user targetUserId)
    match accounts.row (.user targetUserId) with
    | none => throw (.http 404 (some "ACCOUNT_NOT_FOUND") "Account not found.")
    | some _ =>
        throw (.http 409 (some "ACCOUNT_NOT_ELIGIBLE_FOR_REACTIVATION")
          "Account cannot be reactivated from its current state.")

/-! ## AccountsController -/

namespace AccountsController

def suspend (actor : Option Uuid) (targetUserId : Uuid) : Action Reply := do
  let _ ← roleGuards .admin actor
  Kori.suspend targetUserId
  pure .success

def reactivate (actor : Option Uuid) (targetUserId : Uuid) : Action Reply := do
  let _ ← roleGuards .admin actor
  Kori.reactivate targetUserId
  pure .success

end AccountsController

end Kori
