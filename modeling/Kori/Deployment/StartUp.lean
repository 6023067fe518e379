import Kori.App

/-!
# Start-up

The bootstrap script that creates the SYSTEM wallet, and a server instance that
reads the identifier of this wallet before it serves any request.  Any number
of both run beside each other and beside the requests of the instances that
are ready.
-/

namespace Kori

open Foundation

/-! ## Identifiers -/

/-- `UserId.from` and `WalletId.from`; `name` is what the messages call the identifier. -/
def idFrom (name : String) (value : JsString) : Except String JsString :=
  if value.length = 0 ∨ (trim value).length = 0 then .error (name ++ " cannot be empty")
  else if value ≠ trim value then
    .error (name ++ " cannot contain surrounding whitespace")
  else .ok value

def userIdFrom : JsString → Except String JsString := idFrom "UserId"

def walletIdFrom : JsString → Except String JsString := idFrom "Wallet ID"

theorem trim_of_visible {s : JsString} (h : ∀ c ∈ s, isWhitespace c = false) :
    trim s = s := by
  have hkept : ∀ t : JsString, (∀ c ∈ t, isWhitespace c = false) →
      t.dropWhile isWhitespace = t := by
    intro t ht
    cases t with
    | nil => rfl
    | cons c t => simp [ht c (.head _)]
  rw [trim, hkept s h, hkept _ (by simpa using h), List.reverse_reverse]

theorem uuidText_visible (u : Uuid) : ∀ c ∈ uuidText u, isWhitespace c = false := by
  have hdigit : ∀ d : Fin 16, isWhitespace (hexDigit d) = false := by decide
  have hdigits : ∀ c ∈ hexText 32 u.toNat, isWhitespace c = false := by
    intro c hc
    simp only [hexText, List.mem_map] at hc
    obtain ⟨i, -, rfl⟩ := hc
    exact hdigit ⟨u.toNat / 16 ^ i % 16, Nat.mod_lt _ (by omega)⟩
  have hdash : isWhitespace 45 = false := by decide
  intro c hc
  simp only [uuidText, List.mem_append, List.mem_cons] at hc
  rcases hc with ((((hc | rfl | hc) | rfl | hc) | rfl | hc) | rfl | hc)
  · exact hdigits c (List.mem_of_mem_take hc)
  · exact hdash
  · exact hdigits c (List.mem_of_mem_drop (List.mem_of_mem_take hc))
  · exact hdash
  · exact hdigits c (List.mem_of_mem_drop (List.mem_of_mem_take hc))
  · exact hdash
  · exact hdigits c (List.mem_of_mem_drop (List.mem_of_mem_take hc))
  · exact hdash
  · exact hdigits c (List.mem_of_mem_drop hc)

theorem idFrom_uuidText (name : String) (u : Uuid) :
    idFrom name (uuidText u) = .ok (uuidText u) := by
  have htrim := trim_of_visible (uuidText_visible u)
  have hlength : (uuidText u).length ≠ 0 := by simp [uuidText]
  simp [idFrom, htrim, hlength]

/-! ## The table of wallets -/

namespace Data

def systemWalletAt (t : Data) : Key → Option (Uuid × Wallet)
  | .wallet id =>
      match Tables.row t (.wallet id) with
      | some wallet => if wallet.type = .system then some (id, wallet) else none
      | none => none
  | _ => none

def systemWallets (t : Data) : List (Uuid × Wallet) :=
  t.rows.keys.filterMap (systemWalletAt t)

/-- `INSERT INTO wallets` of a wallet without an owner, under the primary key, the
index `wallets_one_system_wallet_key` and the check `system_wallet_state_check`. -/
def insertWallet (t : Data) (id : Uuid) (wallet : Wallet) : Except SqlError Data :=
  if (Tables.row t (.wallet id)).isSome then .error .uniqueViolation
  else if wallet.type = .system ∧ systemWallets t ≠ [] then .error .uniqueViolation
  else if wallet.type = .system ∧
      ¬(wallet.currency = .bdt ∧ wallet.isActive = true ∧ wallet.userId = none) then
    .error .other
  else .ok (t.put (.wallet id) wallet)

end Data

/-- The `data` of `prisma.wallet.create` in the bootstrap script. -/
def bootstrapWallet : Wallet where
  userId := none
  type := .system
  isActive := true
  balance := 0
  currency := .bdt

/-! ## What starts -/

abbrev LaunchId := Nat

inductive Launch where
  /-- `prisma/seed.ts` -/
  | bootstrapRequiredState
  /-- `TransactionsService.onModuleInit` -/
  | onModuleInit
  deriving DecidableEq, Repr

inductive LaunchReport where
  | bootstrapped
  | ready
  | failed (e : Exn)
  deriving DecidableEq, Repr

inductive LaunchOp where
  /-- `findMany({ where: { type: 'SYSTEM' }, take: 2 })` -/
  | findSystemWallets
  | createSystemWallet
  /-- `this.cachedSystemWalletId = …` -/
  | cacheSystemWalletId (id : Uuid)

@[reducible] def LaunchOp.Ans : LaunchOp → Type
  | .findSystemWallets => Except SqlError (List (Uuid × Wallet))
  | .createSystemWallet => Except SqlError Uuid
  | .cacheSystemWalletId _ => Unit

inductive LaunchChoice where
  | go
  | fail
  /-- The statement takes effect but its answer is lost. -/
  | lost (u : Uuid)
  /-- `@default(uuid())` -/
  | generated (u : Uuid)
  /-- The order in which the database server visits the rows. -/
  | found (rows : List (Uuid × Wallet))
  deriving DecidableEq, Repr

abbrev LaunchAction (α : Type) := Code LaunchOp LaunchOp.Ans LaunchReport Exn α

def findSystemWallets : LaunchAction (List (Uuid × Wallet)) := do
  match ← Code.ask LaunchOp.findSystemWallets with
  | .ok rows => pure rows
  | .error e => throw (.sql e)

def createSystemWallet : LaunchAction Uuid := do
  match ← Code.ask LaunchOp.createSystemWallet with
  | .ok id => pure id
  | .error e => throw (.sql e)

def bootstrapRequiredState : LaunchAction LaunchReport := do
  let systemWallets ← findSystemWallets
  Code.throwIf (systemWallets.length > 1) (.error
    ("Bootstrap failed: multiple SYSTEM wallets exist. " ++
      "Financial system state is ambiguous."))
  match systemWallets.head? with
  | some (_, existingSystemWallet) =>
      Code.throwIf (existingSystemWallet.currency ≠ .bdt)
        (.error "Bootstrap failed: SYSTEM wallet must use BDT.")
      Code.throwIf (existingSystemWallet.userId ≠ none)
        (.error "Bootstrap failed: SYSTEM wallet must not belong to a user.")
      Code.throwIf (existingSystemWallet.isActive = false)
        (.error "Bootstrap failed: SYSTEM wallet is inactive.")
      pure .bootstrapped
  | none =>
      let _ ← createSystemWallet
      pure .bootstrapped

def notOneSystemWallet (found : Nat) : String :=
  "Expected exactly one SYSTEM wallet, found " ++ toString found ++ "."

def onModuleInit : LaunchAction LaunchReport := do
  let systemWallets ← findSystemWallets
  match systemWallets with
  | [(id, systemWallet)] =>
      Code.throwIf (systemWallet.userId ≠ none ∨ systemWallet.currency ≠ .bdt ∨
          systemWallet.isActive = false)
        (.error "SYSTEM wallet has invalid ownership, currency, or activity state.")
      match walletIdFrom (uuidText id) with
      | .error message => throw (.error message)
      | .ok _ =>
          Code.ask (LaunchOp.cacheSystemWalletId id)
          pure .ready
  | _ => throw (.error (notOneSystemWallet systemWallets.length))

def Launch.code : Launch → LaunchAction LaunchReport
  | .bootstrapRequiredState => Kori.bootstrapRequiredState
  | .onModuleInit => Kori.onModuleInit

/-- The exit code of the script, or the outcome of `NestFactory.create`. -/
def Launch.run (launch : Launch) : LaunchAction Unit := do
  let report ← tryCatch launch.code fun e => pure (.failed e)
  Code.tell report

/-! ## The deployment -/

def Shared.withCommitted (s : Shared) (t : Data) : Shared :=
  { s with db := { s.db with committed := t } }

/-- The application, and what every running instance has cached. -/
structure Deployment where
  service : KoriWorld
  cachedSystemWalletId : LaunchId → Option Uuid

namespace Deployment

def data (d : Deployment) : Data := d.service.conf.shared.db.committed

def commit (d : Deployment) (t : Data) : Deployment :=
  { d with service := { d.service with
      conf := d.service.conf.withShared (d.service.conf.shared.withCommitted t) } }

def cache (d : Deployment) (i : LaunchId) (id : Option Uuid) : Deployment :=
  { d with cachedSystemWalletId := Function.update d.cachedSystemWalletId i id }

def exec (i : LaunchId) : (op : LaunchOp) → LaunchChoice → Deployment →
    Option (op.Ans × Deployment)
  | .findSystemWallets, .found rows, d =>
      if rows.Perm (Data.systemWallets d.data) then some (.ok (rows.take 2), d) else none
  | .findSystemWallets, .fail, d => some (.error .other, d)
  | .createSystemWallet, .generated u, d =>
      match Data.insertWallet d.data u bootstrapWallet with
      | .ok t => some (.ok u, d.commit t)
      | .error e => some (.error e, d)
  | .createSystemWallet, .lost u, d =>
      match Data.insertWallet d.data u bootstrapWallet with
      | .ok t => some (.error .other, d.commit t)
      | .error e => some (.error e, d)
  | .createSystemWallet, .fail, d => some (.error .other, d)
  | .cacheSystemWalletId id, .go, d => some ((), d.cache i (some id))
  | _, _, _ => none

end Deployment

def Env.withSystemWallet (env : Env) (id : Uuid) : Env :=
  { env with cachedSystemWalletId := id }

/-- A move of the application.  A request arrives at an instance that is ready and
is served with what this instance has cached. -/
def Deployment.serve (env : Env) (served : LaunchId × KoriMove) (d : Deployment) : Deployment :=
  match served.2 with
  | .arrive p call =>
      match d.cachedSystemWalletId served.1 with
      | none => d
      | some id =>
          { d with service := (d.service.move (kori (env.withSystemWallet id))
              (.arrive p call)).getD d.service }
  | m => { d with service := (d.service.move (kori env) m).getD d.service }

abbrev DeploymentWorld :=
  World LaunchId Launch LaunchReport Exn Deployment LaunchOp LaunchOp.Ans

abbrev DeploymentMove := Move LaunchId Launch LaunchChoice (LaunchId × KoriMove)

/-- Bootstrap scripts and server instances beside the application that they start. -/
def deployment (env : Env) : System LaunchId Launch LaunchReport Exn Deployment
    LaunchChoice (LaunchId × KoriMove) LaunchOp LaunchOp.Ans where
  code := Launch.run
  exec := Deployment.exec
  abort := fun i d => d.cache i none
  tick := Deployment.serve env

end Kori
