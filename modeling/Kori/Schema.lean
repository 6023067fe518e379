import Kori.Domain.Money
import Kori.Foundation.RowStore

/-!
# The database schema

One kind of key for every unique constraint: the primary keys hold the rows,
the other unique columns hold the identifier of the row they belong to.  Ledger
entries are only ever added, so their table is the log.
-/

namespace Kori

open Foundation

/-- One request being served, on any of the server instances. -/
abbrev Pid := Nat

structure User where
  phone : JsString
  pin : JsString
  role : Role
  status : AccountStatus
  deriving DecidableEq, Repr

structure Wallet where
  userId : Option Uuid
  type : WalletType
  isActive : Bool
  balance : Int
  currency : Currency
  deriving DecidableEq, Repr

structure Transaction where
  trxId : JsString
  idempotencyKey : Uuid
  type : TransactionType
  status : TransactionStatus
  amount : Int
  fee : Int
  reference : Option JsString
  senderWalletId : Uuid
  receiverWalletId : Uuid
  createdAt : Instant
  deriving DecidableEq, Repr

/-- Without its identifier, which no statement reads. -/
structure LedgerEntry where
  transactionId : Uuid
  walletId : Uuid
  type : EntryType
  amount : Int
  balanceAfter : Int
  description : JsString
  deriving DecidableEq, Repr

structure TrustDevice where
  id : Uuid
  isAuthorized : Bool
  refreshSessionId : Option Uuid
  currentRefreshJti : Option Uuid
  lastUsedAt : Instant
  deriving DecidableEq, Repr

structure BusinessApproval where
  phone : JsString
  role : Role
  approvedById : Uuid
  expiresAt : Instant
  activatedAt : Option Instant
  deriving DecidableEq, Repr

inductive Key where
  | user (id : Uuid)
  | userByPhone (phone : JsString)
  | wallet (id : Uuid)
  | walletByUser (userId : Uuid)
  | transaction (id : Uuid)
  | transactionByTrxId (trxId : JsString)
  | transactionByKey (idempotencyKey : Uuid)
  | device (userId : Uuid) (deviceId : JsString)
  | deviceById (id : Uuid)
  | approval (id : Uuid)
  | approvalByPhone (phone : JsString)
  deriving DecidableEq, Repr

@[reducible] def Row : Key → Type
  | .user _ => User
  | .wallet _ => Wallet
  | .transaction _ => Transaction
  | .device _ _ => TrustDevice
  | .deviceById _ => Uuid × JsString
  | .approval _ => BusinessApproval
  | .userByPhone _ | .walletByUser _ | .transactionByTrxId _
  | .transactionByKey _ | .approvalByPhone _ => Uuid

/-- What a `SELECT`, or the `WHERE` clause of an `UPDATE`, is about. -/
inductive Query where
  | user (id : Uuid)
  | userByPhone (phone : JsString)
  | wallet (id : Uuid)
  | walletByUser (userId : Uuid)
  | walletStateForTransaction (id : Uuid)
  | walletsToLock (ids : List Uuid)
  | lockedWallet (id : Uuid)
  | device (userId : Uuid) (deviceId : JsString)
  | devices (userId : Uuid)
  | deviceById (id : Uuid)
  | approval (id : Uuid)
  | approvalByPhone (phone : JsString)
  deriving DecidableEq, Repr

abbrev Data := Tables Key Row LedgerEntry

abbrev Database := Store Key Row LedgerEntry Pid

abbrev Statement := Sql Key Row LedgerEntry Query

namespace Data

def accountActive (t : Data) (id : Uuid) : Bool :=
  match t.row (.user id) with
  | some user => user.status = .active
  | none => false

def ownerActive (t : Data) (wallet : Wallet) : Bool :=
  match wallet.userId with
  | some userId => t.accountActive userId
  | none => false

def devicesOf (t : Data) (userId : Uuid) : List JsString :=
  t.rows.keys.filterMap fun
    | .device owner deviceId => if owner = userId then some deviceId else none
    | _ => none

end Data

end Kori
