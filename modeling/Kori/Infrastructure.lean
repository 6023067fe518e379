import Kori.Server

/-!
# Statements, Redis access and guards

The building blocks of every handler: how the code talks to Prisma, what
`RedisService` makes of a command, and the guards in front of the controllers.
-/

namespace Kori

open Foundation

/-! ## Prisma -/

def execute (statement : Statement) : Action (Except SqlError statement.Ans) :=
  Code.ask (Op.sql statement)

def sql (statement : Statement) : Action statement.Ans := do
  match ← execute statement with
  | .ok a => pure a
  | .error e => throw (.sql e)

/-- The committed tables at the moment of the query, with the own writes of the
transaction it belongs to. -/
def select (query : Query) : Action Data := sql (.select query)

def transaction {α : Type} (body : Action α) : Action α := do
  sql .start
  let a ← tryCatch body fun e => do
    let _ ← execute .rollback
    throw e
  sql .commit
  pure a

/--
`updateMany` on at most one row, with the number of rows changed.  The row is
found in the snapshot of the statement; once its lock is taken, the conditions
on the row itself are checked again on its current version, while what the
statement knows of other tables stays what the snapshot says.
-/
def updateRow (query : Query) (k : Key) (conditions : Row k → Bool)
    (relations : Data → Bool) (data : Row k → Row k) : Action Nat := do
  let snapshot ← select query
  match snapshot.row k with
  | none => pure 0
  | some found =>
      if conditions found ∧ relations snapshot then
        let updated ← sql (.update k fun row =>
          .ok (if conditions row then some (data row) else none))
        match updated with
        | some _ => pure 1
        | none => pure 0
      else pure 0

/-! ## RedisService -/

namespace RedisService

def send (command : RedisCommand) : Action (RedisReply command.Ans) :=
  Code.ask (Op.redis command)

def get (k : RedisKey) : Action (Option (RedisValue k)) := do
  match ← send (.get k) with
  | .offline => pure none
  | .error => throw (.error "Redis read failed")
  | .ok value => pure value

def getStrict (k : RedisKey) : Action (Option (RedisValue k)) := do
  match ← send (.get k) with
  | .offline => throw (.error "Redis is not connected")
  | .error => throw (.error "Redis read failed")
  | .ok value => pure value

def set (k : RedisKey) (value : RedisValue k) (nx : Bool) : Action Bool := do
  match ← send (.set k value nx) with
  | .ok stored => pure stored
  | .offline | .error => pure false

def del (k : RedisKey) : Action Bool := do
  match ← send (.del k) with
  | .ok deleted => pure deleted
  | .offline | .error => pure false

def incrementWithTtl (phone : JsString) : Action (Option Nat) := do
  match ← send (.incrementWithTtl phone) with
  | .ok count => pure (some count)
  | .offline | .error => pure none

/-- `evalScript`, with the caller's error when the script could not run. -/
def evalScript (command : RedisCommand) (unavailable : Exn) : Action command.Ans := do
  match ← send command with
  | .ok answer => pure answer
  | .offline | .error => throw unavailable

end RedisService

/-! ## Value objects -/

/-- `PhoneNumber.from`, as the normalised number. -/
def phoneNumberFrom (env : Env) (value : JsString) : Action JsString :=
  let input := trim value
  if input = [] then throw (.invalidPhoneNumber "Phone number cannot be empty")
  else
    match env.parsePhoneNumber input with
    | none => throw (.invalidPhoneNumber "Invalid Bangladeshi phone number")
    | some number => pure number

def liftMoney {α : Type} (result : Except InvalidMoney α) : Action α :=
  match result with
  | .ok a => pure a
  | .error e => throw (.invalidMoney e)

/-! ## Guards and pipes -/

def accessTokenGuard (actor : Option Uuid) : Action Uuid :=
  match actor with
  | none => throw (.unauthorized "Unauthorized")
  | some sub => pure sub

/-- The role of the account, which has to be ACTIVE. -/
def activeAccountGuard (sub : Uuid) : Action Role := do
  let snapshot ← tryCatch (select (.user sub)) fun _ =>
    throw (.internalServerError "An error occurred while verifying account status.")
  match snapshot.row (.user sub) with
  | none => throw (.unauthorized "User account not found.")
  | some account =>
      if account.status ≠ .active then
        throw (.forbidden
          "Your account is currently restricted. Please contact support.")
      else pure account.role

def rolesGuard (required role : Role) : Action Unit :=
  Code.throwIf (role ≠ required) (.forbidden
    ("Access denied. Requires role one of these roles " ++ required.text ++ " "))

/-- All guards of an endpoint that only accounts with one role may use. -/
def roleGuards (required : Role) (actor : Option Uuid) : Action Uuid := do
  let sub ← accessTokenGuard actor
  let role ← activeAccountGuard sub
  rolesGuard required role
  pure sub

def validationPipe (env : Env) (payload : Payload) : Action Unit :=
  Code.throwIf (env.validates payload = false) (.badRequest "Bad Request")

/-- Answer with the reply of the handler or with its exception. -/
def respond (handler : Action Reply) : Action Unit := do
  let reply ← tryCatch handler fun e => pure (.failed e)
  Code.tell reply

def uuidString (u : Uuid) : String :=
  String.ofList ((uuidText u).map fun c => Char.ofNat c.toNat)

end Kori
