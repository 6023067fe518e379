import Kori.Conduct.Steps
import Kori.Contract.Accounts

/-!
# Requests that keep to certain rows

Transfers, the freezing and activation of wallets, and business approvals: which
rows they write does not depend on what they have been answered.
-/

namespace Kori

open Foundation Code

variable {env : Env} {past past' : History} {α β : Type} {P : Op → Prop}

/-! ## Code on certain rows only -/

instance (keys : Key → Prop) : Harmless (Op.OnRows keys) where
  free := by
    intro op h
    cases op with
    | sql statement => cases statement <;> trivial
    | redis command => cases command <;> trivial
    | _ => trivial

class WritesKeys (keys : Key → Prop) (P : Op → Prop) : Prop extends Harmless P where
  start : P (.sql .start)
  commit : P (.sql .commit)
  rollback : P (.sql .rollback)
  update : ∀ {k : Key} {change}, keys k → P (.sql (.update k change))
  insert : ∀ {k : Key} {v : Row k}, keys k → P (.sql (.insert k v))

instance (keys : Key → Prop) : WritesKeys keys (Op.OnRows keys) where
  start := trivial
  commit := trivial
  rollback := trivial
  update := id
  insert := id

theorem transaction_only (keys : Key → Prop) [WritesKeys keys P] {body : Action α}
    (h : body.Only P) : (transaction body).Only P := by
  refine (sql_only (WritesKeys.start keys)).bind fun _ =>
    Only.bind (h.tryCatch fun e => ?_) fun a => ?_
  · exact (ask_only (WritesKeys.rollback keys)).bind fun _ => only_throw _
  · exact (sql_only (WritesKeys.commit keys)).bind fun _ => only_pure _

theorem updateRow_only {query : Query} {k : Key} {conditions : Row k → Bool}
    {relations : Data → Bool} {data : Row k → Row k} (hselect : P (.sql (.select query)))
    (hupdate : P (.sql (.update k fun row =>
      .ok (if conditions row then some (data row) else none)))) :
    (updateRow query k conditions relations data).Only P := by
  refine (sql_only hselect).bind fun snapshot => ?_
  split
  · trivial
  · split
    · refine (sql_only hupdate).bind fun updated => ?_
      cases updated <;> trivial
    · trivial

theorem insert_only {keys : Key → Prop} [WritesKeys keys P] {k : Key} {v : Row k} (h : keys k) :
    (sql (.insert k v)).Only P :=
  sql_only (WritesKeys.insert h)

theorem createUser_only (keys : Key → Prop) [WritesKeys keys P] (user : User)
    (hid : ∀ id, keys (.user id)) (hphone : keys (.userByPhone user.phone)) :
    (createUser user).Only P := by
  apply Only.bind (ask_only (Harmless.free _ (by trivial)))
  intro id
  apply Only.bind (insert_only (hid id))
  intro _
  exact (insert_only hphone).bind fun _ => only_pure _

theorem createTrustedDevice_only (keys : Key → Prop) [WritesKeys keys P] (userId : Uuid)
    (deviceId : JsString) (sid jti : Uuid) (hrow : keys (.device userId deviceId))
    (hid : ∀ id, keys (.deviceById id)) : (createTrustedDevice userId deviceId sid jti).Only P := by
  apply Only.bind (ask_only (Harmless.free _ (by trivial)))
  intro id
  apply Only.bind (ask_only (Harmless.free _ (by trivial)))
  intro now
  exact (insert_only hrow).bind fun _ => insert_only (hid id)

/-! ## Code that is permitted at any time -/

section Permitted

variable {r : Rules Op Op.Ans Reply} (hasks : ∀ past op, P op → r.asks past op)

include hasks

theorem permitted_heeds {m : Action α} (h : m.Only P) :
    Heeds r m (fun _ => Extends P past) (fun _ => Extends P past) past :=
  heeds_only h (fun _ _ _ h => hasks _ _ h) (fun _ _ h => h) fun _ _ h => h

theorem permitted_bind {m : Action β} {next : β → Action α} (h : m.Only P)
    (hnext : ∀ b past', Extends P past past' →
      Heeds r (next b) (fun _ _ => True) (fun _ _ => True) past') :
    Heeds r (m >>= next) (fun _ _ => True) (fun _ _ => True) past :=
  Heeds.bind ((permitted_heeds hasks h).imp (fun _ _ h => h) fun _ _ _ => trivial) hnext

theorem permitted_transaction (keys : Key → Prop) [WritesKeys keys P] {body : Action α}
    (hbody : ∀ past', Extends P past past' →
      Heeds r body (fun _ _ => True) (fun _ _ => True) past') :
    Heeds r (transaction body) (fun _ _ => True) (fun _ _ => True) past := by
  refine heeds_transaction (R := fun _ _ => True) (X := fun _ _ => True)
    (hasks _ _ (WritesKeys.start keys)) (fun _ => trivial) (hbody _ ?_) ?_ ?_
  · exact (Extends.refl past).cons (WritesKeys.start keys)
  · exact fun e past' _ => ⟨hasks _ _ (WritesKeys.rollback keys), fun _ => trivial⟩
  · exact fun a past' _ => ⟨hasks _ _ (WritesKeys.commit keys), trivial, fun _ => trivial⟩

end Permitted

/-! ## Transfers -/

theorem liftMoney_only {result : Except InvalidMoney α} : (liftMoney result).Only P := by
  cases result <;> trivial

theorem assertFunds_only (balance : Int) (total : Money) : (assertFunds balance total).Only P :=
  liftMoney_only.bind fun _ => liftMoney_only.bind fun _ => only_throwIf _ _

theorem getWalletStateForTransaction_only [Harmless P] (id : Uuid) :
    (getWalletStateForTransaction id).Only P := by
  refine ((select_only _).tryCatch fun _ => only_throw _).bind fun snapshot => ?_
  split <;> trivial

theorem getOwnWalletId_only [Harmless P] (userId : Uuid) : (getOwnWalletId userId).Only P := by
  refine ((select_only _).tryCatch fun _ => only_throw _).bind fun snapshot => ?_
  split <;> trivial

theorem resolveWalletIdByPhone_only [Harmless P] (phone : JsString) :
    (resolveWalletIdByPhone phone).Only P := by
  refine Only.tryCatch ((select_only _).bind fun users => ?_) fun e => ?_
  · split
    · trivial
    · refine (select_only _).bind fun wallets => ?_
      split <;> trivial
  · split <;> trivial

theorem assertTransferEligibility_only [Harmless P] (sender receiver : Uuid)
    (senderType receiverType : WalletType) (total : Money) :
    (assertTransferEligibility sender receiver senderType receiverType total).Only P :=
  (only_throwIf _ _).bind fun _ =>
    (Only.both (Harmless.free _ (by trivial)) (getWalletStateForTransaction_only _)
      (getWalletStateForTransaction_only _)).bind fun _ =>
    (only_throwIf _ _).bind fun _ => (only_throwIf _ _).bind fun _ =>
    (only_throwIf _ _).bind fun _ => assertFunds_only _ _

theorem updateBalance_only (id : Uuid) (delta : Int) :
    (updateBalance id delta).Only (Op.OnRows Key.IsTransfer) := by
  refine (sql_only (.inl ⟨id, rfl⟩)).bind fun updated => ?_
  cases updated <;> trivial

theorem findLocked_only [Harmless P] (id : Uuid) :
    (findLockedWallet id).Only P ∧ (findLockedSystem id).Only P :=
  ⟨(select_only _).bind fun _ => only_pure _, (select_only _).bind fun _ => only_pure _⟩

theorem createTransaction_only (order : TransferOrder) :
    (createTransaction env order).Only (Op.OnRows Key.IsTransfer) := by
  refine (ask_only (by trivial)).bind fun now => (ask_only (by trivial)).bind fun random =>
    (ask_only (by trivial)).bind fun id => (ask_only (by trivial)).bind fun createdAt => ?_
  split
  · trivial
  · rename_i key _
    have hkeys : ∀ {k : Key} {v : Row k}, k.IsTransfer →
        (sql (.insert k v)).Only (Op.OnRows Key.IsTransfer) := insert_only
    refine (hkeys (.inr (.inl ⟨_, rfl⟩))).bind fun _ => ?_
    refine (hkeys (.inr (.inr (.inl ⟨_, rfl⟩)))).bind fun _ => ?_
    exact (hkeys (.inr (.inr (.inr ⟨_, rfl⟩)))).bind fun _ => only_pure _

theorem postLedger_only (order : TransferOrder) (id : Uuid) (record : Transaction) :
    (postLedger order id record).Only (Op.OnRows Key.IsTransfer) := by
  refine (updateBalance_only _ _).bind fun sender => (sql_only (by trivial)).bind fun _ =>
    (updateBalance_only _ _).bind fun receiver => (sql_only (by trivial)).bind fun _ => ?_
  refine Only.bind ?_ fun _ => only_pure _
  unfold collectFee
  split
  · trivial
  · exact (updateBalance_only _ _).bind fun _ => sql_only (by trivial)

theorem acidBlock_only (order : TransferOrder) :
    (acidBlock env order).Only (Op.OnRows Key.IsTransfer) := by
  refine Only.bind ?_ fun _ => Only.bind ?_ fun wallets => (assertFunds_only _ _).bind fun _ =>
    (createTransaction_only order).bind fun _ => postLedger_only _ _ _
  · exact (select_only _).bind fun _ => (ask_only (by trivial)).bind fun keys =>
      Only.forEach fun k _ => sql_only (by trivial)
  · refine (Only.both (by trivial) (findLocked_only _).1 (Only.both (by trivial)
      (findLocked_only _).1 (findLocked_only _).2)).bind fun found => ?_
    split
    split <;> trivial

theorem transferBetween_only (type : TransactionType) (senderType receiverType : WalletType)
    (reference : TransferBody → Option JsString) (actor : Uuid) (dto : TransferBody)
    (key : JsString) :
    (transferBetween env type senderType receiverType reference actor dto key).Only
      (Op.OnRows Key.IsTransfer) := by
  refine (phoneNumberFrom_only _).bind fun phone => Only.bind ?_ fun amounts =>
    (Only.both (by trivial) (getOwnWalletId_only _)
      (resolveWalletIdByPhone_only _)).bind fun ids =>
    (assertTransferEligibility_only _ _ _ _ _).bind fun _ =>
    (transaction_only Key.IsTransfer (acidBlock_only _)).tryCatch fun e => ?_
  · unfold liftAmounts
    split <;> trivial
  · split <;> trivial

theorem endpointHandler_only (endpoint : TransactionType) (actor : Uuid) (dto : TransferBody)
    (key : JsString) :
    (endpointHandler env endpoint actor dto key).Only (Op.OnRows Key.IsTransfer) := by
  cases endpoint with
  | addMoney => trivial
  | sendMoney | cashIn | cashOut | payment => exact transferBetween_only _ _ _ _ _ _ _

theorem tells_ends {call : Call} (h : ∀ dto, call ≠ .login dto) (past : History)
    (reply : Reply) : (rules env call).tells past reply ∧ (rules env call).ends past := by
  cases call with
  | login dto => exact absurd rfl (h dto)
  | _ => exact ⟨trivial, trivial⟩

def Op.OfInterceptor (op : Op) : Prop := op.OnCache ∨ ∃ k, op = .redis (.get k)

theorem intercept_heeds {r : Rules Op Op.Ans Reply}
    (hasks : ∀ past op, op.OfInterceptor → r.asks past op)
    (htells : ∀ past reply, r.tells past reply) {key : JsString}
    {handle : Action TransactionResultResponse}
    (h : ∀ past', Extends Op.OfInterceptor past past' →
      Heeds r handle (fun _ _ => True) (fun _ _ => True) past') :
    Heeds r (intercept key handle) (fun _ _ => True) (fun _ _ => True) past := by
  have hget : (RedisService.get (.idempotency key)).Only Op.OfInterceptor := by
    refine (ask_only (.inr ⟨_, rfl⟩)).bind fun reply => ?_
    cases reply <;> trivial
  refine heeds_bind.2 (heeds_only hget (fun _ _ _ h => hasks _ _ h) ?_ fun _ _ _ => trivial)
  intro cached past₁ h₁
  split
  · trivial
  · exact ⟨htells _ _, trivial⟩
  · have hlock : Op.OnCache (.redis (.set (.idempotency key) .processing true)) := trivial
    refine heeds_bind.2 (heeds_set (hasks _ _ (.inl hlock)) fun locked reply => ?_)
    refine heeds_bind.2 (heeds_throwIf (fun _ => trivial) fun _ => ?_)
    refine Heeds.bind (R := fun _ _ => True) (Heeds.tryCatch (E := fun _ _ => True)
      ((h _ (h₁.cons (.inl hlock))).bind fun _ _ _ => trivial) fun _ _ _ => trivial) ?_
    intro outcome past₂ _
    split
    · refine heeds_bind.2 ⟨htells _ _, ?_⟩
      exact heeds_bind.2 (heeds_set (hasks _ _ (.inl (by trivial))) fun _ _ => (by trivial))
    · refine heeds_bind.2 ⟨htells _ _, ?_⟩
      exact heeds_bind.2 (heeds_only (RedisService.del_only (P := Op.OnCache) (by trivial))
        (fun _ _ _ h => hasks _ _ (.inl h)) (fun _ _ _ => (by trivial)) fun _ _ _ => trivial)

theorem transfer_heeds (request : TransferRequest) :
    Heeds (rules env (.transfer request)) (transfer env request)
      (fun _ => (rules env (.transfer request)).ends)
      (fun _ => (rules env (.transfer request)).ends) [] := by
  refine Heeds.tryCatch (E := fun _ _ => True) ?_ fun e past' _ => ⟨trivial, trivial⟩
  split
  · trivial
  · refine heeds_bind.2 (heeds_only (roleGuards_only _ _) (fun _ _ _ h => .inr h) ?_
      fun _ _ _ => trivial)
    intro sub past₁ _
    split
    · trivial
    · trivial
    · refine intercept_heeds ?_ (fun _ _ => trivial) fun past₂ _ => ?_
      · rintro past' op (hcache | ⟨k, rfl⟩)
        · exact .inl hcache
        · exact .inr trivial
      · exact heeds_only ((validationPipe_only _).bind fun _ => endpointHandler_only _ _ _ _)
          (fun _ _ _ h => .inr h) (fun _ _ _ => trivial) fun _ _ _ => trivial

theorem heeds_endpoint {call : Call} {P : Op → Prop} (hcall : ∀ dto, call ≠ .login dto)
    {m : Action Reply} (h : m.Only P) (hasks : ∀ past op, P op → Asks env call past op) :
    Heeds (rules env call) (respond m) (fun _ => (rules env call).ends)
      (fun _ => (rules env call).ends) [] :=
  heeds_respond (heeds_only h (fun _ _ _ h => hasks _ _ h) (fun _ _ _ => tells_ends hcall _ _)
    fun _ _ _ => tells_ends hcall _ _)

/-! ## Wallets -/

theorem deactiveWallet_only {keys : Key → Prop} [WritesKeys keys P] (actor : Option Uuid)
    {id : Uuid} (h : keys (.wallet id)) :
    (WalletsController.deactiveWallet actor id).Only P :=
  (roleGuards_only _ _).bind fun _ => Only.bind ((assertManageableWallet_only _).bind fun _ =>
    (updateRow_only (Harmless.free _ (by trivial)) (WritesKeys.update h)).bind fun _ =>
      (only_throwIf _ _).bind fun _ => getWalletById_only _) fun _ => only_pure _

theorem activeWallet_only {keys : Key → Prop} [WritesKeys keys P] (actor : Option Uuid)
    {id : Uuid} (h : keys (.wallet id)) :
    (WalletsController.activeWallet actor id).Only P := by
  refine (roleGuards_only _ _).bind fun _ => Only.bind ((assertManageableWallet_only _).bind
    fun _ => (transaction_only keys ?_).bind fun _ => getWalletById_only _) fun _ => only_pure _
  exact (updateRow_only (Harmless.free _ (by trivial)) (WritesKeys.update h)).bind fun _ =>
    (only_throwIf _ _).bind fun _ => (select_only _).bind fun _ => only_throwIf _ _

/-! ## Business approvals -/

theorem approveBusiness_only [WritesKeys Key.IsApproval P] (actor : Option Uuid)
    (dto : ApproveBusinessDto) : (AuthController.approveBusiness env actor dto).Only P := by
  have hfree : ∀ op : Op, op.Free → P op := Harmless.free
  refine (roleGuards_only _ _).bind fun sub => (validationPipe_only _).bind fun _ =>
    Only.bind ?_ fun _ => only_pure _
  refine (phoneNumberFrom_only _).bind fun phone => (only_throwIf _ _).bind fun _ =>
    (select_only _).bind fun users => (only_throwIf _ _).bind fun _ =>
    (ask_only (hfree _ (by trivial))).bind fun now => (ask_only (hfree _ (by trivial))).bind
    fun later => (select_only _).bind fun snapshot => ?_
  split
  · rename_i id previous _
    have hrow : Key.IsApproval (.approval id) := .inl ⟨id, rfl⟩
    exact (only_throwIf _ _).bind fun _ =>
      (updateRow_only (hfree _ (by trivial)) (WritesKeys.update hrow)).bind fun _ =>
      (only_throwIf _ _).bind fun _ => (select_only _).bind fun _ => only_throwIf _ _
  · refine (ask_only (hfree _ (by trivial))).bind fun id =>
      (transaction_only Key.IsApproval ?_).tryCatch fun e => ?_
    · have hkeys : ∀ {k : Key} {v : Row k}, k.IsApproval → (sql (.insert k v)).Only P :=
        insert_only
      exact (hkeys (.inl ⟨id, rfl⟩)).bind fun _ => hkeys (.inr ⟨_, rfl⟩)
    · split <;> trivial

end Kori
