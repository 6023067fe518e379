import Kori.Conduct.Footprint
import Kori.Foundation.Waiting

/-!
# Wallet locks under their rules

A transfer takes the locks of its wallets one after another, in the order in which the
server visits the rows, and updates no wallet whose lock it has not taken in this way.
Every other request needs the lock of one wallet at most.
-/

namespace Kori

open Foundation Code

def Op.Takes (k : Key) : Op → Prop
  | .sql statement => statement.Takes k
  | _ => False

def Op.TakesAmong (ids : Uuid → Prop) (op : Op) : Prop := ∀ id, op.Takes (.wallet id) → ids id

abbrev Op.SparesWallets : Op → Prop := Op.TakesAmong fun _ => False

def Key.Within (ids : Uuid → Prop) (k : Key) : Prop := ∀ id, k = .wallet id → ids id

abbrev Key.NotWallet : Key → Prop := Key.Within fun _ => False

/-- Operations that keep all locks and need no further one of a wallet. -/
def Op.Inside (op : Op) : Prop := op.KeepsOpen ∧ op.SparesWallets

def KnownWallet (env : Env) (past : History) (id : Uuid) : Prop :=
  id = env.cachedSystemWalletId ∨ ∃ query, ∃ t : Data,
    ⟨.sql (.select query), .ok t⟩ ∈ past ∧ (t.row (.wallet id)).isSome

/-- The request has locked the wallets `ids` that it found, in the order it was given, and
had locked no wallet before. -/
def LockedWallets (ids : List Uuid) (before past : History) : Prop :=
  (∀ e ∈ before, e.op.SparesWallets) ∧ ∃ t arranged order,
    ⟨.sql (.select (.walletsToLock ids)), .ok t⟩ :: before <:+ past ∧
    (∀ id ∈ ids, (Tables.row t (.wallet id)).isSome → Key.wallet id ∈ arranged) ∧
    ⟨.arrange arranged, order⟩ ∈ past ∧ ∀ k ∈ order, k ∈ heldLocks (statements past)

inductive LockAsks (env : Env) (past : History) : Op → Prop
  | spares {op : Op} : op.SparesWallets → LockAsks env past op
  | only {op : Op} {id : Uuid} : op.TakesAmong (· = id) →
      (∀ e ∈ past, e.op.TakesAmong (· = id)) → LockAsks env past op
  | next {id arranged order} : ⟨.arrange arranged, order⟩ ∈ past →
      (∀ e ∈ past, e.op.TakesAmong fun id' => [Key.wallet id', .wallet id].Sublist order) →
      LockAsks env past (.sql (.lock (.wallet id)))
  | again {id ids before change} : LockedWallets ids before past → id ∈ ids →
      KnownWallet env before id → LockAsks env past (.sql (.update (.wallet id) change))

def Call.OnWallets : Call → Prop
  | .transfer _ | .deactiveWallet _ _ | .activeWallet _ _ | .suspend _ _ | .register _
  | .registerBusiness _ | .approveBusinessAccount _ _ => True
  | _ => False

def lockRules (env : Env) (call : Call) : Rules Op Op.Ans Reply where
  asks := fun past op => call.OnWallets → LockAsks env past op
  tells := fun _ _ => True
  ends := fun _ => True

variable {env : Env} {r : Rules Op Op.Ans Reply} {past past' before : History} {α β : Type}
variable {ids : Uuid → Prop}

/-! ## Kinds of operations -/

theorem Op.Free.takes_none {op : Op} {k : Key} (hfree : op.Free) : ¬op.Takes k := by
  cases op with
  | sql statement => cases statement <;> simp_all [Op.Free, Op.Takes, Sql.Takes]
  | _ => exact id

instance : Harmless (Op.TakesAmong ids) where
  free := fun _ hfree _ htakes => absurd htakes hfree.takes_none

instance : WritesKeys (Key.Within ids) (Op.TakesAmong ids) where
  start := fun _ htakes => htakes.elim
  commit := fun _ htakes => htakes.elim
  rollback := fun _ htakes => htakes.elim
  update := fun h id htakes => h id htakes
  insert := fun h id htakes => h id htakes

theorem Key.within_self (id : Uuid) : Key.Within (· = id) (.wallet id) :=
  fun _ heq => (Key.wallet.inj heq).symm

theorem Op.Free.inside {op : Op} (hfree : op.Free) : op.Inside := by
  refine ⟨⟨?_, ?_⟩, fun _ htakes => hfree.takes_none htakes⟩
  · rintro rfl
    exact hfree
  · rintro rfl
    exact hfree

instance : Harmless Op.Inside := ⟨fun _ => Op.Free.inside⟩

instance : WritesKeys Key.IsApproval Op.SparesWallets where
  start := fun _ htakes => htakes.elim
  commit := fun _ htakes => htakes.elim
  rollback := fun _ htakes => htakes.elim
  update := by
    rintro k _ (⟨_, rfl⟩ | ⟨_, rfl⟩) id htakes <;> simp [Op.Takes, Sql.Takes] at htakes
  insert := by
    rintro k _ (⟨_, rfl⟩ | ⟨_, rfl⟩) id htakes <;> simp [Op.Takes, Sql.Takes] at htakes

theorem inside_insert {k : Key} {v : Row k} (h : k.NotWallet) :
    (sql (.insert k v)).Only Op.Inside :=
  sql_only ⟨⟨by simp, by simp⟩, fun id htakes => h id htakes⟩

theorem inside_append (l : LedgerEntry) : (sql (.append l)).Only Op.Inside :=
  sql_only ⟨⟨by simp, by simp⟩, fun _ htakes => htakes⟩

theorem ofInterceptor_spares {op : Op} (h : op.OfInterceptor) : op.SparesWallets := by
  obtain hcache | ⟨k, rfl⟩ := h
  · cases op with
    | sql statement => exact hcache.elim
    | _ => exact fun _ htakes => htakes.elim
  · exact fun _ htakes => htakes.elim

/-! ## Histories -/

theorem heldLocks_extends {k : Key} (h : k ∈ heldLocks (statements past))
    (hextends : Extends Op.KeepsOpen past past') : k ∈ heldLocks (statements past') := by
  obtain ⟨recent, rfl, hrecent⟩ := hextends
  induction recent with
  | nil => exact h
  | cons e recent ih =>
      have hrest := ih fun e' he' => hrecent e' (List.mem_cons_of_mem _ he')
      have hopen := hrecent e List.mem_cons_self
      obtain ⟨op, a⟩ := e
      cases op with
      | sql statement =>
          exact Executed.locks_keeps (fun heq => hopen.1 (congrArg Op.sql heq))
            (fun heq => hopen.2 (congrArg Op.sql heq)) hrest
      | _ => exact hrest

theorem LockedWallets.extends {wallets : List Uuid} (h : LockedWallets wallets before past)
    (hextends : Extends Op.KeepsOpen past past') : LockedWallets wallets before past' := by
  obtain ⟨hnever, t, arranged, order, hfound, hrows, harranged, hheld⟩ := h
  obtain ⟨recent, rfl, hrecent⟩ := hextends
  refine ⟨hnever, t, arranged, order, hfound.trans (List.suffix_append _ _), hrows,
    List.mem_append_right _ harranged, ?_⟩
  exact fun k hk => heldLocks_extends (hheld k hk) ⟨recent, rfl, hrecent⟩

theorem keepsOpen_of_inside (h : Extends Op.Inside past past') :
    Extends Op.KeepsOpen past past' :=
  h.mono fun _ h => h.1

theorem takesAmong_extends (h : ∀ e ∈ past, e.op.TakesAmong ids)
    (hextends : Extends (Op.TakesAmong ids) past past') :
    ∀ e ∈ past', e.op.TakesAmong ids := by
  obtain ⟨recent, rfl, hrecent⟩ := hextends
  intro e he
  exact (List.mem_append.1 he).elim (hrecent e) (h e)

theorem KnownWallet.mono {id : Uuid} (h : KnownWallet env past id) (hsub : past ⊆ past') :
    KnownWallet env past' id :=
  h.imp_right fun ⟨query, t, hmem, hrow⟩ => ⟨query, t, hsub hmem, hrow⟩

/-! ## Transfers -/

/-- The three wallets of the transfer are known. -/
structure KnownParties (env : Env) (order : TransferOrder) (past : History) : Prop where
  sender : KnownWallet env past order.senderWalletId
  receiver : KnownWallet env past order.receiverWalletId
  system : order.systemWalletId = env.cachedSystemWalletId

theorem KnownParties.mono {order : TransferOrder} (h : KnownParties env order past)
    (hsub : past ⊆ past') : KnownParties env order past' :=
  ⟨h.sender.mono hsub, h.receiver.mono hsub, h.system⟩

def TransferOrder.wallets (order : TransferOrder) : List Uuid :=
  [order.senderWalletId, order.receiverWalletId, order.systemWalletId].insertionSort
    fun a b => a.toNat ≤ b.toNat

theorem TransferOrder.mem_wallets {order : TransferOrder} {id : Uuid} : id ∈ order.wallets ↔
    id ∈ [order.senderWalletId, order.receiverWalletId, order.systemWalletId] :=
  (List.perm_insertionSort _ _).mem_iff

theorem createTransaction_inside (order : TransferOrder) :
    (createTransaction env order).Only Op.Inside := by
  refine (ask_only (Harmless.free _ (by trivial))).bind fun now => ?_
  refine (ask_only (Harmless.free _ (by trivial))).bind fun random => ?_
  refine (ask_only (Harmless.free _ (by trivial))).bind fun id => ?_
  refine (ask_only (Harmless.free _ (by trivial))).bind fun createdAt => ?_
  split
  · trivial
  · refine (inside_insert (by simp [Key.Within])).bind fun _ => ?_
    refine (inside_insert (by simp [Key.Within])).bind fun _ => ?_
    exact (inside_insert (by simp [Key.Within])).bind fun _ => only_pure _

def spareRules : Rules Op Op.Ans Reply where
  asks := fun _ op => op.SparesWallets
  tells := fun _ _ => True
  ends := fun _ => True

theorem getWalletState_heeds (id : Uuid) :
    Heeds spareRules (getWalletStateForTransaction id)
      (fun _ past' => KnownWallet env past' id) (fun _ _ => True) past := by
  refine Heeds.bind (R := fun t past' =>
    ⟨.sql (.select (.walletStateForTransaction id)), .ok t⟩ ∈ past') ?_ fun t past' h => ?_
  · apply Heeds.tryCatch (E := fun _ _ => True)
    · exact heeds_select (Harmless.free (P := Op.SparesWallets) _ (by trivial))
        (fun _ => List.mem_cons_self) fun _ => trivial
    · exact fun _ _ _ => trivial
  · split
    · trivial
    · rename_i wallet hrow
      obtain ⟨hrow, -⟩ := Option.filter_eq_some_iff.1 hrow
      exact .inr ⟨_, t, h, by rw [hrow]; rfl⟩

theorem claimApproval_lockless {phone : JsString} :
    (claimApproval phone).Only Op.SparesWallets := by
  refine (ask_only (Harmless.free _ (by trivial))).bind fun now => ?_
  refine (select_only _).bind fun snapshot => ?_
  split
  · trivial
  · refine (only_throwIf _ _).bind fun _ => ?_
    refine (ask_only (Harmless.free _ (by trivial))).bind fun claimedAt => ?_
    refine (ask_only (Harmless.free _ (by trivial))).bind fun activatedAt => ?_
    refine (updateRow_only (Harmless.free _ (by trivial)) ?_).bind fun claimed =>
      (only_throwIf _ _).bind fun _ => only_pure _
    exact fun _ htakes => by simp [Op.Takes, Sql.Takes] at htakes

section Heeding

variable (hasks : ∀ past op, LockAsks env past op → r.asks past op)

include hasks

theorem lockless_bind {m : Action β} {next : β → Action α} (h : m.Only Op.SparesWallets)
    (hnext : ∀ b past', Extends Op.SparesWallets past past' →
      Heeds r (next b) (fun _ _ => True) (fun _ _ => True) past') :
    Heeds r (m >>= next) (fun _ _ => True) (fun _ _ => True) past :=
  permitted_bind (fun _ _ h => hasks _ _ (.spares h)) h hnext

theorem lockless_transaction {body : Action α}
    (hbody : ∀ past', Extends Op.SparesWallets past past' →
      Heeds r body (fun _ _ => True) (fun _ _ => True) past') :
    Heeds r (transaction body) (fun _ _ => True) (fun _ _ => True) past :=
  permitted_transaction (fun _ _ h => hasks _ _ (.spares h)) Key.NotWallet hbody

theorem inside_bind {m : Action β} {next : β → Action α} {Q : α → History → Prop}
    (h : m.Only Op.Inside)
    (hnext : ∀ b past', Extends Op.Inside past past' →
      Heeds r (next b) Q (fun _ _ => True) past') :
    Heeds r (m >>= next) Q (fun _ _ => True) past :=
  Heeds.bind ((permitted_heeds (fun _ _ h => hasks _ _ (.spares h.2)) h).imp (fun _ _ h => h)
    fun _ _ _ => trivial) hnext

theorem lockKeys_heeds {arranged order : List Key} (harranged : ⟨.arrange arranged, order⟩ ∈ past)
    (hnever : ∀ e ∈ past, e.op.SparesWallets) :
    Heeds r (Code.forEach (fun k => sql (.lock k)) order)
      (fun _ past' => Extends Op.KeepsOpen past past' ∧
        ∀ k ∈ order, k ∈ heldLocks (statements past')) (fun _ _ => True) past := by
  refine (heeds_forEach (I := fun rest past' => Extends Op.KeepsOpen past past' ∧
      ∃ done, order = done ++ rest ∧ (∀ k ∈ done, k ∈ heldLocks (statements past')) ∧
        ∀ e ∈ past', e.op.TakesAmong fun id => .wallet id ∈ done)
    ⟨.refl _, [], rfl, by simp, fun e he id htakes => (hnever e he id htakes).elim⟩ ?_).imp ?_
    fun _ _ h => h
  · rintro k rest past' ⟨hextends, done, rfl, hheld, htaken⟩
    apply heeds_sql
    · cases k with
      | wallet id =>
          refine hasks _ _ (.next (hextends.mem harranged) fun e he id' htakes => ?_)
          have hdone : [Key.wallet id'].Sublist done :=
            List.singleton_sublist.2 (htaken e he id' htakes)
          exact hdone.append (List.singleton_sublist.2 (List.mem_cons_self ..))
      | _ => exact hasks _ _ (.spares fun id htakes => by simp [Op.Takes, Sql.Takes] at htakes)
    · intro _
      refine ⟨hextends.cons ⟨by simp, by simp⟩, done ++ [k], by simp, ?_, ?_⟩
      · intro k' hk'
        obtain hold | hnew := List.mem_append.1 hk'
        · exact List.mem_cons_of_mem _ (hheld k' hold)
        · obtain rfl := List.mem_singleton.1 hnew
          exact List.mem_cons_self ..
      · rintro e he id htakes
        obtain rfl | hold := List.mem_cons.1 he
        · obtain rfl : k = .wallet id := htakes
          simp
        · exact List.mem_append_left _ (htaken e hold id htakes)
    · exact fun _ => trivial
  · rintro _ past' ⟨hextends, done, hdone, hheld, -⟩
    rw [List.append_nil] at hdone
    exact ⟨hextends, hdone ▸ hheld⟩

theorem lockWallets_heeds (wallets : List Uuid) (hnever : ∀ e ∈ past, e.op.SparesWallets) :
    Heeds r (lockWallets wallets) (fun _ past' => LockedWallets wallets past past')
      (fun _ _ => True) past := by
  have hselect : Op.SparesWallets (.sql (.select (.walletsToLock wallets))) :=
    Harmless.free _ (by trivial)
  refine heeds_bind.2 (heeds_select (hasks _ _ (.spares hselect)) (fun t => ?_) fun _ => trivial)
  refine heeds_ask_bind.2 ⟨hasks _ _ (.spares (Harmless.free _ (by trivial))), fun order => ?_⟩
  refine (lockKeys_heeds hasks List.mem_cons_self ?_).imp ?_ fun _ _ h => h
  · intro e he
    obtain rfl | he := List.mem_cons.1 he
    · exact Harmless.free _ (by trivial)
    · obtain rfl | he := List.mem_cons.1 he
      · exact hselect
      · exact hnever e he
  · rintro _ past' ⟨hextends, hheld⟩
    refine ⟨hnever, t, _, order, ?_, ?_, hextends.mem List.mem_cons_self, hheld⟩
    · obtain ⟨recent, rfl, -⟩ := hextends
      exact (List.suffix_cons _ _).trans (List.suffix_append _ _)
    · intro id hid hrow
      exact List.mem_map_of_mem (List.mem_filter.2 ⟨List.mem_dedup.2 hid, hrow⟩)

theorem updateBalance_heeds {wallets : List Uuid} {id : Uuid} (delta : Int)
    (h : LockedWallets wallets before past) (hid : id ∈ wallets)
    (hknown : KnownWallet env before id) :
    Heeds r (updateBalance id delta) (fun _ past' => LockedWallets wallets before past')
      (fun _ _ => True) past := by
  refine heeds_bind.2 (heeds_sql (hasks _ _ (.again h hid hknown)) (fun updated => ?_)
    fun _ => trivial)
  have hkept := h.extends ((Extends.refl past).cons
    (e := ⟨.sql (.update (.wallet id) (addBalance delta)), .ok updated⟩) ⟨by simp, by simp⟩)
  cases updated with
  | none => trivial
  | some wallet => exact hkept

theorem postLedger_heeds {order : TransferOrder} {id : Uuid} {record : Transaction}
    (h : LockedWallets order.wallets before past) (hknown : KnownParties env order before) :
    Heeds r (postLedger order id record) (fun _ _ => True) (fun _ _ => True) past := by
  have hsender : order.senderWalletId ∈ order.wallets := TransferOrder.mem_wallets.2 (by simp)
  have hreceiver : order.receiverWalletId ∈ order.wallets :=
    TransferOrder.mem_wallets.2 (by simp)
  have hsystem : order.systemWalletId ∈ order.wallets := TransferOrder.mem_wallets.2 (by simp)
  refine (updateBalance_heeds hasks _ h hsender hknown.sender).bind fun sender past₁ h₁ => ?_
  refine inside_bind hasks (inside_append _) fun _ past₂ h₂ => ?_
  refine (updateBalance_heeds hasks _ (h₁.extends (keepsOpen_of_inside h₂)) hreceiver
    hknown.receiver).bind fun receiver past₃ h₃ => ?_
  refine inside_bind hasks (inside_append _) fun _ past₄ h₄ => ?_
  refine Heeds.bind (R := fun _ _ => True) ?_ fun _ _ _ => trivial
  unfold collectFee
  split
  · trivial
  · refine (updateBalance_heeds hasks _ (h₃.extends (keepsOpen_of_inside h₄)) hsystem
      (.inl hknown.system)).bind fun system past₅ _ => ?_
    exact (permitted_heeds (fun _ _ h => hasks _ _ (.spares h.2)) (inside_append _)).imp
      (fun _ _ _ => trivial) fun _ _ _ => trivial

theorem acidBlock_heeds {order : TransferOrder} (hnever : ∀ e ∈ past, e.op.SparesWallets)
    (hknown : KnownParties env order past) :
    Heeds r (acidBlock env order) (fun _ _ => True) (fun _ _ => True) past := by
  refine (lockWallets_heeds hasks order.wallets hnever).bind fun _ past₁ h₁ => ?_
  have hfetch : (fetchLocked order).Only Op.Inside := by
    have hturn : Op.Inside .turn := Harmless.free _ (by trivial)
    refine (Only.both hturn (findLocked_only _).1 (Only.both hturn (findLocked_only _).1
      (findLocked_only _).2)).bind fun found => ?_
    split
    split <;> trivial
  refine inside_bind hasks hfetch fun wallets past₂ h₂ => ?_
  refine inside_bind hasks (assertFunds_only _ _) fun _ past₃ h₃ => ?_
  refine inside_bind hasks (createTransaction_inside order) fun record past₄ h₄ => ?_
  exact postLedger_heeds hasks (h₁.extends (keepsOpen_of_inside ((h₂.trans h₃).trans h₄))) hknown

theorem executeACIDTransfer_heeds {order : TransferOrder}
    (hnever : ∀ e ∈ past, e.op.SparesWallets) (hknown : KnownParties env order past) :
    Heeds r (executeACIDTransfer env order) (fun _ _ => True) (fun _ _ => True) past := by
  refine Heeds.tryCatch (E := fun _ _ => True)
    (lockless_transaction hasks fun past' h' => ?_) fun e _ _ => ?_
  · exact acidBlock_heeds hasks (takesAmong_extends hnever h') (hknown.mono h'.subset)
  · split <;> trivial

theorem assertTransferEligibility_heeds (sender receiver : Uuid)
    (senderType receiverType : WalletType) (total : Money)
    (htells : ∀ past reply, r.tells past reply) :
    Heeds r (assertTransferEligibility sender receiver senderType receiverType total)
      (fun _ past' => KnownWallet env past' sender ∧ KnownWallet env past' receiver)
      (fun _ _ => True) past := by
  have hspare : ∀ past op, op.SparesWallets → r.asks past op :=
    fun _ _ h => hasks _ _ (.spares h)
  have hrest : ∀ {m : Action Unit} {past₁}, m.Only Op.SparesWallets →
      KnownWallet env past₁ sender ∧ KnownWallet env past₁ receiver →
      Heeds r m (fun _ past' => KnownWallet env past' sender ∧ KnownWallet env past' receiver)
        (fun _ _ => True) past₁ := fun h hknown =>
    (permitted_heeds hspare h).imp
      (fun _ _ hext => hknown.imp (·.mono hext.subset) (·.mono hext.subset)) fun _ _ _ => trivial
  refine heeds_bind.2 (heeds_throwIf (fun _ => trivial) fun _ => ?_)
  have hstate : ∀ id, Heeds spareRules (getWalletStateForTransaction id)
      (fun _ past' => KnownWallet env past' id) (fun _ _ => True) past :=
    fun id => getWalletState_heeds id
  have hfound : ∀ {id past'}, Among (fun past' => KnownWallet env past' id) past' →
      KnownWallet env past' id := fun ⟨_, hknown, hsub⟩ => hknown.mono hsub.subset
  refine Heeds.bind (heeds_both (fun _ past' _ h => hspare past' _ h) (fun _ _ _ _ => htells _ _)
    (fun _ => hspare _ _ (Harmless.free _ (by trivial))) (hstate sender) (hstate receiver)
    (.refl _) (.refl _)) fun states past₁ ⟨hsender, hreceiver⟩ => ?_
  exact hrest ((only_throwIf _ _).bind fun _ => (only_throwIf _ _).bind fun _ =>
    (only_throwIf _ _).bind fun _ => assertFunds_only _ _) ⟨hfound hsender, hfound hreceiver⟩

theorem transferBetween_heeds (type : TransactionType) (senderType receiverType : WalletType)
    (reference : TransferBody → Option JsString) (actor : Uuid) (dto : TransferBody)
    (key : JsString) (htells : ∀ past reply, r.tells past reply)
    (hnever : ∀ e ∈ past, e.op.SparesWallets) :
    Heeds r (transferBetween env type senderType receiverType reference actor dto key)
      (fun _ _ => True) (fun _ _ => True) past := by
  have hspare : ∀ past op, op.SparesWallets → r.asks past op :=
    fun _ _ h => hasks _ _ (.spares h)
  have hturn : Op.SparesWallets .turn := Harmless.free _ (by trivial)
  refine lockless_bind hasks (phoneNumberFrom_only _) fun phone past₁ h₁ => ?_
  have hamounts : (liftAmounts (calculateTransferMath dto.amountMinorUnits type)).Only
      Op.SparesWallets := by
    unfold liftAmounts
    split <;> trivial
  refine lockless_bind hasks hamounts fun amounts past₂ h₂ => ?_
  refine lockless_bind hasks (Only.both hturn (getOwnWalletId_only _)
    (resolveWalletIdByPhone_only _)) fun ids past₃ h₃ => ?_
  refine Heeds.bind (((assertTransferEligibility_heeds hasks _ _ _ _ _ htells).and
    (permitted_heeds hspare (assertTransferEligibility_only _ _ _ _ _))).imp (fun _ _ h => h)
    fun _ _ _ => trivial) fun _ past₄ h₄ => ?_
  obtain ⟨⟨hsender, hreceiver⟩, h₄⟩ := h₄
  exact executeACIDTransfer_heeds hasks
    (takesAmong_extends hnever (((h₁.trans h₂).trans h₃).trans h₄)) ⟨hsender, hreceiver, rfl⟩

theorem endpointHandler_heeds (endpoint : TransactionType) (actor : Uuid) (dto : TransferBody)
    (key : JsString) (htells : ∀ past reply, r.tells past reply)
    (hnever : ∀ e ∈ past, e.op.SparesWallets) :
    Heeds r (endpointHandler env endpoint actor dto key) (fun _ _ => True) (fun _ _ => True)
      past := by
  cases endpoint with
  | addMoney => trivial
  | sendMoney | cashIn | cashOut | payment =>
      exact transferBetween_heeds hasks _ _ _ _ _ _ _ htells hnever

theorem transfer_heeds_locks (request : TransferRequest)
    (htells : ∀ past reply, r.tells past reply) :
    Heeds r (transfer env request) (fun _ _ => True) (fun _ _ => True) [] := by
  have hspare : ∀ past op, op.SparesWallets → r.asks past op :=
    fun _ _ h => hasks _ _ (.spares h)
  refine Heeds.tryCatch (E := fun _ _ => True) ?_ fun e past' _ => ⟨htells _ _, trivial⟩
  split
  · trivial
  · refine lockless_bind hasks (roleGuards_only _ _) fun sub past₁ h₁ => ?_
    split
    · trivial
    · trivial
    · refine intercept_heeds (fun _ _ h => hspare _ _ (ofInterceptor_spares h)) htells
        fun past₂ h₂ => ?_
      refine lockless_bind hasks (validationPipe_only _) fun _ past₃ h₃ => ?_
      apply endpointHandler_heeds hasks _ _ _ _ htells
      exact takesAmong_extends (List.forall_mem_nil _)
        ((h₁.trans (h₂.mono fun _ => ofInterceptor_spares)).trans h₃)

/-! ## Other requests -/

theorem one_heeds (id : Uuid) {m : Action α} (h : m.Only (Op.TakesAmong (· = id)))
    (hpast : ∀ e ∈ past, e.op.TakesAmong (· = id)) :
    Heeds r m (fun _ past' => ∀ e ∈ past', e.op.TakesAmong (· = id)) (fun _ _ => True) past :=
  heeds_only h
    (fun _ _ hext hop => hasks _ _ (.only hop (takesAmong_extends hpast hext)))
    (fun _ _ hext => takesAmong_extends hpast hext) fun _ _ _ => trivial

theorem createWallet_heeds_locks {userId : Uuid} {type : WalletType}
    (hnever : ∀ e ∈ past, e.op.SparesWallets) :
    Heeds r (createWallet userId type)
      (fun _ past' => ∃ id, ∀ e ∈ past', e.op.TakesAmong (· = id)) (fun _ _ => True) past := by
  have hid : Op.SparesWallets .generatedId := Harmless.free _ (by trivial)
  refine heeds_ask_bind.2 ⟨hasks _ _ (.spares hid), fun id => ?_⟩
  have honly : (do
      sql (.insert (.wallet id)
        { userId := some userId, type := type, isActive := true, balance := 0,
          currency := .bdt })
      sql (.insert (.walletByUser userId) id) : Action Unit).Only (Op.TakesAmong (· = id)) := by
    have hinsert : ∀ {k : Key} {v : Row k}, k.Within (· = id) →
        (sql (.insert k v)).Only (Op.TakesAmong (· = id)) := insert_only
    apply Only.bind (hinsert (Key.within_self id))
    intro _
    exact hinsert (by simp [Key.Within])
  refine (one_heeds hasks id honly fun e he id' htakes => ?_).imp (fun _ _ h => ⟨id, h⟩)
    fun _ _ _ => trivial
  obtain rfl | he := List.mem_cons.1 he
  · exact (hid id' htakes).elim
  · exact (hnever e he id' htakes).elim

theorem provisionPersonal_heeds_locks {phone hashPin deviceId : JsString}
    (hnever : ∀ e ∈ past, e.op.SparesWallets) :
    Heeds r (provisionPersonal phone hashPin deviceId) (fun _ _ => True) (fun _ _ => True)
      past := by
  refine lockless_bind hasks (createUser_only Key.NotWallet _ (by simp [Key.Within])
    (by simp [Key.Within])) fun userId past₁ h₁ => ?_
  refine lockless_bind hasks (ask_only (Harmless.free _ (by trivial))) fun sid past₂ h₂ => ?_
  refine lockless_bind hasks (ask_only (Harmless.free _ (by trivial))) fun jti past₃ h₃ => ?_
  refine (createWallet_heeds_locks hasks (takesAmong_extends hnever
    ((h₁.trans h₂).trans h₃))).bind fun _ past₄ h₄ => ?_
  exact lockless_bind hasks (createTrustedDevice_only Key.NotWallet _ _ _ _
    (by simp [Key.Within]) (by simp [Key.Within])) fun _ _ _ => trivial

theorem provisionBusiness_heeds_locks {phone hashedPin deviceId : JsString}
    (hnever : ∀ e ∈ past, e.op.SparesWallets) :
    Heeds r (provisionBusiness phone hashedPin deviceId) (fun _ _ => True) (fun _ _ => True)
      past := by
  refine lockless_bind hasks claimApproval_lockless fun role past₁ h₁ => ?_
  refine lockless_bind hasks (createUser_only Key.NotWallet _ (by simp [Key.Within])
    (by simp [Key.Within])) fun userId past₂ h₂ => ?_
  refine Heeds.bind (R := fun _ _ => True) ?_ fun _ past₃ _ => ?_
  · refine lockless_bind hasks (only_throwIf _ _) fun _ past₃ h₃ => ?_
    exact (createWallet_heeds_locks hasks (takesAmong_extends hnever
      ((h₁.trans h₂).trans h₃))).imp (fun _ _ _ => trivial) fun _ _ _ => trivial
  · refine lockless_bind hasks (ask_only (Harmless.free _ (by trivial))) fun sid _ _ => ?_
    refine lockless_bind hasks (ask_only (Harmless.free _ (by trivial))) fun jti _ _ => ?_
    exact lockless_bind hasks (createTrustedDevice_only Key.NotWallet _ _ _ _
      (by simp [Key.Within]) (by simp [Key.Within])) fun _ _ _ => trivial

theorem register_heeds_locks {dto : RegisterDto} :
    Heeds r (AuthController.register env dto) (fun _ _ => True) (fun _ _ => True) [] := by
  refine lockless_bind hasks (validationPipe_only _) fun _ past₁ h₁ => ?_
  refine Heeds.bind (R := fun _ _ => True) ?_ fun _ _ _ => trivial
  refine lockless_bind hasks (phoneNumberFrom_only _) fun phone past₂ h₂ => ?_
  refine lockless_bind hasks (RedisService.evalScript_only (fun _ htakes => htakes) _)
    fun _ past₃ h₃ => ?_
  refine lockless_bind hasks (only_throwIf _ _) fun _ past₄ h₄ => ?_
  refine lockless_bind hasks (select_only _) fun existing past₅ h₅ => ?_
  refine lockless_bind hasks (only_throwIf _ _) fun _ past₆ h₆ => ?_
  refine lockless_bind hasks (ask_only (Harmless.free _ (by trivial)))
    fun hashPin past₇ h₇ => ?_
  refine Heeds.tryCatch (E := fun _ _ => True) (lockless_transaction hasks
    fun past₈ h₈ => ?_) fun _ _ _ => trivial
  have hall := ((((((h₁.trans h₂).trans h₃).trans h₄).trans h₅).trans h₆).trans h₇).trans h₈
  exact provisionPersonal_heeds_locks hasks
    (takesAmong_extends (List.forall_mem_nil _) hall)

theorem registerBusiness_heeds_locks {dto : RegisterDto} :
    Heeds r (AuthController.registerBusiness env dto) (fun _ _ => True) (fun _ _ => True)
      [] := by
  refine lockless_bind hasks (validationPipe_only _) fun _ past₁ h₁ => ?_
  refine Heeds.bind (R := fun _ _ => True) ?_ fun _ _ _ => trivial
  refine lockless_bind hasks (phoneNumberFrom_only _) fun phone past₂ h₂ => ?_
  refine lockless_bind hasks (RedisService.evalScript_only (fun _ htakes => htakes) _)
    fun _ past₃ h₃ => ?_
  refine lockless_bind hasks (only_throwIf _ _) fun _ past₄ h₄ => ?_
  refine lockless_bind hasks (ask_only (Harmless.free _ (by trivial)))
    fun hashedPin past₅ h₅ => ?_
  refine Heeds.tryCatch (E := fun _ _ => True) (lockless_transaction hasks
    fun past₆ h₆ => ?_) fun e _ _ => ?_
  · have hall := ((((h₁.trans h₂).trans h₃).trans h₄).trans h₅).trans h₆
    exact provisionBusiness_heeds_locks hasks
      (takesAmong_extends (List.forall_mem_nil _) hall)
  · split <;> trivial

theorem restrictAccount_heeds_locks {targetUserId : Uuid}
    (hnever : ∀ e ∈ past, e.op.SparesWallets) :
    Heeds r (restrictAccount targetUserId) (fun _ _ => True) (fun _ _ => True) past := by
  refine lockless_bind hasks (findSuspendable_only (Harmless.free _ (by trivial))
    (Harmless.free _ (by trivial))) fun walletId past₁ h₁ => ?_
  have hupdate : ∀ {k : Key} {change}, (∀ id, k = .wallet id → id = walletId) →
      Op.TakesAmong (· = walletId) (.sql (.update k change)) := id
  have hclear : (clearSessions targetUserId).Only (Op.TakesAmong (· = walletId)) := by
    refine (select_only _).bind fun snapshot => ?_
    refine (ask_only (Harmless.free _ (by trivial))).bind fun keys => ?_
    refine Only.forEach fun k _ => ?_
    split
    · exact (sql_only (hupdate (by simp))).bind fun _ => only_pure _
    · trivial
  refine (one_heeds hasks walletId ?_ fun e he id htakes => ?_).imp (fun _ _ _ => trivial)
    fun _ _ _ => trivial
  · refine (updateRow_only (Harmless.free _ (by trivial)) (hupdate (by simp))).bind fun _ => ?_
    refine (only_throwIf _ _).bind fun _ => ?_
    refine (updateRow_only (Harmless.free _ (by trivial)) (hupdate (by simp))).bind fun _ => ?_
    exact (only_throwIf _ _).bind fun _ => hclear
  · exact (takesAmong_extends hnever h₁ e he id htakes).elim

theorem suspend_heeds_locks {actor : Option Uuid} {targetUserId : Uuid} :
    Heeds r (AccountsController.suspend actor targetUserId) (fun _ _ => True)
      (fun _ _ => True) [] := by
  refine lockless_bind hasks (roleGuards_only _ _) fun _ past₁ h₁ => ?_
  refine Heeds.bind (R := fun _ _ => True) (lockless_transaction hasks
    fun past₂ h₂ => ?_) fun _ _ _ => trivial
  exact restrictAccount_heeds_locks hasks
    (takesAmong_extends (List.forall_mem_nil _) (h₁.trans h₂))

end Heeding

theorem Asks.sparesWallets {call : Call} {op : Op} (h : Asks env call past op)
    (hcall : ¬call.OnWallets) : op.SparesWallets := by
  have hupdate : ∀ {k : Key} {change}, k.NotWallet → Op.SparesWallets (.sql (.update k change)) :=
    WritesKeys.update
  have hinsert : ∀ {k : Key} {v : Row k}, k.NotWallet → Op.SparesWallets (.sql (.insert k v)) :=
    WritesKeys.insert
  cases call with
  | reactivate actor targetUserId =>
      cases h with
      | free hfree => exact Harmless.free _ hfree
      | update _ => exact hupdate (by simp [Key.Within])
  | refresh token | logout token =>
      obtain ⟨payload, -, h⟩ := h
      cases h with
      | free hfree => exact Harmless.free _ hfree
      | update _ => exact hupdate (by simp [Key.Within])
  | revokeTrustedDevice actor deviceRecordId =>
      obtain ⟨userId, -, h⟩ := h
      cases h with
      | free hfree => exact Harmless.free _ hfree
      | update _ _ => exact hupdate (by simp [Key.Within])
  | sendOtp dto =>
      cases h with
      | free hfree _ => exact Harmless.free _ hfree
      | _ => exact fun _ htakes => htakes
  | verifyOtp dto =>
      cases h with
      | free hfree => exact Harmless.free _ hfree
      | upsert _ hupsert =>
          cases hupsert with
          | update _ => exact hupdate (by simp [Key.Within])
          | insert _ | index _ => exact hinsert (by simp [Key.Within])
          | lock => exact fun _ htakes => by simp [Op.Takes, Sql.Takes] at htakes
          | _ => exact fun _ htakes => htakes
      | _ => exact fun _ htakes => htakes
  | login dto =>
      obtain ⟨-, phone, -, h⟩ := h
      cases h with
      | establish _ _ hestablish =>
          cases hestablish with
          | update _ => exact hupdate (by simp [Key.Within])
          | _ => exact fun _ htakes => htakes
      | _ => exact fun _ htakes => htakes
  | _ => exact absurd trivial hcall

theorem locks_obeyed : Obeyed (kori env) (lockRules env) := by
  have hrespond : ∀ {call : Call} {m : Action Reply},
      Heeds (lockRules env call) m (fun _ _ => True) (fun _ _ => True) [] →
      Heeds (lockRules env call) (respond m) (fun _ _ => True) (fun _ _ => True) [] :=
    fun h => heeds_respond (h.imp (fun _ _ _ => ⟨trivial, trivial⟩)
      fun _ _ _ => ⟨trivial, trivial⟩)
  have hone : ∀ {call : Call} {m : Action Reply} (walletId : Uuid),
      m.Only (Op.TakesAmong (· = walletId)) →
      Heeds (lockRules env call) m (fun _ _ => True) (fun _ _ => True) [] := fun id h =>
    (one_heeds (fun _ _ h _ => h) id h (List.forall_mem_nil _)).imp (fun _ _ _ => trivial)
      fun _ _ _ => trivial
  intro call
  cases call with
  | transfer request => exact transfer_heeds_locks (fun _ _ h _ => h) request fun _ _ => trivial
  | deactiveWallet actor walletId =>
      exact hrespond (hone walletId (deactiveWallet_only actor (Key.within_self walletId)))
  | activeWallet actor walletId =>
      exact hrespond (hone walletId (activeWallet_only actor (Key.within_self walletId)))
  | suspend actor targetUserId => exact hrespond (suspend_heeds_locks fun _ _ h _ => h)
  | register dto => exact hrespond (register_heeds_locks fun _ _ h _ => h)
  | registerBusiness dto => exact hrespond (registerBusiness_heeds_locks fun _ _ h _ => h)
  | approveBusinessAccount actor dto =>
      exact hrespond ((permitted_heeds (fun _ _ h _ => .spares h)
        (approveBusiness_only actor dto)).imp (fun _ _ _ => trivial) fun _ _ _ => trivial)
  | _ => exact heeds_any _ (fun _ _ h => h.elim) fun _ _ => trivial

end Kori
