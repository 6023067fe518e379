import Kori.Conduct.Fields

/-!
# Guards and restrictions

The endpoints behind `ActiveAccountGuard` read the account of the access token before they
do anything else.  Only the endpoints for administrators update the activity of a wallet or
the status of an account.
-/

namespace Kori

open Foundation Code

variable {env : Env} {past past' : History} {α β : Type}

/-- The first thing that the request did was to read the caller's account, which was ACTIVE
and had the required role, if one is required. -/
def SeenActive (actor : Option Uuid) (required : Option Role) (past : History) : Prop :=
  ∃ sub account, actor = some sub ∧ ∃ t : Data,
    [(⟨.sql (.select (.user sub)), .ok t⟩ : Entry Op Op.Ans)] <:+ past ∧
    t.row (.user sub) = some account ∧ account.status = .active ∧
    ∀ role ∈ required, account.role = role

def Call.guard : Call → Option (Option Uuid × Option Role)
  | .transfer req => some (req.actor, endpointRole req.endpoint)
  | .deactiveWallet actor _ | .activeWallet actor _ | .suspend actor _ | .reactivate actor _
  | .approveBusinessAccount actor _ => some (actor, some .admin)
  | .revokeTrustedDevice actor _ => some (actor, none)
  | _ => none

namespace Op

def Sets (k : Key) (P : Row k → Prop) (op : Op) : Prop :=
  ∃ change, op = .sql (.update k change) ∧ ∀ v v', change v = .ok (some v') → P v'

def SparesAccounts (op : Op) : Prop :=
  ∀ id, ¬op.WritesRow (.wallet id) ∧ ¬op.WritesRow (.user id)

/-- Updates keep the activity of wallets and the status of accounts. -/
def Unrestricting (op : Op) : Prop :=
  (∀ id, op.KeepsField (.wallet id) Wallet.isActive) ∧
    ∀ id, op.KeepsField (.user id) User.status

end Op

def Call.SetsWallet (id : Uuid) (w : Wallet) : Call → Prop
  | .deactiveWallet _ target => target = id ∧ w.type ≠ .system ∧ w.isActive = false
  | .activeWallet _ target => target = id ∧ w.type ≠ .system ∧ w.isActive = true
  | .suspend _ target => w.userId = some target ∧ w.type ≠ .system ∧ w.isActive = false
  | _ => False

def Call.SetsAccount (id : Uuid) (user : User) : Call → Prop
  | .suspend _ target => target = id ∧ user.role ≠ .admin ∧ user.status = .suspended
  | .reactivate _ target => target = id ∧ user.role ≠ .admin ∧ user.status = .active
  | _ => False

/-- What the request of an administrator writes to wallets and accounts. -/
def Call.Restricts (call : Call) (op : Op) : Prop :=
  (∃ id, op.Sets (.wallet id) fun w => call.SetsWallet id w) ∨
    ∃ id, op.Sets (.user id) fun user => call.SetsAccount id user

def Call.Permits : Call → Op → Prop
  | .deactiveWallet actor id, op =>
      op.SparesAccounts ∨ (Call.deactiveWallet actor id).Restricts op
  | .activeWallet actor id, op =>
      op.SparesAccounts ∨ (Call.activeWallet actor id).Restricts op
  | .suspend actor target, op => op.SparesAccounts ∨ (Call.suspend actor target).Restricts op
  | .reactivate actor target, op =>
      op.SparesAccounts ∨ (Call.reactivate actor target).Restricts op
  | _, op => op.Unrestricting

def guardRules (call : Call) : Rules Op Op.Ans Reply where
  asks := fun past op => op.Free ∨
    ((∀ actor required, call.guard = some (actor, required) → SeenActive actor required past) ∧
      call.Permits op)
  tells := fun _ _ => True
  ends := fun _ => True

/-! ## Kinds of operations -/

theorem SeenActive.mono {actor : Option Uuid} {required : Option Role}
    (h : SeenActive actor required past) (hsuffix : past <:+ past') :
    SeenActive actor required past' := by
  obtain ⟨sub, account, hactor, t, hread, hrest⟩ := h
  exact ⟨sub, account, hactor, t, hread.trans hsuffix, hrest⟩

theorem Op.unrestricting_of {op : Op}
    (hwallet : ∀ id change, op ≠ .sql (.update (.wallet id) change))
    (huser : ∀ id change, op ≠ .sql (.update (.user id) change)) : op.Unrestricting :=
  ⟨fun id change h => absurd h (hwallet id change), fun id change h => absurd h (huser id change)⟩

theorem Op.Unrestricting.of_spares {op : Op} (h : op.SparesAccounts) : op.Unrestricting := by
  apply Op.unrestricting_of
  · rintro id change rfl
    exact (h id).1 rfl
  · rintro id change rfl
    exact (h id).2 rfl

theorem Op.Free.sparesAccounts {op : Op} (h : op.Free) : op.SparesAccounts :=
  fun _ => ⟨h.not_writes, h.not_writes⟩

instance : Harmless Op.SparesAccounts := ⟨fun _ => Op.Free.sparesAccounts⟩

instance : Harmless Op.Unrestricting := ⟨fun _ h => .of_spares h.sparesAccounts⟩

instance (call : Call) : Harmless call.Permits where
  free := by
    intro op h
    cases call with
    | deactiveWallet _ _ | activeWallet _ _ | suspend _ _ | reactivate _ _ =>
        exact .inl h.sparesAccounts
    | _ => exact Op.Unrestricting.of_spares h.sparesAccounts

theorem bracketed_only {P : Op → Prop} {body : Action α}
    (hspares : ∀ op : Op, op.SparesAccounts → P op) (h : body.Only P) :
    (transaction body).Only P := by
  have hsql : ∀ statement : Statement,
      (∀ k, ¬Op.WritesRow k (.sql statement)) → P (.sql statement) :=
    fun statement hnot => hspares _ fun id => ⟨hnot _, hnot _⟩
  apply (sql_only (hsql .start fun _ h => h)).bind
  intro _
  apply Only.bind
  · apply h.tryCatch
    exact fun e => (ask_only (hsql .rollback fun _ h => h)).bind fun _ => only_throw e
  · exact fun a => (sql_only (hsql .commit fun _ h => h)).bind fun _ => only_pure a

theorem sets_updateRow {k : Key} {conditions : Row k → Bool} {data : Row k → Row k}
    {P : Row k → Prop} (h : ∀ v, conditions v = true → P (data v)) :
    Op.Sets k P (.sql (.update k fun row =>
      .ok (if conditions row then some (data row) else none))) := by
  refine ⟨_, rfl, fun v v' hchange => ?_⟩
  split at hchange
  · rename_i hconditions
    obtain rfl : data v = v' := by simpa using hchange
    exact h v hconditions
  · simp at hchange

/-! ## The guards -/

section Guards

variable {r : Rules Op Op.Ans Reply} (hasks : ∀ past op, op.Free → r.asks past op)

include hasks

theorem activeAccountGuard_heeds (sub : Uuid) :
    Heeds r (activeAccountGuard sub) (fun role => SeenActive (some sub) (some role))
      (fun _ _ => True) [] := by
  apply heeds_bind.2
  apply heeds_tryCatch.2
  apply heeds_select (hasks _ _ (by trivial))
  · intro t
    cases hrow : t.row (.user sub) with
    | none =>
        simp only
        trivial
    | some account =>
        simp only
        split
        · trivial
        · rename_i hactive
          refine ⟨sub, account, rfl, t, List.suffix_refl _, hrow, not_not.1 hactive, ?_⟩
          simp
  · exact fun _ => trivial

theorem roleGuards_heeds (required : Role) (actor : Option Uuid) :
    Heeds r (roleGuards required actor) (fun _ => SeenActive actor (some required))
      (fun _ _ => True) [] := by
  cases actor with
  | none => trivial
  | some sub =>
      apply (activeAccountGuard_heeds hasks sub).bind
      intro role past hseen
      apply heeds_bind.2
      apply heeds_throwIf (fun _ => trivial)
      intro hrole
      exact not_not.1 hrole ▸ hseen

end Guards

def permitRules (call : Call) : Rules Op Op.Ans Reply where
  asks := fun _ op => call.Permits op
  tells := fun _ _ => True
  ends := fun _ => True

/-- Code behind the guards. -/
theorem guarded_heeds {call : Call} {m : Action α} {Q : α → History → Prop}
    {E : Exn → History → Prop} (h : Heeds (permitRules call) m Q E past)
    (hseen : ∀ actor required, call.guard = some (actor, required) →
      SeenActive actor required past) : Heeds (guardRules call) m Q E past := by
  apply h.weaken
  · intro past' op hsuffix hpermits
    refine .inr ⟨fun actor required hguard => ?_, hpermits⟩
    exact (hseen actor required hguard).mono hsuffix
  · exact fun _ _ _ _ => trivial

theorem permits_heeds {call : Call} {m : Action α} (h : m.Only call.Permits) :
    Heeds (permitRules call) m (fun _ _ => True) (fun _ _ => True) past := by
  apply heeds_only h
  · exact fun _ _ _ hpermits => hpermits
  · exact fun _ _ _ => trivial
  · exact fun _ _ _ => trivial

theorem endpoint_heeds (actor : Option Uuid) {call : Call} {required : Role}
    (hguard : call.guard = some (actor, some required)) {m : Uuid → Action Reply}
    (h : ∀ sub, (m sub).Only call.Permits) :
    Heeds (guardRules call) (respond (roleGuards required actor >>= m))
      (fun _ _ => True) (fun _ _ => True) [] := by
  refine heeds_respond (Heeds.imp (Q := fun _ _ => True) (E := fun _ _ => True) ?_
    (fun _ _ _ => ⟨trivial, trivial⟩) fun _ _ _ => ⟨trivial, trivial⟩)
  have hfree : ∀ past op, op.Free → (guardRules call).asks past op := fun _ _ h => .inl h
  apply (roleGuards_heeds hfree required actor).bind
  intro sub past hseen
  apply guarded_heeds (permits_heeds (h sub))
  intro actor' required' hguard'
  rw [hguard, Option.some.injEq, Prod.mk.injEq] at hguard'
  obtain ⟨rfl, rfl⟩ := hguard'
  exact hseen

/-! ## Endpoints for administrators -/

theorem deactiveWallet_guarded (actor : Option Uuid) (id : Uuid) :
    Heeds (guardRules (.deactiveWallet actor id))
      (respond (WalletsController.deactiveWallet actor id)) (fun _ _ => True)
      (fun _ _ => True) [] := by
  refine endpoint_heeds actor rfl ?_
  intro sub
  refine Only.bind ?_ fun _ => only_pure _
  apply (assertManageableWallet_only _).bind
  intro _
  have hfreeze : (Call.deactiveWallet actor id).Restricts (.sql (.update (.wallet id)
      fun wallet => .ok (if manageable true wallet then
        some { wallet with isActive := false } else none))) := by
    refine .inl ⟨id, sets_updateRow fun wallet hconditions => ?_⟩
    exact ⟨rfl, (of_decide_eq_true hconditions).2.2, rfl⟩
  apply (updateRow_only (Harmless.free _ (by trivial)) (.inr hfreeze)).bind
  intro _
  exact (only_throwIf _ _).bind fun _ => getWalletById_only _

theorem activeWallet_guarded (actor : Option Uuid) (id : Uuid) :
    Heeds (guardRules (.activeWallet actor id))
      (respond (WalletsController.activeWallet actor id)) (fun _ _ => True)
      (fun _ _ => True) [] := by
  refine endpoint_heeds actor rfl ?_
  intro sub
  refine Only.bind ?_ fun _ => only_pure _
  apply (assertManageableWallet_only _).bind
  intro _
  have hactivate : (Call.activeWallet actor id).Restricts (.sql (.update (.wallet id)
      fun wallet => .ok (if manageable false wallet then
        some { wallet with isActive := true } else none))) := by
    refine .inl ⟨id, sets_updateRow fun wallet hconditions => ?_⟩
    exact ⟨rfl, (of_decide_eq_true hconditions).2.2, rfl⟩
  apply Only.bind
  · apply bracketed_only fun _ h => .inl h
    apply (updateRow_only (Harmless.free _ (by trivial)) (.inr hactivate)).bind
    intro _
    exact (only_throwIf _ _).bind fun _ => (select_only _).bind fun _ => only_throwIf _ _
  · exact fun _ => getWalletById_only _

theorem clearSessions_spares (userId : Uuid) :
    (clearSessions userId).Only Op.SparesAccounts := by
  apply (select_only _).bind
  intro snapshot
  apply (ask_only (Harmless.free _ (by trivial))).bind
  intro keys
  apply Only.forEach
  intro k _
  cases k with
  | device owner deviceId =>
      refine (sql_only fun id => ?_).bind fun _ => only_pure _
      constructor <;> simp [Op.WritesRow]
  | _ => exact only_pure _

theorem suspend_guarded (actor : Option Uuid) (target : Uuid) :
    Heeds (guardRules (.suspend actor target))
      (respond (AccountsController.suspend actor target)) (fun _ _ => True)
      (fun _ _ => True) [] := by
  refine endpoint_heeds actor rfl ?_
  intro sub
  refine Only.bind ?_ fun _ => only_pure _
  apply bracketed_only fun _ h => .inl h
  apply (findSuspendable_only (Harmless.free _ (by trivial)) (Harmless.free _ (by trivial))).bind
  intro walletId
  have hfreeze : (Call.suspend actor target).Restricts (.sql (.update (.wallet walletId)
      fun wallet => .ok (if decide (wallet.userId = some target ∧ wallet.type ≠ .system) then
        some { wallet with isActive := false } else none))) := by
    refine .inl ⟨walletId, sets_updateRow fun wallet hconditions => ?_⟩
    have hold := of_decide_eq_true hconditions
    exact ⟨hold.1, hold.2, rfl⟩
  have hsuspend : (Call.suspend actor target).Restricts (.sql (.update (.user target)
      fun account => .ok (if decide (account.role ≠ .admin ∧
          (account.status = .active ∨ account.status = .suspended)) then
        some { account with status := .suspended } else none))) := by
    refine .inr ⟨target, sets_updateRow fun account hconditions => ?_⟩
    exact ⟨rfl, (of_decide_eq_true hconditions).1, rfl⟩
  apply (updateRow_only (Harmless.free _ (by trivial)) (.inr hfreeze)).bind
  intro _
  apply (only_throwIf _ _).bind
  intro _
  apply (updateRow_only (Harmless.free _ (by trivial)) (.inr hsuspend)).bind
  intro _
  apply (only_throwIf _ _).bind
  intro _
  exact (clearSessions_spares target).mono fun _ h => .inl h

theorem reactivate_guarded (actor : Option Uuid) (target : Uuid) :
    Heeds (guardRules (.reactivate actor target))
      (respond (AccountsController.reactivate actor target)) (fun _ _ => True)
      (fun _ _ => True) [] := by
  refine endpoint_heeds actor rfl ?_
  intro sub
  refine Only.bind ?_ fun _ => only_pure _
  have hreactivate : (Call.reactivate actor target).Restricts (.sql (.update (.user target)
      fun account => .ok (if decide (account.role ≠ .admin ∧ account.status = .suspended) then
        some { account with status := .active } else none))) := by
    refine .inr ⟨target, sets_updateRow fun account hconditions => ?_⟩
    exact ⟨rfl, (of_decide_eq_true hconditions).1, rfl⟩
  apply (updateRow_only (Harmless.free _ (by trivial)) (.inr hreactivate)).bind
  intro updated
  split
  · exact only_pure _
  · apply (select_only _).bind
    intro accounts
    split <;> exact only_throw _

/-! ## The other guarded endpoints -/

theorem unrestricting_insert {k : Key} {v : Row k} :
    Op.Unrestricting (.sql (.insert k v)) := by
  apply Op.unrestricting_of <;> simp

theorem unrestricting_statement {statement : Statement}
    (h : ∀ k change, statement ≠ .update k change) : Op.Unrestricting (.sql statement) := by
  apply Op.unrestricting_of
  · exact fun id change heq => h _ change (Op.sql.inj heq)
  · exact fun id change heq => h _ change (Op.sql.inj heq)

theorem updateBalance_unrestricting (id : Uuid) (delta : Int) :
    (updateBalance id delta).Only Op.Unrestricting := by
  have hupdate : Op.Unrestricting (.sql (.update (.wallet id) (addBalance delta))) := by
    constructor
    · intro id' change heq v v' hchange
      cases heq
      unfold addBalance at hchange
      dsimp only at hchange
      split at hchange
      · obtain rfl := Option.some.inj (Except.ok.inj hchange)
        rfl
      · simp at hchange
    · intro id' change heq
      simp at heq
  apply (sql_only hupdate).bind
  intro updated
  cases updated with
  | none => exact only_throw _
  | some wallet => exact only_pure _

theorem createTransaction_unrestricting (order : TransferOrder) :
    (createTransaction env order).Only Op.Unrestricting := by
  have hfree : ∀ op : Op, op.Free → (Code.ask op : Action op.Ans).Only Op.Unrestricting :=
    fun op h => ask_only (Harmless.free op h)
  apply (hfree .now (by trivial)).bind
  intro now
  apply (hfree .randomBytes (by trivial)).bind
  intro random
  apply (hfree .generatedId (by trivial)).bind
  intro id
  apply (hfree .now (by trivial)).bind
  intro createdAt
  split
  · exact only_throw _
  · exact (sql_only unrestricting_insert).bind fun _ => (sql_only unrestricting_insert).bind
      fun _ => (sql_only unrestricting_insert).bind fun _ => only_pure _

theorem postLedger_unrestricting (order : TransferOrder) (id : Uuid) (record : Transaction) :
    (postLedger order id record).Only Op.Unrestricting := by
  have happend : ∀ l, (sql (.append l)).Only Op.Unrestricting :=
    fun l => sql_only (unrestricting_statement (by simp))
  apply (updateBalance_unrestricting _ _).bind
  intro sender
  apply (happend _).bind
  intro _
  apply (updateBalance_unrestricting _ _).bind
  intro receiver
  apply (happend _).bind
  intro _
  refine Only.bind ?_ fun _ => only_pure _
  unfold collectFee
  split
  · exact only_pure _
  · exact (updateBalance_unrestricting _ _).bind fun _ => happend _

theorem acidBlock_unrestricting (order : TransferOrder) :
    (acidBlock env order).Only Op.Unrestricting := by
  have hfree : ∀ op : Op, op.Free → op.Unrestricting := Harmless.free
  apply Only.bind
  · exact (select_only _).bind fun _ => (ask_only (hfree _ (by trivial))).bind fun keys =>
      Only.forEach fun k _ => sql_only (unrestricting_statement (by simp))
  intro _
  apply Only.bind
  · apply (Only.both (hfree _ (by trivial)) (findLocked_only _).1 (Only.both (hfree _ (by trivial))
      (findLocked_only _).1 (findLocked_only _).2)).bind
    intro found
    split
    split
    · exact only_pure _
    · exact only_throw _
  intro wallets
  exact (assertFunds_only _ _).bind fun _ => (createTransaction_unrestricting order).bind
    fun _ => postLedger_unrestricting _ _ _

theorem transferBetween_unrestricting (type : TransactionType)
    (senderType receiverType : WalletType) (reference : TransferBody → Option JsString)
    (actor : Uuid) (dto : TransferBody) (key : JsString) :
    (transferBetween env type senderType receiverType reference actor dto key).Only
      Op.Unrestricting := by
  have hfree : ∀ op : Op, op.Free → op.Unrestricting := Harmless.free
  apply (phoneNumberFrom_only _).bind
  intro phone
  apply Only.bind
  · unfold liftAmounts
    split <;> first | exact only_pure _ | exact only_throw _
  intro amounts
  apply (Only.both (hfree _ (by trivial)) (getOwnWalletId_only _)
    (resolveWalletIdByPhone_only _)).bind
  intro ids
  apply (assertTransferEligibility_only _ _ _ _ _).bind
  intro _
  apply Only.tryCatch
  · exact bracketed_only (fun _ => .of_spares) (acidBlock_unrestricting _)
  · intro e
    split <;> exact only_throw _

theorem endpointHandler_unrestricting (endpoint : TransactionType) (actor : Uuid)
    (dto : TransferBody) (key : JsString) :
    (endpointHandler env endpoint actor dto key).Only Op.Unrestricting := by
  cases endpoint with
  | addMoney => exact only_throw _
  | sendMoney | cashIn | cashOut | payment => exact transferBetween_unrestricting _ _ _ _ _ _ _

theorem transfer_guarded (request : TransferRequest) :
    Heeds (guardRules (.transfer request)) (transfer env request) (fun _ _ => True)
      (fun _ _ => True) [] := by
  refine Heeds.tryCatch (E := fun _ _ => True) ?_ fun e past' _ => ⟨trivial, trivial⟩
  split
  · trivial
  · rename_i role hrole
    have hfree : ∀ past op, op.Free → (guardRules (.transfer request)).asks past op :=
      fun _ _ h => .inl h
    apply (roleGuards_heeds hfree role request.actor).bind
    intro sub past hseen
    have hguard : ∀ actor required, (Call.transfer request).guard = some (actor, required) →
        SeenActive actor required past := by
      intro actor required hguard
      rw [Call.guard, hrole, Option.some.injEq, Prod.mk.injEq] at hguard
      obtain ⟨rfl, rfl⟩ := hguard
      exact hseen
    split
    · trivial
    · trivial
    · -- the interceptor sends its commands, and calls the handler, after the guards
      apply guarded_heeds _ hguard
      apply intercept_heeds
      · intro past' op hop
        apply Op.unrestricting_of <;> rintro id change rfl <;>
          simp [Op.OfInterceptor, Op.OnCache] at hop
      · exact fun _ _ => trivial
      · intro past' _
        apply permits_heeds
        exact (validationPipe_only _).bind fun _ => endpointHandler_unrestricting _ _ _ _

theorem revokeDevice_guarded (actor : Option Uuid) (deviceRecordId : Uuid) :
    Heeds (guardRules (.revokeTrustedDevice actor deviceRecordId))
      (respond (AuthController.revokeDevice actor deviceRecordId)) (fun _ _ => True)
      (fun _ _ => True) [] := by
  refine heeds_respond (Heeds.imp (Q := fun _ _ => True) (E := fun _ _ => True) ?_
    (fun _ _ _ => ⟨trivial, trivial⟩) fun _ _ _ => ⟨trivial, trivial⟩)
  cases actor with
  | none => trivial
  | some sub =>
      have hfree : ∀ past op, op.Free →
          (guardRules (.revokeTrustedDevice (some sub) deviceRecordId)).asks past op :=
        fun _ _ h => .inl h
      apply (activeAccountGuard_heeds hfree sub).bind
      intro role past hseen
      apply guarded_heeds
      · apply permits_heeds
        refine Only.bind ?_ fun _ => only_pure _
        apply (select_only _).bind
        intro snapshot
        split
        · exact only_throw _
        · split
          · refine (sql_only ?_).bind fun _ => only_throwIf _ _
            apply Op.unrestricting_of <;> simp
          · exact only_throw _
      · rintro actor required hguard
        rw [Call.guard, Option.some.injEq, Prod.mk.injEq] at hguard
        obtain ⟨rfl, rfl⟩ := hguard
        obtain ⟨sub', account, hactor, t, hread, hrow, hactive, -⟩ := hseen
        exact ⟨sub', account, hactor, t, hread, hrow, hactive, by simp⟩

theorem approveBusiness_guarded (actor : Option Uuid) (dto : ApproveBusinessDto) :
    Heeds (guardRules (.approveBusinessAccount actor dto))
      (respond (AuthController.approveBusiness env actor dto)) (fun _ _ => True)
      (fun _ _ => True) [] := by
  have hfree : ∀ op : Op, op.Free → (Code.ask op : Action op.Ans).Only Op.Unrestricting :=
    fun op h => ask_only (Harmless.free op h)
  refine endpoint_heeds actor rfl ?_
  intro sub
  apply (validationPipe_only _).bind
  intro _
  refine Only.bind ?_ fun _ => only_pure _
  apply (phoneNumberFrom_only _).bind
  intro phone
  apply (only_throwIf _ _).bind
  intro _
  apply (select_only _).bind
  intro users
  apply (only_throwIf _ _).bind
  intro _
  apply (hfree .now (by trivial)).bind
  intro now
  apply (hfree .now (by trivial)).bind
  intro later
  apply (select_only _).bind
  intro snapshot
  split
  · apply (only_throwIf _ _).bind
    intro _
    apply (updateRow_only (Harmless.free _ (by trivial))
      (by apply Op.unrestricting_of <;> simp)).bind
    intro _
    exact (only_throwIf _ _).bind fun _ => (select_only _).bind fun _ => only_throwIf _ _
  · apply (hfree .generatedId (by trivial)).bind
    intro id
    apply Only.tryCatch
    · apply bracketed_only fun _ => Op.Unrestricting.of_spares
      exact (sql_only unrestricting_insert).bind fun _ => sql_only unrestricting_insert
    · intro e
      split <;> exact only_throw _

/-! ## The endpoints without guards -/

theorem asks_unrestricting {call : Call} {op : Op} (h : Asks env call past op)
    (hguard : call.guard = none) : op.Unrestricting := by
  have htouches : ∀ k, op.WritesRow k → call.Touches k := fun k => asks_touches h
  cases call with
  | sendOtp dto =>
      apply Op.unrestricting_of <;> rintro id change rfl <;> exact htouches _ rfl
  | verifyOtp dto =>
      apply Op.unrestricting_of <;> rintro id change rfl <;>
        simpa [Call.Touches] using htouches _ rfl
  | login dto =>
      apply Op.unrestricting_of <;> rintro id change rfl <;>
        simpa [Call.Touches] using htouches _ rfl
  | refresh token =>
      apply Op.unrestricting_of <;> rintro id change rfl <;>
        simpa [Call.Touches] using htouches _ rfl
  | logout token =>
      apply Op.unrestricting_of <;> rintro id change rfl <;>
        simpa [Call.Touches] using htouches _ rfl
  | register dto | registerBusiness dto =>
      cases h with
      | free hfree => exact Harmless.free op hfree
      | consume => apply Op.unrestricting_of <;> simp
      | provision _ hasks =>
          cases hasks with
          | claim => apply Op.unrestricting_of <;> simp
          | _ => apply Op.unrestricting_of <;> simp
  | _ => simp [Call.guard] at hguard

theorem guards_obeyed : Obeyed (kori env) guardRules := by
  have hunguarded : ∀ call, call.guard = none → Heeds (guardRules call) (handle env call)
      (fun _ _ => True) (fun _ _ => True) [] := by
    intro call hguard
    have hheeds : Heeds (rules env call) (handle env call) (fun _ _ => True)
        (fun _ _ => True) [] :=
      (obeyed call).imp (fun _ _ _ => trivial) fun _ _ _ => trivial
    apply hheeds.weaken
    · intro past' op _ hasks
      have hop := asks_unrestricting hasks hguard
      refine .inr ⟨by simp [hguard], ?_⟩
      cases call <;> first | exact hop | simp [Call.guard] at hguard
    · exact fun _ _ _ _ => trivial
  intro call
  cases call with
  | transfer req => exact transfer_guarded req
  | deactiveWallet actor id => exact deactiveWallet_guarded actor id
  | activeWallet actor id => exact activeWallet_guarded actor id
  | suspend actor target => exact suspend_guarded actor target
  | reactivate actor target => exact reactivate_guarded actor target
  | revokeTrustedDevice actor id => exact revokeDevice_guarded actor id
  | approveBusinessAccount actor dto => exact approveBusiness_guarded actor dto
  | _ => exact hunguarded _ rfl

/-! ## Suspensions write inside their transaction -/

def insideRules (call : Call) : Rules Op Op.Ans Reply where
  asks := fun past op => ∀ actor target, call = .suspend actor target →
    ∀ k, op.WritesRow k → InTransaction past
  tells := fun _ _ => True
  ends := fun _ => True

theorem transaction_inside {r : Rules Op Op.Ans Reply} {body : Action α}
    (hasks : ∀ past op, (∀ k, op.WritesRow k → InTransaction past) → r.asks past op)
    (h : body.Only Op.KeepsOpen) :
    Heeds r (transaction body) (fun _ _ => True) (fun _ _ => True) past := by
  have hquiet : ∀ past statement, (∀ k, ¬Op.WritesRow k (.sql statement)) →
      r.asks past (.sql statement) :=
    fun past statement hnot => hasks past _ fun k hwrites => absurd hwrites (hnot k)
  apply heeds_transaction (R := fun _ _ => True) (X := fun _ _ => True)
  · exact hquiet _ _ fun _ h => h
  · exact fun _ => trivial
  · apply heeds_only h
    · intro past' op hpast _
      exact hasks past' op fun _ _ => (InTransaction.start past).extends hpast
    · exact fun _ _ _ => trivial
    · exact fun _ _ _ => trivial
  · exact fun _ past' _ => ⟨hquiet past' _ fun _ h => h, fun _ => trivial⟩
  · exact fun _ past' _ => ⟨hquiet past' _ fun _ h => h, trivial, fun _ => trivial⟩

theorem restrictAccount_keepsOpen (target : Uuid) :
    (restrictAccount target).Only Op.KeepsOpen := by
  have hop : ∀ {k : Key} {change}, Op.KeepsOpen (.sql (.update k change)) := by
    simp [Op.KeepsOpen]
  have hread : ∀ {query : Query}, Op.KeepsOpen (.sql (.select query)) := by
    simp [Op.KeepsOpen]
  apply (findSuspendable_only hread hread).bind
  intro walletId
  apply (updateRow_only hread hop).bind
  intro _
  apply (only_throwIf _ _).bind
  intro _
  apply (updateRow_only hread hop).bind
  intro _
  apply (only_throwIf _ _).bind
  intro _
  apply (sql_only hread).bind
  intro snapshot
  apply (ask_only (by simp [Op.KeepsOpen])).bind
  intro keys
  apply Only.forEach
  intro k _
  cases k with
  | device owner deviceId => exact (sql_only hop).bind fun _ => only_pure _
  | _ => exact only_pure _

theorem inside_obeyed : Obeyed (kori env) insideRules := by
  intro call
  by_cases hcall : ∃ actor target, call = .suspend actor target
  · obtain ⟨actor, target, rfl⟩ := hcall
    refine heeds_respond (Heeds.imp (Q := fun _ _ => True) (E := fun _ _ => True) ?_
      (fun _ _ _ => ⟨trivial, trivial⟩) fun _ _ _ => ⟨trivial, trivial⟩)
    have hasks : ∀ past op, (∀ k, op.WritesRow k → InTransaction past) →
        (insideRules (.suspend actor target)).asks past op := fun _ _ h _ _ _ => h
    have hfree : ∀ past op, op.Free → (insideRules (.suspend actor target)).asks past op :=
      fun past op hfree => hasks past op fun _ hwrites => absurd hwrites hfree.not_writes
    apply (roleGuards_heeds hfree .admin actor).bind
    intro sub past _
    apply (transaction_inside hasks (restrictAccount_keepsOpen target)).bind
    intro _ _ _
    trivial
  · have hheeds : Heeds (rules env call) (handle env call) (fun _ _ => True)
        (fun _ _ => True) [] :=
      (obeyed call).imp (fun _ _ _ => trivial) fun _ _ _ => trivial
    apply hheeds.weaken
    · intro past' op _ _ actor target heq
      exact absurd ⟨actor, target, heq⟩ hcall
    · exact fun _ _ _ _ => trivial

end Kori
