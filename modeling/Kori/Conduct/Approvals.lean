import Kori.Conduct.Footprint

/-!
# Approvals under their rules

A request writes at most one approval.  It creates one that has not been activated, for a
phone that had no account when it looked; or it renews one, which stays as it was; or it
claims one, and then it has just read on the clock that the approval has not expired.
-/

namespace Kori

open Foundation Code

def Op.WritesApproval (op : Op) : Prop := ∃ id, op.WritesRow (.approval id)

def Op.Spares (op : Op) : Prop := ¬op.WritesApproval

def Key.NoApproval (k : Key) : Prop := ∀ id, k ≠ .approval id

/-- The last two readings of the clock. -/
def Clocked (past : History) (claimedAt activatedAt : Instant) : Prop :=
  ∃ before, ⟨.now, activatedAt⟩ :: ⟨.now, claimedAt⟩ :: before <:+ past

inductive ApprovalAsks (past : History) : Op → Prop
  | spares {op : Op} : op.Spares → ApprovalAsks past op
  | insert {id approval} {t : Data} : Never Op.WritesApproval past →
      approval.activatedAt = none →
      ⟨.sql (.select (.userByPhone approval.phone)), .ok t⟩ ∈ past →
      t.row (.userByPhone approval.phone) = none →
      ApprovalAsks past (.sql (.insert (.approval id) approval))
  | renew {id change} : Never Op.WritesApproval past →
      (∀ a a' : BusinessApproval, change a = .ok (some a') → a'.activatedAt = none) →
      ApprovalAsks past (.sql (.update (.approval id) change))
  | claim {id change claimedAt activatedAt} : Never Op.WritesApproval past →
      Clocked past claimedAt activatedAt →
      (∀ a a' : BusinessApproval, change a = .ok (some a') →
        a'.activatedAt = some activatedAt ∧ claimedAt.ms < a'.expiresAt.ms) →
      ApprovalAsks past (.sql (.update (.approval id) change))

def Call.OnApprovals : Call → Prop
  | .register _ | .registerBusiness _ | .approveBusinessAccount _ _ => True
  | _ => False

def approvalRules (call : Call) : Rules Op Op.Ans Reply where
  asks := fun past op => call.OnApprovals → ApprovalAsks past op
  tells := fun _ _ => True
  ends := fun _ => True

variable {env : Env} {r : Rules Op Op.Ans Reply} {past past' : History} {α β : Type}

/-! ## Code that spares approvals -/

instance : Harmless Op.Spares where
  free := by
    rintro op hfree ⟨id, hwrites⟩
    exact hfree.not_writes hwrites

instance : WritesKeys Key.NoApproval Op.Spares where
  start := fun ⟨_, hwrites⟩ => hwrites
  commit := fun ⟨_, hwrites⟩ => hwrites
  rollback := fun ⟨_, hwrites⟩ => hwrites
  update := fun h ⟨id, hwrites⟩ => h id hwrites
  insert := fun h ⟨id, hwrites⟩ => h id hwrites

theorem spares_redis {command : RedisCommand} : (Op.redis command).Spares :=
  fun ⟨_, hwrites⟩ => hwrites

theorem spares_insert {k : Key} {v : Row k} (h : k.NoApproval) :
    (sql (.insert k v)).Only Op.Spares :=
  insert_only h

theorem createUser_spares (user : User) : (createUser user).Only Op.Spares :=
  createUser_only Key.NoApproval user (by simp [Key.NoApproval]) (by simp [Key.NoApproval])

theorem createWallet_spares (userId : Uuid) (type : WalletType) :
    (createWallet userId type).Only Op.Spares := by
  apply Only.bind (ask_only (Harmless.free _ (by trivial)))
  intro id
  apply Only.bind (spares_insert (by simp [Key.NoApproval]))
  intro _
  exact spares_insert (by simp [Key.NoApproval])

theorem createTrustedDevice_spares (userId : Uuid) (deviceId : JsString) (sid jti : Uuid) :
    (createTrustedDevice userId deviceId sid jti).Only Op.Spares :=
  createTrustedDevice_only Key.NoApproval userId deviceId sid jti
    (by simp [Key.NoApproval]) (by simp [Key.NoApproval])

theorem provisionPersonal_spares (phone hashPin deviceId : JsString) :
    (provisionPersonal phone hashPin deviceId).Only Op.Spares := by
  apply Only.bind (createUser_spares _)
  intro userId
  apply Only.bind (ask_only (Harmless.free _ (by trivial)))
  intro sid
  apply Only.bind (ask_only (Harmless.free _ (by trivial)))
  intro jti
  apply Only.bind (createWallet_spares _ _)
  intro _
  exact (createTrustedDevice_spares _ _ _ _).bind fun _ => only_pure _

theorem provisionRest_spares (phone hashedPin deviceId : JsString) (role : Role) :
    (do
      let userId ← createUser
        { phone := phone, pin := hashedPin, role := role, status := .active }
      createBusinessWallet userId role
      let sid ← Code.ask Op.randomUUID
      let jti ← Code.ask Op.randomUUID
      createTrustedDevice userId deviceId sid jti
      pure (getTokens userId role deviceId sid jti) : Action TokensResponse).Only
      Op.Spares := by
  apply Only.bind (createUser_spares _)
  intro userId
  apply Only.bind ((only_throwIf _ _).bind fun _ => createWallet_spares _ _)
  intro _
  apply Only.bind (ask_only (Harmless.free _ (by trivial)))
  intro sid
  apply Only.bind (ask_only (Harmless.free _ (by trivial)))
  intro jti
  exact (createTrustedDevice_spares _ _ _ _).bind fun _ => only_pure _

/-! ## Heeding -/

section Heeding

variable (hasks : ∀ past op, ApprovalAsks past op → r.asks past op)

include hasks

theorem spares_heeds {m : Action α} (h : m.Only Op.Spares) :
    Heeds r m (fun _ => Extends Op.Spares past) (fun _ => Extends Op.Spares past) past :=
  permitted_heeds (fun _ _ h => hasks _ _ (.spares h)) h

theorem spares_bind {m : Action β} {next : β → Action α} (h : m.Only Op.Spares)
    (hnext : ∀ b past', Extends Op.Spares past past' →
      Heeds r (next b) (fun _ _ => True) (fun _ _ => True) past') :
    Heeds r (m >>= next) (fun _ _ => True) (fun _ _ => True) past :=
  permitted_bind (fun _ _ h => hasks _ _ (.spares h)) h hnext

theorem spares_transaction {body : Action α}
    (hbody : ∀ past', Extends Op.Spares past past' →
      Heeds r body (fun _ _ => True) (fun _ _ => True) past') :
    Heeds r (transaction body) (fun _ _ => True) (fun _ _ => True) past :=
  permitted_transaction (fun _ _ h => hasks _ _ (.spares h)) Key.NoApproval hbody

theorem spares_updateRow {query : Query} {id : Uuid} {conditions : BusinessApproval → Bool}
    {relations : Data → Bool} {data : BusinessApproval → BusinessApproval}
    {next : Nat → Action α}
    (hupdate : ∀ past', Extends Op.Spares past past' →
      ApprovalAsks past' (.sql (.update (.approval id) fun row =>
        .ok (if conditions row then some (data row) else none))))
    (hnext : ∀ n, (next n).Only Op.Spares) :
    Heeds r (updateRow query (.approval id) conditions relations data >>= next)
      (fun _ _ => True) (fun _ _ => True) past := by
  have hselect : (Op.sql (.select query)).Spares := fun ⟨_, hwrites⟩ => hwrites
  refine heeds_bind.2 (heeds_updateRow (hasks _ _ (.spares hselect)) (fun t => ?_) ?_ ?_)
  · exact hasks _ _ (hupdate _ ((Extends.refl past).cons hselect))
  · intro n past' _ _
    exact (spares_heeds hasks (hnext n)).imp (fun _ _ _ => trivial) fun _ _ _ => trivial
  · exact fun _ _ _ => trivial

theorem insertApproval_heeds {id : Uuid} {approval : BusinessApproval} {t : Data}
    (hnever : Never Op.WritesApproval past) (hactivated : approval.activatedAt = none)
    (hlooked : ⟨.sql (.select (.userByPhone approval.phone)), .ok t⟩ ∈ past)
    (hfree : t.row (.userByPhone approval.phone) = none) :
    Heeds r (insertApproval id approval) (fun _ _ => True) (fun _ _ => True) past := by
  refine heeds_bind.2 (heeds_sql (hasks _ _ (.insert hnever hactivated hlooked hfree))
    (fun _ => ?_) fun _ => trivial)
  exact (spares_heeds hasks (spares_insert (by simp [Key.NoApproval]))).imp (fun _ _ _ => trivial)
    fun _ _ _ => trivial

theorem renewApproval_heeds {adminUserId id : Uuid} {role : Role} {now expiresAt : Instant}
    (hnever : Never Op.WritesApproval past) :
    Heeds r (renewApproval adminUserId role now expiresAt id) (fun _ _ => True)
      (fun _ _ => True) past := by
  refine spares_updateRow hasks (fun past' h => .renew (hnever.extends h fun _ h => h) ?_)
    fun n => ?_
  · intro a a' hchange
    split at hchange
    · rename_i hcond
      obtain rfl := Option.some.inj (Except.ok.inj hchange)
      exact (of_decide_eq_true hcond).1
    · simp at hchange
  · apply Only.bind (only_throwIf _ _)
    intro _
    exact (select_only _).bind fun _ => only_throwIf _ _

theorem approveBusinessAccount_heeds {adminUserId : Uuid} {dto : ApproveBusinessDto}
    (hnever : Never Op.WritesApproval past) :
    Heeds r (approveBusinessAccount env adminUserId dto) (fun _ _ => True)
      (fun _ _ => True) past := by
  have hspares : ∀ op, Op.Spares op → ¬op.WritesApproval := fun _ h => h
  refine spares_bind hasks (phoneNumberFrom_only _) fun phone past₁ h₁ => ?_
  refine spares_bind hasks (only_throwIf _ _) fun _ past₂ h₂ => ?_
  refine heeds_bind.2 (heeds_select (hasks _ _ (.spares (Harmless.free _ (by trivial))))
    (fun users => ?_) fun _ => trivial)
  refine heeds_bind.2 (heeds_throwIf (fun _ => trivial) fun hfree => ?_)
  have hnever₂ : Never Op.WritesApproval
      (⟨.sql (.select (.userByPhone phone)), .ok users⟩ :: past₂) :=
    ((hnever.extends h₁ hspares).extends h₂ hspares).cons
      (Harmless.free (P := Op.Spares) _ (by trivial))
  refine spares_bind hasks (ask_only (Harmless.free _ (by trivial))) fun now past₃ h₃ => ?_
  refine spares_bind hasks (ask_only (Harmless.free _ (by trivial))) fun later past₄ h₄ => ?_
  refine spares_bind hasks (select_only _) fun snapshot past₅ h₅ => ?_
  have hrest := (h₃.trans h₄).trans h₅
  split
  · refine spares_bind hasks (only_throwIf _ _) fun _ past₆ h₆ => ?_
    exact renewApproval_heeds hasks (hnever₂.extends (hrest.trans h₆) hspares)
  · refine spares_bind hasks (ask_only (Harmless.free _ (by trivial))) fun id past₆ h₆ => ?_
    refine Heeds.tryCatch (E := fun _ _ => True) (spares_transaction hasks fun past₇ h₇ => ?_)
      fun e _ _ => ?_
    · have hall := (hrest.trans h₆).trans h₇
      apply insertApproval_heeds hasks (hnever₂.extends hall hspares) rfl
      · exact hall.mem (.head _)
      · simpa using hfree
    · split <;> trivial

/-- The two readings of the clock directly precede the update. -/
theorem claims_heeds {phone : JsString} (hnever : Never Op.WritesApproval past) :
    Heeds r (claimApproval phone) (fun _ _ => True) (fun _ _ => True) past := by
  have hspares : ∀ op, Op.Spares op → ¬op.WritesApproval := fun _ h => h
  refine spares_bind hasks (ask_only (Harmless.free _ (by trivial))) fun now past₁ h₁ => ?_
  refine spares_bind hasks (select_only _) fun snapshot past₂ h₂ => ?_
  split
  · trivial
  · refine spares_bind hasks (only_throwIf _ _) fun _ past₃ h₃ => ?_
    have hnever₃ := (hnever.extends (h₁.trans h₂) hspares).extends h₃ hspares
    have hnow : Op.now.Spares := Harmless.free _ (by trivial)
    refine heeds_ask_bind.2 ⟨hasks _ _ (.spares hnow), fun claimedAt => ?_⟩
    refine heeds_ask_bind.2 ⟨hasks _ _ (.spares hnow), fun activatedAt => ?_⟩
    refine spares_updateRow hasks (fun past₄ h₄ => ?_) fun n =>
      (only_throwIf _ _).bind fun _ => only_pure _
    have hclocked : Clocked past₄ claimedAt activatedAt := by
      obtain ⟨recent, rfl, -⟩ := h₄
      exact ⟨past₃, List.suffix_append _ _⟩
    have hread : Extends Op.Spares past₃ past₄ :=
      (((Extends.refl past₃).cons hnow).cons hnow).trans h₄
    refine .claim (hnever₃.extends hread hspares) hclocked ?_
    intro a a' hchange
    split at hchange
    · rename_i hcond
      obtain rfl := Option.some.inj (Except.ok.inj hchange)
      exact ⟨rfl, (of_decide_eq_true hcond).2.2⟩
    · simp at hchange

theorem register_heeds_approvals {dto : RegisterDto} :
    Heeds r (AuthController.register env dto) (fun _ _ => True) (fun _ _ => True) past := by
  refine spares_bind hasks (validationPipe_only _) fun _ past₁ h₁ => ?_
  refine Heeds.bind (R := fun _ _ => True) ?_ fun _ _ _ => trivial
  refine spares_bind hasks (phoneNumberFrom_only _) fun phone past₂ h₂ => ?_
  refine spares_bind hasks (RedisService.evalScript_only spares_redis _) fun _ past₃ h₃ => ?_
  refine spares_bind hasks (only_throwIf _ _) fun _ past₄ h₄ => ?_
  refine spares_bind hasks (select_only _) fun existing past₅ h₅ => ?_
  refine spares_bind hasks (only_throwIf _ _) fun _ past₆ h₆ => ?_
  refine spares_bind hasks (ask_only (Harmless.free _ (by trivial))) fun hashPin past₇ h₇ => ?_
  refine Heeds.tryCatch (E := fun _ _ => True) (spares_transaction hasks fun past₈ _ => ?_)
    fun _ _ _ => trivial
  exact (spares_heeds hasks (provisionPersonal_spares _ _ _)).imp (fun _ _ _ => trivial)
    fun _ _ _ => trivial

theorem registerBusiness_heeds_approvals {dto : RegisterDto} :
    Heeds r (AuthController.registerBusiness env dto) (fun _ _ => True) (fun _ _ => True)
      [] := by
  have hspares : ∀ op, Op.Spares op → ¬op.WritesApproval := fun _ h => h
  refine spares_bind hasks (validationPipe_only _) fun _ past₁ h₁ => ?_
  refine Heeds.bind (R := fun _ _ => True) ?_ fun _ _ _ => trivial
  refine spares_bind hasks (phoneNumberFrom_only _) fun phone past₂ h₂ => ?_
  refine spares_bind hasks (RedisService.evalScript_only spares_redis _) fun _ past₃ h₃ => ?_
  refine spares_bind hasks (only_throwIf _ _) fun _ past₄ h₄ => ?_
  refine spares_bind hasks (ask_only (Harmless.free _ (by trivial))) fun hashedPin past₅ h₅ => ?_
  refine Heeds.tryCatch (E := fun _ _ => True) (spares_transaction hasks fun past₆ h₆ => ?_)
    fun e _ _ => ?_
  · have hall := ((((h₁.trans h₂).trans h₃).trans h₄).trans h₅).trans h₆
    refine (claims_heeds hasks (Never.nil.extends hall hspares)).bind fun role _ _ => ?_
    exact (spares_heeds hasks (provisionRest_spares _ _ _ role)).imp (fun _ _ _ => trivial)
      fun _ _ _ => trivial
  · split <;> trivial

theorem approveBusiness_heeds {actor : Option Uuid} {dto : ApproveBusinessDto} :
    Heeds r (AuthController.approveBusiness env actor dto) (fun _ _ => True)
      (fun _ _ => True) [] := by
  refine spares_bind hasks (roleGuards_only _ _) fun sub past₁ h₁ => ?_
  refine spares_bind hasks (validationPipe_only _) fun _ past₂ h₂ => ?_
  refine Heeds.bind (R := fun _ _ => True) ?_ fun _ _ _ => trivial
  exact approveBusinessAccount_heeds hasks (Never.nil.extends (h₁.trans h₂) fun _ h => h)

end Heeding

theorem approvals_obeyed : Obeyed (kori env) approvalRules := by
  have hrespond : ∀ {call : Call} {m : Action Reply},
      Heeds (approvalRules call) m (fun _ _ => True) (fun _ _ => True) [] →
      Heeds (approvalRules call) (respond m) (fun _ _ => True) (fun _ _ => True) [] :=
    fun h => heeds_respond (h.imp (fun _ _ _ => ⟨trivial, trivial⟩)
      fun _ _ _ => ⟨trivial, trivial⟩)
  intro call
  cases call with
  | registerBusiness dto =>
      exact hrespond (registerBusiness_heeds_approvals fun _ _ h _ => h)
  | register dto => exact hrespond (register_heeds_approvals fun _ _ h _ => h)
  | approveBusinessAccount actor dto => exact hrespond (approveBusiness_heeds fun _ _ h _ => h)
  | _ => exact heeds_any _ (fun _ _ h => h.elim) fun _ _ => trivial

end Kori
