import Kori.Contract.Requests

/-!
# The checks in front of a transfer

The guards, the wallets a request is about and the unlocked checks of
`assertTransferEligibility`.  What passes them is fixed for good, except for the
balance and the activity of the wallets.  What they refuse has a ground in the
request or in a state they have seen.
-/

namespace Kori

open Foundation

variable {env : Env} {σ : Scope} {p : Pid} {c c' : State} {X : Exn → Prop}

/-! ## Refusals -/

def Exn.Refuses (e : Exn) : Prop := e.status < 500 ∧ e.status ≠ 409

/-- A request that no state of the database could make acceptable. -/
structure Admissible (env : Env) (request : TransferRequest) : Prop where
  actor : request.actor ≠ none
  key : ∃ key, request.idempotencyKey = some key ∧ key ≠ []
  endpoint : endpointRole request.endpoint ≠ none
  valid : env.validates (.transfer request.endpoint request.body) = true
  amounts : ∃ amounts,
    calculateTransferMath request.body.amountMinorUnits request.endpoint = .ok amounts

structure Parties (env : Env) (request : TransferRequest) (sender receiver : Uuid)
    (t : Data) : Prop where
  sender : ∃ actor, request.actor = some actor ∧ t.row (.walletByUser actor) = some sender
  receiver : ∃ phone userId, env.parsePhoneNumber (trim request.body.phone) = some phone ∧
    t.row (.userByPhone phone) = some userId ∧ t.row (.walletByUser userId) = some receiver

def Usable (type : WalletType) (id : Uuid) (t : Data) : Prop :=
  ∃ w, t.row (.wallet id) = some w ∧ w.type = type ∧ w.isActive = true ∧
    t.ownerActive w = true

inductive Ground (env : Env) (σ : Scope) (p : Pid) (request : TransferRequest) : Prop
  | inadmissible : ¬Admissible env request → Ground env σ p request
  | account {actor s} : request.actor = some actor → σ.holds s →
      (∀ user, s.data.row (.user actor) = some user → user.status = .active →
        endpointRole request.endpoint ≠ some user.role) → Ground env σ p request
  | parties {s} : σ.holds s → (∀ sender receiver,
      ¬Parties env request sender receiver s.data) → Ground env σ p request
  | self {id s t} : σ.holds s → Grows s.data t → Parties env request id id t →
      Ground env σ p request
  | wallets {sender receiver s} : σ.holds s →
      Parties env request sender receiver s.data →
      (¬Usable (senderType request.endpoint) sender s.data ∨
        ¬Usable (receiverType request.endpoint) receiver s.data) → Ground env σ p request
  | funds {sender receiver amounts query s w} : σ.holds s →
      Parties env request sender receiver s.data →
      calculateTransferMath request.body.amountMinorUnits request.endpoint = .ok amounts →
      (query = .walletStateForTransaction sender ∨ query = .lockedWallet sender) →
      σ.meets p (.sql (.select query)) .go s → s.data.row (.wallet sender) = some w →
      w.balance < amounts.totalRequiredAmount.minorUnits → Ground env σ p request

def Grounded (env : Env) (σ : Scope) (p : Pid) (request : TransferRequest) (e : Exn) : Prop :=
  e.Refuses → Ground env σ p request

variable {request : TransferRequest}

theorem grounded_of_status {e : Exn} (h : 500 ≤ e.status) : Grounded env σ p request e :=
  fun hrefuses => absurd hrefuses.1 (Nat.not_lt.2 h)

theorem Parties.grows {sender receiver : Uuid} {t t' : Data}
    (h : Parties env request sender receiver t) (hg : Grows t t') :
    Parties env request sender receiver t' where
  sender := by
    obtain ⟨actor, hactor, hrow⟩ := h.sender
    exact ⟨actor, hactor, hg.walletByUser hrow⟩
  receiver := by
    obtain ⟨phone, userId, hphone, huser, hrow⟩ := h.receiver
    exact ⟨phone, userId, hphone, hg.userByPhone huser, hg.walletByUser hrow⟩

/-! ## Guards -/

def Vetted (σ : Scope) (actor : Uuid) (role : Role) (t : Data) : Prop :=
  ∃ s user, σ.holds s ∧ s.data.row (.user actor) = some user ∧ user.role = role ∧
    Grows s.data t

theorem Vetted.grows {actor : Uuid} {role : Role} {t t' : Data} (h : Vetted σ actor role t)
    (hg : Grows t t') : Vetted σ actor role t' := by
  obtain ⟨s, user, hσ, hrow, hrole, hs⟩ := h
  exact ⟨s, user, hσ, hrow, hrole, hs.trans hg⟩

theorem activeAccountGuard_reads {sub : Uuid} (hcall : Called p c)
    (htx : c.shared.db.tx p = none)
    (hfault : ∀ message, X (.http 500 none message))
    (hrefuse : ∀ s e, σ.holds s → (∀ user, s.data.row (.user sub) = some user →
      user.status ≠ .active) → X e) :
    Reads env σ p (activeAccountGuard sub)
      (fun role c₁ => σ.holds c₁ ∧ ∃ user, c₁.data.row (.user sub) = some user ∧
        user.status = .active ∧ user.role = role) X c := by
  refine Leads.bind (R := fun snapshot c₁ => σ.holds c₁ ∧ snapshot = State.data c₁)
    ((reads_select (X := fun _ => True) hcall (fun _ => trivial) ?_).tryCatch ?_) ?_
  · exact fun c₁ hr _ hσ _ => ⟨hσ, Store.view_of_idle (hr.tx.trans htx)⟩
  · exact fun _ _ _ _ => leads_throw (hfault _)
  · rintro snapshot c₁ hr ⟨hσ, rfl⟩
    cases huser : (State.data c₁).row (.user sub) with
    | none => exact leads_throw (hrefuse c₁ _ hσ (by simp [huser]))
    | some user =>
        dsimp only
        split
        · rename_i hstatus
          refine leads_throw (hrefuse c₁ _ hσ ?_)
          intro user' huser'
          rw [huser, Option.some.injEq] at huser'
          exact huser' ▸ hstatus
        · rename_i hstatus
          exact leads_pure ⟨hσ, user, huser, by simpa using hstatus, rfl⟩

theorem roleGuards_reads {role : Role} (hcall : Called p c) (htx : c.shared.db.tx p = none)
    (hrole : endpointRole request.endpoint = some role) :
    Reads env σ p (roleGuards role request.actor)
      (fun sub c₁ => request.actor = some sub ∧ Vetted σ sub role c₁.data)
      (Grounded env σ p request) c := by
  unfold roleGuards accessTokenGuard
  cases hactor : request.actor with
  | none => exact leads_throw fun _ => .inadmissible fun h => h.actor hactor
  | some sub =>
      change Reads env σ p (activeAccountGuard sub >>= _) _ _ c
      refine Leads.bind (activeAccountGuard_reads hcall htx
        (fun _ => grounded_of_status (by simp [Exn.status])) ?_) ?_
      · intro s e hσ hinactive _
        exact .account hactor hσ fun user huser hactive =>
          absurd hactive (hinactive user huser)
      · rintro role' c₁ hr ⟨hσ, user, huser, -, rfl⟩
        refine leads_throwIf_bind (fun hne => ?_) fun heq => ?_
        · intro _
          refine .account hactor hσ fun user' huser' _ hrole' => hne ?_
          rw [huser, Option.some.injEq] at huser'
          subst user'
          rw [hrole, Option.some.injEq] at hrole'
          exact hrole'.symm
        · exact leads_pure ⟨rfl, c₁, user, hσ, huser, by simpa using heq, .refl _⟩

/-! ## Wallets -/

theorem getOwnWalletId_reads {actor : Uuid} (hcall : Called p c)
    (htx : c.shared.db.tx p = none) (hactor : request.actor = some actor) :
    Reads env σ p (getOwnWalletId actor)
      (fun id c₁ => c₁.data.row (.walletByUser actor) = some id)
      (Grounded env σ p request) c := by
  refine Leads.bind (R := fun snapshot c₁ => σ.holds c₁ ∧ snapshot = State.data c₁)
    ((reads_select (X := fun _ => True) hcall (fun _ => trivial) ?_).tryCatch ?_) ?_
  · exact fun c₁ hr _ hσ _ => ⟨hσ, Store.view_of_idle (hr.tx.trans htx)⟩
  · exact fun _ _ _ _ => leads_throw (grounded_of_status (by simp [Exn.status,
      Exn.internalServerError]))
  · rintro snapshot c₁ hr ⟨hσ, rfl⟩
    cases hrow : (State.data c₁).row (.walletByUser actor) with
    | none =>
        refine leads_throw fun _ => .parties hσ ?_
        intro sender receiver h
        obtain ⟨actor', hactor', hsender⟩ := h.sender
        rw [hactor, Option.some.injEq] at hactor'
        subst actor'
        simp [hrow] at hsender
    | some id => exact leads_pure hrow

theorem findWalletIdByPhone_reads {phone : JsString} (hcall : Called p c)
    (htx : c.shared.db.tx p = none)
    (hphone : env.parsePhoneNumber (trim request.body.phone) = some phone) :
    Reads env σ p (findWalletIdByPhone phone)
      (fun id c₁ => ∃ userId, c₁.data.row (.userByPhone phone) = some userId ∧
        c₁.data.row (.walletByUser userId) = some id)
      (Grounded env σ p request) c := by
  have hfault : σ.Fails p → Grounded env σ p request (.sql .other) :=
    fun _ => grounded_of_status (by simp [Exn.status])
  refine Leads.bind (R := fun snapshot c₁ => σ.holds c₁ ∧ snapshot = State.data c₁)
    (reads_select hcall hfault ?_) ?_
  · exact fun c₁ hr _ hσ _ => ⟨hσ, Store.view_of_idle (hr.tx.trans htx)⟩
  · rintro users c₁ hr₁ ⟨hσ, rfl⟩
    cases huser : (State.data c₁).row (.userByPhone phone) with
    | none =>
        refine leads_throw fun _ => .parties hσ ?_
        intro sender receiver h
        obtain ⟨phone', userId, hphone', huser', -⟩ := h.receiver
        rw [hphone, Option.some.injEq] at hphone'
        subst phone'
        simp [huser] at huser'
    | some userId =>
        refine Leads.bind (R := fun snapshot c₂ => σ.holds c₂ ∧ snapshot = State.data c₂ ∧
          (State.data c₂).row (.userByPhone phone) = some userId)
          (reads_select (hcall.rely hr₁) hfault ?_) ?_
        · exact fun c₂ hr₂ _ hσ₂ _ => ⟨hσ₂, Store.view_of_idle (hr₂.tx.trans
            (hr₁.tx.trans htx)), hr₂.grows.userByPhone huser⟩
        · rintro wallets c₂ hr₂ ⟨hσ₂, rfl, huser₂⟩
          cases hrow : (State.data c₂).row (.walletByUser userId) with
          | none =>
              refine leads_throw fun _ => .parties hσ₂ ?_
              intro sender receiver h
              obtain ⟨phone', userId', hphone', huser', hreceiver⟩ := h.receiver
              rw [hphone, Option.some.injEq] at hphone'
              subst phone'
              rw [huser₂, Option.some.injEq] at huser'
              subst userId'
              simp [hrow] at hreceiver
          | some id => exact leads_pure ⟨userId, huser₂, hrow⟩

theorem resolveWalletIdByPhone_reads {phone : JsString} (hcall : Called p c)
    (htx : c.shared.db.tx p = none)
    (hphone : env.parsePhoneNumber (trim request.body.phone) = some phone) :
    Reads env σ p (resolveWalletIdByPhone phone)
      (fun id c₁ => ∃ userId, c₁.data.row (.userByPhone phone) = some userId ∧
        c₁.data.row (.walletByUser userId) = some id)
      (Grounded env σ p request) c := by
  refine (findWalletIdByPhone_reads hcall htx hphone).tryCatch ?_
  intro e c₁ _ he
  split
  · exact leads_throw he
  · exact leads_throw (grounded_of_status (by simp [Exn.status, Exn.internalServerError]))

/-- An active wallet as it was found at some moment. -/
structure Found (σ : Scope) (p : Pid) (id : Uuid) (state : WalletStateForTransaction)
    (s c : State) : Prop where
  holds : σ.holds s
  meets : σ.meets p (.sql (.select (.walletStateForTransaction id))) .go s
  row : ∃ w, s.data.row (.wallet id) = some w ∧ w.type = state.type ∧
    w.balance = state.balance
  since : Rely p s c

theorem getWalletStateForTransaction_reads {id : Uuid} (hcall : Called p c)
    (htx : c.shared.db.tx p = none) (hfault : ∀ message, X (.http 500 none message))
    (hrefuse : ∀ s e, Rely p c s → σ.holds s → (∀ type, ¬Usable type id s.data) → X e) :
    Reads env σ p (getWalletStateForTransaction id)
      (fun state c₁ => ∃ s, Rely p c s ∧ Found σ p id state s c₁) X c := by
  refine Leads.bind (R := fun snapshot c₁ => σ.holds c₁ ∧
    σ.meets p (.sql (.select (.walletStateForTransaction id))) .go c₁ ∧
    snapshot = State.data c₁)
    ((reads_select (X := fun _ => True) hcall (fun _ => trivial) ?_).tryCatch ?_) ?_
  · exact fun c₁ hr _ hσ hmeets => ⟨hσ, hmeets, Store.view_of_idle (hr.tx.trans htx)⟩
  · exact fun _ _ _ _ => leads_throw (hfault _)
  · rintro snapshot c₁ hr ⟨hσ, hmeets, rfl⟩
    cases hrow : ((State.data c₁).row (.wallet id)).filter Wallet.isActive with
    | none =>
        refine leads_throw (hrefuse c₁ _ hr hσ ?_)
        rintro type ⟨w, hw, -, hactive, -⟩
        simp [hw, hactive] at hrow
    | some w =>
        obtain ⟨hw, -⟩ := Option.filter_eq_some_iff.1 hrow
        exact leads_pure ⟨c₁, hr, hσ, hmeets, ⟨w, hw, rfl, rfl⟩, Rely.refl p c₁⟩

theorem Found.rely {id : Uuid} {state : WalletStateForTransaction} {s : State}
    (h : Found σ p id state s c) (hr : Rely p c c') : Found σ p id state s c' :=
  { h with since := h.since.trans hr }

theorem Found.typed {id : Uuid} {state : WalletStateForTransaction} {s : State}
    (h : Found σ p id state s c) :
    ∃ w, c.data.row (.wallet id) = some w ∧ w.type = state.type := by
  obtain ⟨w, hw, htype, -⟩ := h.row
  obtain ⟨w', hw', -, htype', -⟩ := h.since.grows.wallet hw
  exact ⟨w', hw', htype'.trans htype⟩

theorem Found.usable {id : Uuid} {state : WalletStateForTransaction} {s : State}
    {type : WalletType} (h : Found σ p id state s c) (husable : Usable type id s.data) :
    state.type = type := by
  obtain ⟨w, hw, htype, -⟩ := h.row
  obtain ⟨w', hw', htype', -⟩ := husable
  rw [hw, Option.some.injEq] at hw'
  subst w'
  exact htype.symm.trans htype'

/-! ## Amounts -/

section Amounts

variable {L : State → State → Prop} [IsPreorder State L]
variable {t : Terms Pid Call Reply Shared Choice Op} {E : Exn → State → Prop}

theorem assertFunds_leads {balance : Int} {total : Money} {Q : Unit → State → Prop}
    (hthrow : ∀ e, (e.Refuses → balance < total.minorUnits) → E e c)
    (hpass : total.minorUnits ≤ balance → Q () c) :
    Leads (kori env) t p L (assertFunds balance total) Q E c := by
  unfold assertFunds
  cases hmoney : Money.fromMinorUnits balance .bdt with
  | error e =>
      exact leads_throw (hthrow _ fun h => absurd h.1 (by simp [Exn.status]))
  | ok available =>
      have hunits := (Money.fromMinorUnits_eq_ok hmoney).1
      refine Leads.bind (R := fun a c₁ => a = available ∧ c₁ = c)
        (leads_pure ⟨rfl, rfl⟩) ?_
      rintro _ _ - ⟨rfl, rfl⟩
      rw [Money.isLessThan_ok]
      refine leads_throwIf (fun hless => hthrow _ fun _ => ?_) fun hless => hpass ?_
      · simpa [hunits] using hless
      · simpa [hunits] using hless

theorem liftAmounts_leads {request : TransferRequest}
    {Q : TransactionAmounts → State → Prop}
    (hthrow : ∀ e, (e.Refuses → ¬Admissible env request) → E e c)
    (hpass : ∀ amounts, calculateTransferMath request.body.amountMinorUnits
      request.endpoint = .ok amounts → Q amounts c) :
    Leads (kori env) t p L (liftAmounts (calculateTransferMath
      request.body.amountMinorUnits request.endpoint)) Q E c := by
  cases hmath : calculateTransferMath request.body.amountMinorUnits request.endpoint with
  | ok amounts => exact leads_pure (hpass amounts hmath)
  | error e =>
      have hbad : ¬Admissible env request := by
        intro h
        obtain ⟨amounts, hamounts⟩ := h.amounts
        simp [hmath] at hamounts
      cases e <;> exact leads_throw (hthrow _ fun _ => hbad)

end Amounts

/-! ## Eligibility -/

theorem assertTransferEligibility_reads {sender receiver : Uuid}
    {amounts : TransactionAmounts} (hcall : Called p c) (htx : c.shared.db.tx p = none)
    (hseen : ∃ s, σ.holds s ∧ Grows s.data c.data)
    (hparties : Parties env request sender receiver c.data)
    (hamounts : calculateTransferMath request.body.amountMinorUnits request.endpoint =
      .ok amounts) :
    Reads env σ p (assertTransferEligibility sender receiver (senderType request.endpoint)
        (receiverType request.endpoint) amounts.totalRequiredAmount)
      (fun _ c₁ => sender ≠ receiver ∧
        (∃ w, c₁.data.row (.wallet sender) = some w ∧
          w.type = senderType request.endpoint) ∧
        ∃ w, c₁.data.row (.wallet receiver) = some w ∧
          w.type = receiverType request.endpoint)
      (Grounded env σ p request) c := by
  have hfault : ∀ message, Grounded env σ p request (.http 500 none message) :=
    fun _ => grounded_of_status (by simp [Exn.status])
  obtain ⟨s₀, hσ₀, hg₀⟩ := hseen
  refine leads_throwIf_bind (fun heq _ => .self hσ₀ hg₀ (heq ▸ hparties)) fun hne => ?_
  refine Leads.bind (reads_both hcall
    (getWalletStateForTransaction_reads hcall htx hfault ?_)
    (getWalletStateForTransaction_reads hcall htx hfault ?_) ?_ ?_) ?_
  · exact fun s e hr hσ h _ =>
      .wallets hσ (hparties.grows hr.grows) (.inl (h _))
  · exact fun s e hr hσ h _ =>
      .wallets hσ (hparties.grows hr.grows) (.inr (h _))
  · exact fun _ _ _ hr ⟨s, hs, h⟩ => ⟨s, hs, h.rely hr⟩
  · exact fun _ _ _ hr ⟨s, hs, h⟩ => ⟨s, hs, h.rely hr⟩
  rintro ⟨senderWallet, receiverWallet⟩ c₁ hr₁ ⟨⟨s, hs, hsender⟩, ⟨s', hs', hreceiver⟩⟩
  obtain ⟨w, hw, hwtype⟩ := hsender.typed
  obtain ⟨w', hw', hwtype'⟩ := hreceiver.typed
  dsimp only at hwtype hwtype'
  dsimp only
  refine leads_throwIf_bind (fun hwrong _ => ?_) fun htype => ?_
  · exact .wallets hsender.holds (hparties.grows hs.grows) (.inl fun h => hwrong
      (hsender.usable h))
  refine leads_throwIf_bind (fun hwrong _ => ?_) fun htype' => ?_
  · exact .wallets hreceiver.holds (hparties.grows hs'.grows) (.inr fun h => hwrong
      (hreceiver.usable h))
  refine leads_throwIf_bind (fun hcurrency => ?_) fun _ => ?_
  · cases hsend : senderWallet.currency
    cases hrecv : receiverWallet.currency
    simp [hsend, hrecv] at hcurrency
  obtain ⟨w₀, hw₀, -, hbalance⟩ := hsender.row
  refine assertFunds_leads (fun e he hrefuses => ?_) fun _ => ?_
  · exact .funds hsender.holds (hparties.grows hs.grows) hamounts (.inl rfl) hsender.meets hw₀
      (hbalance ▸ he hrefuses)
  · exact ⟨hne, ⟨w, hw, hwtype.trans (by simpa using htype)⟩,
      w', hw', hwtype'.trans (by simpa using htype')⟩

end Kori
