import Kori.Contract.Preflight

/-!
# Transfers keep the contract

What the database transaction of a transfer knows after each of its statements:
the locks, the participants as they are under the locks, the record, and the
balance changes with their ledger entries, until everything is committed at once.
-/

namespace Kori

open Foundation Code

variable {env : Env} {σ : Scope} {p : Pid} {c c' : State} {X : Exn → Prop} {own : Data}
variable {request : TransferRequest} {order : TransferOrder}

theorem grounded_sql (e : SqlError) : Grounded env σ p request (.sql e) :=
  grounded_of_status (by simp [Exn.status])

/-! ## Locks -/

theorem lockWallets_works {ids : List Uuid} (hcall : Called p c)
    (htx : c.shared.db.tx p = some .empty) (hX : σ.Fails p → X (.sql .other))
    (hrows : ∀ s, Rely p c s → Inv env s → ∀ id ∈ ids,
      (s.data.row (.wallet id)).isSome) :
    Works env σ p (lockWallets ids)
      (fun _ c₁ => c₁.shared.db.tx p = some .empty ∧
        ∀ id ∈ ids, c₁.shared.db.lock (.wallet id) = some p) X c := by
  refine Leads.bind (R := fun snapshot c₁ => c₁.shared.db.tx p = some .empty ∧
      ∀ id ∈ ids, (snapshot.row (.wallet id)).isSome)
    (Reads.works (reads_select hcall hX ?_)) ?_
  · intro c₁ hr hi _ _
    have htx₁ := hr.tx.trans htx
    refine ⟨htx₁, fun id hid => ?_⟩
    rw [Store.view_of_open htx₁, Tables.empty_overlay]
    exact hrows c₁ hr hi id hid
  rintro snapshot c₁ hw₁ ⟨htx₁, hfound⟩
  have hcall₁ := hcall.within hw₁
  have hq : (Op.arrange ((ids.dedup.filter fun id =>
    (snapshot.row (.wallet id)).isSome).map .wallet)).Quiet := trivial
  refine Leads.bind (R := fun keys c₂ => c₂.shared.db.tx p = some .empty ∧
      ∀ id ∈ ids, .wallet id ∈ keys)
    (Reads.works (reads_ask hq hcall₁ ?_)) ?_
  · intro c₂ hr₂ _ _ choice keys s _ hexec
    have hdb := (hq.unmoved hexec).db
    cases choice <;> simp only [Shared.exec, reduceCtorEq] at hexec
    split at hexec
    · rename_i hperm
      simp only [Option.some.injEq, Prod.mk.injEq] at hexec
      obtain ⟨rfl, rfl⟩ := hexec
      refine ⟨hr₂.tx.trans htx₁, fun id hid => hperm.mem_iff.2 ?_⟩
      exact List.mem_map_of_mem (List.mem_filter.2 ⟨List.mem_dedup.2 hid, hfound id hid⟩)
    · simp at hexec
  rintro keys c₂ hw₂ ⟨htx₂, hkeys⟩
  -- a wallet is locked already or still to be locked
  refine (leads_forEach (K := fun rest c₃ => c₃.shared.db.tx p = some .empty ∧
    ∀ id ∈ ids, c₃.shared.db.lock (.wallet id) = some p ∨ .wallet id ∈ rest)
    ?_ ⟨htx₂, fun id hid => .inr (hkeys id hid)⟩).imp ?_ fun _ _ _ h => h
  · rintro k rest c₃ hw₃ ⟨htx₃, hrest⟩
    refine (works_lock ((hcall₁.within hw₂).within hw₃) htx₃ hX).imp ?_ fun _ _ _ h => h
    rintro _ c₄ hw₄ ⟨htx₄, hlock⟩
    refine ⟨htx₄, fun id hid => ?_⟩
    obtain hold | hmem := hrest id hid
    · exact .inl (hw₄.lock _ hold)
    · obtain rfl | hmem := List.mem_cons.1 hmem
      · exact .inl hlock
      · exact .inr hmem
  · rintro _ c₃ _ ⟨htx₃, hlocked⟩
    exact ⟨htx₃, fun id hid => (hlocked id hid).resolve_right (by simp)⟩

/-! ## The participants under the locks -/

structure Locked (p : Pid) (id : Uuid) (w : Wallet) (c : State) : Prop where
  holds : Holds p (.wallet id) (some w) c
  active : w.isActive = true

theorem Locked.within {id : Uuid} {w : Wallet} (h : Locked p id w c) (hw : Within p c c') :
    Locked p id w c' :=
  ⟨h.holds.within hw, h.active⟩

structure Looked (σ : Scope) (p : Pid) (id : Uuid) (found : Option Wallet) (s c : State) :
    Prop where
  holds : σ.holds s
  meets : σ.meets p (.sql (.select (.lockedWallet id))) .go s
  missing : found = none → ∀ type, ¬Usable type id s.data
  row : ∀ w, found = some w → s.data.row (.wallet id) = some w
  locked : ∀ w, found = some w → Locked p id w c ∧ c.data.ownerActive w = true

theorem Looked.rely {id : Uuid} {found : Option Wallet} {s : State}
    (h : Looked σ p id found s c) (hr : Rely p c c') : Looked σ p id found s c' where
  holds := h.holds
  meets := h.meets
  missing := h.missing
  row := h.row
  locked w hw := by
    obtain ⟨hlocked, howner⟩ := h.locked w hw
    exact ⟨hlocked.within hr.within,
      hr.within.ownerActive hlocked.holds.lock hlocked.holds.row howner⟩

theorem findLockedWallet_reads {id : Uuid} (hcall : Called p c)
    (htx : c.shared.db.tx p = some .empty)
    (hlock : c.shared.db.lock (.wallet id) = some p) (hX : σ.Fails p → X (.sql .other)) :
    Reads env σ p (findLockedWallet id)
      (fun found c₁ => ∃ s, Rely p c s ∧ Looked σ p id found s c₁) X c := by
  refine Leads.bind (R := fun snapshot c₁ => σ.holds c₁ ∧
      σ.meets p (.sql (.select (.lockedWallet id))) .go c₁ ∧ snapshot = State.data c₁)
    (reads_select hcall hX ?_) ?_
  · intro c₁ hr _ hσ hmeets
    refine ⟨hσ, hmeets, ?_⟩
    rw [Store.view_of_open (hr.tx.trans htx), Tables.empty_overlay]
  · rintro snapshot c₁ hr ⟨hσ, hmeets, rfl⟩
    refine leads_pure ⟨c₁, hr, hσ, hmeets, ?_, ?_, ?_⟩
    · rintro hnone type ⟨w, hw, -, hactive, howner⟩
      simp [hw, hactive, howner] at hnone
    · intro w hw
      exact (Option.filter_eq_some_iff.1 hw).1
    · intro w hw
      obtain ⟨hrow, hw⟩ := Option.filter_eq_some_iff.1 hw
      simp only [Bool.and_eq_true] at hw
      exact ⟨⟨⟨(hr.lock _).2 hlock, hrow⟩, hw.1⟩, hw.2⟩

theorem findLockedSystem_reads {id : Uuid} (hcall : Called p c)
    (htx : c.shared.db.tx p = some .empty)
    (hlock : c.shared.db.lock (.wallet id) = some p) (hX : σ.Fails p → X (.sql .other))
    (hsystem : id = env.cachedSystemWalletId) :
    Reads env σ p (findLockedSystem id)
      (fun found c₁ => ∃ w, found = some w ∧ Locked p id w c₁ ∧ w.type = .system) X c := by
  refine Leads.bind (R := fun snapshot c₁ => Inv env c₁ ∧ snapshot = State.data c₁)
    (reads_select hcall hX ?_) ?_
  · intro c₁ hr hi _ _
    refine ⟨hi, ?_⟩
    rw [Store.view_of_open (hr.tx.trans htx), Tables.empty_overlay]
  · rintro snapshot c₁ hr ⟨hi, rfl⟩
    obtain ⟨w, hrow, -, htype, hactive⟩ := hi.integrity.system
    rw [← hsystem] at hrow
    refine leads_pure ⟨w, by simp [hrow, hactive], ⟨⟨(hr.lock _).2 hlock, hrow⟩, hactive⟩,
      htype⟩

theorem Ordered.parties {t : Data} (h : Ordered env request order t) :
    Parties env request order.senderWalletId order.receiverWalletId t where
  sender := by
    obtain ⟨actor, -, hactor, -, -, hrow⟩ := h.sender
    exact ⟨actor, hactor, hrow⟩
  receiver := by
    obtain ⟨phone, userId, -, hphone, huser, hrow⟩ := h.receiver
    exact ⟨phone, userId, hphone, huser, hrow⟩

structure Fetched (σ : Scope) (p : Pid) (order : TransferOrder)
    (wallets : Wallet × Wallet × Wallet) (c₀ c : State) : Prop where
  sender : Locked p order.senderWalletId wallets.1 c
  senderOwner : c.data.ownerActive wallets.1 = true
  receiver : Locked p order.receiverWalletId wallets.2.1 c
  receiverOwner : c.data.ownerActive wallets.2.1 = true
  system : Locked p order.systemWalletId wallets.2.2 c
  systemType : wallets.2.2.type = .system
  seen : ∃ s, Rely p c₀ s ∧ σ.holds s ∧
    σ.meets p (.sql (.select (.lockedWallet order.senderWalletId))) .go s ∧
    s.data.row (.wallet order.senderWalletId) = some wallets.1

theorem fetchLocked_reads (hcall : Called p c) (htx : c.shared.db.tx p = some .empty)
    (hordered : Ordered env request order c.data)
    (hsender : c.shared.db.lock (.wallet order.senderWalletId) = some p)
    (hreceiver : c.shared.db.lock (.wallet order.receiverWalletId) = some p)
    (hsystem : c.shared.db.lock (.wallet order.systemWalletId) = some p) :
    Reads env σ p (fetchLocked order) (fun wallets c₁ => Fetched σ p order wallets c c₁)
      (Grounded env σ p request) c := by
  refine Leads.bind (reads_both hcall
    (findLockedWallet_reads hcall htx hsender fun _ => grounded_sql _)
    (reads_both hcall (findLockedWallet_reads hcall htx hreceiver fun _ => grounded_sql _)
      (findLockedSystem_reads hcall htx hsystem (fun _ => grounded_sql _) hordered.system)
      ?_ ?_) ?_ ?_) ?_
  · exact fun _ _ _ hr ⟨s, hs, h⟩ => ⟨s, hs, h.rely hr⟩
  · exact fun _ _ _ hr ⟨w, hw, hlocked, htype⟩ => ⟨w, hw, hlocked.within hr.within, htype⟩
  · exact fun _ _ _ hr ⟨s, hs, h⟩ => ⟨s, hs, h.rely hr⟩
  · rintro _ _ _ hr ⟨⟨s, hs, h⟩, w, hw, hlocked, htype⟩
    exact ⟨⟨s, hs, h.rely hr⟩, w, hw, hlocked.within hr.within, htype⟩
  rintro ⟨lockedSender, lockedReceiver, lockedSystem⟩ c₁ hr₁
    ⟨⟨s, hs, hlookS⟩, ⟨⟨s', hs', hlookR⟩, system, rfl, hlocked, htype⟩⟩
  dsimp only
  cases lockedSender with
  | none =>
      exact leads_throw fun _ => .wallets hlookS.holds (hordered.parties.grows hs.grows)
        (.inl (hlookS.missing rfl _))
  | some sender =>
      cases lockedReceiver with
      | none =>
          exact leads_throw fun _ => .wallets hlookR.holds
            (hordered.parties.grows hs'.grows) (.inr (hlookR.missing rfl _))
      | some receiver =>
          obtain ⟨hS, hSowner⟩ := hlookS.locked sender rfl
          obtain ⟨hR, hRowner⟩ := hlookR.locked receiver rfl
          exact leads_pure ⟨hS, hSowner, hR, hRowner, hlocked, htype,
            s, hs, hlookS.holds, hlookS.meets, hlookS.row sender rfl⟩

theorem Fetched.participants {wallets : Wallet × Wallet × Wallet} {c₀ : State}
    (h : Fetched σ p order wallets c₀ c)
    (hfunds : order.amounts.totalRequiredAmount.minorUnits ≤ wallets.1.balance) :
    Participants c p order wallets.1 wallets.2.1 wallets.2.2 where
  senderLock := h.sender.holds.lock
  receiverLock := h.receiver.holds.lock
  systemLock := h.system.holds.lock
  senderRow := h.sender.holds.row
  receiverRow := h.receiver.holds.row
  systemRow := h.system.holds.row
  senderActive := h.sender.active
  receiverActive := h.receiver.active
  systemActive := h.system.active
  senderOwner := h.senderOwner
  receiverOwner := h.receiverOwner
  funds := hfunds

theorem Fetched.systemDistinct {wallets : Wallet × Wallet × Wallet} {c₀ : State}
    (h : Fetched σ p order wallets c₀ c) (hordered : Ordered env request order c.data) :
    order.systemWalletId ≠ order.senderWalletId ∧
      order.systemWalletId ≠ order.receiverWalletId := by
  have hsystem := h.system.holds.row
  constructor
  · intro heq
    obtain ⟨w, hw, htype⟩ := hordered.senderType
    rw [← heq, hsystem, Option.some.injEq] at hw
    exact senderType_ne_system order.type (htype.symm.trans (hw ▸ h.systemType))
  · intro heq
    obtain ⟨w, hw, htype⟩ := hordered.receiverType
    rw [← heq, hsystem, Option.some.injEq] at hw
    exact receiverType_ne_system order.type (htype.symm.trans (hw ▸ h.systemType))

/-! ## The record -/

/-- The transaction row is written, and nobody else can write one like it. -/
structure Booked (env : Env) (c : State) (p : Pid) (request : TransferRequest)
    (order : TransferOrder) (id : Uuid) (r : Transaction) (sender receiver system : Wallet) :
    Prop where
  call : c.calls p = some (.transfer request)
  ordered : Ordered env request order c.data
  participants : Participants c p order sender receiver system
  distinct : order.systemWalletId ≠ order.senderWalletId ∧
    order.systemWalletId ≠ order.receiverWalletId
  record : ∃ trxId createdAt, r = order.record trxId r.idempotencyKey createdAt
  key : env.castUuid order.idempotencyKey = some r.idempotencyKey
  newId : Holds p (.transaction id) none c
  newTrxId : Holds p (.transactionByTrxId r.trxId) none c
  newKey : Holds p (.transactionByKey r.idempotencyKey) none c

section Booked

variable {id : Uuid} {r : Transaction} {sender receiver system : Wallet}

theorem Booked.within (h : Booked env c p request order id r sender receiver system)
    (hw : Within p c c') : Booked env c' p request order id r sender receiver system where
  call := hw.calls _ _ h.call
  ordered := h.ordered.grows hw.grows
  participants := h.participants.within hw
  distinct := h.distinct
  record := h.record
  key := h.key
  newId := h.newId.within hw
  newTrxId := h.newTrxId.within hw
  newKey := h.newKey.within hw

theorem Booked.posting (h : Booked env c p request order id r sender receiver system) :
    Posting env c p order id r sender receiver system where
  toParticipants := h.participants
  request := ⟨request, h.call, h.ordered⟩
  record := h.record
  key := h.key
  newId := h.newId.row
  newTrxId := h.newTrxId.row
  newKey := h.newKey.row

theorem Booked.total (h : Booked env c p request order id r sender receiver system) :
    order.total = r.amount + r.fee := by
  obtain ⟨trxId, createdAt, hr⟩ := h.record
  rw [hr]
  exact calculateTransferMath_total h.ordered.amounts

end Booked

theorem createTransaction_works {sender receiver system : Wallet}
    (hcall : c.calls p = some (.transfer request))
    (hordered : Ordered env request order c.data)
    (hparticipants : Participants c p order sender receiver system)
    (hdistinct : order.systemWalletId ≠ order.senderWalletId ∧
      order.systemWalletId ≠ order.receiverWalletId)
    (htx : c.shared.db.tx p = some .empty) :
    Works env σ p (createTransaction env order)
      (fun result c₁ => Booked env c₁ p request order result.1 result.2 sender receiver system ∧
        c₁.shared.db.tx p =
          some (TransferOrder.postRecord result.1 result.2 .empty))
      (Grounded env σ p request) c := by
  have hcalled : Called p c := ⟨_, hcall⟩
  refine Leads.bind (works_ask (by trivial) hcalled htx) fun now c₁ hw₁ htx₁ => ?_
  refine Leads.bind (works_ask (by trivial) (hcalled.within hw₁) htx₁)
    fun random c₂ hw₂ htx₂ => ?_
  have hw := hw₁.trans hw₂
  refine Leads.bind (works_ask (by trivial) (hcalled.within hw) htx₂)
    fun id c₃ hw₃ htx₃ => ?_
  replace hw := hw.trans hw₃
  refine Leads.bind (works_ask (by trivial) (hcalled.within hw) htx₃)
    fun createdAt c₄ hw₄ htx₄ => ?_
  replace hw := hw.trans hw₄
  split
  · exact leads_throw (grounded_sql _)
  rename_i key hkey
  refine Leads.bind (works_insert (hcalled.within hw) htx₄ (fun _ => grounded_sql _)
    (grounded_sql _) ?_) ?_
  · intro c₅ hw₅ hp hnew _
    replace hw := hw.trans hw₅
    exact hp.put_transaction hnew ⟨request, order, sender, receiver, system,
      hw.calls _ _ hcall, hordered.grows hw.grows, hparticipants.within hw, _, _, _, rfl⟩
  rintro _ c₅ hw₅ ⟨htx₅, hnewId⟩
  replace hw := hw.trans hw₅
  refine Leads.bind (works_insert (hcalled.within hw) htx₅ (fun _ => grounded_sql _)
    (grounded_sql _) fun _ _ hp _ _ => hp.put_other (by simp) (by simp)) ?_
  rintro _ c₆ hw₆ ⟨htx₆, hnewTrxId⟩
  replace hw := hw.trans hw₆
  refine Leads.bind (works_insert (hcalled.within hw) htx₆ (fun _ => grounded_sql _)
    (grounded_sql _) fun _ _ hp _ _ => hp.put_other (by simp) (by simp)) ?_
  rintro _ c₇ hw₇ ⟨htx₇, hnewKey⟩
  replace hw := hw.trans hw₇
  exact leads_pure ⟨{
    call := hw.calls _ _ hcall
    ordered := hordered.grows hw.grows
    participants := hparticipants.within hw
    distinct := hdistinct
    record := ⟨_, _, rfl⟩
    key := hkey
    newId := (hnewId.within hw₆).within hw₇
    newTrxId := hnewTrxId.within hw₇
    newKey := hnewKey }, htx₇⟩

/-! ## Balances and ledger entries -/

theorem addBalance_eq_ok {delta : Int} {w : Wallet} {result : Option Wallet}
    (h : addBalance delta w = .ok result) : result = some (w.plus delta) := by
  unfold addBalance at h
  dsimp only at h
  split at h
  · exact (Except.ok.inj h).symm
  · simp at h

theorem updateBalance_works {id : Uuid} {delta : Int} {w : Wallet} (hcall : Called p c)
    (htx : c.shared.db.tx p = some own) (hfresh : own.row (.wallet id) = none)
    (hholds : Holds p (.wallet id) (some w) c) (hX : ∀ e, X (.sql e))
    (hpending : w.balance + delta < w.balance → ∃ tid r,
      own.row (.transaction tid) = some r ∧ r.senderWalletId = id ∧
        w.balance - (w.balance + delta) = r.amount + r.fee) :
    Works env σ p (updateBalance id delta)
      (fun updated c₁ => updated = w.plus delta ∧
        c₁.shared.db.tx p = some (own.put (.wallet id) (w.plus delta))) X c := by
  refine Leads.bind (R := fun updated c₁ => ∀ w', updated = some w' → w' = w.plus delta ∧
    c₁.shared.db.tx p = some (own.put (.wallet id) (w.plus delta)))
    (works_update hcall htx hfresh (fun _ => hX _) (fun _ _ _ => hX _) (by simp) ?_ ?_) ?_
  · intro c₁ v v' hw _ hp hrow hchange
    have hv := (hholds.within hw).row
    rw [hrow, Option.some.injEq] at hv
    subst v
    obtain rfl := Option.some.inj (addBalance_eq_ok hchange)
    refine hp.put_wallet fun w₁ hw₁ hlt => ?_
    rw [hrow, Option.some.injEq] at hw₁
    exact hw₁ ▸ hpending (hw₁ ▸ hlt)
  · intro c₁ v v' hw htx₁ hrow hchange w' hw'
    have hv := (hholds.within hw).row
    rw [hrow.row, Option.some.injEq] at hv
    subst v
    obtain rfl := Option.some.inj (addBalance_eq_ok hchange)
    exact ⟨(Option.some.inj hw').symm, htx₁⟩
  · intro updated c₁ _ hupdated
    cases updated with
    | none => exact leads_throw (hX _)
    | some w' => exact leads_pure (hupdated w' rfl)

section Post

variable {id : Uuid} {r : Transaction} {sender receiver system : Wallet}

theorem collectFee_works (hb : Booked env c p request order id r sender receiver system)
    (htx : c.shared.db.tx p = some own)
    (hfresh : own.row (.wallet order.systemWalletId) = none) :
    Works env σ p (collectFee order id r.trxId)
      (fun _ c₁ => c₁.shared.db.tx p = some (order.postFee id r system own))
      (Grounded env σ p request) c := by
  have hcalled : Called p c := ⟨_, hb.call⟩
  unfold collectFee TransferOrder.postFee
  split
  · exact leads_pure htx
  · refine Leads.bind (updateBalance_works hcalled htx hfresh
      ⟨hb.participants.systemLock, hb.participants.systemRow⟩ grounded_sql ?_) ?_
    · intro hlt
      have := order.amounts.feeAmount.nonneg
      omega
    · rintro _ c₁ hw₁ ⟨rfl, htx₁⟩
      exact works_append (hcalled.within hw₁) htx₁ fun _ => grounded_sql _

theorem postLedger_works (hb : Booked env c p request order id r sender receiver system)
    (htx : c.shared.db.tx p = some (TransferOrder.postRecord id r .empty)) :
    Works env σ p (postLedger order id r)
      (fun response c₁ => response = order.response r (sender.plus (-order.total))
          (receiver.plus order.amount) ∧
        c₁.shared.db.tx p = some (order.post id r sender receiver system .empty))
      (Grounded env σ p request) c := by
  have hcalled : Called p c := ⟨_, hb.call⟩
  have hne := hb.ordered.distinct
  refine Leads.bind (updateBalance_works hcalled htx (by simp [TransferOrder.postRecord])
    ⟨hb.participants.senderLock, hb.participants.senderRow⟩ grounded_sql ?_) ?_
  · intro _
    obtain ⟨trxId, createdAt, hr⟩ := hb.record
    refine ⟨id, r, by simp [TransferOrder.postRecord], by rw [hr]; rfl, ?_⟩
    rw [← hb.total]
    change _ - (_ + -order.total) = order.total
    omega
  rintro _ c₁ hw₁ ⟨rfl, htx₁⟩
  refine Leads.bind (works_append (hcalled.within hw₁) htx₁ fun _ => grounded_sql _)
    fun _ c₂ hw₂ htx₂ => ?_
  replace hw₂ := hw₁.trans hw₂
  have hb₂ := hb.within hw₂
  refine Leads.bind (updateBalance_works (hcalled.within hw₂) htx₂
    (by simp [TransferOrder.postRecord, Ne.symm hne])
    ⟨hb₂.participants.receiverLock, hb₂.participants.receiverRow⟩ grounded_sql ?_) ?_
  · intro hlt
    have := order.amounts.transferAmount.nonneg
    omega
  rintro _ c₃ hw₃ ⟨rfl, htx₃⟩
  replace hw₃ := hw₂.trans hw₃
  refine Leads.bind (works_append (hcalled.within hw₃) htx₃ fun _ => grounded_sql _)
    fun _ c₄ hw₄ htx₄ => ?_
  replace hw₄ := hw₃.trans hw₄
  refine Leads.bind (collectFee_works (hb.within hw₄) htx₄
    (by simp [TransferOrder.postRecord, hb.distinct])) fun _ c₅ _ htx₅ => ?_
  exact leads_pure ⟨rfl, htx₅⟩

end Post

/-! ## The whole transaction -/

theorem acidBlock_works (hcall : c.calls p = some (.transfer request))
    (hordered : Ordered env request order c.data)
    (htx : c.shared.db.tx p = some .empty) :
    Works env σ p (acidBlock env order)
      (fun response c₁ => ∃ id r sender receiver system,
        Booked env c₁ p request order id r sender receiver system ∧
        response = order.response r (sender.plus (-order.total))
          (receiver.plus order.amount) ∧
        c₁.shared.db.tx p = some (order.post id r sender receiver system .empty))
      (Grounded env σ p request) c := by
  have hcalled : Called p c := ⟨_, hcall⟩
  refine Leads.bind (lockWallets_works hcalled htx (fun _ => grounded_sql _) ?_) ?_
  · intro s hr hi id hid
    have hs := hordered.grows hr.grows
    simp only [List.mem_insertionSort, List.mem_cons, List.not_mem_nil, or_false] at hid
    obtain rfl | rfl | rfl := hid
    · obtain ⟨w, hw, -⟩ := hs.senderType
      simp [hw]
    · obtain ⟨w, hw, -⟩ := hs.receiverType
      simp [hw]
    · obtain ⟨w, hw, -⟩ := hi.integrity.system
      rw [hs.system, hw]
      rfl
  rintro _ c₁ hw₁ ⟨htx₁, hlocks⟩
  have hordered₁ := hordered.grows hw₁.grows
  simp only [List.mem_insertionSort, List.mem_cons, List.not_mem_nil, or_false,
    forall_eq_or_imp, forall_eq] at hlocks
  obtain ⟨hsender, hreceiver, hsystem⟩ := hlocks
  refine Leads.bind ((fetchLocked_reads (hcalled.within hw₁) htx₁ hordered₁ hsender
    hreceiver hsystem).inside htx₁) ?_
  rintro ⟨sender, receiver, system⟩ c₂ hw₂ ⟨hfetched, htx₂⟩
  have hordered₂ := hordered₁.grows hw₂.grows
  obtain ⟨s, hs, hσ, hmeets, hrow⟩ := hfetched.seen
  refine Leads.bind (R := fun _ c₃ => c₃ = c₂ ∧ order.total ≤ sender.balance)
    (assertFunds_leads (fun e he hrefuses => ?_) fun hfunds => ⟨rfl, hfunds⟩) ?_
  · exact .funds hσ (hordered₁.parties.grows hs.grows) hordered.amounts (.inr rfl) hmeets
      hrow (he hrefuses)
  rintro _ _ - ⟨rfl, hfunds⟩
  refine Leads.bind (createTransaction_works ((hw₁.trans hw₂).calls _ _ hcall) hordered₂
    (hfetched.participants hfunds) (hfetched.systemDistinct hordered₂) htx₂) ?_
  rintro ⟨id, r⟩ c₄ hw₄ ⟨hb, htx₄⟩
  refine (postLedger_works hb htx₄).imp ?_ fun _ _ _ h => h
  rintro response c₅ hw₅ ⟨hresponse, htx₅⟩
  exact ⟨id, r, sender, receiver, system, hb.within hw₅, hresponse, htx₅⟩

/-- The step in which a transfer commits, with the response it is answered with. -/
structure Transferred (env : Env) (σ : Scope) (p : Pid)
    (response : TransactionResultResponse) (s s' : State) : Prop where
  step : ∃ shared, s' = s.withShared shared
  guar : Guar env p s (s'.tell p [.transferred response])
  holds : σ.holds s
  posting : ∃ order id r sender receiver system,
    Posting env s p order id r sender receiver system

theorem executeACIDTransfer_settles (hs : (terms env σ).Silent p c c') (hidle : Idle p c')
    (hcall : c'.calls p = some (.transfer request))
    (hordered : Ordered env request order c'.data) :
    Answers env σ p (executeACIDTransfer env order)
      (fun response s s' => Transferred env σ p response s s' ∧ Ended p c' s')
      (fun e s s' => (terms env σ).Silent p s s' ∧ Ended p c' s' ∧
        Grounded env σ p request e) c c' := by
  refine settles_tryCatch.2 (settles_transaction (X := Grounded env σ p request) hs hidle
    (fun _ => grounded_sql _) (fun c₁ hw₁ htx₁ => acidBlock_works (hw₁.calls _ _ hcall)
      (hordered.grows hw₁.grows) htx₁) ?_ ?_)
  · rintro response c₁ c₂ hw₁ ⟨id, r, sender, receiver, system, hb, rfl, htx₁⟩ hr₂ _ hσ₂
      hended
    have hpost := (hb.within hr₂.within).posting
    refine ⟨⟨⟨_, rfl⟩, guar_publish ((hidle.called.within hw₁).rely hr₂)
      (Store.commit_frame _ _) hended.tx ?_, hσ₂, order, id, r, sender, receiver, system,
      hpost⟩, hended⟩
    have hview : (c₂.shared.db.commit p).committed =
        order.post id r sender receiver system c₂.data := by
      change c₂.shared.db.view p = _
      rw [Store.view_of_open (hr₂.tx.trans htx₁), TransferOrder.post_overlay,
        Tables.empty_overlay]
    rw [hview]
    exact .transferred hpost
  · intro e c₁ c₂ hs₂ hended he
    split
    · exact ⟨hs₂, hended, fun h => absurd rfl h.2⟩
    · exact ⟨hs₂, hended, he⟩

/-! ## The four operations -/

theorem endpointHandler_eq (env : Env) {endpoint : TransactionType}
    (h : endpointRole endpoint ≠ none) :
    endpointHandler env endpoint = transferBetween env endpoint (senderType endpoint)
      (receiverType endpoint) (endpointReference endpoint) := by
  cases endpoint <;> first | rfl | exact absurd rfl h

theorem phoneNumberFrom_reads {value : JsString} (hX : ∀ message,
    X (.invalidPhoneNumber message)) :
    Reads env σ p (phoneNumberFrom env value) (fun phone _ => trim value ≠ [] ∧
      env.parsePhoneNumber (trim value) = some phone) X c := by
  unfold phoneNumberFrom
  dsimp only
  split
  · exact leads_throw (hX _)
  · rename_i hne
    split
    · exact leads_throw (hX _)
    · rename_i phone hphone
      exact leads_pure ⟨hne, hphone⟩

theorem endpointHandler_settles {sub : Uuid} {role : Role} {key : JsString}
    (hs : (terms env σ).Silent p c c') (hidle : Idle p c')
    (hcall : c'.calls p = some (.transfer request))
    (hrole : endpointRole request.endpoint = some role)
    (hactor : request.actor = some sub) (hvetted : Vetted σ sub role c'.data)
    (hkey : request.idempotencyKey = some key) (hgiven : key ≠ [])
    (hvalid : env.validates (.transfer request.endpoint request.body) = true) :
    Answers env σ p (endpointHandler env request.endpoint sub request.body key)
      (fun response s s' => Transferred env σ p response s s' ∧ Ended p c' s')
      (fun e s s' => (terms env σ).Silent p s s' ∧ Ended p c' s' ∧
        Grounded env σ p request e) c c' := by
  rw [endpointHandler_eq env (by simp [hrole])]
  have hfault : ∀ {e : Exn}, 500 ≤ e.status → Grounded env σ p request e :=
    grounded_of_status
  refine Reads.settles_bind (phoneNumberFrom_reads (X := Grounded env σ p request)
    fun _ => hfault (by simp [Exn.status])) hs ?_
    fun e c₁ c₂ hs₂ hr₂ he => ⟨hs₂, hr₂.ended hidle.tx, he⟩
  rintro phone c₁ c₂ hs₂ hr₂ ⟨htrim, hphone⟩
  refine Reads.settles_bind (X := Grounded env σ p request) (Q := fun amounts c₃ =>
      calculateTransferMath request.body.amountMinorUnits request.endpoint = .ok amounts)
    (liftAmounts_leads (fun e he hrefuses => .inadmissible (he hrefuses))
      fun amounts hamounts => hamounts) hs₂ ?_
    fun e c₃ c₄ hs₄ hr₄ he => ⟨hs₄, (hr₂.trans hr₄).ended hidle.tx, he⟩
  intro amounts c₃ c₄ hs₄ hr₄ hamounts
  have hr := hr₂.trans hr₄
  have hidle₄ := hidle.rely hr
  refine Reads.settles_bind (reads_both hidle₄.called
    (getOwnWalletId_reads hidle₄.called hidle₄.tx hactor)
    (resolveWalletIdByPhone_reads hidle₄.called hidle₄.tx hphone)
    (fun _ _ _ hr h => hr.grows.walletByUser h) ?_) hs₄ ?_
    fun e c₅ c₆ hs₆ hr₆ he => ⟨hs₆, (hr.trans hr₆).ended hidle.tx, he⟩
  · rintro _ _ _ hr ⟨userId, huser, hrow⟩
    exact ⟨userId, hr.grows.userByPhone huser, hr.grows.walletByUser hrow⟩
  rintro ⟨sender, receiver⟩ c₅ c₆ hs₆ hr₆ ⟨hsender, userId, huser, hreceiver⟩
  replace hr := hr.trans hr₆
  have hidle₆ := hidle.rely hr
  obtain ⟨s, user, hσ, huserRow, huserRole, hgrows⟩ := hvetted.grows hr.grows
  refine Reads.settles_bind (assertTransferEligibility_reads hidle₆.called hidle₆.tx
    ⟨s, hσ, hgrows⟩ ⟨⟨sub, hactor, hsender⟩, phone, userId, hphone, huser, hreceiver⟩
    hamounts) hs₆ ?_
    fun e c₇ c₈ hs₈ hr₈ he => ⟨hs₈, (hr.trans hr₈).ended hidle.tx, he⟩
  rintro _ c₇ c₈ hs₈ hr₈ ⟨hne, hsenderType, hreceiverType⟩
  replace hr := hr.trans hr₈
  obtain ⟨user', huserRow', -, huserRole'⟩ := (hgrows.trans hr₈.grows).user huserRow
  refine (executeACIDTransfer_settles hs₈ (hidle.rely hr) (hr.calls _ _ hcall) ?_).imp
    (fun _ _ _ h => ⟨h.1, ?_⟩) fun _ _ _ h => ⟨h.1, ?_, h.2.2⟩
  · exact {
      key := hkey
      keyGiven := hgiven
      valid := hvalid
      type := rfl
      amounts := hamounts
      system := rfl
      reference := rfl
      sender := ⟨sub, user', hactor, huserRow',
        hrole.trans (congrArg some (huserRole'.trans huserRole).symm),
        hr₈.grows.walletByUser hsender⟩
      receiver := ⟨phone, userId, htrim, hphone, hr₈.grows.userByPhone huser,
        hr₈.grows.walletByUser hreceiver⟩
      distinct := hne
      senderType := hsenderType
      receiverType := hreceiverType }
  · exact (hr.ended hidle.tx).trans h.2
  · exact (hr.ended hidle.tx).trans h.2.1

end Kori
