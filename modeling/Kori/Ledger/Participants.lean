import Kori.Ledger.Entries

/-!
# The participants of a transfer

What the locks of a transfer are good for: from the first write to the commit
the sender can pay, the three wallets are active and so are the accounts of
their owners.
-/

namespace Kori

open Foundation

variable {env : Env} {shared : Shared} {w w' : KoriWorld} {p : Pid} {c c' : State}
variable {order : TransferOrder} {id : Uuid} {r : Transaction}
variable {sender receiver system : Wallet}

/-! ## Spending -/

theorem Transaction.moves_sender {systemId : Uuid} (r : Transaction)
    (hreceiver : r.senderWalletId ≠ r.receiverWalletId)
    (hsystem : r.senderWalletId ≠ systemId) :
    r.moves systemId r.senderWalletId = -(r.amount + r.fee) := by
  simp [Transaction.moves, hreceiver, hsystem]

theorem Transaction.moves_nonneg (systemId : Uuid) {id : Uuid} {r : Transaction}
    (hamount : 0 ≤ r.amount) (hfee : 0 ≤ r.fee) (hid : id ≠ r.senderWalletId) :
    0 ≤ r.moves systemId id := by
  unfold Transaction.moves
  rw [if_neg hid]
  split <;> split <;> omega

theorem Posting.amount_nonneg (h : Posting env c p order id r sender receiver system) :
    0 ≤ r.amount := by
  rw [← h.amounts.1]
  exact order.amounts.transferAmount.nonneg

theorem Committed.spends (h : Committed env p order id r sender receiver system c c')
    (hi : Integrity env.cachedSystemWalletId c.data) :
    r.amount + r.fee ≤ c.data.balance r.senderWalletId ∧
      c'.data.balance r.senderWalletId =
        c.data.balance r.senderWalletId - (r.amount + r.fee) := by
  obtain ⟨hsender, hreceiver⟩ := h.posting.wallets
  obtain ⟨request, -, hordered⟩ := h.posting.request
  obtain ⟨-, -, htotal⟩ := h.posting.amounts
  constructor
  · rw [← hsender, Data.balance_of_row h.posting.senderRow, ← htotal]
    exact h.posting.funds
  · have hdistinct : r.senderWalletId ≠ r.receiverWalletId := by
      rw [← hsender, ← hreceiver]
      exact hordered.distinct
    have hsystem : r.senderWalletId ≠ order.systemWalletId := by
      rw [← hsender]
      exact (h.posting.systemDistinct hi).1
    rw [h.data, h.posting.balance hi, r.moves_sender hdistinct hsystem]
    omega

theorem Committed.balance_nonneg
    (h : Committed env p order id r sender receiver system c c')
    (hi : Integrity env.cachedSystemWalletId c.data) {id' : Uuid}
    (hnonneg : 0 ≤ c.data.balance id') : 0 ≤ c'.data.balance id' := by
  by_cases hid : id' = r.senderWalletId
  · subst id'
    obtain ⟨hfunds, hspent⟩ := h.spends hi
    omega
  · rw [h.data, h.posting.balance hi]
    have hmoves := Transaction.moves_nonneg order.systemWalletId
      h.posting.amount_nonneg h.posting.fee_nonneg hid
    omega

/-- No balance that was non-negative in `opening` is negative, and whatever has
been taken from a committed balance was there. -/
structure Solvent (opening : Data) (c : State) : Prop where
  committed : ∀ id, 0 ≤ opening.balance id → 0 ≤ c.data.balance id
  uncommitted : ∀ p own id before after, c.shared.db.tx p = some own →
    c.data.row (.wallet id) = some before → own.row (.wallet id) = some after →
    0 ≤ opening.balance id → 0 ≤ after.balance
  debits : ∀ p own id before after, c.shared.db.tx p = some own →
    c.data.row (.wallet id) = some before → own.row (.wallet id) = some after →
    after.balance < before.balance →
    ∃ tid r, own.row (.transaction tid) = some r ∧ r.senderWalletId = id ∧
      after.balance = before.balance - (r.amount + r.fee) ∧
      r.amount + r.fee ≤ before.balance

theorem Pending.debit {own : Data} (h : Pending env c p own) {id : Uuid}
    {before after : Wallet} (hbefore : c.data.row (.wallet id) = some before)
    (hafter : own.row (.wallet id) = some after) (hless : after.balance < before.balance) :
    ∃ tid r, own.row (.transaction tid) = some r ∧ r.senderWalletId = id ∧
      after.balance = before.balance - (r.amount + r.fee) ∧
      r.amount + r.fee ≤ before.balance := by
  obtain ⟨tid, r, hrow, rfl, hdiff⟩ := h.debits id before after hafter hbefore hless
  obtain ⟨request, order, sender, receiver, system, -, hordered, hparties, trxId, key,
    createdAt, rfl⟩ := h.covered tid r hrow
  have hbalance : before = sender := Option.some.inj (hbefore.symm.trans hparties.senderRow)
  subst before
  have htotal := calculateTransferMath_total hordered.amounts
  have hfunds := hparties.funds
  refine ⟨tid, _, hrow, rfl, by omega, ?_⟩
  simp only [TransferOrder.record]
  omega

/-- No wallet is overdrawn, whatever runs at the same time. -/
theorem no_overspending (hopening : Opening env shared)
    (hr : Reachable (kori env) (World.idle shared) w) :
    Solvent shared.db.committed w.conf ∧
      ∀ m w' id r, w.move (kori env) m = some w' →
        (State.data w.conf).row (.transaction id) = none →
        (State.data w'.conf).row (.transaction id) = some r →
        r.amount + r.fee ≤ (State.data w.conf).balance r.senderWalletId ∧
          (State.data w'.conf).balance r.senderWalletId =
            (State.data w.conf).balance r.senderWalletId - (r.amount + r.fee) := by
  have hinv := run_inv hopening.sound hr
  have hcommitted : ∀ id, 0 ≤ Data.balance shared.db.committed id →
      0 ≤ (State.data w.conf).balance id := by
    intro id h₀
    refine run_preserves (P := fun c => 0 ≤ (State.data c).balance id) hopening.sound h₀ ?_
      (fun _ _ hsame h => hsame.data ▸ h) hr
    intro p c c' hi hg h
    obtain ⟨order, id', r, sender, receiver, system, hc⟩ | ⟨hsame, -⟩ := hg.committed_or
    · exact hc.balance_nonneg hi.integrity h
    · rw [hsame.balances]
      exact h
  refine ⟨⟨hcommitted, ?_, ?_⟩, ?_⟩
  · intro p own id before after hown hbefore hafter h₀
    have hnonneg := hcommitted id h₀
    rw [Data.balance_of_row hbefore] at hnonneg
    by_cases hless : after.balance < before.balance
    · obtain ⟨tid, r, hrow, -, hspent, hfunds⟩ :=
        (hinv.pending p own hown).debit hbefore hafter hless
      omega
    · omega
  · exact fun p own id before after hown hbefore hafter hless =>
      (hinv.pending p own hown).debit hbefore hafter hless
  · intro m w' id r hmove hnew hrow
    obtain ⟨p, order, sender, receiver, system, hc⟩ :=
      committed_of_new ((contract env).sound hopening.sound hr) hmove hnew hrow
    exact hc.spends hinv.integrity

/-- A debit that has not been committed yet. -/
theorem no_overspending_of_transfer : ∃ w,
    Reachable (kori Sample.env) (World.idle Sample.shared) w ∧ Solvent Sample.data w.conf ∧
      (State.data w.conf).balance 11 = 1500 ∧ (w.conf.shared.db.tx 0).any (fun own =>
        (own.row (.wallet 11)).any fun after => after.balance = 400) = true := by
  obtain ⟨w, hr, hw⟩ := Sample.reaches
    (Sample.transferMoves 0 (Sample.transferRequest 1 "2" "600")
      ((Sample.transferChoices 55 11 12).take 29))
    (fun w => (State.data w.conf).balance 11 = 1500 && (w.conf.shared.db.tx 0).any fun own =>
      (own.row (.wallet 11)).any fun after => after.balance = 400) (by decide +kernel)
  rw [Bool.and_eq_true, decide_eq_true_eq] at hw
  exact ⟨w, hr, (no_overspending Sample.opening hr).1, hw⟩

/-! ## Freezes and suspensions -/

/-- The wallets of the transfer are active and so are their owners' accounts. -/
structure Cleared (systemId : Uuid) (t : Data) (r : Transaction) : Prop where
  sender : Usable (senderType r.type) r.senderWalletId t
  receiver : Usable (receiverType r.type) r.receiverWalletId t
  system : ∃ w, t.row (.wallet systemId) = some w ∧ w.type = .system ∧ w.isActive = true

theorem Ordered.cleared {request : TransferRequest} {trxId : JsString} {key : Uuid}
    {createdAt : Instant} (hordered : Ordered env request order c.data)
    (h : Participants c p order sender receiver system)
    (hi : Integrity env.cachedSystemWalletId c.data) :
    Cleared env.cachedSystemWalletId c.data (order.record trxId key createdAt) where
  sender := by
    obtain ⟨w, hw, htype⟩ := hordered.senderType
    obtain rfl := Option.some.inj (hw.symm.trans h.senderRow)
    exact ⟨w, hw, htype, h.senderActive, h.senderOwner⟩
  receiver := by
    obtain ⟨w, hw, htype⟩ := hordered.receiverType
    obtain rfl := Option.some.inj (hw.symm.trans h.receiverRow)
    exact ⟨w, hw, htype, h.receiverActive, h.receiverOwner⟩
  system := by
    obtain ⟨w, hw, -, htype, hactive⟩ := hi.system
    exact ⟨w, hw, htype, hactive⟩

theorem Usable.plus {type : WalletType} {id id' : Uuid} {w : Wallet} {t : Data}
    (h : Usable type id t) (hrow : t.row (.wallet id') = some w) (delta : Int) :
    Usable type id (t.put (.wallet id') (w.plus delta)) := by
  obtain ⟨w₀, hw₀, htype, hactive, howner⟩ := h
  have hsame : Data.ownerActive (t.put (.wallet id') (w.plus delta)) = t.ownerActive := by
    funext wallet
    unfold Data.ownerActive Data.accountActive
    simp
  by_cases hid : id = id'
  · subst id'
    obtain rfl := Option.some.inj (hw₀.symm.trans hrow)
    exact ⟨w₀.plus delta, Tables.row_put_self .., htype, hactive, hsame ▸ howner⟩
  · exact ⟨w₀, (Tables.row_put_of_ne (by simpa using hid) ..).trans hw₀, htype, hactive,
      hsame ▸ howner⟩

theorem Posting.usable (h : Posting env c p order id r sender receiver system)
    (hi : Integrity env.cachedSystemWalletId c.data) {type : WalletType} {id' : Uuid}
    (husable : Usable type id' c.data) :
    Usable type id' (order.post id r sender receiver system c.data) := by
  obtain ⟨hs, hr, hsys⟩ := h.rows hi
  have hrecord : Usable type id' (TransferOrder.postRecord id r c.data) := by
    obtain ⟨w, hw, htype, hactive, howner⟩ := husable
    refine ⟨w, by simpa [TransferOrder.postRecord] using hw, htype, hactive, ?_⟩
    simpa [TransferOrder.postRecord, Data.ownerActive, Data.accountActive] using howner
  have hcredit := (hrecord.plus hs (-order.total)).plus hr order.amount
  unfold TransferOrder.post TransferOrder.postFee
  split
  · exact hcredit
  · exact hcredit.plus hsys order.fee

/-- Frozen or suspended participants never move money: from the first write of a
transfer on, and when it has been committed, everyone involved is active. -/
theorem participants_active (hopening : Opening env shared)
    (hr : Reachable (kori env) (World.idle shared) w) :
    (∀ p own id r, w.conf.shared.db.tx p = some own →
      own.row (.transaction id) = some r →
      Cleared env.cachedSystemWalletId (State.data w.conf) r) ∧
    ∀ m w' id r, w.move (kori env) m = some w' →
      (State.data w.conf).row (.transaction id) = none →
      (State.data w'.conf).row (.transaction id) = some r →
      Cleared env.cachedSystemWalletId (State.data w.conf) r ∧
        Cleared env.cachedSystemWalletId (State.data w'.conf) r := by
  have hinv := run_inv hopening.sound hr
  refine ⟨?_, ?_⟩
  · intro p own id r hown hrow
    obtain ⟨request, order, sender, receiver, system, -, hordered, hparties, trxId, key,
      createdAt, rfl⟩ := (hinv.pending p own hown).covered id r hrow
    exact hordered.cleared hparties hinv.integrity
  · intro m w' id r hmove hnew hrow
    have hs := (contract env).sound hopening.sound hr
    obtain ⟨p, order, sender, receiver, system, hc⟩ := committed_of_new hs hmove hnew hrow
    obtain ⟨request, -, hordered⟩ := hc.posting.request
    obtain ⟨trxId, createdAt, hrecord⟩ := hc.posting.record
    have hbefore : Cleared env.cachedSystemWalletId (State.data w.conf) r := by
      rw [hrecord]
      exact hordered.cleared hc.posting.toParticipants hinv.integrity
    obtain ⟨wallet, hw, -, htype, hactive⟩ :=
      ((contract env).sound_move hs hmove).2.inv.1.integrity.system
    refine ⟨hbefore, ?_, ?_, ⟨wallet, hw, htype, hactive⟩⟩
    · rw [hc.data]
      exact hc.posting.usable hinv.integrity hbefore.sender
    · rw [hc.data]
      exact hc.posting.usable hinv.integrity hbefore.receiver

theorem participants_active_of_transfer : ∃ w own r,
    Reachable (kori Sample.env) (World.idle Sample.shared) w ∧
      w.conf.shared.db.tx 0 = some own ∧ own.row (.transaction 55) = some r ∧
      Cleared 100 (State.data w.conf) r := by
  obtain ⟨w, hr, hw⟩ := Sample.reaches
    (Sample.transferMoves 0 (Sample.transferRequest 1 "2" "600")
      ((Sample.transferChoices 55 11 12).take 29))
    (fun w => ((w.conf.shared.db.tx 0).bind fun own => own.row (.transaction 55)).isSome)
    (by decide +kernel)
  obtain ⟨r, hr'⟩ := Option.isSome_iff_exists.1 hw
  obtain ⟨own, hown, hrow⟩ := Option.bind_eq_some_iff.1 hr'
  exact ⟨w, own, r, hr, hown, hrow, (participants_active Sample.opening hr).1 0 own 55 r hown hrow⟩

end Kori
