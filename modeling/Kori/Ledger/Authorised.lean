import Kori.Ledger.Entries

/-!
# Every recorded transaction is authorised

What the checks before the database transaction found out about the wallets can not
change later, so it holds of every row that has been recorded.
-/

namespace Kori

open Foundation

def transferTypes : List (TransactionType × WalletType × WalletType) :=
  [(.sendMoney, .personal, .personal), (.cashIn, .agent, .personal),
    (.cashOut, .personal, .agent), (.payment, .personal, .merchant)]

/-- The request that recorded `r` was made with the access token of the owner of the
sender's wallet, and the wallets are of the types for it. -/
structure Requested (c : State) (r : Transaction) : Prop where
  reported : ∃ q request response, c.calls q = some (.transfer request) ∧
    (q, .transferred response) ∈ c.out ∧ response.trxId = r.trxId ∧
    ∃ sender receiver, c.data.row (.wallet r.senderWalletId) = some sender ∧
      c.data.row (.wallet r.receiverWalletId) = some receiver ∧
      request.actor ≠ none ∧ sender.userId = request.actor ∧
      (r.type, sender.type, receiver.type) ∈ transferTypes

structure WellFormed (systemId : Uuid) (r : Transaction) : Prop where
  wallets : [r.senderWalletId, r.receiverWalletId, systemId].Nodup
  amount : 1 ≤ r.amount ∧ r.amount ≤ 10000000
  fee : ∃ amount fee : Money, amount.minorUnits = r.amount ∧ amount.currency = .bdt ∧
    calculateFee amount r.type = .ok fee ∧ fee.minorUnits = r.fee
  status : r.status = .completed

def recordedFee : (k : Key) → Row k → Int
  | .transaction _, r => Transaction.fee r
  | _, _ => 0

def Data.totalFees (t : Data) : Int := t.sum recordedFee

variable {env : Env} {p : Pid} {c c' : State} {r : Transaction}

theorem Requested.later (h : Requested c r) (hg : Grows c.data c'.data)
    (hout : ∀ x, x ∈ c.out → x ∈ c'.out)
    (hcalls : ∀ q call, c.calls q = some call → c'.calls q = some call) :
    Requested c' r := by
  obtain ⟨q, request, response, hcall, hsaid, htrx, sender, receiver, hsender, hreceiver,
    hactor, howner, htypes⟩ := h.reported
  obtain ⟨sender', hsender', howner', htype', -⟩ := hg.wallet hsender
  obtain ⟨receiver', hreceiver', -, htype'', -⟩ := hg.wallet hreceiver
  exact ⟨q, request, response, hcalls _ _ hcall, hout _ hsaid, htrx, sender', receiver',
    hsender', hreceiver', hactor, howner'.trans howner, htype' ▸ htype'' ▸ htypes⟩

theorem transferTypes_of_role {type : TransactionType} {role : Role}
    (h : endpointRole type = some role) :
    (type, senderType type, receiverType type) ∈ transferTypes := by
  cases type with
  | addMoney => simp [endpointRole] at h
  | sendMoney | cashIn | cashOut | payment =>
      simp [senderType, receiverType, transferTypes]

section Posted

variable {order : TransferOrder} {id : Uuid} {sender receiver system : Wallet}

theorem Committed.requested (h : Committed env p order id r sender receiver system c c')
    (hi : Inv env c) (hg : Guar env p c c') : Requested c' r := by
  obtain ⟨request, hcall, hordered⟩ := h.posting.request
  obtain ⟨hsender, hreceiver⟩ := h.posting.wallets
  obtain ⟨trxId, createdAt, hr⟩ := h.posting.record
  obtain ⟨actor, user, hactor, -, hrole, hindex⟩ := hordered.sender
  obtain ⟨w, hw, howner⟩ := hi.integrity.wallets.target actor _ hindex
  obtain rfl := Option.some.inj (hw.symm.trans h.posting.senderRow)
  obtain ⟨s, hs, hstype⟩ := hordered.senderType
  obtain rfl := Option.some.inj (hs.symm.trans h.posting.senderRow)
  obtain ⟨v, hv, hvtype⟩ := hordered.receiverType
  obtain rfl := Option.some.inj (hv.symm.trans h.posting.receiverRow)
  have htypes := transferTypes_of_role hrole
  have htype : r.type = request.endpoint := by
    rw [hr]
    exact hordered.type
  obtain ⟨s', hs', howner', hstype', -⟩ := (hg.data_grows hi).wallet hs
  obtain ⟨v', hv', -, hvtype', -⟩ := (hg.data_grows hi).wallet hv
  refine ⟨⟨p, request, order.response r (s.plus (-order.total)) (v.plus order.amount),
    hg.calls _ _ hcall, by simp [h.out], rfl, s', v', hsender ▸ hs', hreceiver ▸ hv',
    by simp [hactor], howner'.trans (howner.trans hactor.symm), ?_⟩⟩
  rw [hstype', hvtype', hstype, hvtype, htype, hordered.type]
  exact htypes

theorem Committed.wellFormed (h : Committed env p order id r sender receiver system c c')
    (hi : Inv env c) : WellFormed env.cachedSystemWalletId r := by
  obtain ⟨request, -, hordered⟩ := h.posting.request
  obtain ⟨hsender, hreceiver⟩ := h.posting.wallets
  obtain ⟨hss, hrs⟩ := h.posting.systemDistinct hi.integrity
  obtain ⟨hpositive, hlimit, hcurrency, hfee, -⟩ := calculateTransferMath_eq_ok hordered.amounts
  obtain ⟨trxId, createdAt, hr⟩ := h.posting.record
  have hsr := hordered.distinct
  rw [hordered.system] at hss hrs
  rw [hsender] at hss hsr
  rw [hreceiver] at hrs hsr
  constructor
  · simp [hsr, hss, hrs]
  · rw [hr]
    exact ⟨hpositive, hlimit⟩
  · refine ⟨order.amounts.transferAmount, order.amounts.feeAmount, ?_, hcurrency, ?_, ?_⟩
    · rw [hr]
      rfl
    · rw [hr]
      change calculateFee order.amounts.transferAmount order.type = _
      rw [hordered.type]
      exact hfee
    · rw [hr]
      rfl
  · rw [hr]
    rfl

theorem Committed.fees (h : Committed env p order id r sender receiver system c c')
    (hi : Inv env c) : Data.totalFees c'.data = Data.totalFees c.data + r.fee ∧
      Data.balance c'.data env.cachedSystemWalletId =
        Data.balance c.data env.cachedSystemWalletId + r.fee := by
  have hposting := h.posting
  obtain ⟨request, -, hordered⟩ := hposting.request
  obtain ⟨hsender, hreceiver⟩ := hposting.wallets
  obtain ⟨hss, hrs⟩ := hposting.systemDistinct hi.integrity
  rw [h.data]
  constructor
  · have hsame : Data.totalFees (order.post id r sender receiver system c.data) =
        Data.totalFees (c.data.put (.transaction id) r) := by
      apply Tables.sum_congr
      intro k
      cases k with
      | transaction id' =>
          unfold Tables.amountAt
          rw [order.post_transaction]
          by_cases hid : id' = id
          · subst id'
            simp
          · rw [if_neg hid, Tables.row_put_of_ne (by simpa using hid)]
      | _ =>
          unfold Tables.amountAt
          split <;> split <;> rfl
    have hput := c.data.sum_put recordedFee (.transaction id) r
    rw [Tables.amountAt_of_none hposting.newId] at hput
    rw [hsame]
    exact (Int.add_zero _).symm.trans hput
  · rw [hposting.balance hi.integrity, hordered.system]
    unfold Transaction.moves
    rw [hordered.system] at hss hrs
    rw [if_neg (hsender ▸ hss.symm), if_neg (hreceiver ▸ hrs.symm), if_pos rfl]
    omega

end Posted

theorem Undisturbed.fees {t t' : Data} (h : Undisturbed t t') : t'.totalFees = t.totalFees := by
  apply Tables.sum_congr
  intro k
  cases k with
  | transaction id =>
      unfold Tables.amountAt
      rw [h.transactions id]
  | _ =>
      unfold Tables.amountAt
      split <;> split <;> rfl

/-- The rows recorded since the opening, and what they have brought to the SYSTEM wallet. -/
structure Authorised (env : Env) (opening : Data) (c : State) : Prop where
  rows : ∀ id r, c.data.row (.transaction id) = some r →
    opening.row (.transaction id) = none →
      Requested c r ∧ WellFormed env.cachedSystemWalletId r
  fees : Data.balance c.data env.cachedSystemWalletId + Data.totalFees opening =
    Data.balance opening env.cachedSystemWalletId + Data.totalFees c.data
  credits : ∀ e ∈ c.data.log, e.walletId = env.cachedSystemWalletId → e.type = .debit →
    e ∈ opening.log

variable {opening : Data}

theorem Authorised.guar (h : Authorised env opening c) (hi : Inv env c)
    (hg : Guar env p c c') : Authorised env opening c' := by
  rcases hg.committed_or with ⟨order, id, r, sender, receiver, system, hc⟩ | ⟨hsame, -⟩
  · obtain ⟨hfees, hbalance⟩ := hc.fees hi
    have hold := h.fees
    refine ⟨fun id' r' hrow hnew => ?_, by omega, fun e he hsystem hdebit => ?_⟩
    · rw [hc.data, order.post_transaction] at hrow
      split at hrow
      · obtain rfl := Option.some.inj hrow
        exact ⟨hc.requested hi hg, hc.wellFormed hi⟩
      · obtain ⟨hrequested, hwell⟩ := h.rows id' r' hrow hnew
        exact ⟨hrequested.later (hg.data_grows hi) (fun _ => hg.said) hg.calls, hwell⟩
    · obtain ⟨request, -, hordered⟩ := hc.posting.request
      obtain ⟨hss, hrs⟩ := hc.posting.systemDistinct hi.integrity
      rw [hordered.system] at hss hrs
      rw [hc.data, order.post_log, List.mem_append] at he
      refine he.elim (fun he => h.credits e he hsystem hdebit) fun he => ?_
      rcases List.mem_cons.1 he with rfl | he
      · exact absurd hsystem hss
      rcases List.mem_cons.1 he with rfl | he
      · exact absurd hdebit (by simp [TransferOrder.credit])
      · split at he
        · simp at he
        · obtain rfl := List.mem_singleton.1 he
          exact absurd hdebit (by simp [TransferOrder.feeCredit])
  · refine ⟨fun id' r' hrow hnew => ?_, ?_, ?_⟩
    · rw [hsame.transactions] at hrow
      obtain ⟨hrequested, hwell⟩ := h.rows id' r' hrow hnew
      exact ⟨hrequested.later (hg.data_grows hi) (fun _ => hg.said) hg.calls, hwell⟩
    · rw [hsame.balances, hsame.fees]
      exact h.fees
    · rw [hsame.log]
      exact h.credits

theorem Authorised.still (h : Authorised env opening c) (hsame : Still c c') :
    Authorised env opening c' := by
  refine ⟨fun id r hrow hnew => ?_, hsame.data ▸ h.fees, hsame.data ▸ h.credits⟩
  obtain ⟨hrequested, hwell⟩ := h.rows id r (hsame.data ▸ hrow) hnew
  refine ⟨hrequested.later (hsame.data ▸ Grows.refl _) (fun _ hx => hsame.out ▸ hx)
    (fun _ _ hcall => hsame.calls ▸ hcall), hwell⟩

/-- Every recorded transaction is authorised, and no move lowers the SYSTEM balance,
which is the opening balance and all the fees. -/
theorem transactions_authorised {shared : Shared} {w : KoriWorld}
    (hopening : Opening env shared) (hr : Reachable (kori env) (World.idle shared) w) :
    Authorised env shared.db.committed w.conf ∧
      ∀ m w', w.move (kori env) m = some w' →
        Data.balance (State.data w.conf) env.cachedSystemWalletId ≤
          Data.balance (State.data w'.conf) env.cachedSystemWalletId := by
  constructor
  · refine run_preserves (P := Authorised env shared.db.committed) hopening.sound ?_
      (fun _ _ _ hi hg h => h.guar hi hg) (fun _ _ hsame h => h.still hsame) hr
    exact ⟨fun id r hrow hnew => by simp [World.idle, hnew] at hrow, rfl,
      fun e he _ _ => he⟩
  · intro m w' hmove
    have hs := (contract env).sound hopening.sound hr
    rcases link_cases ((contract env).sound_move hs hmove).1 with ⟨p, -, hg⟩ | hsame
    · rcases hg.committed_or with ⟨order, id, r, sender, receiver, system, hc⟩ | ⟨hsame, -⟩
      · have hbalance := (hc.fees hs.inv.1).2
        have hnonneg := hc.posting.fee_nonneg
        omega
      · exact (hsame.balances _).ge
    · rw [hsame.data]

/-- A customer sends 600 for a fee of 500. -/
theorem transactions_authorised_of_transfer : ∃ w,
    Reachable (kori Sample.env) (World.idle Sample.shared) w ∧
      Data.totalFees (State.data w.conf) = 500 ∧
      Authorised Sample.env Sample.data w.conf := by
  obtain ⟨w, hr, hfees⟩ := Sample.reaches
    (Sample.transferMoves 0 (Sample.transferRequest 1 "2" "600")
      (Sample.transferChoices 55 11 12))
    (fun w => Data.totalFees (State.data w.conf) = 500) (by decide +kernel)
  exact ⟨w, hr, of_decide_eq_true hfees, (transactions_authorised Sample.opening hr).1⟩

end Kori
