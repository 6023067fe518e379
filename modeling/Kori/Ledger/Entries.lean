import Kori.Contract.Runs
import Kori.Foundation.RowSum

/-!
# Balances, transactions and ledger entries

A committed transfer writes a transaction row, its ledger entries and the
balances they account for.  No other effect touches any of them.
-/

namespace Kori

open Foundation

def heldBalance : (k : Key) → Row k → Int
  | .wallet _, w => Wallet.balance w
  | _, _ => 0

namespace Data

def totalBalance (t : Data) : Int := t.sum heldBalance

def balance (t : Data) (id : Uuid) : Int := t.amountAt heldBalance (.wallet id)

def entriesOf (t : Data) (id : Uuid) : List LedgerEntry :=
  t.log.filter fun entry => entry.transactionId = id

def totalOf (t : Data) (id : Uuid) (type : EntryType) : Int :=
  (((t.entriesOf id).filter fun entry => entry.type = type).map LedgerEntry.amount).sum

theorem balance_of_row {t : Data} {id : Uuid} {w : Wallet}
    (h : t.row (.wallet id) = some w) : t.balance id = w.balance :=
  Tables.amountAt_of_some h

theorem balance_put_of_ne {t : Data} {id id' : Uuid} (h : id' ≠ id) (w : Wallet) :
    Data.balance (t.put (.wallet id) w) id' = t.balance id' := by
  unfold balance Tables.amountAt
  rw [Tables.row_put_of_ne (by simpa using h)]

theorem balance_put_self (t : Data) (id : Uuid) (w : Wallet) :
    Data.balance (t.put (.wallet id) w) id = w.balance :=
  balance_of_row (Tables.row_put_self ..)

theorem balance_congr {t t' : Data} {id : Uuid}
    (h : t'.row (.wallet id) = t.row (.wallet id)) : t'.balance id = t.balance id := by
  unfold balance Tables.amountAt
  rw [h]

theorem balance_plus {t : Data} {id : Uuid} {w : Wallet} (h : t.row (.wallet id) = some w)
    (delta : Int) (id' : Uuid) :
    Data.balance (t.put (.wallet id) (w.plus delta)) id' =
      t.balance id' + if id' = id then delta else 0 := by
  by_cases hid : id' = id
  · subst id'
    rw [balance_put_self, balance_of_row h, if_pos rfl]
    rfl
  · rw [balance_put_of_ne hid, if_neg hid, Int.add_zero]

theorem totalBalance_plus {t : Data} {id : Uuid} {w : Wallet}
    (h : t.row (.wallet id) = some w) (delta : Int) :
    Data.totalBalance (t.put (.wallet id) (w.plus delta)) = t.totalBalance + delta := by
  have hput := t.sum_put heldBalance (.wallet id) (w.plus delta)
  rw [Tables.amountAt_of_some h] at hput
  simp only [heldBalance, Wallet.plus] at hput
  change Tables.sum heldBalance (t.put (.wallet id) (w.plus delta)) =
    Tables.sum heldBalance t + delta
  simp only [Wallet.plus]
  omega

end Data

/-! ## What leaves the ledger alone -/

structure Undisturbed (t t' : Data) : Prop where
  log : t'.log = t.log
  transactions : ∀ id, t'.row (.transaction id) = t.row (.transaction id)
  keys : ∀ key, t'.row (.transactionByKey key) = t.row (.transactionByKey key)
  balances : ∀ id, t'.balance id = t.balance id
  total : t'.totalBalance = t.totalBalance

namespace Undisturbed

variable {t t' t'' : Data}

theorem refl (t : Data) : Undisturbed t t := ⟨rfl, fun _ => rfl, fun _ => rfl, fun _ => rfl, rfl⟩

theorem trans (h₁ : Undisturbed t t') (h₂ : Undisturbed t' t'') : Undisturbed t t'' :=
  ⟨h₂.log.trans h₁.log, fun id => (h₂.transactions id).trans (h₁.transactions id),
    fun key => (h₂.keys key).trans (h₁.keys key),
    fun id => (h₂.balances id).trans (h₁.balances id), h₂.total.trans h₁.total⟩

theorem put (t : Data) {k : Key} (v : Row k) (hwallet : ∀ id, k ≠ .wallet id)
    (htransaction : ∀ id, k ≠ .transaction id)
    (hkey : ∀ key, k ≠ .transactionByKey key) : Undisturbed t (t.put k v) where
  log := rfl
  transactions id := Tables.row_put_of_ne (htransaction id).symm ..
  keys key := Tables.row_put_of_ne (hkey key).symm ..
  balances id := Data.balance_congr (Tables.row_put_of_ne (hwallet id).symm ..)
  total := by
    refine Tables.sum_put_of_zero fun v => ?_
    cases k with
    | wallet id => exact absurd rfl (hwallet id)
    | _ => rfl

theorem put_wallet (t : Data) {id : Uuid} (w : Wallet) (h : t.balance id = w.balance) :
    Undisturbed t (t.put (.wallet id) w) where
  log := rfl
  transactions _ := Tables.row_put_of_ne (by simp) ..
  keys _ := Tables.row_put_of_ne (by simp) ..
  balances id' := by
    by_cases hid : id' = id
    · subst id'
      exact (Data.balance_put_self t id w).trans h.symm
    · exact Data.balance_put_of_ne hid w
  total := by
    have hput := t.sum_put heldBalance (.wallet id) w
    rw [show t.amountAt heldBalance (.wallet id) = w.balance from h] at hput
    change Tables.sum heldBalance (t.put (.wallet id) w) = Tables.sum heldBalance t
    simp only [heldBalance] at hput
    omega

theorem update_wallet {id : Uuid} {w₀ w : Wallet} (hrow : t.row (.wallet id) = some w₀)
    (h : w.balance = w₀.balance) : Undisturbed t (t.put (.wallet id) w) :=
  put_wallet t w ((Data.balance_of_row hrow).trans h.symm)

end Undisturbed

theorem clearDevices_undisturbed (userId : Uuid) (devices : List (JsString × TrustDevice))
    (t : Data) : Undisturbed t (clearDevices userId devices t) := by
  induction devices generalizing t with
  | nil => exact .refl t
  | cons entry rest ih =>
      exact (Undisturbed.put t (k := .device userId entry.1) entry.2.clearSession (by simp)
        (by simp) (by simp)).trans (ih _)

theorem Data.addAccount_undisturbed {t : Data} {id : Uuid} {user : User} {walletId : Uuid}
    {type : WalletType} {deviceId : JsString} {device : TrustDevice}
    (hwallet : t.row (.wallet walletId) = none) :
    Undisturbed t (t.addAccount id user walletId type deviceId device) := by
  unfold Data.addAccount
  refine .trans ?_ (.put _ _ (by simp) (by simp) (by simp))
  refine .trans ?_ (.put _ _ (by simp) (by simp) (by simp))
  refine .trans ?_ (.put _ _ (by simp) (by simp) (by simp))
  refine .trans ?_ (.put_wallet _ _ (Tables.amountAt_of_none ?_))
  · exact .trans (.put _ _ (by simp) (by simp) (by simp))
      (.put _ _ (by simp) (by simp) (by simp))
  · simpa using hwallet

theorem Claim.undisturbed {c : State} {user : User} {t : Data} (h : Claim c user t) :
    Undisturbed c.data t := by
  cases h with
  | personal _ => exact .refl _
  | business _ _ _ _ _ => exact .put _ _ (by simp) (by simp) (by simp)

theorem Effect.transfer_or {env : Env} {p : Pid} {c : State} {t : Data}
    {replies : List Reply} (h : Effect env p c t replies) :
    (∃ order id r sender receiver system,
      Posting env c p order id r sender receiver system ∧
      t = order.post id r sender receiver system c.data ∧
      replies = [.transferred (order.response r (sender.plus (-order.total))
        (receiver.plus order.amount))]) ∨
    (Undisturbed c.data t ∧ ∀ response, Reply.transferred response ∉ replies) := by
  have hplain : (∀ e ∈ replies, e.Plain) → ∀ response, Reply.transferred response ∉ replies :=
    fun hes _ hmem => hes _ hmem
  cases h with
  | none hes => exact .inr ⟨.refl _, hplain hes⟩
  | replayed _ _ => exact .inr ⟨.refl _, by simp⟩
  | transferred hpost => exact .inl ⟨_, _, _, _, _, _, hpost, rfl, rfl⟩
  | froze hrow _ hes =>
      exact .inr ⟨.update_wallet hrow rfl, hplain hes⟩
  | activated hrow _ _ _ hes =>
      exact .inr ⟨.update_wallet hrow rfl, hplain hes⟩
  | suspended _ _ _ hwallet _ _ _ _ hes =>
      refine .inr ⟨.trans ?_ (clearDevices_undisturbed ..), hplain hes⟩
      refine .trans (.update_wallet hwallet ?_) (.put _ _ (by simp) (by simp) (by simp))
      rfl
  | reactivated _ _ _ hes =>
      exact .inr ⟨.put _ _ (by simp) (by simp) (by simp), hplain hes⟩
  | device _ hstep =>
      refine .inr ⟨.put _ _ (by simp) (by simp) (by simp), ?_⟩
      cases hstep with
      | signedIn _ _ _ _ _ _ => simp
      | rotated _ _ _ _ _ => simp
      | replayed _ _ _ _ hes => exact hplain hes
      | loggedOut _ _ _ _ hes => exact hplain hes
      | revoked _ hes => exact hplain hes
      | enrolled _ hes => exact hplain hes
  | enrolledNew _ _ _ _ hes =>
      exact .inr ⟨(Undisturbed.put _ _ (by simp) (by simp) (by simp)).trans
        (.put _ _ (by simp) (by simp) (by simp)), hplain hes⟩
  | registered hnew hclaim =>
      exact .inr ⟨hclaim.undisturbed.trans (Data.addAccount_undisturbed
        ((hclaim.row (by simp)).trans hnew.newWallet)), by simp⟩
  | approved _ _ hes =>
      exact .inr ⟨(Undisturbed.put _ _ (by simp) (by simp) (by simp)).trans
        (.put _ _ (by simp) (by simp) (by simp)), hplain hes⟩
  | renewed _ _ hes => exact .inr ⟨.put _ _ (by simp) (by simp) (by simp), hplain hes⟩

/-! ## What a transfer does -/

namespace Posting

variable {env : Env} {c : State} {p : Pid} {order : TransferOrder} {id : Uuid}
variable {r : Transaction} {sender receiver system : Wallet}

theorem amounts (h : Posting env c p order id r sender receiver system) :
    order.amount = r.amount ∧ order.fee = r.fee ∧ order.total = r.amount + r.fee := by
  obtain ⟨request, -, hordered⟩ := h.request
  obtain ⟨trxId, createdAt, hr⟩ := h.record
  have htotal := calculateTransferMath_total hordered.amounts
  rw [hr]
  exact ⟨rfl, rfl, htotal⟩

theorem wallets (h : Posting env c p order id r sender receiver system) :
    order.senderWalletId = r.senderWalletId ∧ order.receiverWalletId = r.receiverWalletId := by
  obtain ⟨trxId, createdAt, hr⟩ := h.record
  rw [hr]
  exact ⟨rfl, rfl⟩

theorem fee_nonneg (h : Posting env c p order id r sender receiver system) : 0 ≤ r.fee := by
  rw [← h.amounts.2.1]
  exact order.amounts.feeAmount.nonneg

theorem isZero_iff (h : Posting env c p order id r sender receiver system) :
    order.amounts.feeAmount.isZero = true ↔ r.fee = 0 := by
  rw [← h.amounts.2.1]
  exact decide_eq_true_iff

end Posting

/-- What the transfer `r` adds to the balance of the wallet `id`. -/
def Transaction.moves (r : Transaction) (systemId id : Uuid) : Int :=
  (if id = r.senderWalletId then -(r.amount + r.fee) else 0) +
    (if id = r.receiverWalletId then r.amount else 0) + if id = systemId then r.fee else 0

section Posted

variable {env : Env} {c : State} {p : Pid} {order : TransferOrder} {id : Uuid}
variable {r : Transaction} {sender receiver system : Wallet} {t : Data}

theorem TransferOrder.fee_of_isZero (order : TransferOrder)
    (h : order.amounts.feeAmount.isZero = true) : order.fee = 0 :=
  of_decide_eq_true h

theorem postRecord_undisturbed (id : Uuid) (r : Transaction) (t : Data) :
    (TransferOrder.postRecord id r t).log = t.log ∧
      (∀ id', (TransferOrder.postRecord id r t).balance id' = t.balance id') ∧
      (TransferOrder.postRecord id r t).totalBalance = t.totalBalance := by
  unfold TransferOrder.postRecord
  refine ⟨rfl, fun id' => Data.balance_congr (by simp), ?_⟩
  unfold Data.totalBalance
  iterate 3 rw [Tables.sum_put_of_zero fun _ => rfl]

theorem postFee_balance (hsystem : t.row (.wallet order.systemWalletId) = some system)
    (id' : Uuid) :
    Data.balance (order.postFee id r system t) id' =
      t.balance id' + if id' = order.systemWalletId then order.fee else 0 := by
  unfold TransferOrder.postFee
  split
  · rename_i hzero
    rw [order.fee_of_isZero hzero]
    simp
  · exact Data.balance_plus hsystem order.fee id'

theorem postFee_total (hsystem : t.row (.wallet order.systemWalletId) = some system) :
    Data.totalBalance (order.postFee id r system t) = t.totalBalance + order.fee := by
  unfold TransferOrder.postFee
  split
  · rename_i hzero
    rw [order.fee_of_isZero hzero, Int.add_zero]
  · exact Data.totalBalance_plus hsystem order.fee

theorem TransferOrder.post_log (order : TransferOrder) (id : Uuid) (r : Transaction)
    (sender receiver system : Wallet) (t : Data) :
    (order.post id r sender receiver system t).log = t.log ++
      order.debit id (sender.plus (-order.total)).balance ::
        order.credit id (receiver.plus order.amount).balance ::
        if order.amounts.feeAmount.isZero then []
        else [order.feeCredit id r.trxId (system.plus order.fee).balance] := by
  unfold TransferOrder.post TransferOrder.postFee TransferOrder.postCredit
    TransferOrder.postDebit TransferOrder.postRecord
  split <;> simp

theorem TransferOrder.post_transaction (order : TransferOrder) (id id' : Uuid)
    (r : Transaction) (sender receiver system : Wallet) (t : Data) :
    (order.post id r sender receiver system t).row (.transaction id') =
      if id' = id then some r else t.row (.transaction id') := by
  have hrow : (order.post id r sender receiver system t).row (.transaction id') =
      (t.put (.transaction id) r).row (.transaction id') := by
    unfold TransferOrder.post TransferOrder.postFee TransferOrder.postCredit
      TransferOrder.postDebit TransferOrder.postRecord
    split <;> simp
  rw [hrow]
  split
  · rename_i h
    subst id'
    simp
  · rename_i h
    exact Tables.row_put_of_ne (by simpa using h) ..

theorem Posting.balance (h : Posting env c p order id r sender receiver system)
    (hi : Integrity env.cachedSystemWalletId c.data) (id' : Uuid) :
    Data.balance (order.post id r sender receiver system c.data) id' =
      c.data.balance id' + r.moves order.systemWalletId id' := by
  obtain ⟨hs, hr, hsys⟩ := h.rows hi
  obtain ⟨hamount, hfee, htotal⟩ := h.amounts
  obtain ⟨hsender, hreceiver⟩ := h.wallets
  have hrecord := (postRecord_undisturbed id r c.data).2.1 id'
  have hdebit := Data.balance_plus hs (-order.total) id'
  have hcredit := Data.balance_plus hr order.amount id'
  calc Data.balance (order.post id r sender receiver system c.data) id'
      = c.data.balance id' + (if id' = order.senderWalletId then -order.total else 0) +
          (if id' = order.receiverWalletId then order.amount else 0) +
          if id' = order.systemWalletId then order.fee else 0 := by
        rw [← hrecord, ← hdebit]
        exact (postFee_balance hsys id').trans (congrArg (· + _) hcredit)
    _ = c.data.balance id' + r.moves order.systemWalletId id' := by
        unfold Transaction.moves
        rw [← hsender, ← hreceiver, ← htotal, ← hamount, ← hfee]
        omega

theorem Posting.totalBalance (h : Posting env c p order id r sender receiver system)
    (hi : Integrity env.cachedSystemWalletId c.data) :
    Data.totalBalance (order.post id r sender receiver system c.data) =
      c.data.totalBalance := by
  obtain ⟨hs, hr, hsys⟩ := h.rows hi
  obtain ⟨hamount, hfee, htotal⟩ := h.amounts
  have hrecord := (postRecord_undisturbed id r c.data).2.2
  have hdebit := Data.totalBalance_plus hs (-order.total)
  have hcredit := Data.totalBalance_plus hr order.amount
  calc Data.totalBalance (order.post id r sender receiver system c.data)
      = c.data.totalBalance + -order.total + order.amount + order.fee := by
        rw [← hrecord, ← hdebit]
        exact (postFee_total hsys).trans (congrArg (· + _) hcredit)
    _ = c.data.totalBalance := by omega

end Posted

/-! ## What a move does to the ledger -/

/-- The step from `c` to `c'` commits the transfer `order` of `p` as row `id`. -/
structure Committed (env : Env) (p : Pid) (order : TransferOrder) (id : Uuid)
    (r : Transaction) (sender receiver system : Wallet) (c c' : State) : Prop where
  posting : Posting env c p order id r sender receiver system
  data : c'.data = order.post id r sender receiver system c.data
  out : c'.out = c.out ++ [(p, .transferred (order.response r
    (sender.plus (-order.total)) (receiver.plus order.amount)))]

theorem Guar.committed_or {env : Env} {p : Pid} {c c' : State} (h : Guar env p c c') :
    (∃ order id r sender receiver system,
      Committed env p order id r sender receiver system c c') ∨
    (Undisturbed c.data c'.data ∧
      ∀ q response, (q, .transferred response) ∈ c'.out →
        (q, .transferred response) ∈ c.out) := by
  obtain ⟨replies, hout, heffect⟩ := h.effect
  obtain ⟨order, id, r, sender, receiver, system, hpost, hdata, rfl⟩ | ⟨hsame, hreplies⟩ :=
    heffect.transfer_or
  · exact .inl ⟨order, id, r, sender, receiver, system, hpost, hdata, hout⟩
  · refine .inr ⟨hsame, fun q response hmem => ?_⟩
    rw [hout, List.mem_append] at hmem
    refine hmem.resolve_right fun hmem => ?_
    obtain ⟨e, he, heq⟩ := List.mem_map.1 hmem
    obtain ⟨-, rfl⟩ := Prod.mk.inj heq
    exact hreplies response he

theorem committed_of_new {env : Env} {w w' : KoriWorld} {m : KoriMove} {id : Uuid}
    {r : Transaction} (hs : (contract env).Sound w) (hmove : w.move (kori env) m = some w')
    (hnew : (State.data w.conf).row (.transaction id) = none)
    (hrow : (State.data w'.conf).row (.transaction id) = some r) :
    ∃ p order sender receiver system,
      Committed env p order id r sender receiver system w.conf w'.conf := by
  obtain ⟨p, -, hg⟩ | hsame := link_cases ((contract env).sound_move hs hmove).1
  · obtain ⟨order, id', r', sender, receiver, system, hc⟩ | ⟨hsame, -⟩ := hg.committed_or
    · rw [hc.data, order.post_transaction] at hrow
      split at hrow
      · rename_i hid
        subst hid
        obtain rfl := Option.some.inj hrow
        exact ⟨p, order, sender, receiver, system, hc⟩
      · simp [hnew] at hrow
    · simp [hsame.transactions id, hnew] at hrow
  · simp [hsame.data, hnew] at hrow

end Kori
