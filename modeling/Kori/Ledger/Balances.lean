import Kori.Foundation.Trail
import Kori.Ledger.Entries

/-!
# The ledger chain of a wallet

The balance that an entry records is the balance left by the entry before it, and
the last one is the balance of the wallet.
-/

namespace Kori

open Foundation

def LedgerEntry.signed (e : LedgerEntry) : Int :=
  match e.type with
  | .credit => e.amount
  | .debit => -e.amount

def LedgerEntry.Follows (before : Int) (e : LedgerEntry) (after : Int) : Prop :=
  e.balanceAfter = before + e.signed ∧ after = e.balanceAfter

/-- The entries posted since the opening lead, wallet by wallet, from the opening
balance to the balance now. -/
def Chained (opening t : Data) : Prop :=
  ∃ posted, t.log = opening.log ++ posted ∧ ∀ id, Trail LedgerEntry.Follows
    (opening.balance id) (posted.filter fun e => e.walletId = id) (t.balance id)

/-- The response names the balance that the debit of its transfer recorded. -/
def Announced (t : Data) (response : TransactionResultResponse) : Prop :=
  ∃ id r, t.row (.transaction id) = some r ∧ r.trxId = response.trxId ∧
    ∃ e ∈ t.log, e.transactionId = id ∧ e.type = .debit ∧ e.walletId = r.senderWalletId ∧
      response.newBalance = intText e.balanceAfter

section Posted

variable {env : Env} {c : State} {p : Pid} {order : TransferOrder} {id : Uuid}
variable {r : Transaction} {sender receiver system : Wallet}

def TransferOrder.posted (order : TransferOrder) (id : Uuid) (r : Transaction)
    (sender receiver system : Wallet) : List LedgerEntry :=
  order.debit id (sender.plus (-order.total)).balance ::
    order.credit id (receiver.plus order.amount).balance ::
    if order.amounts.feeAmount.isZero then []
    else [order.feeCredit id r.trxId (system.plus order.fee).balance]

theorem Posting.posted_filter (h : Posting env c p order id r sender receiver system)
    (hi : Integrity env.cachedSystemWalletId c.data) (id' : Uuid) :
    ((order.posted id r sender receiver system).filter fun e => e.walletId = id') =
      if id' = order.senderWalletId then [order.debit id (sender.plus (-order.total)).balance]
      else if id' = order.receiverWalletId then
        [order.credit id (receiver.plus order.amount).balance]
      else if id' = order.systemWalletId ∧ order.amounts.feeAmount.isZero = false then
        [order.feeCredit id r.trxId (system.plus order.fee).balance]
      else [] := by
  obtain ⟨hss, hrs⟩ := h.systemDistinct hi
  obtain ⟨request, -, hordered⟩ := h.request
  have hsr := hordered.distinct
  unfold TransferOrder.posted TransferOrder.debit TransferOrder.credit TransferOrder.feeCredit
  by_cases hs : id' = order.senderWalletId
  · subst id'
    by_cases hz : order.amounts.feeAmount.isZero <;> simp [hz, hsr.symm, hss.symm]
  · by_cases hr : id' = order.receiverWalletId
    · subst id'
      by_cases hz : order.amounts.feeAmount.isZero <;> simp [hz, hsr, hs, hrs.symm]
    · by_cases hz : order.amounts.feeAmount.isZero
      · simp [hz, hs, hr, Ne.symm hs, Ne.symm hr]
      · by_cases hy : id' = order.systemWalletId
        · subst id'
          simp [hz, hss, hrs, hss.symm, hrs.symm]
        · simp [hz, hs, hr, Ne.symm hs, Ne.symm hr, hy, Ne.symm hy]

theorem trail_entry {before after : Int} {e : LedgerEntry}
    (hafter : e.balanceAfter = before + e.signed) (heq : after = e.balanceAfter) :
    Trail LedgerEntry.Follows before [e] after :=
  ⟨after, ⟨hafter, heq⟩, rfl⟩

theorem Posting.trail (h : Posting env c p order id r sender receiver system)
    (hi : Integrity env.cachedSystemWalletId c.data) (id' : Uuid) :
    Trail LedgerEntry.Follows (c.data.balance id')
      ((order.posted id r sender receiver system).filter fun e => e.walletId = id')
      (Data.balance (order.post id r sender receiver system c.data) id') := by
  obtain ⟨hsender, hreceiver⟩ := h.wallets
  obtain ⟨hamount, hfee, htotal⟩ := h.amounts
  obtain ⟨hss, hrs⟩ := h.systemDistinct hi
  obtain ⟨request, -, hordered⟩ := h.request
  have hsr := hordered.distinct
  rw [h.balance hi, h.posted_filter hi]
  unfold Transaction.moves
  rw [← hsender, ← hreceiver, ← htotal, ← hamount, ← hfee]
  by_cases hs : id' = order.senderWalletId
  · subst id'
    rw [if_pos rfl, if_pos rfl, if_neg hsr, if_neg hss, Data.balance_of_row h.senderRow]
    apply trail_entry
    · rfl
    · simp [TransferOrder.debit, Wallet.plus]
  by_cases hr : id' = order.receiverWalletId
  · subst id'
    rw [if_neg hs, if_pos rfl, if_neg hs, if_pos rfl, if_neg hrs,
      Data.balance_of_row h.receiverRow]
    apply trail_entry
    · rfl
    · simp [TransferOrder.credit, Wallet.plus]
  rw [if_neg hs, if_neg hr, if_neg hs, if_neg hr]
  by_cases hy : id' = order.systemWalletId
  · subst id'
    by_cases hz : order.amounts.feeAmount.isZero
    · rw [if_neg (by simp [hz]), if_pos rfl, order.fee_of_isZero hz]
      exact (Int.add_zero _).symm
    · rw [if_pos ⟨rfl, by simpa using hz⟩, if_pos rfl, Data.balance_of_row h.systemRow]
      apply trail_entry
      · rfl
      · simp [TransferOrder.feeCredit, Wallet.plus]
  · rw [if_neg (fun h => hy h.1), if_neg hy]
    exact (Int.add_zero _).symm

theorem Posting.announced (h : Posting env c p order id r sender receiver system)
    (hi : Integrity env.cachedSystemWalletId c.data) :
    Announced (order.post id r sender receiver system c.data)
      (order.response r (sender.plus (-order.total)) (receiver.plus order.amount)) := by
  obtain ⟨hss, -⟩ := h.systemDistinct hi
  refine ⟨id, r, ?_, rfl, order.debit id (sender.plus (-order.total)).balance, ?_, rfl, rfl,
    h.wallets.1, ?_⟩
  · rw [order.post_transaction, if_pos rfl]
  · simp [order.post_log]
  · simp [TransferOrder.response, hss, TransferOrder.debit]

end Posted

variable {env : Env} {p : Pid} {c c' : State} {opening t t' : Data}
variable {response : TransactionResultResponse}

theorem Chained.undisturbed (h : Chained opening t) (hsame : Undisturbed t t') :
    Chained opening t' := by
  obtain ⟨posted, hlog, htrail⟩ := h
  refine ⟨posted, hsame.log.trans hlog, fun id => ?_⟩
  rw [hsame.balances id]
  exact htrail id

theorem Chained.guar (h : Chained opening c.data) (hi : Inv env c) (hg : Guar env p c c') :
    Chained opening c'.data := by
  rcases hg.committed_or with ⟨order, id, r, sender, receiver, system, hc⟩ | ⟨hsame, -⟩
  · obtain ⟨posted, hlog, htrail⟩ := h
    refine ⟨posted ++ order.posted id r sender receiver system, ?_, fun id' => ?_⟩
    · rw [hc.data, order.post_log, hlog, List.append_assoc]
      rfl
    · rw [List.filter_append, hc.data]
      exact (htrail id').append (hc.posting.trail hi.integrity id')
  · exact h.undisturbed hsame

theorem Announced.guar (h : Announced c.data response) (hg : Guar env p c c') :
    Announced c'.data response := by
  obtain ⟨id, r, hrow, htrx, e, he, hentry⟩ := h
  rcases hg.committed_or with ⟨order, id', r', sender, receiver, system, hc⟩ | ⟨hsame, -⟩
  · refine ⟨id, r, ?_, htrx, e, ?_, hentry⟩
    · rw [hc.data, order.post_transaction, if_neg]
      · exact hrow
      · rintro rfl
        simp [hc.posting.newId] at hrow
    · rw [hc.data, order.post_log]
      exact List.mem_append_left _ he
  · exact ⟨id, r, (hsame.transactions id).trans hrow, htrx, e, hsame.log ▸ he, hentry⟩

/-- The entries of every wallet form a chain that ends at its balance, and a sender is
told the balance that the debit recorded. -/
theorem ledger_chained {shared : Shared} {w : KoriWorld} (hopening : Opening env shared)
    (hr : Reachable (kori env) (World.idle shared) w) :
    Chained shared.db.committed (State.data w.conf) ∧
      ∀ q response, (q, .transferred response) ∈ w.conf.out →
        Announced (State.data w.conf) response := by
  refine run_preserves (P := fun c => Chained shared.db.committed (State.data c) ∧
    ∀ q response, (q, .transferred response) ∈ c.out → Announced (State.data c) response)
    hopening.sound ?_ ?_ ?_ hr
  · refine ⟨⟨[], (List.append_nil _).symm, fun _ => rfl⟩, by simp [World.idle]⟩
  · rintro p c c' hi hg ⟨hchained, htold⟩
    refine ⟨hchained.guar hi hg, fun q response hsaid => ?_⟩
    rcases hg.committed_or with ⟨order, id, r, sender, receiver, system, hc⟩ | ⟨-, hsame⟩
    · rw [hc.out, List.mem_append] at hsaid
      rcases hsaid with hold | hnew
      · exact (htold q response hold).guar hg
      · obtain ⟨-, hresponse⟩ := Prod.mk.inj (List.mem_singleton.1 hnew)
        obtain rfl := Reply.transferred.inj hresponse
        rw [hc.data]
        exact hc.posting.announced hi.integrity
    · exact (htold q response (hsame q response hsaid)).guar hg
  · rintro c c' hsame ⟨hchained, htold⟩
    rw [hsame.data, hsame.out]
    exact ⟨hchained, htold⟩

/-- After one transfer the chains of sender, receiver and fee account have one link. -/
theorem ledger_chained_of_transfer : ∃ w,
    Reachable (kori Sample.env) (World.idle Sample.shared) w ∧
      (State.data w.conf).log.map LedgerEntry.balanceAfter = [400, 600, 500] ∧
      Chained Sample.data (State.data w.conf) ∧
      ∀ q response, (q, .transferred response) ∈ w.conf.out →
        Announced (State.data w.conf) response := by
  obtain ⟨w, hr, hlog⟩ := Sample.reaches
    (Sample.transferMoves 0 (Sample.transferRequest 1 "2" "600")
      (Sample.transferChoices 55 11 12))
    (fun w => (State.data w.conf).log.map LedgerEntry.balanceAfter = [400, 600, 500])
    (by decide +kernel)
  exact ⟨w, hr, of_decide_eq_true hlog, ledger_chained Sample.opening hr⟩

end Kori
