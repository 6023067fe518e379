import Kori.Ledger.Entries

/-!
# Double entry and conservation of money

Every committed transfer is recorded by one debit and the credits that make up
for it, and the sum of all balances never changes.
-/

namespace Kori

open Foundation

/-- The ledger entries of the transaction `id` are those that `r` calls for. -/
structure Recorded (systemId : Uuid) (t : Data) (id : Uuid) (r : Transaction) : Prop where
  entries : (t.entriesOf id).map (fun e => (e.type, e.walletId, e.amount)) =
    (.debit, r.senderWalletId, r.amount + r.fee) :: (.credit, r.receiverWalletId, r.amount) ::
      if 0 < r.fee then [(.credit, systemId, r.fee)] else []
  balanced : t.totalOf id .debit = t.totalOf id .credit

/-- All transactions are recorded in the ledger. -/
def DoubleEntry (systemId : Uuid) (t : Data) : Prop :=
  ∀ id r, t.row (.transaction id) = some r → Recorded systemId t id r

theorem Recorded.of_log {systemId : Uuid} {t t' : Data} {id : Uuid} {r : Transaction}
    (h : Recorded systemId t id r) (hentries : t'.entriesOf id = t.entriesOf id) :
    Recorded systemId t' id r where
  entries := hentries ▸ h.entries
  balanced := by
    unfold Data.totalOf
    rw [hentries]
    exact h.balanced

theorem recorded_of_entries {systemId : Uuid} {t : Data} {id : Uuid} {r : Transaction}
    (hfee : 0 ≤ r.fee) {entries : List LedgerEntry} (ht : t.entriesOf id = entries)
    (h : entries.map (fun e => (e.type, e.walletId, e.amount)) =
      (.debit, r.senderWalletId, r.amount + r.fee) ::
        (.credit, r.receiverWalletId, r.amount) ::
        if 0 < r.fee then [(.credit, systemId, r.fee)] else []) :
    Recorded systemId t id r := by
  refine ⟨ht ▸ h, ?_⟩
  have htotal : ∀ type, t.totalOf id type =
      (((entries.map fun e => (e.type, e.walletId, e.amount)).filter fun e =>
        e.1 = type).map fun e => e.2.2).sum := by
    intro type
    unfold Data.totalOf
    rw [ht, List.filter_map, List.map_map]
    rfl
  rw [htotal, htotal, h]
  split
  · simp
  · simp
    omega

section Posted

variable {env : Env} {c : State} {p : Pid} {order : TransferOrder} {id : Uuid}
variable {r : Transaction} {sender receiver system : Wallet}

theorem Posting.doubleEntry (h : Posting env c p order id r sender receiver system)
    (hi : Integrity env.cachedSystemWalletId c.data)
    (hd : DoubleEntry env.cachedSystemWalletId c.data) :
    DoubleEntry env.cachedSystemWalletId
      (order.post id r sender receiver system c.data) := by
  obtain ⟨hsender, hreceiver⟩ := h.wallets
  obtain ⟨hamount, hfee, htotal⟩ := h.amounts
  obtain ⟨request, -, hordered⟩ := h.request
  intro id' r' hrow
  rw [order.post_transaction] at hrow
  split at hrow
  · rename_i hid
    subst id'
    obtain rfl := Option.some.inj hrow
    -- nothing in the ledger was about this transaction before
    have hnone : c.data.entriesOf id = [] := by
      refine List.filter_eq_nil_iff.2 fun e he heq => ?_
      have hsome := hi.entryTransaction e he
      rw [of_decide_eq_true heq, h.newId] at hsome
      simp at hsome
    have hentries : Data.entriesOf (order.post id r sender receiver system c.data) id =
        order.debit id (sender.plus (-order.total)).balance ::
          order.credit id (receiver.plus order.amount).balance ::
          if order.amounts.feeAmount.isZero then []
          else [order.feeCredit id r.trxId (system.plus order.fee).balance] := by
      unfold Data.entriesOf at hnone ⊢
      rw [order.post_log, List.filter_append, hnone]
      split <;> simp [TransferOrder.debit, TransferOrder.credit, TransferOrder.feeCredit]
    refine recorded_of_entries h.fee_nonneg hentries ?_
    have hnonneg := h.fee_nonneg
    rw [← hsender, ← hreceiver, ← htotal, ← hamount]
    by_cases hzero : r.fee = 0
    · rw [if_pos (h.isZero_iff.2 hzero), if_neg (by omega)]
      rfl
    · rw [if_neg (fun hz => hzero (h.isZero_iff.1 hz)), if_pos (by omega), ← hfee,
        ← hordered.system]
      rfl
  · rename_i hid
    refine (hd id' r' hrow).of_log ?_
    unfold Data.entriesOf
    rw [order.post_log, List.filter_append]
    split <;> simp [TransferOrder.debit, TransferOrder.credit, TransferOrder.feeCredit,
      Ne.symm hid]

end Posted

theorem Effect.doubleEntry {env : Env} {p : Pid} {c : State} {t : Data}
    {replies : List Reply} (h : Effect env p c t replies)
    (hi : Integrity env.cachedSystemWalletId c.data)
    (hd : DoubleEntry env.cachedSystemWalletId c.data) :
    DoubleEntry env.cachedSystemWalletId t := by
  obtain ⟨order, id, r, sender, receiver, system, hpost, rfl, -⟩ | ⟨hsame, -⟩ := h.transfer_or
  · exact hpost.doubleEntry hi hd
  · intro id r hrow
    refine (hd id r ((hsame.transactions id).symm.trans hrow)).of_log ?_
    unfold Data.entriesOf
    rw [hsame.log]

theorem Effect.totalBalance {env : Env} {p : Pid} {c : State} {t : Data}
    {replies : List Reply} (h : Effect env p c t replies)
    (hi : Integrity env.cachedSystemWalletId c.data) :
    t.totalBalance = c.data.totalBalance := by
  obtain ⟨order, id, r, sender, receiver, system, hpost, rfl, -⟩ | ⟨hsame, -⟩ := h.transfer_or
  · exact hpost.totalBalance hi
  · exact hsame.total

/-- In every committed state the balances add up to the opening total, and every
transaction is recorded by entries that cancel out. -/
theorem money_conserved {env : Env} {shared : Shared} {w : KoriWorld}
    (hopening : Opening env shared)
    (hledger : DoubleEntry env.cachedSystemWalletId shared.db.committed)
    (hr : Reachable (kori env) (World.idle shared) w) :
    (State.data w.conf).totalBalance = Data.totalBalance shared.db.committed ∧
      DoubleEntry env.cachedSystemWalletId (State.data w.conf) := by
  refine run_preserves (P := fun c =>
    (State.data c).totalBalance = Data.totalBalance shared.db.committed ∧
      DoubleEntry env.cachedSystemWalletId (State.data c)) hopening.sound ⟨rfl, hledger⟩ ?_ ?_ hr
  · rintro p c c' hi hg ⟨htotal, hd⟩
    obtain ⟨replies, -, heffect⟩ := hg.effect
    exact ⟨(heffect.totalBalance hi.integrity).trans htotal,
      heffect.doubleEntry hi.integrity hd⟩
  · rintro c c' hsame ⟨htotal, hd⟩
    rw [hsame.data]
    exact ⟨htotal, hd⟩

theorem money_conserved_of_transfer : ∃ w,
    Reachable (kori Sample.env) (World.idle Sample.shared) w ∧
      (State.data w.conf).totalBalance = 1500 ∧
      (∃ r, (State.data w.conf).row (.transaction 55) = some r ∧
        Recorded 100 (State.data w.conf) 55 r) := by
  obtain ⟨w, hr, hrow⟩ := Sample.reaches
    (Sample.transferMoves 0 (Sample.transferRequest 1 "2" "600")
      (Sample.transferChoices 55 11 12))
    (fun w => ((State.data w.conf).row (.transaction 55)).isSome) (by decide +kernel)
  have hledger : DoubleEntry 100 Sample.data := by
    intro id r hrow
    simp [Sample.data, Sample.accounts, Data.addAccount, Sample.system] at hrow
  obtain ⟨htotal, hd⟩ := money_conserved Sample.opening hledger hr
  obtain ⟨r, hr'⟩ := Option.isSome_iff_exists.1 hrow
  exact ⟨w, hr, htotal.trans (by decide +kernel), r, hr', hd 55 r hr'⟩

end Kori
