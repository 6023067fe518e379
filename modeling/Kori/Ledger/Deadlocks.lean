import Kori.Conduct.Locks
import Kori.Sessions.Frames

/-!
# Requests that wait for wallets

A transfer locks its wallets in the order in which the server visits the rows.  Nothing in
the statement fixes this order: the sorted list is the right side of an `IN`.  Transfers
cannot wait for each other in a cycle as long as the server visits the rows in one and the
same order, and they can when it does not.
-/

namespace Kori

open Foundation

section Waiting

variable {env : Env} {shared s s' : Shared} {w : KoriWorld} {past before : List KoriMoment}
variable {p q : Pid} {op : Op} {choice : Choice} {id : Uuid} {k : Key}

def AwaitsWallet (w : KoriWorld) (p : Pid) (id : Uuid) : Prop :=
  (∃ op, w.pending p = some op ∧ op.Takes (.wallet id)) ∧
    w.conf.shared.db.lock (.wallet id) ≠ some p

def HoldsWallet (w : KoriWorld) (id : Uuid) (p : Pid) : Prop :=
  w.conf.shared.db.lock (.wallet id) = some p

/-- `p` waits for the lock of a wallet that `q` holds. -/
abbrev WaitsForWallet (w : KoriWorld) : Pid → Pid → Prop :=
  WaitsOn (AwaitsWallet w) (HoldsWallet w)

theorem waits_blocked (h : WaitsForWallet w p q) : w.move (kori env) (.step p .go) = none := by
  obtain ⟨id, ⟨⟨op, hpending, htakes⟩, hnot⟩, hholds⟩ := h
  obtain ⟨m, hproc, hop⟩ := Option.bind_eq_some_iff.1 hpending
  have hne : q ≠ p := fun heq => hnot (heq ▸ hholds)
  cases m with
  | request op' next =>
      obtain rfl := Option.some.inj hop
      cases op' with
      | sql statement =>
          have hwaits := Store.exec_waits htakes hholds hne
          simp [World.move, hproc, kori, Shared.exec, hwaits]
      | _ => exact htakes.elim
  | _ => simp [World.move, hproc]

/-! ## Locks in a run -/

structure LocksKept (env : Env) (past : List KoriMoment) (w : KoriWorld) (p : Pid) : Prop where
  held : (w.procs p).isSome → ∀ k ∈ heldLocks (statements (heard (kori env) p past)),
    w.conf.shared.db.lock k = some p
  taken : (w.procs p).isSome → ∀ k, w.conf.shared.db.lock k = some p →
    ∃ e ∈ heard (kori env) p past, e.op.Takes k

theorem exec_keepsLocks {history : History} {a : op.Ans}
    (h : Shared.exec env p op choice s = some (a, s'))
    (hheld : ∀ k ∈ heldLocks (statements history), s.db.lock k = some p)
    (htaken : ∀ k, s.db.lock k = some p → ∃ e ∈ history, e.op.Takes k) :
    (∀ k ∈ heldLocks (statements (⟨op, a⟩ :: history)), s'.db.lock k = some p) ∧
      ∀ k, s'.db.lock k = some p → ∃ e ∈ (⟨op, a⟩ :: history : History), e.op.Takes k := by
  have hold : ∀ k, s.db.lock k = some p →
      ∃ e ∈ (⟨op, a⟩ :: history : History), e.op.Takes k := fun k hlock =>
    let ⟨e, he, htakes⟩ := htaken k hlock
    ⟨e, List.mem_cons_of_mem _ he, htakes⟩
  by_cases hop : ∀ statement, op ≠ .sql statement
  · rw [exec_db h hop, statements_cons hop]
    exact ⟨hheld, hold⟩
  · obtain ⟨statement, rfl⟩ := not_forall_not.1 hop
    obtain ⟨-, rfl, rfl⟩ | ⟨-, db, hdb, rfl⟩ := exec_sql h
    · exact ⟨Store.fail_held hheld, fun k hlock => hold k (Store.fail_lock hlock)⟩
    · refine ⟨Store.exec_held hdb hheld, fun k hlock => ?_⟩
      obtain hbefore | htakes := Store.exec_lock_new hdb hlock
      · exact hold k hbefore
      · exact ⟨_, List.mem_cons_self, htakes⟩

theorem elsewhere_lock (h : Elsewhere (kori env) p s s') :
    s'.db.lock k = some p ↔ s.db.lock k = some p := by
  cases h with
  | @step q op choice a s' hq hexec =>
      by_cases hop : ∀ statement, op ≠ .sql statement
      · rw [exec_db hexec hop]
      · obtain ⟨statement, rfl⟩ := not_forall_not.1 hop
        obtain ⟨-, rfl, rfl⟩ | ⟨-, db, hdb, rfl⟩ := exec_sql hexec
        · exact (Store.fail_frame s.db q statement).lock k p (Ne.symm hq)
        · exact (Store.exec_frame hdb).lock k p (Ne.symm hq)
  | @crash q hq => exact (Store.rollback_frame s.db q).lock k p (Ne.symm hq)
  | tick => exact Iff.rfl

theorem run_keepsLocks (hunlocked : ∀ k, shared.db.lock k = none)
    (hr : Run (kori env) (World.idle shared) past w) (p : Pid) : LocksKept env past w p := by
  have hfollows := hr.follows p (fun history s =>
    (∀ k ∈ heldLocks (statements history), s.db.lock k = some p) ∧
      ∀ k, s.db.lock k = some p → ∃ e ∈ history, e.op.Takes k)
    (fun s => ∀ k, s.db.lock k ≠ some p) (by simp [hunlocked]) ?_ ?_ ?_ ?_
  · exact ⟨fun h => (hfollows.1 h).1, fun h => (hfollows.1 h).2⟩
  · intro s hnone
    refine ⟨fun k hk => ?_, fun k hlock => absurd hlock (hnone k)⟩
    simp [statements, heldLocks] at hk
  · exact fun history op choice a s s' hkept hexec => exec_keepsLocks hexec hkept.1 hkept.2
  · exact fun _ s _ k => Store.finish_lock s.db p _ k
  · intro s s' helse
    refine ⟨fun hnone k hlock => hnone k ((elsewhere_lock helse).1 hlock), ?_⟩
    rintro history ⟨hheld, htaken⟩
    exact ⟨fun k hk => (elsewhere_lock helse).2 (hheld k hk),
      fun k hlock => htaken k ((elsewhere_lock helse).1 hlock)⟩

/-! ## Wallets that a transfer has locked -/

theorem Op.WritesRow.takes (h : op.WritesRow k) : op.Takes k := by
  cases op with
  | sql statement =>
      cases statement with
      | update k' change => exact h
      | insert k' v => exact h
      | _ => exact h.elim
  | _ => exact h.elim

theorem KnownWallet.row (hopening : Opening env shared)
    (hr : Run (kori env) (World.idle shared) past w)
    (h : KnownWallet env (heard (kori env) p past) id)
    (hnever : ∀ e ∈ heard (kori env) p past, e.op.SparesWallets) :
    ((State.data w.conf).row (.wallet id)).isSome := by
  obtain rfl | ⟨query, t, hread, hrow⟩ := h
  · obtain ⟨system, hsystem, -⟩ := (run_inv hopening.sound hr.reachable).integrity.system
    exact Option.isSome_of_eq_some hsystem
  · obtain ⟨x, before, hx, hans⟩ := heard_moment hread
    obtain ⟨wallet, hrow⟩ := Option.isSome_iff_exists.1 hrow
    rw [answered_select hans] at hrow
    obtain ⟨choice, next, s, -, hproc, -⟩ := World.answered_cases hans
    refine row_stays hopening hr hx (unwritten_row hopening.idle (hr.at hx).1 ?_
      (by simp [hproc]) hrow)
    exact fun e he hwrites =>
      hnever e ((heard_before hx).subset he) id hwrites.takes

theorem answered_arrange {x : KoriMoment} {arranged order : List Key}
    (h : x.1.answered (kori env) x.2 = some (p, ⟨.arrange arranged, order⟩)) :
    x.2 = .step p (.order order) ∧ order.Perm arranged := by
  obtain ⟨choice, s, hstep, hexec⟩ := answered_exec h
  cases choice <;> simp [Shared.exec] at hexec
  obtain ⟨hperm, rfl, -⟩ := hexec
  exact ⟨hstep, hperm⟩

theorem LockedWallets.holds (hopening : Opening env shared)
    (hunlocked : ∀ k, shared.db.lock k = none)
    (hr : Run (kori env) (World.idle shared) past w) (halive : (w.procs p).isSome)
    {ids : List Uuid} {history : History}
    (h : LockedWallets ids history (heard (kori env) p past)) (hid : id ∈ ids)
    (hknown : KnownWallet env history id) : HoldsWallet w id p := by
  obtain ⟨hnever, t, arranged, order, hselect, hrows, harranged, hheld⟩ := h
  obtain ⟨x, before, hx, hans, rfl⟩ := moment_of_heard hselect
  have hrow := hknown.row hopening (hr.at hx).1 hnever
  have hfound : (Tables.row t (.wallet id)).isSome := by
    rw [answered_select hans]
    exact Store.view_isSome hrow
  obtain ⟨y, before', hy, harrange⟩ := heard_moment harranged
  have horder : Key.wallet id ∈ order :=
    (answered_arrange harrange).2.mem_iff.2 (hrows id hid hfound)
  exact (run_keepsLocks hunlocked hr p).held halive _ (hheld _ horder)

/-! ## Servers that visit wallets in one order -/

variable {α : Type} [Preorder α] {rank : Uuid → α}

def Key.Below (rank : Uuid → α) (k k' : Key) : Prop :=
  ∀ a b, k = .wallet a → k' = .wallet b → rank a < rank b

/-- If the server visits rows in this move, the ranks of the wallets among them rise. -/
def InOrder (rank : Uuid → α) (m : KoriMove) : Prop :=
  ∀ p order, m = .step p (.order order) → order.Pairwise (Key.Below rank)

/-- A request waits only for wallets that rank above all that it has locked. -/
theorem awaits_above (hopening : Opening env shared) (hunlocked : ∀ k, shared.db.lock k = none)
    (hr : Run (kori env) (World.idle shared) past w) (hordered : ∀ x ∈ past, InOrder rank x.2)
    {id' : Uuid} (hawaits : AwaitsWallet w p id) (hholds : HoldsWallet w id' p) :
    rank id' < rank id := by
  obtain ⟨⟨op, hpending, htakes⟩, hnot⟩ := hawaits
  obtain ⟨m, hproc, -⟩ := Option.bind_eq_some_iff.1 hpending
  have halive : (w.procs p).isSome := Option.isSome_of_eq_some hproc
  obtain ⟨e, he, hbefore⟩ := (run_keepsLocks hunlocked hr p).taken halive _ hholds
  cases hcall : w.conf.calls p with
  | none => simp [(((hr.kept obeyed).1 p).unheard hcall).2] at hproc
  | some call =>
      by_cases hwallets : call.OnWallets
      · have hasks := (hr.due locks_obeyed hcall halive).2 op hpending hwallets
        cases hasks with
        | spares hspares => exact (hspares id htakes).elim
        | only hop hpast =>
            obtain rfl := hop id htakes
            obtain rfl := hpast e he id' hbefore
            exact absurd hholds hnot
        | next harranged hpast =>
            obtain rfl := Key.wallet.inj htakes
            obtain ⟨x, before, hx, hans⟩ := heard_moment harranged
            have hrises := hordered x (hx.subset List.mem_cons_self) p _ (answered_arrange hans).1
            exact List.pairwise_iff_forall_sublist.1 hrises (hpast e he id' hbefore) _ _ rfl rfl
        | again hlocked hid hknown =>
            obtain rfl := Key.wallet.inj htakes
            exact absurd (hlocked.holds hopening hunlocked hr halive hid hknown) hnot
      · have hasks := (hr.due obeyed hcall halive).2 op hpending
        exact (hasks.sparesWallets hwallets id htakes).elim

/-- As long as the server visits wallets in one order, no requests wait for each other's
wallets in a cycle. -/
theorem waits_acyclic (hopening : Opening env shared) (hunlocked : ∀ k, shared.db.lock k = none)
    (hr : Reach (kori env) (fun _ m _ => InOrder rank m) (World.idle shared) w) (p : Pid) :
    ¬Relation.TransGen (WaitsForWallet w) p p := by
  obtain ⟨past, hr, hordered⟩ := hr.run
  have hall : ∀ x ∈ past, InOrder rank x.2 := by
    intro x hx
    obtain ⟨later, before, rfl⟩ := List.append_of_mem hx
    obtain ⟨-, hinOrder⟩ := hordered.at (List.suffix_append later (x :: before))
    exact hinOrder
  have habove : ∀ p id id', AwaitsWallet w p id → HoldsWallet w id' p → rank id' < rank id :=
    fun _ _ _ hawaits hholds => awaits_above hopening hunlocked hr hall hawaits hholds
  exact no_cycle habove p

end Waiting

namespace Sample

def sendRequest (key : String) : TransferRequest :=
  ⟨some 1, .sendMoney, some (js key), ⟨some (js "100"), js "2", none, none⟩⟩

def lockMoves (p : Pid) (key : String) (order : List Key) : List KoriMove :=
  transferMoves p (sendRequest key) [.go, .go, .go, .turn true, .go, .go, .go, .turn true, .go,
    .go, .go, .go, .order order, .go]

def waitsFor (w : KoriWorld) (p q : Pid) (id : Uuid) : Bool :=
  (match w.pending p with
    | some (.sql (.lock (.wallet id'))) => id' = id
    | _ => false) && (w.conf.shared.db.lock (.wallet id) = some q ∧ p ≠ q)

theorem waits_of {w : KoriWorld} {p q : Pid} {id : Uuid} (h : waitsFor w p q id = true) :
    WaitsForWallet w p q := by
  simp only [waitsFor, Bool.and_eq_true, decide_eq_true_eq] at h
  obtain ⟨hpending, hlock, hne⟩ := h
  split at hpending
  · rename_i id' hop
    obtain rfl := of_decide_eq_true hpending
    refine ⟨id', ⟨⟨_, hop, rfl⟩, ?_⟩, hlock⟩
    rw [hlock]
    exact fun heq => hne (Option.some.inj heq).symm
  · simp at hpending

def visitsInOrder : KoriMove → Bool
  | .step _ (.order order) => order = [.wallet 11, .wallet 12, .wallet 100]
  | _ => true

theorem inOrder_of {m : KoriMove} (h : visitsInOrder m = true) : InOrder BitVec.toNat m := by
  rintro p order rfl
  obtain rfl := of_decide_eq_true h
  simp [Key.Below]

end Sample

/-- Two transfers of one customer to another, whose wallets the server visits in different
orders, wait for each other. -/
theorem transfers_wait_in_a_cycle : ∃ w,
    Reachable (kori Sample.env) (World.idle Sample.shared) w ∧
      w.conf.calls 0 = some (.transfer (Sample.sendRequest "k")) ∧
      w.conf.calls 1 = some (.transfer (Sample.sendRequest "m")) ∧
      WaitsForWallet w 0 1 ∧ WaitsForWallet w 1 0 ∧
      Relation.TransGen (WaitsForWallet w) 0 0 := by
  obtain ⟨w, hr, hw⟩ := Sample.reaches
    (Sample.lockMoves 0 "k" [.wallet 11, .wallet 12, .wallet 100] ++
      Sample.lockMoves 1 "m" [.wallet 12, .wallet 11, .wallet 100])
    (fun w => w.conf.calls 0 = some (.transfer (Sample.sendRequest "k")) &&
      w.conf.calls 1 = some (.transfer (Sample.sendRequest "m")) &&
      Sample.waitsFor w 0 1 12 && Sample.waitsFor w 1 0 11) (by decide +kernel)
  simp only [Bool.and_eq_true, decide_eq_true_eq] at hw
  obtain ⟨⟨⟨hfirst, hsecond⟩, hwaits⟩, hwaits'⟩ := hw
  have h₀ := Sample.waits_of hwaits
  have h₁ := Sample.waits_of hwaits'
  exact ⟨w, hr, hfirst, hsecond, h₀, h₁, .tail (.single h₀) h₁⟩

/-- One of the two transfers waits for the other, and this is no cycle. -/
theorem waits_acyclic_of_transfers : ∃ w,
    Reach (kori Sample.env) (fun _ m _ => InOrder BitVec.toNat m) (World.idle Sample.shared) w ∧
      WaitsForWallet w 1 0 ∧ ∀ p, ¬Relation.TransGen (WaitsForWallet w) p p := by
  have hreach : ∃ w, Reach (kori Sample.env) (fun _ m _ => InOrder BitVec.toNat m)
      (World.idle Sample.shared) w ∧ Sample.waitsFor w 1 0 11 = true :=
    Sample.reaches_if (Sample.lockMoves 0 "k" [.wallet 11, .wallet 12, .wallet 100] ++
      (Sample.lockMoves 1 "m" [.wallet 11, .wallet 12, .wallet 100]).dropLast)
      _ (fun _ m _ => Sample.visitsInOrder m) (fun _ _ _ => Sample.inOrder_of) (by decide +kernel)
  obtain ⟨w, hr, hw⟩ := hreach
  exact ⟨w, hr, Sample.waits_of hw, waits_acyclic Sample.opening (fun _ => rfl) hr⟩

end Kori
