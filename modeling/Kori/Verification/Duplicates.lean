import Kori.Foundation.Interpret
import Kori.Contract.Runs

/-!
# Which transfers are reported as duplicates

A transfer that runs alone on the committed tables `t` is answered that it was already
processed whenever one of the unique columns of its new rows is taken: its idempotency
key, but also the identifiers that it draws.  No statement reads the identifiers of ledger
entries, so those in use stand beside the tables.
-/

namespace Kori

open Foundation

/-! ## Transfers that run alone -/

/-- What a transfer draws: the dates it reads, the random bytes and the identifiers of its row
and of its ledger entries. -/
structure Draws where
  dates : List Instant
  bytes : BitVec 32
  id : Uuid
  entries : List Uuid

/-- The shared state, the identifiers in `ledger_entries`, what is still to be drawn, and what
becomes of the other operations. -/
structure Alone where
  shared : Shared
  used : List Uuid
  draws : Draws
  choices : List Choice

namespace Alone

def choice (s : Alone) : Op → Option (Choice × Alone)
  | .now =>
      match s.draws.dates with
      | [] => none
      | date :: dates => some (.instant date, { s with draws := { s.draws with dates := dates } })
  | .randomBytes => some (.bytes s.draws.bytes, s)
  | .generatedId => some (.uuid s.draws.id, s)
  | _ =>
      match s.choices with
      | [] => none
      | choice :: choices => some (choice, { s with choices := choices })

def serve (env : Env) (p : Pid) (op : Op) (s : Alone) : Option (op.Ans × Alone) :=
  (s.choice op).bind fun r =>
    (Shared.exec env p op r.1 r.2.shared).map fun e => (e.1, { r.2 with shared := e.2 })

/-- The answer to an operation of `p`, on which nobody else has an influence. -/
def answer (env : Env) (p : Pid) : (op : Op) → Alone → Option (op.Ans × Alone)
  | .sql (.append l), s =>
      match s.draws.entries with
      | [] => none
      | entry :: entries =>
          let rest : Alone := { s with draws := { s.draws with entries := entries } }
          if s.used.contains entry then
            (rest.choice (.sql (.append l))).map fun r =>
              (.error (if r.1 = .fail then .other else .uniqueViolation), r.2)
          else serve env p (.sql (.append l)) { rest with used := entry :: s.used }
  | op, s => serve env p op s

def start (s : Shared) (t : Data) (used : List Uuid) (draws : Draws) (choices : List Choice) :
    Alone :=
  ⟨{ s with db := .quiet t }, used, draws, choices⟩

end Alone

/-- Generated identifiers that are new. -/
structure FreshIds (ids used : List Uuid) : Prop where
  nodup : ids.Nodup
  unused : ∀ id ∈ ids, id ∉ used

def Alone.Unused (s : Alone) : Prop := FreshIds s.draws.entries s.used

def Data.processed (t : Data) (key : Uuid) : Prop :=
  ∃ id r, t.row (.transaction id) = some r ∧ r.idempotencyKey = key

def Data.lockedWallet (t : Data) (id : Uuid) : Option Wallet :=
  (t.row (.wallet id)).filter fun wallet => wallet.isActive && t.ownerActive wallet

def Data.lockedSystem (t : Data) (id : Uuid) : Option Wallet :=
  (t.row (.wallet id)).filter Wallet.isActive

/-- On the tables `t` the transfer gets as far as writing its row. -/
structure GetsToWrite (env : Env) (order : TransferOrder) (t : Data) : Prop where
  sender : ∃ w, t.lockedWallet order.senderWalletId = some w ∧ w.balance ≤ maxMinorUnits ∧
    order.amounts.totalRequiredAmount.minorUnits ≤ w.balance
  receiver : (t.lockedWallet order.receiverWalletId).isSome
  system : (t.lockedSystem order.systemWalletId).isSome
  key : (env.castUuid order.idempotencyKey).isSome

section Alone

variable {env : Env} {p : Pid} {order : TransferOrder} {t : Data} {draws : Draws}
variable {s s' : Alone} {op : Op}

/-- The open transaction of `p` has written nothing, and nothing has been drawn. -/
structure Untouched (p : Pid) (t : Data) (draws : Draws) (s : Alone) : Prop where
  committed : s.shared.db.committed = t
  own : s.shared.db.tx p = some .empty
  free : ∀ k, s.shared.db.Free p k
  draws : s.draws = draws
  unused : s.Unused

theorem Untouched.view (h : Untouched p t draws s) : s.shared.db.view p = t := by
  rw [Store.view, h.own, ← h.committed]
  exact Tables.empty_overlay _

structure Steady (s s' : Alone) : Prop where
  draws : s'.draws = s.draws
  used : s'.used = s.used

theorem Steady.unused (h : Steady s s') (hs : s.Unused) : s'.Unused := by
  rw [Alone.Unused, h.draws, h.used]
  exact hs

theorem serve_cases {a : op.Ans} (h : Alone.serve env p op s = some (a, s'))
    (hnow : op ≠ .now) (hbytes : op ≠ .randomBytes) (hid : op ≠ .generatedId) :
    Steady s s' ∧ ∃ choice, Shared.exec env p op choice s.shared = some (a, s'.shared) := by
  obtain ⟨⟨choice, s₁⟩, hchoice, hexec⟩ := Option.bind_eq_some_iff.1 h
  obtain ⟨⟨a', shared⟩, hrun, heq⟩ := Option.map_eq_some_iff.1 hexec
  obtain ⟨rfl, rfl⟩ := Prod.mk.inj heq
  obtain ⟨hsteady, hshared⟩ : Steady s s₁ ∧ s₁.shared = s.shared := by
    unfold Alone.choice at hchoice
    split at hchoice
    · exact absurd rfl hnow
    · exact absurd rfl hbytes
    · exact absurd rfl hid
    · split at hchoice
      · simp at hchoice
      · obtain ⟨-, rfl⟩ := Prod.mk.inj (Option.some.inj hchoice)
        exact ⟨⟨rfl, rfl⟩, rfl⟩
  exact ⟨⟨hsteady.draws, hsteady.used⟩, choice, hshared ▸ hrun⟩

theorem answer_eq_serve (h : ∀ l, op ≠ .sql (.append l)) :
    Alone.answer env p op s = Alone.serve env p op s := by
  unfold Alone.answer
  split
  · exact absurd rfl (h _)
  · rfl

theorem serve_sql {statement : Statement} {a : Except SqlError statement.Ans}
    (h : Alone.serve env p (.sql statement) s = some (a, s')) :
    Steady s s' ∧
      (s.shared.db.exec p statement = some (a, s'.shared.db) ∨
        a = (s.shared.db.fail p statement).1 ∧
          s'.shared.db = (s.shared.db.fail p statement).2) := by
  obtain ⟨hsteady, choice, hexec⟩ := serve_cases h (by simp) (by simp) (by simp)
  refine ⟨hsteady, ?_⟩
  rcases exec_sql hexec with ⟨-, ha, hs⟩ | ⟨-, db, hdb, hs⟩
  · exact .inr ⟨ha, by rw [hs]⟩
  · refine .inl ?_
    rw [hs]
    exact hdb

theorem answer_sql {statement : Statement} {a : Except SqlError statement.Ans}
    (h : Alone.answer env p (.sql statement) s = some (a, s'))
    (hstatement : ∀ l, statement ≠ .append l) :
    Steady s s' ∧
      (s.shared.db.exec p statement = some (a, s'.shared.db) ∨
        a = (s.shared.db.fail p statement).1 ∧
          s'.shared.db = (s.shared.db.fail p statement).2) := by
  rw [answer_eq_serve (by simpa using hstatement)] at h
  exact serve_sql h

def Faults (e : Exn) : Prop := e ≠ .sql .uniqueViolation ∧ e ≠ alreadyProcessed

theorem faults_sql {e : SqlError} (h : e ≠ .uniqueViolation) : Faults (.sql e) :=
  ⟨by simpa using h, by simp [alreadyProcessed, Exn.conflict]⟩

theorem faults_restricted : Faults (.http 403 (some "TRANSACTION_PARTICIPANT_RESTRICTED")
    "One or more transaction participants are restricted.") :=
  ⟨by simp, by simp [alreadyProcessed, Exn.conflict]⟩

/-! ## Up to the insertion -/

theorem keeps_sql {statement : Statement} {A : statement.Ans → Prop}
    (hstatement : ∀ l, statement ≠ .append l)
    (hexec : ∀ s a db, Untouched p t draws s → s.shared.db.exec p statement = some (a, db) →
      (∃ answer, a = .ok answer ∧ A answer) ∧ db.committed = t ∧ db.tx p = some .empty ∧
        ∀ k, db.Free p k)
    (hfail : ∀ db : Database, db.fail p statement = (.error .other, db)) :
    (sql statement).Keeps (Alone.answer env p) (Untouched p t draws) A Faults := by
  refine Code.Keeps.bind (A := fun a => a = .error .other ∨ ∃ answer, a = .ok answer ∧ A answer)
    (Code.keeps_ask fun s a s' hs hanswer => ?_) fun a ha => ?_
  · obtain ⟨hsteady, hgo | ⟨rfl, hdb⟩⟩ := answer_sql hanswer hstatement
    · obtain ⟨ha, hcommitted, hown, hfree⟩ := hexec s a _ hs hgo
      exact ⟨⟨hcommitted, hown, hfree, hsteady.draws.trans hs.draws, hsteady.unused hs.unused⟩,
        .inr ha⟩
    · rw [hfail] at hdb ⊢
      exact ⟨⟨hdb ▸ hs.committed, hdb ▸ hs.own, hdb ▸ hs.free, hsteady.draws.trans hs.draws,
        hsteady.unused hs.unused⟩, .inl rfl⟩
  · obtain rfl | ⟨answer, rfl, hA⟩ := ha
    · exact Code.keeps_throw (faults_sql (by simp))
    · exact Code.keeps_pure hA

theorem keeps_select {query : Query} : (select query).Keeps (Alone.answer env p)
    (Untouched p t draws) (fun a => a = t) Faults := by
  refine keeps_sql (by simp) (fun s a db hs hexec => ?_) fun db => rfl
  obtain ⟨rfl, rfl⟩ := Prod.mk.inj (Option.some.inj hexec)
  exact ⟨⟨_, rfl, hs.view⟩, hs.committed, hs.own, hs.free⟩

theorem keeps_lock {k : Key} : (sql (.lock k)).Keeps (Alone.answer env p)
    (Untouched p t draws) (fun _ => True) Faults := by
  refine keeps_sql (by simp) (fun s a db hs hexec => ?_) fun db => rfl
  obtain ⟨hfree, rfl, rfl⟩ := Store.exec_lock hexec
  refine ⟨⟨_, rfl, trivial⟩, hs.committed, hs.own, fun k' => ?_⟩
  by_cases hk : k' = k
  · subst k'
    exact .inr (Function.update_self ..)
  · have hold := hs.free k'
    simpa [Store.Free, Store.acquire, Function.update_of_ne hk] using hold

theorem keeps_free {a : op.Ans} (hop : op = .turn ∨ ∃ keys, op = .arrange keys)
    (hs : Untouched p t draws s) (h : Alone.answer env p op s = some (a, s')) :
    Untouched p t draws s' := by
  have hshared : Steady s s' ∧ s'.shared = s.shared := by
    obtain rfl | ⟨keys, rfl⟩ := hop <;>
      obtain ⟨hsteady, choice, hexec⟩ := serve_cases h (by simp) (by simp) (by simp) <;>
      refine ⟨hsteady, ?_⟩ <;> cases choice <;> simp [Shared.exec] at hexec
    · exact hexec.2.symm
    · exact hexec.2.2.symm
  obtain ⟨hsteady, hshared⟩ := hshared
  exact ⟨hshared ▸ hs.committed, hshared ▸ hs.own, hshared ▸ hs.free,
    hsteady.draws.trans hs.draws, hsteady.unused hs.unused⟩

theorem keeps_lockWallets {ids : List Uuid} : (lockWallets ids).Keeps (Alone.answer env p)
    (Untouched p t draws) (fun _ => True) Faults := by
  refine Code.Keeps.bind keeps_select fun a _ => ?_
  refine Code.Keeps.bind (A := fun _ => True) (Code.keeps_ask fun s a s' hs hanswer => ?_)
    fun keys _ => Code.keeps_forEach fun k => keeps_lock
  exact ⟨keeps_free (.inr ⟨_, rfl⟩) hs hanswer, trivial⟩

theorem keeps_findLockedWallet {id : Uuid} : (findLockedWallet id).Keeps (Alone.answer env p)
    (Untouched p t draws) (fun a => a = t.lockedWallet id) Faults :=
  Code.Keeps.bind keeps_select fun _ ha => Code.keeps_pure (ha ▸ rfl)

theorem keeps_findLockedSystem {id : Uuid} : (findLockedSystem id).Keeps (Alone.answer env p)
    (Untouched p t draws) (fun a => a = t.lockedSystem id) Faults :=
  Code.Keeps.bind keeps_select fun _ ha => Code.keeps_pure (ha ▸ rfl)

theorem keeps_fetchLocked : (fetchLocked order).Keeps (Alone.answer env p)
    (Untouched p t draws) (fun a => t.lockedWallet order.senderWalletId = some a.1 ∧
      (t.lockedWallet order.receiverWalletId).isSome ∧
      (t.lockedSystem order.systemWalletId).isSome) Faults := by
  refine Code.Keeps.bind (Code.Keeps.both ?_ keeps_findLockedWallet
    (Code.Keeps.both ?_ keeps_findLockedWallet keeps_findLockedSystem)) ?_
  · exact fun s a s' hs hanswer => keeps_free (.inl rfl) hs hanswer
  · exact fun s a s' hs hanswer => keeps_free (.inl rfl) hs hanswer
  · rintro ⟨sender, receiver, system⟩ ⟨hsender, hreceiver, hsystem⟩
    simp only at hsender hreceiver hsystem
    cases sender with
    | none => exact Code.keeps_throw faults_restricted
    | some sender =>
        cases receiver with
        | none => exact Code.keeps_throw faults_restricted
        | some receiver =>
            cases system with
            | none => exact Code.keeps_throw faults_restricted
            | some system =>
                exact Code.keeps_pure ⟨hsender.symm, by simp [← hreceiver], by simp [← hsystem]⟩

theorem keeps_assertFunds {balance : Int} {total : Money} :
    (assertFunds balance total).Keeps (Alone.answer env p) (Untouched p t draws)
      (fun _ => balance ≤ maxMinorUnits ∧ total.minorUnits ≤ balance) Faults := by
  unfold assertFunds
  refine Code.Keeps.bind (A := fun available => available.minorUnits = balance) ?_ fun a ha => ?_
  · unfold liftMoney
    split
    · rename_i a ha
      exact Code.keeps_pure (Money.fromMinorUnits_eq_ok ha).1
    · exact Code.keeps_throw ⟨by simp, by simp [alreadyProcessed, Exn.conflict]⟩
  · rw [Money.isLessThan_ok]
    unfold liftMoney Code.throwIf
    change Code.Keeps _ _ _ _ (if _ then _ else _)
    split
    · exact Code.keeps_throw ⟨by simp [insufficientFunds, Exn.badRequest],
        by simp [insufficientFunds, Exn.badRequest, alreadyProcessed, Exn.conflict]⟩
    · rename_i hless
      have hle := a.le_max
      simp only [decide_eq_true_eq, not_lt] at hless
      exact Code.keeps_pure ⟨by omega, by omega⟩

/-! ## The insertion -/

structure Writing (p : Pid) (t seen : Data) (s : Alone) : Prop where
  committed : s.shared.db.committed = t
  own : ∃ own, s.shared.db.tx p = some own ∧ own.overlay t = seen
  free : ∀ k, s.shared.db.Free p k
  unused : s.Unused

theorem Untouched.writing (h : Untouched p t draws s) : Writing p t t s :=
  ⟨h.committed, ⟨_, h.own, Tables.empty_overlay _⟩, h.free, h.unused⟩

theorem free_write {db : Database} {k : Key} {v : Row k} {own : Data} (hfree : ∀ k, db.Free p k)
    (hown : db.tx p = some own) (k' : Key) : (db.write p k v (hfree k)).Free p k' := by
  obtain ⟨-, hlock, -⟩ := Store.write_of_open (v := v) (hfree k) hown
  unfold Store.Free
  rw [hlock]
  by_cases hk : k' = k
  · subst k'
    exact .inr (Function.update_self ..)
  · rw [Function.update_of_ne hk]
    exact hfree k'

theorem ends_insert {seen : Data} {k : Key} {v : Row k} (h : Writing p t seen s) :
    Code.Ends (Alone.answer env p) (sql (.insert k v)) s
      (fun _ s' => Writing p t (seen.put k v) s' ∧ seen.row k = none)
      (fun e s' => s'.shared.db.committed = t ∧
        (e = .sql .uniqueViolation ∧ (seen.row k).isSome ∨ Faults e)) := by
  obtain ⟨own, hown, hseen⟩ := h.own
  have hview : s.shared.db.view p = seen := by
    rw [Store.view_of_open hown, h.committed, hseen]
  refine Code.Ends.bind (Q := fun a s' =>
    (a = .ok () ∧ Writing p t (seen.put k v) s' ∧ seen.row k = none) ∨
    (s'.shared.db.committed = t ∧ ∃ e, a = .error e ∧
      (e = .uniqueViolation ∧ (seen.row k).isSome ∨ e ≠ .uniqueViolation)))
    (Code.ends_ask fun a s' hanswer => ?_) fun a s' ha => ?_
  · obtain ⟨hsteady, hgo | ⟨rfl, hdb⟩⟩ := answer_sql hanswer (by simp)
    · obtain ⟨hfree, ⟨rfl, ⟨v₀, hv₀⟩, hdb⟩ | ⟨rfl, hrow, hdb⟩⟩ := Store.exec_insert hgo
      · refine .inr ⟨by rw [hdb, h.committed], _, rfl, .inl ⟨rfl, ?_⟩⟩
        rw [← hview, hv₀]
        rfl
      · obtain ⟨hcommitted, -, htx⟩ := Store.write_of_open (v := v) hfree hown
        refine .inl ⟨rfl, ⟨?_, ⟨own.put k v, ?_, ?_⟩, ?_, hsteady.unused h.unused⟩,
          by rw [← hview, hrow]⟩
        · rw [hdb, hcommitted, h.committed]
        · rw [hdb, htx]
          exact Function.update_self ..
        · rw [Tables.put_overlay, hseen]
        · rw [hdb]
          exact free_write h.free hown
    · exact .inr ⟨by rw [hdb]; exact h.committed, _, rfl, .inr (by simp)⟩
  · obtain ⟨rfl, hwriting⟩ | ⟨hcommitted, e, rfl, htaken⟩ := ha
    · exact Code.ends_pure hwriting
    · refine Code.ends_throw ⟨hcommitted, htaken.imp (fun h => ⟨by rw [h.1], h.2⟩) faults_sql⟩

/-- A unique column of the new row is taken. -/
def Taken (env : Env) (order : TransferOrder) (t : Data) (trxId : JsString) (id : Uuid) : Prop :=
  ∃ key, env.castUuid order.idempotencyKey = some key ∧
    ((t.row (.transaction id)).isSome ∨ (t.row (.transactionByTrxId trxId)).isSome ∨
      (t.row (.transactionByKey key)).isSome)

variable {now createdAt : Instant} {bytes : BitVec 32} {id : Uuid} {used entries : List Uuid}

theorem answer_now {a : Instant} {dates : List Instant} (hdates : s.draws.dates = now :: dates)
    (h : Alone.answer env p .now s = some (a, s')) :
    now = a ∧ s' = { s with draws := { s.draws with dates := dates } } := by
  simp only [Alone.answer, Alone.serve, Alone.choice, hdates, Option.bind_some, Shared.exec,
    Option.map_some, Option.some.injEq, Prod.mk.injEq] at h
  exact ⟨h.1, h.2.symm⟩

theorem answer_randomBytes {a : BitVec 32} (h : Alone.answer env p .randomBytes s = some (a, s')) :
    s.draws.bytes = a ∧ s' = s := by
  simp only [Alone.answer, Alone.serve, Alone.choice, Option.bind_some, Shared.exec,
    Option.map_some, Option.some.injEq, Prod.mk.injEq] at h
  exact ⟨h.1, h.2.symm⟩

theorem answer_generatedId {a : Uuid} (h : Alone.answer env p .generatedId s = some (a, s')) :
    s.draws.id = a ∧ s' = s := by
  simp only [Alone.answer, Alone.serve, Alone.choice, Option.bind_some, Shared.exec,
    Option.map_some, Option.some.injEq, Prod.mk.injEq] at h
  exact ⟨h.1, h.2.symm⟩

theorem ends_createTransaction (h : Untouched p t ⟨[now, createdAt], bytes, id, entries⟩ s) :
    Code.Ends (Alone.answer env p) (createTransaction env order) s
      (fun _ s' => ∃ seen, Writing p t seen s')
      (fun e s' => s'.shared.db.committed = t ∧
        (e = .sql .uniqueViolation ∧ Taken env order t (generateTrxId now bytes) id ∨
          Faults e)) := by
  obtain ⟨shared, used, drawn, choices⟩ := s
  obtain rfl : drawn = _ := h.draws
  refine Code.ends_request fun a s₁ h₁ => ?_
  obtain ⟨rfl, rfl⟩ := answer_now rfl h₁
  refine Code.ends_request fun a s₁ h₁ => ?_
  obtain ⟨rfl, rfl⟩ := answer_randomBytes h₁
  refine Code.ends_request fun a s₁ h₁ => ?_
  obtain ⟨rfl, rfl⟩ := answer_generatedId h₁
  refine Code.ends_request fun a s₁ h₁ => ?_
  obtain ⟨rfl, rfl⟩ := answer_now rfl h₁
  have hwriting : Writing p t t ⟨shared, used, ⟨[], bytes, id, entries⟩, choices⟩ :=
    ⟨h.writing.committed, h.writing.own, h.writing.free, h.unused⟩
  cases hkey : env.castUuid order.idempotencyKey with
  | none => exact Code.ends_throw ⟨hwriting.committed, .inr (faults_sql (by simp))⟩
  | some key =>
      dsimp only
      have htaken (e : Exn) (s' : Alone) {k : Key} {seen : Data}
          (hrow : (seen.row k).isSome → (t.row (.transaction id)).isSome ∨
            (t.row (.transactionByTrxId (generateTrxId now bytes))).isSome ∨
            (t.row (.transactionByKey key)).isSome)
          (he : s'.shared.db.committed = t ∧
            (e = .sql .uniqueViolation ∧ (seen.row k).isSome ∨ Faults e)) :
          s'.shared.db.committed = t ∧ (e = .sql .uniqueViolation ∧
            Taken env order t (generateTrxId now bytes) id ∨ Faults e) :=
        ⟨he.1, he.2.imp_left fun h => ⟨h.1, key, hkey, hrow h.2⟩⟩
      refine ((ends_insert hwriting).imp (fun _ _ h => h)
        fun e s' => htaken e s' .inl).bind fun _ s₁ h₁ => ?_
      refine ((ends_insert h₁.1).imp (fun _ _ h => h)
        fun e s' => htaken e s' fun h => .inr (.inl (by simpa using h))).bind fun _ s₂ h₂ => ?_
      refine ((ends_insert h₂.1).imp (fun _ _ h => h)
        fun e s' => htaken e s' fun h => .inr (.inr (by simpa using h))).bind fun _ s₃ h₃ => ?_
      exact Code.ends_pure ⟨_, h₃.1⟩

/-! ## After the insertion -/

structure Open (p : Pid) (t : Data) (s : Alone) : Prop where
  committed : s.shared.db.committed = t
  own : (s.shared.db.tx p).isSome
  unused : s.Unused

theorem keeps_open {statement : Statement} (hstatement : ∀ l, statement ≠ .append l)
    (hexec : ∀ (db db' : Database) a, (db.tx p).isSome → db.exec p statement = some (a, db') →
      db'.committed = db.committed ∧ (db'.tx p).isSome ∧ a ≠ .error .uniqueViolation)
    (hfail : ∀ db : Database, db.fail p statement = (.error .other, db)) :
    (sql statement).Keeps (Alone.answer env p) (Open p t) (fun _ => True) Faults := by
  refine Code.Keeps.bind (A := fun a => a ≠ .error .uniqueViolation)
    (Code.keeps_ask fun s a s' hs hanswer => ?_) fun a ha => ?_
  · obtain ⟨hsteady, hgo | ⟨rfl, hdb⟩⟩ := answer_sql hanswer hstatement
    · obtain ⟨hcommitted, hopen, ha⟩ := hexec _ _ a hs.own hgo
      exact ⟨⟨hcommitted.trans hs.committed, hopen, hsteady.unused hs.unused⟩, ha⟩
    · rw [hfail] at hdb ⊢
      exact ⟨⟨hdb ▸ hs.committed, hdb ▸ hs.own, hsteady.unused hs.unused⟩, by simp⟩
  · cases a with
    | ok a => exact Code.keeps_pure trivial
    | error e => exact Code.keeps_throw (faults_sql (by simpa using ha))

theorem answer_append {l : LedgerEntry} {a : Except SqlError Unit} (hs : s.Unused)
    (h : Alone.answer env p (.sql (.append l)) s = some (a, s')) :
    ∃ s₁ : Alone, s₁.shared = s.shared ∧ s₁.Unused ∧
      Alone.serve env p (.sql (.append l)) s₁ = some (a, s') := by
  obtain ⟨hnodup, hfresh⟩ := hs
  simp only [Alone.answer] at h
  split at h
  · simp at h
  · rename_i entry rest heq
    rw [heq] at hnodup hfresh
    obtain ⟨hnew, hrest⟩ := List.nodup_cons.1 hnodup
    have hunused : ¬s.used.contains entry = true := by
      simpa using hfresh entry (.head _)
    rw [if_neg hunused] at h
    refine ⟨⟨s.shared, entry :: s.used, { s.draws with entries := rest }, s.choices⟩, rfl,
      ⟨hrest, ?_⟩, h⟩
    intro other hother hused
    rcases List.mem_cons.1 hused with rfl | hused
    · exact hnew hother
    · exact hfresh other (.tail _ hother) hused

theorem keeps_append {l : LedgerEntry} : (sql (.append l)).Keeps (Alone.answer env p)
    (Open p t) (fun _ => True) Faults := by
  refine Code.Keeps.bind (A := fun a => a ≠ .error .uniqueViolation)
    (Code.keeps_ask fun s a s' hs hanswer => ?_) fun a ha => ?_
  · obtain ⟨s₁, hshared, hunused, hserve⟩ := answer_append hs.unused hanswer
    obtain ⟨hsteady, hgo | ⟨rfl, hdb⟩⟩ := serve_sql hserve
    · rw [hshared] at hgo
      obtain ⟨rfl, hdb⟩ := Prod.mk.inj (Option.some.inj hgo)
      obtain ⟨own, hown⟩ := Option.isSome_iff_exists.1 hs.own
      obtain ⟨hcommitted, -, htx⟩ := Store.appendLog_of_open (l := l) hown
      refine ⟨⟨?_, ?_, hsteady.unused hunused⟩, by simp⟩
      · rw [← hdb, hcommitted, hs.committed]
      · simp [← hdb, htx]
    · rw [hshared] at hdb
      exact ⟨⟨hdb ▸ hs.committed, hdb ▸ hs.own, hsteady.unused hunused⟩, by simp [Store.fail]⟩
  · cases a with
    | ok a => exact Code.keeps_pure trivial
    | error e => exact Code.keeps_throw (faults_sql (by simpa using ha))

theorem keeps_updateBalance {id : Uuid} {delta : Int} :
    (updateBalance id delta).Keeps (Alone.answer env p) (Open p t) (fun _ => True) Faults := by
  refine Code.Keeps.bind
    (keeps_open (by simp) (fun db db' a hopen hexec => ?_) fun db => rfl) ?_
  · obtain ⟨own, hown⟩ := Option.isSome_iff_exists.1 hopen
    obtain ⟨hfree, ⟨rfl, rfl, -⟩ | ⟨w, e, -, hchange, rfl, rfl⟩ | ⟨w, w', -, -, rfl, rfl⟩⟩ :=
      Store.exec_update hexec
    · exact ⟨rfl, hopen, by simp⟩
    · refine ⟨rfl, hopen, ?_⟩
      unfold addBalance at hchange
      dsimp only at hchange
      split at hchange
      · simp at hchange
      · obtain rfl := Except.error.inj hchange
        simp
    · obtain ⟨hcommitted, -, htx⟩ := Store.write_of_open (v := w') hfree hown
      exact ⟨hcommitted, by simp [htx], by simp⟩
  · intro updated _
    cases updated with
    | none => exact Code.keeps_throw (faults_sql (by simp))
    | some w => exact Code.keeps_pure trivial

theorem keeps_collectFee {trxId : JsString} : (collectFee order id trxId).Keeps
    (Alone.answer env p) (Open p t) (fun _ => True) Faults := by
  unfold collectFee
  split
  · exact Code.keeps_pure trivial
  · exact keeps_updateBalance.bind fun _ _ => keeps_append

theorem keeps_postLedger {record : Transaction} : (postLedger order id record).Keeps
    (Alone.answer env p) (Open p t) (fun _ => True) Faults := by
  refine keeps_updateBalance.bind fun _ _ => keeps_append.bind fun _ _ => ?_
  refine keeps_updateBalance.bind fun _ _ => keeps_append.bind fun _ _ => ?_
  exact keeps_collectFee.bind fun _ _ => Code.keeps_pure trivial

/-! ## The transfer -/

/-- The transfer gets as far as writing its row, and one of its unique columns is taken. -/
def Collides (env : Env) (order : TransferOrder) (t : Data) (trxId : JsString) (id : Uuid) :
    Prop :=
  GetsToWrite env order t ∧ Taken env order t trxId id

theorem ends_acidBlock (h : Untouched p t ⟨[now, createdAt], bytes, id, entries⟩ s) :
    Code.Ends (Alone.answer env p) (acidBlock env order) s (fun _ s' => Open p t s')
      (fun e s' => s'.shared.db.committed = t ∧ (e = .sql .uniqueViolation ∧
        Collides env order t (generateTrxId now bytes) id ∨ Faults e)) := by
  refine (keeps_lockWallets.ends h).imp (fun _ _ h => h) (fun e s' h => ⟨h.2.committed, .inr h.1⟩)
    |>.bind fun _ s₁ h₁ => ?_
  refine (keeps_fetchLocked.ends h₁.2).imp (fun _ _ h => h)
    (fun e s' h => ⟨h.2.committed, .inr h.1⟩) |>.bind ?_
  rintro ⟨sender, receiver, system⟩ s₂ ⟨⟨hsender, hreceiver, hsystem⟩, h₂⟩
  refine (keeps_assertFunds.ends h₂).imp (fun _ _ h => h)
    (fun e s' h => ⟨h.2.committed, .inr h.1⟩) |>.bind fun _ s₃ h₃ => ?_
  refine (ends_createTransaction h₃.2).imp (fun _ _ h => h) (fun e s' h => ?_)
    |>.bind fun _ s₄ h₄ => ?_
  · refine ⟨h.1, h.2.imp_left fun ⟨he, key, hkey, htaken⟩ => ⟨he, ?_, key, hkey, htaken⟩⟩
    exact ⟨⟨sender, hsender, h₃.1⟩, hreceiver, hsystem, by simp [hkey]⟩
  · obtain ⟨seen, hseen⟩ := h₄
    obtain ⟨own, hown, -⟩ := hseen.own
    have hopen : Open p t s₄ := ⟨hseen.committed, by simp [hown], hseen.unused⟩
    exact (keeps_postLedger.ends hopen).imp (fun _ _ h => h.2)
      fun e s' h => ⟨h.2.committed, .inr h.1⟩

theorem untouched_begin (hdb : s.shared.db = (Store.quiet t).begin p)
    (hdraws : s.draws = draws) (hunused : s.Unused) : Untouched p t draws s where
  committed := by rw [hdb]; rfl
  own := by rw [hdb]; exact Function.update_self ..
  free := fun _ => by rw [hdb]; exact .inl rfl
  draws := hdraws
  unused := hunused

/-- Whatever else fails, the conflict is only reported when a unique column is taken. -/
theorem ends_executeACIDTransfer {s : Shared} {choices : List Choice}
    (hfresh : FreshIds entries used) :
    Code.Ends (Alone.answer env p) (executeACIDTransfer env order)
      (Alone.start s t used ⟨[now, createdAt], bytes, id, entries⟩ choices) (fun _ _ => True)
      (fun e s' => e = alreadyProcessed →
        s'.shared.db.committed = t ∧ Collides env order t (generateTrxId now bytes) id) := by
  refine Code.Ends.tryCatch (F := fun e s' => s'.shared.db.committed = t ∧
    (e = .sql .uniqueViolation ∧ Collides env order t (generateTrxId now bytes) id ∨
      Faults e)) ?_ fun e s' he => ?_
  · unfold transaction
    refine Code.Ends.bind (Q := fun _ s' => Untouched p t ⟨[now, createdAt], bytes, id, entries⟩ s')
      ?_ fun _ s₁ h₁ => ?_
    · refine Code.ends_request fun a s₁ hanswer => ?_
      obtain ⟨hsteady, hgo | ⟨rfl, hdb⟩⟩ := answer_sql hanswer (by simp)
      · obtain ⟨rfl, hdb⟩ := Prod.mk.inj (Option.some.inj hgo)
        exact Code.ends_pure
          (untouched_begin hdb.symm hsteady.draws (hsteady.unused hfresh))
      · exact Code.ends_throw ⟨by rw [hdb]; rfl, .inr (faults_sql (by simp))⟩
    · refine Code.Ends.bind (Q := fun _ s' => Open p t s') ?_ fun a s₂ h₂ => ?_
      · refine (ends_acidBlock h₁).tryCatch fun e s₂ h₂ => ?_
        refine Code.ends_request fun a s₃ hanswer => Code.ends_throw ⟨?_, h₂.2⟩
        obtain ⟨-, hgo | ⟨-, hdb⟩⟩ := answer_sql hanswer (by simp)
        · obtain ⟨-, hdb⟩ := Prod.mk.inj (Option.some.inj hgo)
          rw [← hdb]
          exact h₂.1
        · rw [hdb]
          exact h₂.1
      · refine Code.Ends.bind (Q := fun _ _ => True)
          (Code.ends_request fun a s₃ hanswer => ?_) fun _ _ _ => Code.ends_pure trivial
        obtain ⟨-, hgo | ⟨rfl, hdb⟩⟩ := answer_sql hanswer (by simp)
        · obtain ⟨rfl, -⟩ := Prod.mk.inj (Option.some.inj hgo)
          exact Code.ends_pure trivial
        · exact Code.ends_throw ⟨by rw [hdb]; exact h₂.1, .inr (faults_sql (by simp))⟩
  · obtain ⟨hcommitted, ⟨rfl, hcollides⟩ | hfaults⟩ := he
    · exact Code.ends_throw fun _ => ⟨hcommitted, hcollides⟩
    · split
      · exact absurd rfl hfaults.1
      · exact Code.ends_throw fun h => absurd h hfaults.2

/-! ## A collision is reported -/

variable {rest : List Choice}

variable (env) in
theorem interpret_locks {keys : List Key} (h : Untouched p t draws s)
    (hchoices : s.choices = List.replicate keys.length .go ++ rest) :
    ∃ s', Code.interpret (Alone.answer env p)
        (Code.forEach (fun k => sql (.lock k)) keys) s = some ⟨.ok (), [], s'⟩ ∧
      Untouched p t draws s' ∧ s'.choices = rest := by
  induction keys generalizing s with
  | nil => exact ⟨s, rfl, h, hchoices⟩
  | cons k keys ih =>
      obtain ⟨shared, used, drawn, choices⟩ := s
      obtain rfl : choices = Choice.go :: (List.replicate keys.length Choice.go ++ rest) :=
        hchoices
      have hlock : Code.interpret (Alone.answer env p) (sql (.lock k))
          ⟨shared, used, drawn, .go :: (List.replicate keys.length .go ++ rest)⟩ =
          some ⟨.ok (), [], ⟨{ shared with db := shared.db.acquire p k (h.free k) }, used, drawn,
            List.replicate keys.length .go ++ rest⟩⟩ := by
        refine (Code.interpret_bind_silent (a := .ok ()) ?_).trans rfl
        rw [execute, Code.interpret_ask]
        simp [Alone.answer, Alone.serve, Alone.choice, Shared.exec, Store.exec,
          show shared.db.Free p k from h.free k]
      have hkeeps : (sql (.lock k)).Keeps (Alone.answer env p) (Untouched p t draws) (fun _ => True)
          Faults := keeps_lock
      have hkept := hkeeps.ends h _ hlock
      obtain ⟨s', hs', hrest⟩ := ih (s := ⟨_, _, _, _⟩) hkept.2 rfl
      exact ⟨s', (Code.interpret_bind_silent hlock).trans hs', hrest⟩

theorem interpret_select {shared : Shared} {query : Query} :
    Code.interpret (Alone.answer env p) (select query) ⟨shared, used, draws, .go :: rest⟩ =
      some ⟨.ok (shared.db.view p), [], ⟨shared, used, draws, rest⟩⟩ := rfl

def lockedKeys (t : Data) (ids : List Uuid) : List Key :=
  (ids.dedup.filter fun id => (t.row (.wallet id)).isSome).map .wallet

variable (env) in
theorem interpret_lockWallets {ids : List Uuid} {shared : Shared}
    (h : Untouched p t draws ⟨shared, used, draws, .go :: .order (lockedKeys t ids) ::
      (List.replicate (lockedKeys t ids).length .go ++ rest)⟩) :
    ∃ s', Code.interpret (Alone.answer env p) (lockWallets ids)
        ⟨shared, used, draws, .go :: .order (lockedKeys t ids) ::
          (List.replicate (lockedKeys t ids).length .go ++ rest)⟩ =
        some ⟨.ok (), [], s'⟩ ∧ Untouched p t draws s' ∧ s'.choices = rest := by
  have hview : shared.db.view p = t := h.view
  have h' : Untouched p t draws
      ⟨shared, used, draws, List.replicate (lockedKeys t ids).length .go ++ rest⟩ :=
    ⟨h.committed, h.own, h.free, h.draws, h.unused⟩
  obtain ⟨s', hs', hrest⟩ := interpret_locks env h' rfl
  refine ⟨s', (Code.interpret_bind_silent interpret_select).trans ?_, hrest⟩
  refine (Code.interpret_bind_silent ?_).trans hs'
  rw [hview, Code.interpret_ask]
  simp [Alone.answer, Alone.serve, Alone.choice, Shared.exec, lockedKeys]

variable (env draws used rest) in
theorem interpret_fetchLocked {shared : Shared} {sender receiver system : Wallet}
    (hview : shared.db.view p = t)
    (hsender : t.lockedWallet order.senderWalletId = some sender)
    (hreceiver : t.lockedWallet order.receiverWalletId = some receiver)
    (hsystem : t.lockedSystem order.systemWalletId = some system) :
    Code.interpret (Alone.answer env p) (fetchLocked order)
        ⟨shared, used, draws, .turn true :: .go :: .turn true :: .go :: .go :: rest⟩ =
      some ⟨.ok (sender, receiver, system), [], ⟨shared, used, draws, rest⟩⟩ := by
  have hboth : Code.interpret (Alone.answer env p) (Code.both Op.turn id
      (findLockedWallet order.senderWalletId) (Code.both Op.turn id
        (findLockedWallet order.receiverWalletId) (findLockedSystem order.systemWalletId)))
      ⟨shared, used, draws, .turn true :: .go :: .turn true :: .go :: .go :: rest⟩ =
      some ⟨.ok (some sender, some receiver, some system), [], ⟨shared, used, draws, rest⟩⟩ := by
    rw [← hsender, ← hreceiver, ← hsystem, ← hview]
    rfl
  exact (Code.interpret_bind_silent hboth).trans rfl

theorem interpret_assertFunds {balance : Int} {total : Money} (hmax : balance ≤ maxMinorUnits)
    (hfunds : total.minorUnits ≤ balance) :
    Code.interpret (Alone.answer env p) (assertFunds balance total) s =
      some ⟨.ok (), [], s⟩ := by
  have hnonneg := total.nonneg
  have havailable : Money.fromMinorUnits balance .bdt =
      .ok ⟨balance, .bdt, by omega, hmax⟩ := by
    unfold Money.fromMinorUnits
    rw [dif_neg (by omega), dif_neg (by omega)]
  unfold assertFunds
  rw [havailable]
  refine (Code.interpret_bind_silent (Code.interpret_pure ..)).trans ?_
  rw [Money.isLessThan_ok]
  refine (Code.interpret_bind_silent (Code.interpret_pure ..)).trans ?_
  rw [Code.interpret_throwIf, if_neg (by simpa using hfunds)]

theorem interpret_insert {shared : Shared} {seen : Data} {k : Key} {v : Row k}
    (h : Writing p t seen ⟨shared, used, draws, .go :: rest⟩) :
    (seen.row k = none ∧ ∃ shared',
      Code.interpret (Alone.answer env p) (sql (.insert k v)) ⟨shared, used, draws, .go :: rest⟩ =
        some ⟨.ok (), [], ⟨shared', used, draws, rest⟩⟩ ∧
      Writing p t (seen.put k v) ⟨shared', used, draws, rest⟩) ∨
    ((seen.row k).isSome ∧
      Code.interpret (Alone.answer env p) (sql (.insert k v)) ⟨shared, used, draws, .go :: rest⟩ =
        some ⟨.error (.sql .uniqueViolation), [], ⟨shared, used, draws, rest⟩⟩) := by
  obtain ⟨own, hown, hseen⟩ := h.own
  have hview : shared.db.view p = seen := by
    rw [Store.view_of_open hown, h.committed, hseen]
  have hfree : shared.db.Free p k := h.free k
  have hanswer {a : Except SqlError Unit} {db : Database}
      (hexec : shared.db.exec p (.insert k v : Statement) = some (a, db)) :
      Code.interpret (Alone.answer env p) (execute (.insert k v))
          ⟨shared, used, draws, .go :: rest⟩ =
        some ⟨.ok a, [], ⟨{ shared with db := db }, used, draws, rest⟩⟩ := by
    rw [execute, Code.interpret_ask]
    simp only [Alone.answer, Alone.serve, Alone.choice, Option.bind_some, Shared.exec, hexec,
      Option.map_some]
  cases hrow : seen.row k with
  | none =>
      have hexec : shared.db.exec p (.insert k v : Statement) =
          some (.ok (), shared.db.write p k v hfree) := by
        simp [Store.exec, hfree, hview, hrow]
      have hinsert : Code.interpret (Alone.answer env p) (sql (.insert k v))
          ⟨shared, used, draws, .go :: rest⟩ = some ⟨.ok (), [],
            ⟨{ shared with db := shared.db.write p k v hfree }, used, draws, rest⟩⟩ :=
        (Code.interpret_bind_silent (hanswer hexec)).trans rfl
      exact .inl ⟨rfl, _, hinsert, (ends_insert h _ hinsert).1⟩
  | some v₀ =>
      have hexec : shared.db.exec p (.insert k v : Statement) =
          some (.error .uniqueViolation, shared.db) := by
        simp [Store.exec, hfree, hview, hrow]
      exact .inr ⟨rfl, (Code.interpret_bind_silent (hanswer hexec)).trans rfl⟩

theorem interpret_createTransaction {shared : Shared}
    (h : Untouched p t ⟨[now, createdAt], bytes, id, entries⟩
      ⟨shared, used, ⟨[now, createdAt], bytes, id, entries⟩, .go :: .go :: .go :: .go :: rest⟩)
    (htaken : Taken env order t (generateTrxId now bytes) id) :
    ∃ s', Code.interpret (Alone.answer env p) (createTransaction env order)
        ⟨shared, used, ⟨[now, createdAt], bytes, id, entries⟩, .go :: .go :: .go :: .go :: rest⟩ =
        some ⟨.error (.sql .uniqueViolation), [], s'⟩ ∧
      ∃ rest', s'.choices = .go :: rest' := by
  obtain ⟨key, hkey, htaken⟩ := htaken
  have hwriting : Writing p t t
      ⟨shared, used, ⟨[], bytes, id, entries⟩, .go :: .go :: .go :: .go :: rest⟩ :=
    ⟨h.writing.committed, h.writing.own, h.writing.free, h.unused⟩
  let trxId := generateTrxId now bytes
  let record := order.record trxId key createdAt
  -- the draws take no choice
  have hdrawn : Code.interpret (Alone.answer env p) (createTransaction env order)
      ⟨shared, used, ⟨[now, createdAt], bytes, id, entries⟩, .go :: .go :: .go :: .go :: rest⟩ =
      Code.interpret (Alone.answer env p) (do
        sql (.insert (.transaction id) record)
        sql (.insert (.transactionByTrxId trxId) id)
        sql (.insert (.transactionByKey key) id)
        pure (id, record))
          ⟨shared, used, ⟨[], bytes, id, entries⟩, .go :: .go :: .go :: .go :: rest⟩ := by
    unfold createTransaction
    rw [hkey]
    rfl
  rw [hdrawn]
  obtain ⟨hid, s₁, hinsert₁, h₁⟩ | ⟨-, hinsert₁⟩ :=
    interpret_insert (k := .transaction id) (v := record) hwriting
  · rw [Code.interpret_bind_silent hinsert₁]
    obtain ⟨htrxId, s₂, hinsert₂, h₂⟩ | ⟨-, hinsert₂⟩ := interpret_insert h₁
    · rw [Code.interpret_bind_silent hinsert₂]
      obtain ⟨hkey', -⟩ | ⟨-, hinsert₃⟩ :=
        interpret_insert (k := .transactionByKey key) (v := id) h₂
      · simp only [ne_eq, reduceCtorEq, not_false_eq_true, Tables.row_put_of_ne] at htrxId hkey'
        rw [hid, htrxId, hkey'] at htaken
        simp at htaken
      · exact ⟨_, Code.interpret_bind_error hinsert₃, _, rfl⟩
    · exact ⟨_, Code.interpret_bind_error hinsert₂, _, rfl⟩
  · exact ⟨_, Code.interpret_bind_error hinsert₁, _, rfl⟩

/-- A transfer that collides is reported as already processed. -/
theorem collision_reported (p : Pid) (s : Shared) (createdAt : Instant)
    (hfresh : FreshIds entries used) (h : Collides env order t (generateTrxId now bytes) id) :
    ∃ choices o, Code.interpret (Alone.answer env p) (executeACIDTransfer env order)
        (Alone.start s t used ⟨[now, createdAt], bytes, id, entries⟩ choices) = some o ∧
      o.result = .error alreadyProcessed := by
  obtain ⟨⟨⟨sender, hsender, hmax, hfunds⟩, hreceiver, hsystem, -⟩, htaken⟩ := h
  obtain ⟨receiver, hreceiver⟩ := Option.isSome_iff_exists.1 hreceiver
  obtain ⟨system, hsystem⟩ := Option.isSome_iff_exists.1 hsystem
  let ids := [order.senderWalletId, order.receiverWalletId,
    order.systemWalletId].insertionSort (fun a b => a.toNat ≤ b.toNat)
  let draws : Draws := ⟨[now, createdAt], bytes, id, entries⟩
  let later : List Choice := .turn true :: .go :: .turn true :: .go :: .go ::
    .go :: .go :: .go :: .go :: []
  let locking : List Choice := .go :: .order (lockedKeys t ids) ::
    (List.replicate (lockedKeys t ids).length .go ++ later)
  let begun : Shared := { s with db := (Store.quiet t).begin p }
  have h₀ : Untouched p t draws ⟨begun, used, draws, locking⟩ :=
    untouched_begin rfl rfl hfresh
  obtain ⟨⟨s₁, used₁, drawn, choices⟩, hlocks, h₁, rfl⟩ := interpret_lockWallets env h₀
  obtain rfl : drawn = draws := h₁.draws
  have hfetch := interpret_fetchLocked env draws used₁ (.go :: .go :: .go :: .go :: [])
    h₁.view hsender hreceiver hsystem
  have h₂ : Untouched p t draws ⟨s₁, used₁, draws, .go :: .go :: .go :: .go :: []⟩ :=
    ⟨h₁.committed, h₁.own, h₁.free, h₁.draws, h₁.unused⟩
  obtain ⟨⟨s₃, used₃, drawn, choices⟩, hcreate, rest, rfl⟩ :=
    interpret_createTransaction h₂ htaken
  have hblock : Code.interpret (Alone.answer env p) (acidBlock env order)
      ⟨begun, used, draws, locking⟩ =
      some ⟨.error (.sql .uniqueViolation), [], ⟨s₃, used₃, drawn, .go :: rest⟩⟩ := by
    refine (Code.interpret_bind_silent hlocks).trans ?_
    refine (Code.interpret_bind_silent hfetch).trans ?_
    refine (Code.interpret_bind_silent (interpret_assertFunds hmax hfunds)).trans ?_
    exact Code.interpret_bind_error hcreate
  have htransaction : Code.interpret (Alone.answer env p) (transaction (acidBlock env order))
      (Alone.start s t used draws (.go :: locking)) = some ⟨.error (.sql .uniqueViolation), [],
        ⟨{ s₃ with db := s₃.db.rollback p }, used₃, drawn, rest⟩⟩ := by
    have hstart : Code.interpret (Alone.answer env p) (sql .start)
        (Alone.start s t used draws (.go :: locking)) =
        some ⟨.ok (), [], ⟨begun, used, draws, locking⟩⟩ := rfl
    refine (Code.interpret_bind_silent hstart).trans ?_
    exact Code.interpret_bind_error ((Code.interpret_tryCatch_error hblock).trans rfl)
  exact ⟨.go :: locking, _, (Code.interpret_tryCatch_error htransaction).trans rfl, rfl⟩

end Alone

/-- A transfer that is reported as already processed has been, exactly if neither the
generated transaction number nor the row identifier is in use, unless the key is; or if
the transfer does not get as far as writing its row.  The identifiers that are generated for
the ledger entries are new. -/
theorem conflict_means_processed {env : Env} {systemId : Uuid} {t : Data}
    {entries used : List Uuid} (hfresh : FreshIds entries used) (hi : Integrity systemId t)
    (p : Pid) (order : TransferOrder) (s : Shared) (now : Instant) (bytes : BitVec 32)
    (id : Uuid) :
    (∀ createdAt choices o, Code.interpret (Alone.answer env p) (executeACIDTransfer env order)
        (Alone.start s t used ⟨[now, createdAt], bytes, id, entries⟩ choices) = some o →
      o.result = .error alreadyProcessed →
      ∃ key, env.castUuid order.idempotencyKey = some key ∧
        Data.processed o.state.shared.db.committed key) ↔
    (GetsToWrite env order t →
      (∃ key, env.castUuid order.idempotencyKey = some key ∧ Data.processed t key) ∨
        t.row (.transactionByTrxId (generateTrxId now bytes)) = none ∧
          t.row (.transaction id) = none) := by
  have hreported {createdAt choices o} (ho : Code.interpret (Alone.answer env p)
      (executeACIDTransfer env order)
      (Alone.start s t used ⟨[now, createdAt], bytes, id, entries⟩ choices) = some o)
      (hconflict : o.result = .error alreadyProcessed) :
      o.state.shared.db.committed = t ∧
        Collides env order t (generateTrxId now bytes) id := by
    have hends := ends_executeACIDTransfer hfresh o ho
    obtain ⟨result, events, s'⟩ := o
    obtain rfl : result = _ := hconflict
    exact hends rfl
  constructor
  · intro h hgets
    by_cases hfree : t.row (.transactionByTrxId (generateTrxId now bytes)) = none ∧
        t.row (.transaction id) = none
    · exact .inr hfree
    · left
      obtain ⟨key, hkey⟩ := Option.isSome_iff_exists.1 hgets.key
      have hcollides : Collides env order t (generateTrxId now bytes) id := by
        refine ⟨hgets, key, hkey, ?_⟩
        simp only [Option.isSome_iff_ne_none]
        tauto
      obtain ⟨choices, o, ho, hconflict⟩ := collision_reported p s now hfresh hcollides
      rw [← (hreported ho hconflict).1]
      exact h now choices o ho hconflict
  · intro h createdAt choices o ho hconflict
    obtain ⟨hcommitted, hgets, key, hkey, htaken⟩ := hreported ho hconflict
    rw [hcommitted]
    obtain hprocessed | ⟨htrxId, hid⟩ := h hgets
    · exact hprocessed
    · rw [htrxId, hid] at htaken
      simp only [Option.isSome_none, Bool.false_eq_true, false_or] at htaken
      obtain ⟨id', hid'⟩ := Option.isSome_iff_exists.1 htaken
      obtain ⟨r, hr, hcolumn⟩ := hi.idempotencyKeys.target key id' hid'
      exact ⟨key, hkey, id', r, hr, Option.some.inj hcolumn⟩

namespace Sample

def sending : TransferOrder where
  senderWalletId := 11
  receiverWalletId := 12
  systemWalletId := 100
  amounts := ⟨⟨1000, .bdt, by decide, by decide⟩, ⟨500, .bdt, by decide, by decide⟩,
    ⟨1500, .bdt, by decide, by decide⟩⟩
  type := .sendMoney
  idempotencyKey := [7]
  reference := none

def other : Transaction :=
  { sending.record (generateTrxId time 0) 8 time with senderWalletId := 12, receiverWalletId := 11 }

def occupied : Data :=
  ((data.put (.transaction 61) other).put (.transactionByTrxId other.trxId) 61).put
    (.transactionByKey other.idempotencyKey) 61

theorem integrity_occupied : Integrity 100 occupied :=
  integrity.insert_transaction (by decide +kernel) (by decide +kernel) (by decide +kernel)

theorem entryIds_fresh : FreshIds [74, 75, 76] [71, 72, 73] := ⟨by simp, by simp⟩

end Sample

theorem conflict_means_processed_of_unused :
    Sample.occupied.row (.transactionByTrxId (generateTrxId Sample.time 1)) = none ∧
    ∀ createdAt choices o,
      Code.interpret (Alone.answer Sample.env 0) (executeACIDTransfer Sample.env Sample.sending)
        (Alone.start Sample.shared Sample.occupied [71, 72, 73]
          ⟨[Sample.time, createdAt], 1, 62, [74, 75, 76]⟩ choices) = some o →
      o.result = .error alreadyProcessed →
      ∃ key, Sample.env.castUuid Sample.sending.idempotencyKey = some key ∧
        Data.processed o.state.shared.db.committed key :=
  ⟨by decide +kernel,
    (conflict_means_processed Sample.entryIds_fresh Sample.integrity_occupied 0 Sample.sending
      Sample.shared Sample.time 1 62).2 fun _ => .inr (by decide +kernel)⟩

/-- The generated transaction number is in use, and the transfer that was never made is
reported as already processed. -/
theorem conflict_without_processed : Integrity 100 Sample.occupied ∧
    ∃ choices o, Code.interpret (Alone.answer Sample.env 0)
        (executeACIDTransfer Sample.env Sample.sending)
        (Alone.start Sample.shared Sample.occupied [71, 72, 73]
          ⟨[Sample.time, Sample.time], 0, 62, [74, 75, 76]⟩ choices) = some o ∧
      o.result = .error alreadyProcessed ∧
      ¬∃ key, Sample.env.castUuid Sample.sending.idempotencyKey = some key ∧
        Data.processed o.state.shared.db.committed key := by
  have hcollides : Collides Sample.env Sample.sending Sample.occupied
      (generateTrxId Sample.time 0) 62 :=
    ⟨⟨⟨⟨some 1, .personal, true, 1500, .bdt⟩, by decide +kernel, by decide, by decide⟩,
      by decide +kernel, by decide +kernel, rfl⟩, 7, rfl, .inr (.inl (by decide +kernel))⟩
  obtain ⟨choices, o, ho, hconflict⟩ :=
    collision_reported 0 Sample.shared Sample.time Sample.entryIds_fresh hcollides
  refine ⟨Sample.integrity_occupied, choices, o, ho, hconflict, ?_⟩
  have hends := ends_executeACIDTransfer Sample.entryIds_fresh o ho
  obtain ⟨result, events, s'⟩ := o
  obtain rfl : result = _ := hconflict
  rintro ⟨key, hkey, id, r, hr, hrow⟩
  obtain rfl : (7 : Uuid) = key := Option.some.inj hkey
  rw [(hends rfl).1] at hr
  have hindex := Sample.integrity_occupied.idempotencyKeys.entry id r _ hr (congrArg some hrow)
  have hnone : Sample.occupied.row (.transactionByKey 7) = none := by decide +kernel
  exact absurd (hnone.symm.trans hindex) (by simp)

end Kori
