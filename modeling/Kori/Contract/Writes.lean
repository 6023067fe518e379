import Kori.Contract.Queries

/-!
# Statements that write

Inside a transaction a write stays with the request until the commit; outside,
it is an effect by itself.  The rules follow the uncommitted writes exactly, so
that the commit can be matched with the list of effects.
-/

namespace Kori

open Foundation

variable {env : Env} {σ : Scope} {p : Pid} {c c' : State} {own : Data}
variable {α β : Type} {X : Exn → Prop}

abbrev State.setDb (c : State) (db : Database) : State :=
  c.withShared { c.shared with db := db }

theorem exec_sql {statement : Statement} {choice : Choice} {s s' : Shared}
    {a : Except SqlError statement.Ans}
    (h : Shared.exec env p (.sql statement) choice s = some (a, s')) :
    (choice = .fail ∧ a = (s.db.fail p statement).1 ∧
      s' = { s with db := (s.db.fail p statement).2 }) ∨
    (choice = .go ∧ ∃ db, s.db.exec p statement = some (a, db) ∧ s' = { s with db := db }) := by
  cases choice <;>
    simp only [Shared.exec, Option.map_eq_some_iff, Option.some.injEq, Prod.mk.injEq,
      reduceCtorEq] at h
  · obtain ⟨⟨a', db⟩, hdb, rfl, rfl⟩ := h
    exact .inr ⟨rfl, db, hdb, rfl⟩
  · exact .inl ⟨rfl, h.1.symm, h.2.symm⟩

/-! ## Uncommitted rows -/

theorem Pending.empty : Pending env c p .empty where
  covered := by simp
  debits := by simp

theorem Pending.append (h : Pending env c p own) (l : LedgerEntry) :
    Pending env c p (own.append l) :=
  ⟨h.covered, h.debits⟩

theorem Pending.put_other (h : Pending env c p own) {k : Key} {v : Row k}
    (hwallet : ∀ id, k ≠ .wallet id) (htransaction : ∀ id, k ≠ .transaction id) :
    Pending env c p (own.put k v) where
  covered := by simpa [Tables.row_put_of_ne, (htransaction _).symm] using h.covered
  debits := by
    simpa [Tables.row_put_of_ne, (hwallet _).symm, (htransaction _).symm] using h.debits

theorem Pending.put_wallet (h : Pending env c p own) {id : Uuid} {w' : Wallet}
    (hdebit : ∀ w, c.data.row (.wallet id) = some w → w'.balance < w.balance →
      ∃ tid r, own.row (.transaction tid) = some r ∧ r.senderWalletId = id ∧
        w.balance - w'.balance = r.amount + r.fee) :
    Pending env c p (own.put (.wallet id) w') where
  covered := by simpa using h.covered
  debits := by
    intro id' w w₁ hw₁ hw hlt
    simp only [ne_eq, reduceCtorEq, not_false_eq_true, Tables.row_put_of_ne]
    by_cases hid : id' = id
    · subst id'
      rw [Tables.row_put_self, Option.some.injEq] at hw₁
      subst w₁
      exact hdebit w hw hlt
    · rw [Tables.row_put_of_ne (by simpa using hid)] at hw₁
      exact h.debits id' w w₁ hw₁ hw hlt

theorem Pending.put_transaction (h : Pending env c p own) {id : Uuid} {r : Transaction}
    (hnew : own.row (.transaction id) = none)
    (hr : ∃ request order sender receiver system, c.calls p = some (.transfer request) ∧
      Ordered env request order c.data ∧ Participants c p order sender receiver system ∧
      ∃ trxId key createdAt, r = order.record trxId key createdAt) :
    Pending env c p (own.put (.transaction id) r) where
  covered := by
    intro id' r' hr'
    by_cases hid : id' = id
    · subst id'
      rw [Tables.row_put_self, Option.some.injEq] at hr'
      exact hr' ▸ hr
    · rw [Tables.row_put_of_ne (by simpa using hid)] at hr'
      exact h.covered id' r' hr'
  debits := by
    intro id' w w' hw' hw hlt
    obtain ⟨tid, r', hr', hdebit⟩ := h.debits id' w w' (by simpa using hw') hw hlt
    refine ⟨tid, r', ?_, hdebit⟩
    rw [Tables.row_put_of_ne]
    · exact hr'
    · rintro hk
      obtain rfl : tid = id := by simpa using hk
      simp [hnew] at hr'

/-! ## Steps that publish -/

/-- A step after which `p` has no open transaction is judged by what it leaves
committed and what it reports. -/
theorem guar_publish {db : Database} {replies : List Reply} (hcall : Called p c)
    (hframe : Store.Frame p c.shared.db db) (hidle : db.tx p = none)
    (heffect : Effect env p c db.committed replies) :
    Guar env p c (Conf.tell (State.setDb c db) p replies) where
  frame := hframe
  called := hcall
  calls := fun _ _ h => h
  others := fun _ _ => rfl
  minted := fun _ _ h => h
  leases := fun _ _ => rfl
  cache := ⟨fun _ => .inl rfl, fun _ h => .inl h⟩
  pending := by
    intro own hown
    rw [show db.tx p = some own from hown] at hidle
    simp at hidle
  effect := ⟨replies, rfl, heffect⟩

theorem Guar.told {s : Shared} {replies : List Reply}
    (h : Guar env p c (Conf.tell (Conf.withShared c s) p replies))
    (hpermits : ∀ e ∈ replies,
      σ.permits p e (Conf.tell (Conf.withShared c s) p replies)) :
    (terms env σ).Guar p c (Conf.tell (Conf.withShared c s) p replies) := by
  refine ⟨h, fun e he => ?_⟩
  simp only [Conf.tell_out, Conf.withShared_out, List.mem_append, List.mem_map,
    Prod.mk.injEq, true_and, exists_eq_right] at he
  exact he.imp_right (hpermits e)

/-! ## Statements inside a transaction -/

instance : IsPreorder State (Within p) where
  refl c := (Rely.refl p c).within
  trans _ _ _ := Within.trans

/-- Code inside a transaction: it keeps the contract, ends in `Q` and throws only
`X`. -/
abbrev Works (env : Env) (σ : Scope) (p : Pid) {α : Type} (m : Action α)
    (Q : α → State → Prop) (X : Exn → Prop) (c : State) : Prop :=
  Leads (kori env) (terms env σ) p (Within p) m Q (fun e _ => X e) c

theorem Reads.works {m : Action α} {Q : α → State → Prop} (h : Reads env σ p m Q X c) :
    Works env σ p m Q X c :=
  Leads.of_quiet h fun _ hr => Rely.within hr

theorem Reads.inside {m : Action α} {Q : α → State → Prop} (h : Reads env σ p m Q X c)
    (htx : c.shared.db.tx p = some own) :
    Works env σ p m (fun a c₁ => Q a c₁ ∧ c₁.shared.db.tx p = some own) X c :=
  Reads.works (h.imp (fun _ _ hr hQ => ⟨hQ, hr.tx.trans htx⟩) fun _ _ _ h => h)

theorem works_only {m : Action α} (hm : m.Only Op.Quiet) (hcall : Called p c)
    (htx : c.shared.db.tx p = some own) :
    Works env σ p m (fun _ c₁ => c₁.shared.db.tx p = some own) (fun _ => True) c :=
  ((reads_only hm hcall).inside htx).imp (fun _ _ _ h => h.2) fun _ _ _ h => h

theorem works_ask {op : Op} (hq : op.Quiet) (hcall : Called p c)
    (htx : c.shared.db.tx p = some own) :
    Works env σ p (Code.ask op) (fun _ c₁ => c₁.shared.db.tx p = some own) X c :=
  ((reads_ask (Q := fun _ _ => True) hq hcall fun _ _ _ _ _ _ _ _ _ => trivial).inside
    htx).imp (fun _ _ _ h => h.2) fun _ _ _ h => h

theorem Called.within (h : Called p c) (hw : Within p c c') : Called p c' := by
  obtain ⟨call, hcall⟩ := h
  exact ⟨call, hw.calls p call hcall⟩

theorem within_setDb {db : Database} (hcommitted : db.committed = c.shared.db.committed)
    (hlock : ∀ k, c.shared.db.lock k = some p → db.lock k = some p) :
    Within p c (State.setDb c db) where
  lock := hlock
  kept := fun k _ => congrArg (fun t => t.row k) hcommitted
  grows := by
    change Grows c.data db.committed
    rw [hcommitted]
    exact .refl _
  account := fun _ _ _ _ _ _ h => by simpa [State.data, hcommitted] using h
  lease := rfl
  drawn := fun _ h => h.of_data hcommitted (fun _ _ h => h) rfl
  calls := fun _ _ h => h

theorem guar_setDb {db : Database} (hcall : Called p c)
    (hframe : Store.Frame p c.shared.db db)
    (hcommitted : db.committed = c.shared.db.committed)
    (hpending : ∀ own, db.tx p = some own → Pending env (State.setDb c db) p own) :
    Guar env p c (State.setDb c db) where
  frame := hframe
  called := hcall
  calls := fun _ _ h => h
  others := fun _ _ => rfl
  minted := fun _ _ h => h
  leases := fun _ _ => rfl
  cache := ⟨fun _ => .inl rfl, fun _ h => .inl h⟩
  pending := hpending
  effect := by
    refine ⟨[], by simp, ?_⟩
    change Effect env p c db.committed []
    rw [hcommitted]
    exact .none (by simp)

/-- One statement inside a transaction.  When it fails by itself it does nothing;
otherwise the writes `own` become `own'`. -/
theorem works_sql {statement : Statement} {Q : statement.Ans → State → Prop}
    (hcall : Called p c) (htx : c.shared.db.tx p = some own)
    (hfail : ∀ s : Database, s.fail p statement = (.error .other, s))
    (hX : σ.Fails p → X (.sql .other))
    (h : ∀ c₁, Within p c c₁ → Inv env c₁ → c₁.shared.db.tx p = some own →
      ∀ a db, c₁.shared.db.exec p statement = some (a, db) →
        (db = c₁.shared.db ∨
          db.committed = c₁.shared.db.committed ∧
          (∀ k, c₁.shared.db.lock k = some p → db.lock k = some p) ∧
          ∃ own', db.tx p = some own' ∧ Pending env c₁ p own') ∧
        match a with
        | .ok a => Q a (State.setDb c₁ db)
        | .error e => X (.sql e)) :
    Works env σ p (sql statement) Q X c := by
  refine Leads.bind (R := fun result c₁ =>
    match result with
    | .ok a => Q a c₁
    | .error e => X (.sql e)) (leads_ask ?_) ?_
  · intro c₁ hr hi choice a s hmeets hexec
    have htx₁ : c₁.shared.db.tx p = some own := hr.tx.trans htx
    have hcall₁ : Called p c₁ := hcall.rely hr
    obtain ⟨rfl, rfl, rfl⟩ | ⟨rfl, db, hdb, rfl⟩ := exec_sql hexec
    · rw [hfail]
      have hmoved := Unmoved.refl c₁.shared
      exact ⟨(hmoved.guar hi.1 hcall₁).silent, hr.within.trans hmoved.rely.within,
        hX ⟨_, _, hmeets⟩⟩
    · obtain ⟨hstep, hpost⟩ := h c₁ hr.within hi.1 htx₁ a db hdb
      have hframe := Store.exec_frame hdb
      obtain rfl | ⟨hcommitted, hlock, own', hown', hpending⟩ := hstep
      · have hmoved := Unmoved.refl c₁.shared
        exact ⟨(hmoved.guar hi.1 hcall₁).silent, hr.within.trans hmoved.rely.within, hpost⟩
      · have hwithin := within_setDb (c := c₁) hcommitted hlock
        refine ⟨(guar_setDb hcall₁ hframe hcommitted ?_).silent, hr.within.trans hwithin, hpost⟩
        intro own'' hown''
        rw [hown', Option.some.injEq] at hown''
        subst own''
        exact hpending.within hwithin fun k _ => congrArg (fun t => t.row k) hcommitted
  · intro result c₁ hr hresult
    cases result with
    | ok a => exact leads_pure hresult
    | error e => exact leads_throw hresult

structure Holds (p : Pid) (k : Key) (r : Option (Row k)) (c : State) : Prop where
  lock : c.shared.db.lock k = some p
  row : c.data.row k = r

theorem Holds.within {k : Key} {r : Option (Row k)} (h : Holds p k r c)
    (hw : Within p c c') : Holds p k r c' :=
  ⟨hw.lock k h.lock, (hw.kept k h.lock).trans h.row⟩

theorem works_lock {k : Key} (hcall : Called p c) (htx : c.shared.db.tx p = some own)
    (hX : σ.Fails p → X (.sql .other)) :
    Works env σ p (sql (.lock k))
      (fun _ c₁ => c₁.shared.db.tx p = some own ∧ c₁.shared.db.lock k = some p) X c := by
  refine works_sql hcall htx (fun _ => rfl) hX ?_
  intro c₁ _ hi htx₁ a db hdb
  obtain ⟨hfree, rfl, rfl⟩ := Store.exec_lock hdb
  refine ⟨.inr ⟨rfl, fun k' hk' => ?_, own, htx₁, hi.pending p own htx₁⟩, htx₁,
    Function.update_self ..⟩
  by_cases hkk : k' = k
  · subst k'
    exact Function.update_self ..
  · exact (Function.update_of_ne hkk _ _).trans hk'

theorem works_append {l : LedgerEntry} (hcall : Called p c)
    (htx : c.shared.db.tx p = some own) (hX : σ.Fails p → X (.sql .other)) :
    Works env σ p (sql (.append l))
      (fun _ c₁ => c₁.shared.db.tx p = some (own.append l)) X c := by
  refine works_sql hcall htx (fun _ => rfl) hX ?_
  intro c₁ _ hi htx₁ a db hdb
  simp only [Store.exec, Option.some.injEq, Prod.mk.injEq] at hdb
  obtain ⟨rfl, rfl⟩ := hdb
  obtain ⟨hcommitted, hlock, htx'⟩ := Store.appendLog_of_open (l := l) htx₁
  have hown : (c₁.shared.db.appendLog p l).tx p = some (own.append l) := by simp [htx']
  exact ⟨.inr ⟨hcommitted, fun k hk => by rwa [hlock], _, hown,
    (hi.pending p own htx₁).append l⟩, hown⟩

theorem write_open {db : Database} {k : Key} {v : Row k} (hfree : db.Free p k)
    (htx : db.tx p = some own) :
    (db.write p k v hfree).committed = db.committed ∧
      (∀ k', db.lock k' = some p → (db.write p k v hfree).lock k' = some p) ∧
      (db.write p k v hfree).lock k = some p ∧
      (db.write p k v hfree).tx p = some (own.put k v) := by
  obtain ⟨hcommitted, hlock, htx'⟩ := Store.write_of_open (v := v) hfree htx
  rw [hlock, htx']
  refine ⟨hcommitted, fun k' hk' => ?_, Function.update_self .., Function.update_self ..⟩
  by_cases hkk : k' = k
  · subst k'
    exact Function.update_self ..
  · exact (Function.update_of_ne hkk _ _).trans hk'

theorem works_insert {k : Key} {v : Row k} (hcall : Called p c)
    (htx : c.shared.db.tx p = some own) (hX : σ.Fails p → X (.sql .other))
    (hdup : X (.sql .uniqueViolation))
    (hpending : ∀ c₁, Within p c c₁ → Pending env c₁ p own → own.row k = none →
      c₁.data.row k = none → Pending env c₁ p (own.put k v)) :
    Works env σ p (sql (.insert k v))
      (fun _ c₁ => c₁.shared.db.tx p = some (own.put k v) ∧ Holds p k none c₁) X c := by
  refine works_sql hcall htx (fun _ => rfl) hX ?_
  intro c₁ hw hi htx₁ a db hdb
  obtain ⟨hfree, ⟨rfl, -, rfl⟩ | ⟨rfl, hrow, rfl⟩⟩ := Store.exec_insert hdb
  · exact ⟨.inl rfl, hdup⟩
  · rw [Store.view_of_open htx₁] at hrow
    have hown : own.row k = none := by
      cases h : own.row k with
      | none => rfl
      | some w => simp [Tables.row_overlay_of_some h] at hrow
    rw [Tables.row_overlay_of_none hown] at hrow
    obtain ⟨hcommitted, hlock, hmine, htx'⟩ := write_open (v := v) hfree htx₁
    exact ⟨.inr ⟨hcommitted, hlock, _, htx',
      hpending c₁ hw (hi.pending p own htx₁) hown hrow⟩, htx', hmine,
      (congrArg (fun t => t.row k) hcommitted).trans hrow⟩

theorem works_update {k : Key} {change : Row k → Except SqlError (Option (Row k))}
    {Q : Option (Row k) → State → Prop} (hcall : Called p c)
    (htx : c.shared.db.tx p = some own) (hfresh : own.row k = none)
    (hX : σ.Fails p → X (.sql .other))
    (herror : ∀ v e, change v = .error e → X (.sql e))
    (hnone : ∀ c₁, Within p c c₁ → c₁.shared.db.tx p = some own →
      (∀ v, c₁.data.row k = some v → change v = .ok none) → Q none c₁)
    (hpending : ∀ c₁ v v', Within p c c₁ → Inv env c₁ → Pending env c₁ p own →
      c₁.data.row k = some v → change v = .ok (some v') → Pending env c₁ p (own.put k v'))
    (hsome : ∀ c₁ v v', Within p c c₁ → c₁.shared.db.tx p = some (own.put k v') →
      Holds p k (some v) c₁ → change v = .ok (some v') → Q (some v') c₁) :
    Works env σ p (sql (.update k change)) Q X c := by
  refine works_sql hcall htx (fun _ => rfl) hX ?_
  intro c₁ hw hi htx₁ a db hdb
  have hview : (c₁.shared.db.view p).row k = c₁.data.row k := by
    rw [Store.view_of_open htx₁, Tables.row_overlay_of_none hfresh]
  obtain ⟨hfree, ⟨rfl, rfl, h⟩ | ⟨v, e, hrow, hchange, rfl, rfl⟩ |
    ⟨v, v', hrow, hchange, rfl, rfl⟩⟩ := Store.exec_update hdb <;> rw [hview] at *
  · exact ⟨.inl rfl, hnone c₁ hw htx₁ h⟩
  · exact ⟨.inl rfl, herror v e hchange⟩
  · obtain ⟨hcommitted, hlock, hmine, htx'⟩ := write_open (v := v') hfree htx₁
    refine ⟨.inr ⟨hcommitted, hlock, _, htx',
      hpending c₁ v v' hw hi (hi.pending p own htx₁) hrow hchange⟩, ?_⟩
    exact hsome _ v v' (hw.trans (within_setDb hcommitted hlock)) htx'
      ⟨hmine, (congrArg (fun t => t.row k) hcommitted).trans hrow⟩ hchange

theorem works_updateRow {query : Query} {k : Key} {conditions : Row k → Bool}
    {relations : Data → Bool} {data : Row k → Row k} {Q : Nat → State → Prop}
    (hcall : Called p c) (htx : c.shared.db.tx p = some own) (hfresh : own.row k = none)
    (hX : σ.Fails p → X (.sql .other))
    (hpending : ∀ c₁ v, Within p c c₁ → Inv env c₁ → Pending env c₁ p own →
      c₁.data.row k = some v → conditions v = true →
      Pending env c₁ p (own.put k (data v)))
    (hzero : ∀ c₁, Within p c c₁ → c₁.shared.db.tx p = some own → Q 0 c₁)
    (hone : ∀ c₁ v, Within p c c₁ → c₁.shared.db.tx p = some (own.put k (data v)) →
      Holds p k (some v) c₁ → conditions v = true → Q 1 c₁) :
    Works env σ p (updateRow query k conditions relations data) Q X c := by
  refine Leads.bind (R := fun _ c₁ => c₁.shared.db.tx p = some own)
    (Reads.works (reads_select hcall hX fun c₁ hr _ _ _ => hr.tx.trans htx)) ?_
  intro snapshot c₁ hw htx₁
  have hcall₁ := hcall.within hw
  split
  · exact leads_pure (hzero c₁ hw htx₁)
  · split
    · refine Leads.bind (R := fun updated c₂ =>
        match updated with
        | none => Q 0 c₂
        | some _ => Q 1 c₂) (works_update hcall₁ htx₁ hfresh hX (by simp) ?_ ?_ ?_) ?_
      · exact fun c₂ hw₂ htx₂ _ => hzero c₂ (hw.trans hw₂) htx₂
      · intro c₂ v v' hw₂ hi hp hrow hchange
        by_cases hv : conditions v = true
        · simp only [hv, if_true, Except.ok.injEq, Option.some.injEq] at hchange
          exact hchange ▸ hpending c₂ v (hw.trans hw₂) hi hp hrow hv
        · simp [hv] at hchange
      · intro c₂ v v' hw₂ htx₂ hholds hchange
        by_cases hv : conditions v = true
        · simp only [hv, if_true, Except.ok.injEq, Option.some.injEq] at hchange
          subst v'
          exact hone c₂ v (hw.trans hw₂) htx₂ hholds hv
        · simp [hv] at hchange
      · intro updated c₂ _ hQ
        cases updated with
        | none => exact leads_pure hQ
        | some _ => exact leads_pure hQ
    · exact leads_pure (hzero c₁ hw htx₁)

end Kori
