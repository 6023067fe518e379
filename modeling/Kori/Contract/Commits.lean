import Kori.Contract.Writes

/-!
# Transactions and single updates

The steps that publish something.  What they publish may be reported in the same
step, so the rules here are about pairs of states: before and after that step.
-/

namespace Kori

open Foundation

variable {env : Env} {σ : Scope} {p : Pid} {c c' : State}
variable {α β : Type} {X : Exn → Prop}

/-- The code keeps the contract with its reports, ends in `P` and throws in `T`. -/
abbrev Answers (env : Env) (σ : Scope) (p : Pid) {α : Type} (m : Action α)
    (P : α → State → State → Prop) (T : Exn → State → State → Prop)
    (c c' : State) : Prop :=
  Settles (kori env) (terms env σ) p m P T c c'

structure Idle (p : Pid) (c : State) : Prop where
  called : Called p c
  tx : c.shared.db.tx p = none

theorem Idle.rely (h : Idle p c) (hr : Rely p c c') : Idle p c' :=
  ⟨h.called.rely hr, hr.tx.trans h.tx⟩

structure Ended (p : Pid) (c c' : State) : Prop where
  tx : c'.shared.db.tx p = none
  lease : c'.shared.leases p = c.shared.leases p
  calls : ∀ q call, c.calls q = some call → c'.calls q = some call

theorem Ended.trans {c'' : State} (h₁ : Ended p c c') (h₂ : Ended p c' c'') :
    Ended p c c'' :=
  ⟨h₂.tx, h₂.lease.trans h₁.lease, fun q call h => h₂.calls q call (h₁.calls q call h)⟩

theorem Rely.ended (h : Rely p c c') (htx : c.shared.db.tx p = none) : Ended p c c' :=
  ⟨h.tx.trans htx, h.lease, h.calls⟩

variable {P : α → State → State → Prop} {T : Exn → State → State → Prop}

theorem Reads.settles_bind {m : Action β} {next : β → Action α} {Q : β → State → Prop}
    (h : Reads env σ p m Q X c') (hs : (terms env σ).Silent p c c')
    (hnext : ∀ b c₁ c₂, (terms env σ).Silent p c₁ c₂ → Rely p c' c₂ → Q b c₂ →
      Answers env σ p (next b) P T c₁ c₂)
    (hT : ∀ e c₁ c₂, (terms env σ).Silent p c₁ c₂ → Rely p c' c₂ → X e → T e c₁ c₂) :
    Answers env σ p (m >>= next) P T c c' :=
  Leads.settles_bind (Leads.of_quiet h fun _ h => h) hs hnext hT

theorem settles_sql {statement : Statement} {P : statement.Ans → State → State → Prop}
    (hs : (terms env σ).Silent p c c')
    (h : ∀ c₁, Rely p c' c₁ → Inv env c₁ → σ.holds c₁ → ∀ choice a s,
      σ.meets p (.sql statement) choice c₁ →
      Shared.exec env p (.sql statement) choice c₁.shared = some (a, s) →
        match a with
        | .ok a => P a c₁ (c₁.withShared s)
        | .error e => T (.sql e) c₁ (c₁.withShared s)) :
    Answers env σ p (sql statement) P T c c' := by
  refine settles_bind.2 (settles_ask hs.1 ?_)
  intro c₁ hr hi choice a s hmeets hexec
  have hpost := h c₁ hr hi.1 hi.2 choice a s hmeets hexec
  cases a with
  | ok a => exact hpost
  | error e => exact hpost

theorem silent_self (hi : Inv env c) (hcall : Called p c) : (terms env σ).Silent p c c :=
  ⟨((Unmoved.refl c.shared).guar hi hcall).silent, rfl⟩

theorem Guar.silently {s : Shared}
    (h : Guar env p c (Conf.tell (Conf.withShared c s) p [])) :
    (terms env σ).Silent p c (c.withShared s) := by
  rw [Conf.tell_nil] at h
  exact ⟨h.silent, rfl⟩

theorem guar_rollback (hcall : Called p c) :
    (terms env σ).Silent p c (State.setDb c (c.shared.db.rollback p)) :=
  Guar.silently (guar_publish hcall (Store.rollback_frame _ _)
    (by simp [Store.rollback, Store.finish]) (.none (by simp)))

theorem Ended.rollback (hw : Within p c c') :
    Ended p c (State.setDb c' (c'.shared.db.rollback p)) where
  tx := by simp [Store.rollback, Store.finish]
  lease := hw.lease
  calls := hw.calls

theorem Ended.commit (hw : Within p c c') :
    Ended p c (State.setDb c' (c'.shared.db.commit p)) where
  tx := by simp [Store.commit, Store.finish]
  lease := hw.lease
  calls := hw.calls

/-- A committed transaction may still be reported on, one that was rolled back
leaves nothing behind. -/
theorem settles_transaction {body : Action α} {R : α → State → Prop}
    (hs : (terms env σ).Silent p c c') (hidle : Idle p c')
    (hX : σ.Fails p → X (.sql .other))
    (hbody : ∀ c₁, Within p c' c₁ → c₁.shared.db.tx p = some .empty →
      Works env σ p body R X c₁)
    (hcommit : ∀ a c₁ c₂, Within p c' c₁ → R a c₁ → Rely p c₁ c₂ → Inv env c₂ →
      σ.holds c₂ → Ended p c' (State.setDb c₂ (c₂.shared.db.commit p)) →
      P a c₂ (State.setDb c₂ (c₂.shared.db.commit p)))
    (hthrow : ∀ e c₁ c₂, (terms env σ).Silent p c₁ c₂ → Ended p c' c₂ → X e →
      T e c₁ c₂) :
    Answers env σ p (transaction body) P T c c' := by
  refine settles_bind.2 (settles_sql hs ?_)
  intro c₁ hr hi hσ choice a s hmeets hexec
  have hcall₁ := hidle.called.rely hr
  obtain ⟨rfl, rfl, rfl⟩ | ⟨rfl, db, hdb, rfl⟩ := exec_sql hexec
  · exact hthrow _ _ _ (silent_self hi hcall₁) (hr.ended hidle.tx) (hX ⟨_, _, hmeets⟩)
  have hidle₁ : c₁.shared.db.tx p = none := hr.tx.trans hidle.tx
  simp only [Store.exec, hidle₁, Option.some.injEq, Prod.mk.injEq] at hdb
  obtain ⟨rfl, rfl⟩ := hdb
  have htx : (c₁.shared.db.begin p).tx p = some .empty := by simp [Store.begin]
  have hw : Within p c' (State.setDb c₁ (c₁.shared.db.begin p)) :=
    hr.within.trans (within_setDb rfl fun _ h => h)
  have hs₁ : (terms env σ).Silent p c₁ (State.setDb c₁ (c₁.shared.db.begin p)) := by
    refine ⟨(guar_setDb hcall₁ (Store.begin_frame _ _) rfl ?_).silent, rfl⟩
    intro own hown
    rw [htx, Option.some.injEq] at hown
    exact hown ▸ Pending.empty
  refine settles_bind.2 (settles_tryCatch.2 ((hbody _ hw htx).settles hs₁ ?_ ?_))
  · intro a c₂ c₃ hs₂ hw₂ hR
    refine settles_bind.2 (settles_sql hs₂ ?_)
    intro c₄ hr₄ hi₄ hσ₄ choice b s hmeets₄ hexec₄
    obtain ⟨rfl, rfl, rfl⟩ | ⟨rfl, db, hdb, rfl⟩ := exec_sql hexec₄
    · refine hthrow _ _ _ (guar_rollback ?_) (.rollback ?_) (hX ⟨_, _, hmeets₄⟩)
      · exact ((hidle.called.within hw).within hw₂).rely hr₄
      · exact (hw.trans hw₂).trans hr₄.within
    · simp only [Store.exec, Option.some.injEq, Prod.mk.injEq] at hdb
      obtain ⟨rfl, rfl⟩ := hdb
      exact hcommit a c₃ c₄ (hw.trans hw₂) hR hr₄ hi₄ hσ₄
        (.commit ((hw.trans hw₂).trans hr₄.within))
  · intro e c₂ c₃ hs₂ hw₂ he
    refine settles_bind.2 (settles_ask hs₂.1 ?_)
    intro c₄ hr₄ hi₄ choice b s hmeets₄ hexec₄
    have hcall₄ := ((hidle.called.within hw).within hw₂).rely hr₄
    have hw₄ := (hw.trans hw₂).trans hr₄.within
    obtain ⟨rfl, rfl, rfl⟩ | ⟨rfl, db, hdb, rfl⟩ := exec_sql hexec₄
    · exact hthrow _ _ _ (guar_rollback hcall₄) (.rollback hw₄) he
    · simp only [Store.exec, Option.some.injEq, Prod.mk.injEq] at hdb
      obtain ⟨rfl, rfl⟩ := hdb
      exact hthrow _ _ _ (guar_rollback hcall₄) (.rollback hw₄) he

/-! ## Updates outside a transaction -/

theorem guar_write {k : Key} {v : Row k} {replies : List Reply} (hidle : Idle p c)
    (hfree : c.shared.db.Free p k) (heffect : Effect env p c (c.data.put k v) replies) :
    Guar env p c
      (Conf.tell (State.setDb c (c.shared.db.write p k v hfree)) p replies) := by
  refine guar_publish hidle.called (Store.write_frame v hfree) ?_ ?_
  · rw [Store.write_of_idle hfree hidle.tx]
    exact hidle.tx
  · rw [Store.write_of_idle hfree hidle.tx]
    exact heffect

theorem settles_update {k : Key} {change : Row k → Except SqlError (Option (Row k))}
    {P : Option (Row k) → State → State → Prop}
    (hs : (terms env σ).Silent p c c') (hidle : Idle p c')
    (hX : σ.Fails p → X (.sql .other))
    (herror : ∀ v e, change v = .error e → X (.sql e))
    (hnone : ∀ c₁, Rely p c' c₁ → (terms env σ).Silent p c₁ c₁ → σ.holds c₁ →
      (∀ v, c₁.data.row k = some v → change v = .ok none) → P none c₁ c₁)
    (hsome : ∀ c₁ v v' hfree, Rely p c' c₁ → Inv env c₁ → σ.holds c₁ →
      c₁.data.row k = some v → change v = .ok (some v') →
      P (some v') c₁ (State.setDb c₁ (c₁.shared.db.write p k v' hfree)))
    (hthrow : ∀ e c₁, Rely p c' c₁ → (terms env σ).Silent p c₁ c₁ → X e → T e c₁ c₁) :
    Answers env σ p (sql (.update k change)) P T c c' := by
  refine settles_sql hs ?_
  intro c₁ hr hi hσ choice a s hmeets hexec
  have hs₁ := silent_self (σ := σ) hi (hidle.called.rely hr)
  obtain ⟨rfl, rfl, rfl⟩ | ⟨rfl, db, hdb, rfl⟩ := exec_sql hexec
  · exact hthrow _ _ hr hs₁ (hX ⟨_, _, hmeets⟩)
  · have hview := Store.view_of_idle (hr.tx.trans hidle.tx)
    obtain ⟨hfree, ⟨rfl, rfl, h⟩ | ⟨v, e, hrow, hchange, rfl, rfl⟩ |
      ⟨v, v', hrow, hchange, rfl, rfl⟩⟩ := Store.exec_update hdb <;> rw [hview] at *
    · exact hnone c₁ hr hs₁ hσ h
    · exact hthrow _ _ hr hs₁ (herror v e hchange)
    · exact hsome c₁ v v' hfree hr hi hσ hrow hchange

theorem settles_updateRow {query : Query} {k : Key} {conditions : Row k → Bool}
    {relations : Data → Bool} {data : Row k → Row k} {P : Nat → State → State → Prop}
    (hs : (terms env σ).Silent p c c') (hidle : Idle p c')
    (hX : σ.Fails p → X (.sql .other))
    (hzero : ∀ c₁ c₂, Rely p c' c₂ → (terms env σ).Silent p c₁ c₂ → σ.holds c₂ →
      (∀ v, c₂.data.row k = some v → conditions v = true → relations c₂.data = false) →
      P 0 c₁ c₂)
    (hone : ∀ c₁ v hfree, Rely p c' c₁ → Inv env c₁ → σ.holds c₁ →
      c₁.data.row k = some v → conditions v = true →
      P 1 c₁ (State.setDb c₁ (c₁.shared.db.write p k (data v) hfree)))
    (hthrow : ∀ e c₁ c₂, Rely p c' c₂ → (terms env σ).Silent p c₁ c₂ → X e → T e c₁ c₂) :
    Answers env σ p (updateRow query k conditions relations data) P T c c' := by
  refine Reads.settles_bind (Q := fun snapshot c₁ => σ.holds c₁ ∧ snapshot = State.data c₁)
    (reads_select hidle.called hX ?_) hs ?_ ?_
  · exact fun c₁ hr _ hσ _ => ⟨hσ, Store.view_of_idle (hr.tx.trans hidle.tx)⟩
  · rintro snapshot c₁ c₂ hs₂ hr ⟨hσ, rfl⟩
    have hidle₂ := hidle.rely hr
    split
    · rename_i hrow
      exact hzero c₁ c₂ hr hs₂ hσ (by simp [hrow])
    · rename_i found hrow
      split
      · refine settles_bind.2 (settles_update hs₂ hidle₂ hX (by simp) ?_ ?_ ?_)
        · intro c₃ hr₃ hs₃ hσ₃ h
          refine hzero c₃ c₃ (hr.trans hr₃) hs₃ hσ₃ ?_
          intro v hv hcond
          simpa [hcond] using h v hv
        · intro c₃ v v' hfree hr₃ hi₃ hσ₃ hrow₃ hchange
          by_cases hv : conditions v = true
          · simp only [hv, if_true, Except.ok.injEq, Option.some.injEq] at hchange
            subst v'
            exact hone c₃ v hfree (hr.trans hr₃) hi₃ hσ₃ hrow₃ hv
          · simp [hv] at hchange
        · exact fun e c₃ hr₃ hs₃ he => hthrow e c₃ c₃ (hr.trans hr₃) hs₃ he
      · rename_i hcond
        refine hzero c₁ c₂ hr hs₂ hσ ?_
        intro v hv hcond'
        rw [hrow, Option.some.injEq] at hv
        subst v
        simpa [hcond'] using hcond
  · exact fun e c₁ c₂ hs₂ hr he => hthrow e c₁ c₂ hr hs₂ he

end Kori
