import Kori.Conduct.Footprint

/-!
# Fields that a request keeps

A request whose updates of a row keep a field of it does not change that field of the
committed row, however many statements its transaction makes.
-/

namespace Kori

open Foundation

variable {env : Env} {shared s s' : Shared} {p : Pid} {op : Op} {choice : Choice}
variable {past : List KoriMoment} {w w' : KoriWorld} {k : Key} {β : Type} {f : Row k → β}

def Op.KeepsField (k : Key) (f : Row k → β) (op : Op) : Prop :=
  ∀ change, op = .sql (.update k change) → ∀ v v', change v = .ok (some v') → f v' = f v

/-- The uncommitted row under `k` agrees with the committed one in the field `f`. -/
def FieldKept (f : Row k → β) (p : Pid) (s : Shared) : Prop :=
  ∀ own v v', s.db.tx p = some own → own.row k = some v' → s.db.committed.row k = some v →
    f v' = f v

theorem FieldKept.view (h : FieldKept f p s) {v v₀ : Row k}
    (hview : (s.db.view p).row k = some v₀) (hrow : s.db.committed.row k = some v) :
    f v₀ = f v := by
  cases htx : s.db.tx p with
  | none =>
      rw [Store.view_of_idle htx, hrow] at hview
      rw [Option.some.inj hview]
  | some own =>
      rw [Store.view_of_open htx] at hview
      cases hown : own.row k with
      | none =>
          rw [Tables.row_overlay_of_none hown, hrow] at hview
          rw [Option.some.inj hview]
      | some v' =>
          rw [Tables.row_overlay_of_some hown] at hview
          rw [← Option.some.inj hview]
          exact h own v v' htx hown hrow

theorem FieldKept.write {k' : Key} {v₁ : Row k'} (h : FieldKept f p s)
    (hfree : s.db.Free p k')
    (hnew : ∀ heq : k' = k, ∀ v, s.db.committed.row k = some v → f (heq ▸ v₁) = f v) :
    FieldKept f p { s with db := s.db.write p k' v₁ hfree } := by
  intro own v v' htx hown hrow
  cases hopen : s.db.tx p with
  | none =>
      change (s.db.write p k' v₁ hfree).tx p = some own at htx
      rw [Store.write_of_idle hfree hopen] at htx
      simp [hopen] at htx
  | some own₀ =>
      obtain ⟨hcommitted, -, htx'⟩ := Store.write_of_open (v := v₁) hfree hopen
      change (s.db.write p k' v₁ hfree).tx p = some own at htx
      change (s.db.write p k' v₁ hfree).committed.row k = some v at hrow
      rw [htx', Function.update_self, Option.some.injEq] at htx
      rw [hcommitted] at hrow
      subst own
      by_cases hkk : k' = k
      · subst k'
        rw [Tables.row_put_self, Option.some.injEq] at hown
        subst v'
        exact hnew rfl v hrow
      · rw [Tables.row_put_of_ne (Ne.symm hkk)] at hown
        exact h own₀ v v' hopen hown hrow

theorem exec_fieldKept {a : op.Ans} (h : FieldKept f p s) (hop : op.KeepsField k f)
    (hexec : Shared.exec env p op choice s = some (a, s')) : FieldKept f p s' := by
  by_cases hsql : ∀ statement, op ≠ .sql statement
  · have hdb := exec_db hexec hsql
    intro own v v' htx hown hrow
    rw [hdb] at htx hrow
    exact h own v v' htx hown hrow
  · obtain ⟨statement, rfl⟩ := not_forall_not.1 hsql
    obtain ⟨-, rfl, rfl⟩ | ⟨-, db, hdb, rfl⟩ := exec_sql hexec
    · intro own v v' htx hown hrow
      cases statement with
      | commit | rollback => simp [Store.fail, Store.rollback, Store.finish] at htx
      | _ => exact h own v v' htx hown hrow
    · cases statement with
      | select query =>
          simp only [Store.exec, Option.some.injEq, Prod.mk.injEq] at hdb
          exact hdb.2 ▸ h
      | lock k' =>
          obtain ⟨hfree, -, rfl⟩ := Store.exec_lock hdb
          exact h
      | update k' change =>
          obtain ⟨hfree, ⟨-, rfl, -⟩ | ⟨v, e, -, -, -, rfl⟩ | ⟨v₀, v₁, hview, hchange, -, rfl⟩⟩ :=
            Store.exec_update hdb
          · exact h
          · exact h
          · apply h.write hfree
            rintro rfl v hrow
            exact (hop change rfl v₀ v₁ hchange).trans (h.view hview hrow)
      | insert k' v₁ =>
          obtain ⟨hfree, ⟨-, -, rfl⟩ | ⟨-, hview, rfl⟩⟩ := Store.exec_insert hdb
          · exact h
          · apply h.write hfree
            rintro rfl v hrow
            have hsome := s.db.view_isSome (p := p) (Option.isSome_of_eq_some hrow)
            simp [hview] at hsome
      | append l =>
          simp only [Store.exec, Option.some.injEq, Prod.mk.injEq] at hdb
          obtain ⟨-, rfl⟩ := hdb
          intro own v v' htx hown hrow
          cases hopen : s.db.tx p with
          | none =>
              have hidle : (s.db.appendLog p l).tx p = none := by
                unfold Store.appendLog
                split
                · exact hopen
                · rename_i own' hsome
                  simp [hopen] at hsome
              simp [hidle] at htx
          | some own₀ =>
              obtain ⟨hcommitted, -, htx'⟩ := Store.appendLog_of_open (l := l) hopen
              rw [htx', Function.update_self, Option.some.injEq] at htx
              subst own
              rw [hcommitted] at hrow
              exact h own₀ v v' hopen hown hrow
      | start =>
          simp only [Store.exec] at hdb
          split at hdb
          · simp only [Option.some.injEq, Prod.mk.injEq] at hdb
            obtain ⟨-, rfl⟩ := hdb
            intro own v v' htx hown hrow
            simp only [Store.begin, Function.update_self, Option.some.injEq] at htx
            subst own
            simp at hown
          · simp at hdb
      | commit | rollback =>
          simp only [Store.exec, Option.some.injEq, Prod.mk.injEq] at hdb
          obtain ⟨-, rfl⟩ := hdb
          intro own v v' htx hown hrow
          simp [Store.commit, Store.rollback, Store.finish] at htx

theorem elsewhere_fieldKept (helse : Elsewhere (kori env) p s s') (h : FieldKept f p s) :
    FieldKept f p s' := by
  intro own v v' htx hown hrow
  rw [elsewhere_tx helse] at htx
  have hlock := s.db.owned htx (Tables.row_isSome.1 (Option.isSome_of_eq_some hown))
  have hsame : s'.db.committed.row k = s.db.committed.row k := by
    cases helse with
    | @step q op choice a s' hq hexec =>
        by_cases hsql : ∀ statement, op ≠ .sql statement
        · rw [exec_db hexec hsql]
        · obtain ⟨statement, rfl⟩ := not_forall_not.1 hsql
          obtain ⟨-, rfl, rfl⟩ | ⟨-, db, hdb, rfl⟩ := exec_sql hexec
          · exact (Store.fail_frame s.db q statement).kept k p (Ne.symm hq) hlock
          · exact (Store.exec_frame hdb).kept k p (Ne.symm hq) hlock
    | crash _ => rfl
    | tick => rfl
  exact h own v v' htx hown (hsame ▸ hrow)

theorem run_fieldKept (hidle : ∀ p, shared.db.tx p = none)
    (hr : Run (kori env) (World.idle shared) past w) (p : Pid) :
    ((w.procs p).isSome → (∀ e ∈ heard (kori env) p past, e.op.KeepsField k f) →
      FieldKept f p w.conf.shared) := by
  refine (hr.follows p (fun history s => (∀ e ∈ history, e.op.KeepsField k f) → FieldKept f p s)
    (fun s => s.db.tx p = none) (hidle p) ?_ ?_ ?_ ?_).1
  · intro s hnone _ own v v' htx
    simp [hnone] at htx
  · intro history op choice a s s' h hexec hkeeps
    have hbefore := h fun e he => hkeeps e (.tail _ he)
    exact exec_fieldKept hbefore (hkeeps ⟨op, a⟩ (.head _)) hexec
  · intro history s _
    simp [kori, Shared.abort, Store.rollback, Store.finish]
  · intro s s' helse
    refine ⟨(elsewhere_tx helse).trans, fun history h hkeeps => ?_⟩
    exact elsewhere_fieldKept helse (h hkeeps)

theorem run_keeps_field (hidle : ∀ p, shared.db.tx p = none)
    (hr : Run (kori env) (World.idle shared) past w)
    (hm : w.move (kori env) (.step p choice) = some w') {v v' : Row k}
    (hrow : (State.data w.conf).row k = some v) (hrow' : (State.data w'.conf).row k = some v')
    (hkeeps : ∀ e ∈ heard (kori env) p ((w, .step p choice) :: past), e.op.KeepsField k f) :
    f v' = f v := by
  by_cases hsame : v' = v
  · rw [hsame]
  · have hnew : (State.data w.conf).row k ≠ some v' := by
      rw [hrow]
      exact fun heq => hsame (Option.some.inj heq).symm
    obtain ⟨e, hans, hpublishes⟩ := run_published hidle hr hm hrow' hnew
    rw [heard_cons_self hans] at hkeeps
    cases hpublishes with
    | update _ hv₀ hchange =>
        obtain rfl := Option.some.inj (hv₀.symm.trans hrow)
        exact hkeeps _ (.head _) _ rfl _ _ hchange
    | insert _ =>
        obtain ⟨db, hdb⟩ := answered_sql (x := (w, .step p choice)) hans
        obtain ⟨hfree, ⟨ha, -⟩ | ⟨-, hview, -⟩⟩ := Store.exec_insert hdb
        · simp at ha
        · have hsome := w.conf.shared.db.view_isSome (p := p) (Option.isSome_of_eq_some hrow)
          simp [hview] at hsome
    | commit hown hv' =>
        obtain ⟨choice', next, s, hstep, hproc, -⟩ := World.answered_cases hans
        have halive : (w.procs p).isSome := by simp [hproc]
        have hkept := run_fieldKept (f := f) hidle hr p halive fun e he => hkeeps e (.tail _ he)
        have howns := (run_follows hidle hr p).alive halive
        obtain ⟨own', htx, rfl⟩ := Option.map_eq_some_iff.1 (howns.trans hown)
        exact hkept own' v v' htx hv' hrow

end Kori
