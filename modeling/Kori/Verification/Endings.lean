import Kori.Conduct.Ending
import Kori.Ledger.Deadlocks

/-!
# Every request is answered once and leaves nothing open

The answer of a request is sent when its transaction is over and its locks are released.
A request that has ended, by itself or with its server, holds nothing.
-/

namespace Kori

open Foundation

section

variable {env : Env} {shared s s' : Shared} {past : List KoriMoment} {w : KoriWorld} {p : Pid}
variable {op : Op} {choice : Choice}

theorem exec_clear {history : History} {a : op.Ans} (hclear : Closed history → s.db.Clear p)
    (hexec : Shared.exec env p op choice s = some (a, s'))
    (hclosed : Closed (⟨op, a⟩ :: history)) : s'.db.Clear p := by
  by_cases hop : ∀ statement, op ≠ .sql statement
  · rw [exec_db hexec hop]
    rcases hclosed with hends | ⟨hclosed, -⟩
    · obtain h | h := hends
      · exact absurd h (hop _)
      · exact absurd h (hop _)
    · exact hclear hclosed
  · obtain ⟨statement, rfl⟩ := not_forall_not.1 hop
    obtain ⟨-, rfl, rfl⟩ | ⟨-, db, hdb, rfl⟩ := exec_sql hexec
    · rcases hclosed with hends | ⟨hclosed, -⟩
      · have hend : statement = .commit ∨ statement = .rollback := by
          simpa [Op.Ends] using hends
        exact (Store.clear_of_end hend).2
      · exact (hclear hclosed).fail
    · rcases hclosed with hends | ⟨hclosed, hsteady | ⟨error, hstart⟩⟩
      · have hend : statement = .commit ∨ statement = .rollback := by
          simpa [Op.Ends] using hends
        exact (Store.clear_of_end hend).1 _ hdb
      · apply (hclear hclosed).exec hdb
        · rintro rfl
          exact hsteady.1 rfl
        · rintro k rfl
          exact hsteady.2 k rfl
      · -- a `START` that is executed succeeds
        cases hstart
        simp [Store.exec, (hclear hclosed).tx] at hdb

theorem run_clear (hidle : ∀ p, shared.db.tx p = none)
    (hunlocked : ∀ k, shared.db.lock k = none)
    (hr : Run (kori env) (World.idle shared) past w) (p : Pid) :
    ((w.procs p).isSome → Closed (heard (kori env) p past) → w.conf.shared.db.Clear p) ∧
      (w.procs p = none → w.conf.shared.db.Clear p) := by
  apply hr.follows p (fun history s => Closed history → s.db.Clear p) (fun s => s.db.Clear p)
  · exact ⟨hidle p, by simp [hunlocked]⟩
  · exact fun s hclear _ => hclear
  · exact fun history op choice a s s' hclear hexec => exec_clear hclear hexec
  · exact fun _ s _ => Store.finish_clear s.db p _
  · intro s s' helse
    have hkept : s.db.Clear p → s'.db.Clear p := by
      intro hclear
      constructor
      · exact (elsewhere_tx helse).trans hclear.tx
      · exact fun k hlock => hclear.lock k ((elsewhere_lock helse).1 hlock)
    exact ⟨hkept, fun history h hclosed => hkept (h hclosed)⟩

/-- Where the requests stand with their answers and with the database. -/
structure Concluded (w : KoriWorld) (p : Pid) : Prop where
  once : (w.conf.said p).length ≤ 1
  answered : w.Finished p → (w.conf.said p).length = 1
  finished : w.Finished p → w.conf.shared.db.Clear p
  gone : w.procs p = none → w.conf.shared.db.Clear p

/-- Every request is answered once, after its transaction, and leaves nothing open. -/
theorem requests_concluded (hidle : ∀ p, shared.db.tx p = none)
    (hunlocked : ∀ k, shared.db.lock k = none)
    (hr : Reachable (kori env) (World.idle shared) w) :
    (∀ p, Concluded w p) ∧ ∀ m w', w.move (kori env) m = some w' → ∀ p reply,
      (p, reply) ∈ w'.conf.out → (p, reply) ∉ w.conf.out → w'.conf.shared.db.Clear p := by
  obtain ⟨past, hrun⟩ := hr.run
  constructor
  · intro p
    obtain ⟨honce, hanswered⟩ := hr.answered handle_replies p
    obtain ⟨halive, hgone⟩ := run_clear hidle hunlocked hrun p
    refine ⟨honce, hanswered, ?_, hgone⟩
    rintro ⟨m, hm, hpending⟩
    have hsome : (w.procs p).isSome := by simp [hm]
    apply halive hsome
    cases hcall : w.conf.calls p with
    | none => simp [((hrun.kept closed_obeyed).1 p).unheard hcall] at hm
    | some call =>
        apply (hrun.due closed_obeyed hcall hsome).1
        simpa [World.pending, hm] using hpending
  · intro m w' hm p reply hsaid hnew
    obtain ⟨call, hcall, htold⟩ := hrun.told_now closed_obeyed hm hnew hsaid
    obtain ⟨halive, hgone⟩ := run_clear hidle hunlocked (hrun.cons hm) p
    cases hproc : w'.procs p with
    | none => exact hgone hproc
    | some code => exact halive (by simp [hproc]) htold

end

/-- A transfer from the first customer to the second has ended. -/
theorem requests_concluded_of_transfer : ∃ w,
    Reachable (kori Sample.env) (World.idle Sample.shared) w ∧ w.Finished 0 ∧
      (∀ p, Concluded w p) := by
  obtain ⟨w, hr, hdone⟩ := Sample.reaches
    (Sample.transferMoves 0 (Sample.transferRequest 1 "2" "600")
      (Sample.transferChoices 55 11 12 ++ [.go]))
    (fun w => (w.procs 0).any fun m => m.pending.isNone) (by decide +kernel)
  obtain ⟨m, hm, hpending⟩ := (Option.any_eq_true _ _).1 hdone
  have hfinished : w.Finished 0 := ⟨m, hm, Option.isNone_iff_eq_none.1 hpending⟩
  exact ⟨w, hr, hfinished, (requests_concluded (fun _ => rfl) (fun _ => rfl) hr).1⟩

end Kori
