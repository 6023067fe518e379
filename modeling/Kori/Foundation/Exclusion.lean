import Kori.Foundation.History

/-!
# Locks

The shared state names the process that has a lock.  A process believes that it has the
lock by what it has heard: that it acquired the lock, and not that it gave the lock back.
While nobody is mistaken at most one process believes so.
-/

namespace Kori.Foundation

section Exclusion

variable {Pid Call Ev Exn Shared Choice Tick Op : Type} {Ans : Op → Type}
variable {sys : System Pid Call Ev Exn Shared Choice Tick Op Ans}
variable {start w w' : World Pid Call Ev Exn Shared Op Ans}
variable {past before : List (Moment Pid Call Ev Exn Shared Choice Tick Op Ans)}
variable {p q : Pid}

/-- What an operation of `p` does to a lock with the given holders before and after it,
when `had` and `has` say whether `p` believes that it has the lock. -/
structure LockStep (holder holder' : Option Pid) (p : Pid) (had has : Prop) : Prop where
  acquires : has → ¬had → holder' = some p
  keeps : ∀ q, holder = some q → holder' = some q ∨ (q = p ∧ ¬has)

variable [DecidableEq Pid]
variable {holder : World Pid Call Ev Exn Shared Op Ans → Option Pid}
variable {H : List (Entry Op Ans) → Prop}

/-- Nobody is mistaken: who believes to have the lock has it. -/
theorem Run.held (hr : Run sys start past w) (hnone : ¬H [])
    (hstep : ∀ x before w' p e, x :: before <:+ past → x.1.move sys x.2 = some w' →
      x.1.answered sys x.2 = some (p, e) →
      (H (heard sys p before) → holder x.1 = some p) →
      LockStep (holder x.1) (holder w') p (H (heard sys p before))
        (H (e :: heard sys p before)))
    (hother : ∀ x before w', x :: before <:+ past → x.1.move sys x.2 = some w' →
      x.1.answered sys x.2 = none → holder w' = holder x.1)
    (p : Pid) (hholding : H (heard sys p past)) : holder w = some p := by
  induction hr generalizing p with
  | nil => exact absurd hholding hnone
  | @cons past w w' m hr hm ih =>
      have hbefore : ∀ p, H (heard sys p past) → holder w = some p := by
        intro p hp
        apply ih
        · exact fun x before w' q e hx => hstep x before w' q e (hx.trans (List.suffix_cons _ _))
        · exact fun x before w' hx => hother x before w' (hx.trans (List.suffix_cons _ _))
        · exact hp
      have hx : (w, m) :: past <:+ (w, m) :: past := List.suffix_refl _
      cases hans : w.answered sys m with
      | none =>
          rw [heard_cons_other (by simp [hans])] at hholding
          rw [hother _ _ _ hx hm hans]
          exact hbefore p hholding
      | some asked =>
          obtain ⟨q, e⟩ := asked
          have hlock := hstep _ _ _ q e hx hm hans (hbefore q)
          by_cases hpq : p = q
          · subst hpq
            rw [heard_cons_self hans] at hholding
            by_cases hhad : H (heard sys p past)
            · rcases hlock.keeps p (hbefore p hhad) with hkept | ⟨-, hnot⟩
              · exact hkept
              · exact absurd hholding hnot
            · exact hlock.acquires hholding hhad
          · have hothers : ∀ e, w.answered sys m ≠ some (p, e) := by
              intro e' he'
              rw [hans] at he'
              exact hpq (Prod.mk.inj (Option.some.inj he')).1.symm
            rw [heard_cons_other hothers] at hholding
            rcases hlock.keeps p (hbefore p hholding) with hkept | ⟨hsame, -⟩
            · exact hkept
            · exact absurd hsame hpq

theorem Run.settled (hr : Run sys start past w) (hcalled : start.conf.calls p ≠ none)
    (hsettled : start.pending p = none) :
    heard sys p past = [] ∧ w.conf.calls p ≠ none ∧ w.pending p = none := by
  induction hr with
  | nil => exact ⟨rfl, hcalled, hsettled⟩
  | @cons past w w' m hr hm ih =>
      obtain ⟨hnone, hcalled', hpending⟩ := ih
      have hothers : ∀ e, w.answered sys m ≠ some (p, e) := by
        intro e hans
        obtain ⟨choice, next, s, -, hproc, -⟩ := World.answered_cases hans
        simp [World.pending, hproc, Code.pending] at hpending
      refine ⟨by rw [heard_cons_other hothers, hnone], ?_, ?_⟩
      · obtain ⟨call, hcall⟩ := Option.ne_none_iff_exists'.1 hcalled'
        simp [World.calls_mono hm hcall]
      · cases m with
        | arrive q call =>
            simp only [World.move] at hm
            split at hm
            · simp at hm
            · rename_i hfresh
              obtain rfl := Option.some.inj hm
              have hne : p ≠ q := by
                rintro rfl
                exact hcalled' hfresh
              simpa [World.pending, World.leave, Function.update_of_ne hne] using hpending
        | step q choice =>
            obtain ⟨op, next, a, s, hproc, -, rfl⟩ := World.step_cases hm
            have hne : p ≠ q := by
              rintro rfl
              simp [World.pending, hproc, Code.pending] at hpending
            simpa [World.pending, World.leave, Function.update_of_ne hne] using hpending
        | crash q =>
            simp only [World.move] at hm
            split at hm
            · simp at hm
            · obtain rfl := Option.some.inj hm
              by_cases hpq : p = q
              · simp [World.pending, hpq]
              · simpa [World.pending, Function.update_of_ne hpq] using hpending
        | tick t =>
            obtain rfl := Option.some.inj hm
            exact hpending

end Exclusion

end Kori.Foundation
