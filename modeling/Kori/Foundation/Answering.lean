import Kori.Foundation.History

/-!
# Code that answers once

A process that serves a call is to report exactly once, however it ends.  `Mute` code
reports nothing and runs to its end; `Replies` is the judgement for code that makes the
one report.  `Reach.answered` turns it into a statement about every run.
-/

namespace Kori.Foundation

section Judgements

variable {Op : Type} {Ans : Op → Type} {Ev Exn α β : Type}

namespace Code

def Mute : Code Op Ans Ev Exn α → Prop
  | ret _ => True
  | raise _ => False
  | report _ _ => False
  | request _ next => ∀ a, (next a).Mute

/-- Before it ends the code reports once.  It raises only if `X`, and then it has not
reported yet. -/
def Replies (X : Prop) : Code Op Ans Ev Exn α → Prop
  | ret _ => False
  | raise _ => X
  | report _ rest => rest.Mute
  | request _ next => ∀ a, (next a).Replies X

variable {X Y : Prop} {P : Op → Prop} {m : Code Op Ans Ev Exn α}

theorem Mute.bind {next : α → Code Op Ans Ev Exn β} (h : m.Mute)
    (hnext : ∀ a, (next a).Mute) : (m >>= next).Mute := by
  induction m with
  | ret a => exact hnext a
  | raise e => exact h.elim
  | report event rest ih => exact h.elim
  | request op answer ih => exact fun a => ih a (h a)

theorem Mute.tryCatch (h : m.Mute) (handler : Exn → Code Op Ans Ev Exn α) :
    (MonadExcept.tryCatch m handler : Code Op Ans Ev Exn α).Mute := by
  induction m with
  | ret a => trivial
  | raise e => exact h.elim
  | report event rest ih => exact h.elim
  | request op answer ih => exact fun a => ih a (h a)

theorem Mute.resume (h : m.Mute) : m.reports = [] ∧ m.resume.Mute := by
  cases m with
  | ret a => exact ⟨rfl, trivial⟩
  | raise e => exact h.elim
  | report event rest => exact h.elim
  | request op next => exact ⟨rfl, h⟩

theorem Only.tryCatch_mute {handler : Exn → Code Op Ans Ev Exn α} (h : m.Only P)
    (hhandler : ∀ e, (handler e).Mute) :
    (MonadExcept.tryCatch m handler : Code Op Ans Ev Exn α).Mute := by
  induction m with
  | ret a => trivial
  | raise e => exact hhandler e
  | report event rest ih => exact h.elim
  | request op answer ih => exact fun a => ih a (h.2 a)

theorem Mute.replies_bind {next : α → Code Op Ans Ev Exn β} (h : m.Mute)
    (hnext : ∀ a, (next a).Replies X) : (m >>= next).Replies X := by
  induction m with
  | ret a => exact hnext a
  | raise e => exact h.elim
  | report event rest ih => exact h.elim
  | request op answer ih => exact fun a => ih a (h a)

theorem Only.replies_bind {next : α → Code Op Ans Ev Exn β} (h : m.Only P)
    (hraise : X) (hnext : ∀ a, (next a).Replies X) : (m >>= next).Replies X := by
  induction m with
  | ret a => exact hnext a
  | raise e => exact hraise
  | report event rest ih => exact h.elim
  | request op answer ih => exact fun a => ih a (h.2 a)

theorem Replies.tryCatch {handler : Exn → Code Op Ans Ev Exn α} (h : m.Replies X)
    (hhandler : ∀ e, (handler e).Replies Y) :
    (MonadExcept.tryCatch m handler : Code Op Ans Ev Exn α).Replies Y := by
  induction m with
  | ret a => exact h.elim
  | raise e => exact hhandler e
  | report event rest ih => exact Mute.tryCatch h handler
  | request op answer ih => exact fun a => ih a (h a)

theorem replies_tell (event : Ev) : (tell event : Code Op Ans Ev Exn Unit).Replies X := trivial

theorem Replies.resume (h : m.Replies False) :
    (m.reports = [] ∧ m.resume.reports = [] ∧ m.resume.Replies False) ∨
      ∃ event, m.reports = [event] ∧ m.resume.Mute := by
  cases m with
  | ret a => exact h.elim
  | raise e => exact h.elim
  | report event rest =>
      obtain ⟨hreports, hresume⟩ := Mute.resume h
      exact .inr ⟨event, by simp [hreports], hresume⟩
  | request op next => exact .inl ⟨rfl, rfl, h⟩

theorem Replies.pending (h : m.Replies False) (hreports : m.reports = []) :
    m.pending ≠ none := by
  cases m with
  | ret a => exact h.elim
  | raise e => exact h.elim
  | report event rest => simp at hreports
  | request op next => simp [Code.pending]

end Code

end Judgements

/-! ## The reports of a run -/

section Runs

variable {Pid Call Ev Exn Shared Choice Tick Op : Type} {Ans : Op → Type}
variable [DecidableEq Pid]

def Conf.said (c : Conf Pid Call Ev Shared) (p : Pid) : List Ev :=
  (c.out.filter fun x => x.1 = p).map Prod.snd

def World.Finished (w : World Pid Call Ev Exn Shared Op Ans) (p : Pid) : Prop :=
  ∃ m, w.procs p = some m ∧ m.pending = none

@[simp] theorem Conf.said_arrive (c : Conf Pid Call Ev Shared) (p q : Pid) (call : Call) :
    (c.arrive q call).said p = c.said p := rfl

@[simp] theorem Conf.said_withShared (c : Conf Pid Call Ev Shared) (p : Pid)
    (shared : Shared) : (c.withShared shared).said p = c.said p := rfl

theorem Conf.said_tell_self (c : Conf Pid Call Ev Shared) (p : Pid) (events : List Ev) :
    (c.tell p events).said p = c.said p ++ events := by
  have hmine : ∀ events : List Ev,
      ((events.map fun event => (p, event)).filter fun x => x.1 = p).map Prod.snd = events := by
    intro events
    induction events with
    | nil => rfl
    | cons event events ih => simpa using ih
  simp only [said, tell_out, List.filter_append, List.map_append, hmine]

theorem Conf.said_tell_of_ne {p q : Pid} (h : p ≠ q) (c : Conf Pid Call Ev Shared)
    (events : List Ev) : (c.tell q events).said p = c.said p := by
  have hnone : (events.map fun event => (q, event)).filter (fun x => x.1 = p) = [] := by
    simp [List.filter_eq_nil_iff, Ne.symm h]
  simp [said, hnone]

theorem Conf.mem_said {c : Conf Pid Call Ev Shared} {p : Pid} {event : Ev} :
    event ∈ c.said p ↔ (p, event) ∈ c.out := by
  simp [said]

/-- Where a process stands with its one report. -/
inductive Answering (w : World Pid Call Ev Exn Shared Op Ans) (p : Pid) : Prop
  | silent : w.conf.said p = [] →
      (∀ m, w.procs p = some m → m.reports = [] ∧ m.Replies False) → Answering w p
  | answered {event : Ev} : w.conf.said p = [event] →
      (∀ m, w.procs p = some m → m.Mute) → Answering w p

variable {sys : System Pid Call Ev Exn Shared Choice Tick Op Ans}
variable {w w' : World Pid Call Ev Exn Shared Op Ans} {p q : Pid}

theorem Answering.other (h : Answering w p) (hsaid : w'.conf.said p = w.conf.said p)
    (hprocs : ∀ m, w'.procs p = some m → w.procs p = some m) : Answering w' p := by
  cases h with
  | silent hnone hcode => exact .silent (hsaid.trans hnone) fun m hm => hcode m (hprocs m hm)
  | answered hone hcode =>
      exact .answered (hsaid.trans hone) fun m hm => hcode m (hprocs m hm)

theorem Answering.leave_replies {conf : Conf Pid Call Ev Shared} {m : Code Op Ans Ev Exn Unit}
    (hsaid : conf.said p = []) (hm : m.Replies False) : Answering (w.leave p conf m) p := by
  have hsaid' : (w.leave p conf m).conf.said p = m.reports := by
    simp [World.leave, Conf.said_tell_self, hsaid]
  have hproc : (w.leave p conf m).procs p = some m.resume := by simp [World.leave]
  rcases hm.resume with ⟨hnone, hreports, hresume⟩ | ⟨event, hone, hmute⟩
  · apply Answering.silent (hsaid'.trans hnone)
    intro m' hm'
    rw [hproc, Option.some.injEq] at hm'
    exact hm' ▸ ⟨hreports, hresume⟩
  · apply Answering.answered (hsaid'.trans hone)
    intro m' hm'
    rw [hproc, Option.some.injEq] at hm'
    exact hm' ▸ hmute

theorem Answering.leave_mute {conf : Conf Pid Call Ev Shared} {m : Code Op Ans Ev Exn Unit}
    {event : Ev} (hsaid : conf.said p = [event]) (hm : m.Mute) :
    Answering (w.leave p conf m) p := by
  obtain ⟨hreports, hresume⟩ := hm.resume
  have hsaid' : (w.leave p conf m).conf.said p = [event] := by
    simp [World.leave, hsaid, hreports]
  apply Answering.answered hsaid'
  intro m' hm'
  simp only [World.leave, Function.update_self, Option.some.injEq] at hm'
  exact hm' ▸ hresume

theorem Answering.step {op : Op} {next : Ans op → Code Op Ans Ev Exn Unit} {answer : Ans op}
    {shared : Shared} (h : Answering w p) (hproc : w.procs p = some (.request op next)) :
    Answering (w.leave p (w.conf.withShared shared) (next answer)) p := by
  cases h with
  | silent hnone hcode =>
      have hreplies := (hcode _ hproc).2 answer
      exact .leave_replies hnone hreplies
  | answered hone hcode =>
      have hmute := hcode _ hproc answer
      exact .leave_mute hone hmute

theorem Reach.answering {allowed : World Pid Call Ev Exn Shared Op Ans →
      Move Pid Call Choice Tick → World Pid Call Ev Exn Shared Op Ans → Prop}
    {shared : Shared} (hcode : ∀ call, (sys.code call).Replies False)
    (hr : Reach sys allowed (World.idle shared) w) :
    (∀ p, Answering w p) ∧ ∀ p, w.conf.calls p = none →
      w.conf.said p = [] ∧ w.procs p = none := by
  induction hr with
  | refl => exact ⟨fun p => .silent rfl (by simp [World.idle]), fun p _ => ⟨rfl, rfl⟩⟩
  | @move w w' m _ hm _ ih =>
      obtain ⟨hall, hfresh⟩ := ih
      cases m with
      | arrive q call =>
          simp only [World.move] at hm
          split at hm
          · simp at hm
          · rename_i hnew
            simp only [Option.some.injEq] at hm
            subst w'
            constructor
            · intro p
              by_cases hpq : p = q
              · subst q
                exact .leave_replies (hfresh p hnew).1 (hcode call)
              · apply (hall p).other
                · simp [World.leave, Conf.said_tell_of_ne hpq]
                · simp [World.leave, Function.update_of_ne hpq]
            · intro p hcall
              have hpq : p ≠ q := by
                rintro rfl
                simp [World.leave] at hcall
              simp only [World.leave, Conf.tell_calls, Conf.arrive_calls,
                Function.update_of_ne hpq] at hcall
              simpa [World.leave, Conf.said_tell_of_ne hpq, Function.update_of_ne hpq]
                using hfresh p hcall
      | step q choice =>
          obtain ⟨op, next, answer, shared, hproc, -, rfl⟩ := World.step_cases hm
          constructor
          · intro p
            by_cases hpq : p = q
            · subst q
              exact (hall p).step hproc
            · apply (hall p).other
              · simp [World.leave, Conf.said_tell_of_ne hpq]
              · simp [World.leave, Function.update_of_ne hpq]
          · intro p hcall
            have hnone := hfresh p hcall
            have hpq : p ≠ q := by
              rintro rfl
              simp [hproc] at hnone
            simpa [World.leave, Conf.said_tell_of_ne hpq, Function.update_of_ne hpq] using hnone
      | crash q =>
          simp only [World.move] at hm
          split at hm
          · simp at hm
          · simp only [Option.some.injEq] at hm
            subst w'
            have hprocs : ∀ p m, Function.update w.procs q none p = some m →
                w.procs p = some m := by
              intro p m hcode
              by_cases hpq : p = q
              · subst q
                simp at hcode
              · rwa [Function.update_of_ne hpq] at hcode
            refine ⟨fun p => (hall p).other rfl (hprocs p), fun p hcall => ?_⟩
            refine ⟨(hfresh p hcall).1, Option.eq_none_iff_forall_ne_some.2 ?_⟩
            intro m hcode
            have hproc := hprocs p m hcode
            simp [(hfresh p hcall).2] at hproc
      | tick t =>
          simp only [World.move, Option.some.injEq] at hm
          subst w'
          exact ⟨fun p => (hall p).other rfl fun _ h => h, hfresh⟩

/-- At most one report, and exactly one at the end. -/
theorem Reach.answered {allowed : World Pid Call Ev Exn Shared Op Ans →
      Move Pid Call Choice Tick → World Pid Call Ev Exn Shared Op Ans → Prop}
    {shared : Shared} (hcode : ∀ call, (sys.code call).Replies False)
    (hr : Reach sys allowed (World.idle shared) w) (p : Pid) :
    (w.conf.said p).length ≤ 1 ∧ (w.Finished p → (w.conf.said p).length = 1) := by
  have hanswering := (hr.answering hcode).1 p
  cases hanswering with
  | silent hnone hcode =>
      refine ⟨by simp [hnone], ?_⟩
      rintro ⟨m, hm, hpending⟩
      obtain ⟨hreports, hreplies⟩ := hcode m hm
      exact absurd hpending (hreplies.pending hreports)
  | answered hone _ => simp [hone]

theorem Run.told_now {past : List (Moment Pid Call Ev Exn Shared Choice Tick Op Ans)}
    {rules : Call → Rules Op Ans Ev} {shared : Shared} {m : Move Pid Call Choice Tick}
    {event : Ev} (hobeyed : Obeyed sys rules) (hr : Run sys (World.idle shared) past w)
    (hm : w.move sys m = some w') (hnew : (p, event) ∉ w.conf.out)
    (hsaid : (p, event) ∈ w'.conf.out) : ∃ call, w'.conf.calls p = some call ∧
      (rules call).tells (heard sys p ((w, m) :: past)) event := by
  have hkept := (hr.kept hobeyed).1 p
  cases m with
  | arrive q call =>
      simp only [World.move] at hm
      split at hm
      · simp at hm
      · rename_i hfresh
        obtain rfl := Option.some.inj hm
        obtain ⟨rfl, hreported⟩ := (mem_tell hsaid).resolve_left hnew
        refine ⟨call, by simp [World.leave], ?_⟩
        rw [heard_cons_other (by simp [World.answered]), (hkept.unheard hfresh).1]
        exact (hobeyed call).resume.2 event hreported
  | step q choice =>
      obtain ⟨op, next, answer, shared', hproc, hexec, rfl⟩ := World.step_cases hm
      obtain ⟨rfl, hreported⟩ := (mem_tell hsaid).resolve_left hnew
      cases hcall : w.conf.calls p with
      | none => simp [(hkept.unheard hcall).2] at hproc
      | some call =>
          refine ⟨call, hcall, ?_⟩
          rw [heard_cons_self (World.answered_step hproc hexec)]
          have hheeds := (hkept.code call _ hcall hproc).2 answer
          exact hheeds.resume.2 event hreported
  | crash q =>
      simp only [World.move] at hm
      split at hm
      · simp at hm
      · obtain rfl := Option.some.inj hm
        exact absurd hsaid hnew
  | tick t =>
      obtain rfl := Option.some.inj hm
      exact absurd hsaid hnew

theorem World.told_by {m : Move Pid Call Choice Tick} {call : Call} {event : Ev}
    (hm : w.move sys m = some w') (hcall : w.conf.calls p = some call)
    (hnew : (p, event) ∉ w.conf.out) (hsaid : (p, event) ∈ w'.conf.out) :
    ∃ choice, m = .step p choice := by
  cases m with
  | arrive q call' =>
      simp only [World.move] at hm
      split at hm
      · simp at hm
      · rename_i hfresh
        obtain rfl := Option.some.inj hm
        obtain ⟨rfl, -⟩ := (mem_tell hsaid).resolve_left hnew
        simp [hfresh] at hcall
  | step q choice =>
      obtain ⟨op, next, answer, shared', hproc, hexec, rfl⟩ := World.step_cases hm
      obtain ⟨rfl, -⟩ := (mem_tell hsaid).resolve_left hnew
      exact ⟨choice, rfl⟩
  | crash q =>
      simp only [World.move] at hm
      split at hm
      · simp at hm
      · obtain rfl := Option.some.inj hm
        exact absurd hsaid hnew
  | tick t =>
      obtain rfl := Option.some.inj hm
      exact absurd hsaid hnew

end Runs

end Kori.Foundation
