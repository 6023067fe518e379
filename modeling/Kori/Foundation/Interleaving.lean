import Mathlib.Logic.Function.Basic
import Kori.Foundation.Code

/-!
# Interleaved code over a shared state

A system runs any number of processes over one shared state.  One move is the
arrival of a call, one operation of one process, the crash of a process, or a
change that the environment makes by itself.  An operation may have to wait;
then the process has no move until another one unblocks it.
-/

namespace Kori.Foundation

/-- What the processes share, the calls made so far and everything reported. -/
structure Conf (Pid Call Ev Shared : Type) where
  shared : Shared
  calls : Pid → Option Call
  out : List (Pid × Ev)

namespace Conf

variable {Pid Call Ev Shared : Type}

def withShared (c : Conf Pid Call Ev Shared) (shared : Shared) :
    Conf Pid Call Ev Shared :=
  { c with shared := shared }

def tell (c : Conf Pid Call Ev Shared) (p : Pid) (events : List Ev) :
    Conf Pid Call Ev Shared :=
  { c with out := c.out ++ events.map (fun event => (p, event)) }

def arrive [DecidableEq Pid] (c : Conf Pid Call Ev Shared) (p : Pid) (call : Call) :
    Conf Pid Call Ev Shared :=
  { c with calls := Function.update c.calls p (some call) }

@[simp] theorem withShared_shared (c : Conf Pid Call Ev Shared) (shared : Shared) :
    (c.withShared shared).shared = shared := rfl

@[simp] theorem withShared_calls (c : Conf Pid Call Ev Shared) (shared : Shared) :
    (c.withShared shared).calls = c.calls := rfl

@[simp] theorem withShared_out (c : Conf Pid Call Ev Shared) (shared : Shared) :
    (c.withShared shared).out = c.out := rfl

@[simp] theorem withShared_self (c : Conf Pid Call Ev Shared) :
    c.withShared c.shared = c := rfl

@[simp] theorem tell_shared (c : Conf Pid Call Ev Shared) (p : Pid)
    (events : List Ev) : (c.tell p events).shared = c.shared := rfl

@[simp] theorem tell_calls (c : Conf Pid Call Ev Shared) (p : Pid)
    (events : List Ev) : (c.tell p events).calls = c.calls := rfl

@[simp] theorem tell_out (c : Conf Pid Call Ev Shared) (p : Pid)
    (events : List Ev) :
    (c.tell p events).out = c.out ++ events.map (fun event => (p, event)) := rfl

@[simp] theorem tell_nil (c : Conf Pid Call Ev Shared) (p : Pid) :
    c.tell p [] = c := by
  simp [tell]

theorem tell_cons (c : Conf Pid Call Ev Shared) (p : Pid) (event : Ev)
    (events : List Ev) : c.tell p (event :: events) = (c.tell p [event]).tell p events := by
  simp [tell]

variable [DecidableEq Pid]

@[simp] theorem arrive_shared (c : Conf Pid Call Ev Shared) (p : Pid) (call : Call) :
    (c.arrive p call).shared = c.shared := rfl

@[simp] theorem arrive_calls (c : Conf Pid Call Ev Shared) (p : Pid) (call : Call) :
    (c.arrive p call).calls = Function.update c.calls p (some call) := rfl

@[simp] theorem arrive_out (c : Conf Pid Call Ev Shared) (p : Pid) (call : Call) :
    (c.arrive p call).out = c.out := rfl

end Conf

/-- The meaning of calls and operations, of crashes and of environment changes. -/
structure System (Pid Call Ev Exn Shared Choice Tick Op : Type) (Ans : Op → Type) where
  code : Call → Code Op Ans Ev Exn Unit
  /-- `none` when the operation has to wait or the choice does not fit it. -/
  exec : Pid → (op : Op) → Choice → Shared → Option (Ans op × Shared)
  abort : Pid → Shared → Shared
  tick : Tick → Shared → Shared

inductive Move (Pid Call Choice Tick : Type) where
  | arrive (p : Pid) (call : Call)
  | step (p : Pid) (choice : Choice)
  | crash (p : Pid)
  | tick (t : Tick)

def Move.mover {Pid Call Choice Tick : Type} : Move Pid Call Choice Tick → Option Pid
  | .arrive p _ | .step p _ => some p
  | .crash _ | .tick _ => none

structure World (Pid Call Ev Exn Shared Op : Type) (Ans : Op → Type) where
  conf : Conf Pid Call Ev Shared
  procs : Pid → Option (Code Op Ans Ev Exn Unit)

section Runs

variable {Pid Call Ev Exn Shared Choice Tick Op : Type} {Ans : Op → Type}
variable [DecidableEq Pid]

namespace World

def idle (shared : Shared) : World Pid Call Ev Exn Shared Op Ans :=
  ⟨⟨shared, fun _ => none, []⟩, fun _ => none⟩

def pending (w : World Pid Call Ev Exn Shared Op Ans) (p : Pid) : Option Op :=
  (w.procs p).bind Code.pending

/-- The state in which `p` is left with `code`, whose reports are made at once. -/
def leave (w : World Pid Call Ev Exn Shared Op Ans) (p : Pid)
    (conf : Conf Pid Call Ev Shared) (code : Code Op Ans Ev Exn Unit) :
    World Pid Call Ev Exn Shared Op Ans :=
  ⟨conf.tell p code.reports, Function.update w.procs p (some code.resume)⟩

def move (sys : System Pid Call Ev Exn Shared Choice Tick Op Ans)
    (w : World Pid Call Ev Exn Shared Op Ans) :
    Move Pid Call Choice Tick → Option (World Pid Call Ev Exn Shared Op Ans)
  | .arrive p call =>
      match w.conf.calls p with
      | some _ => none
      | none => some (w.leave p (w.conf.arrive p call) (sys.code call))
  | .step p choice =>
      match w.procs p with
      | some (.request op next) =>
          match sys.exec p op choice w.conf.shared with
          | none => none
          | some (answer, shared) =>
              some (w.leave p (w.conf.withShared shared) (next answer))
      | _ => none
  | .crash p =>
      match w.procs p with
      | none => none
      | some _ =>
          some ⟨w.conf.withShared (sys.abort p w.conf.shared),
            Function.update w.procs p none⟩
  | .tick t => some { w with conf := w.conf.withShared (sys.tick t w.conf.shared) }

def run (sys : System Pid Call Ev Exn Shared Choice Tick Op Ans) :
    World Pid Call Ev Exn Shared Op Ans → List (Move Pid Call Choice Tick) →
      Option (World Pid Call Ev Exn Shared Op Ans)
  | w, [] => some w
  | w, m :: moves =>
      match w.move sys m with
      | none => none
      | some w' => run sys w' moves

theorem run_append (sys : System Pid Call Ev Exn Shared Choice Tick Op Ans)
    (w : World Pid Call Ev Exn Shared Op Ans) (moves moves' : List (Move Pid Call Choice Tick)) :
    w.run sys (moves ++ moves') = (w.run sys moves).bind fun w' => w'.run sys moves' := by
  induction moves generalizing w with
  | nil => rfl
  | cons m moves ih =>
      simp only [List.cons_append, run]
      cases w.move sys m with
      | none => rfl
      | some w' => exact ih w'

def runIf (sys : System Pid Call Ev Exn Shared Choice Tick Op Ans)
    (ok : World Pid Call Ev Exn Shared Op Ans → Move Pid Call Choice Tick →
      World Pid Call Ev Exn Shared Op Ans → Bool) :
    World Pid Call Ev Exn Shared Op Ans → List (Move Pid Call Choice Tick) →
      Option (World Pid Call Ev Exn Shared Op Ans)
  | w, [] => some w
  | w, m :: moves =>
      match w.move sys m with
      | none => none
      | some w' => if ok w m w' then runIf sys ok w' moves else none

/-- What a step did: the operation it made, the answer and the code left. -/
theorem step_cases {sys : System Pid Call Ev Exn Shared Choice Tick Op Ans}
    {w w' : World Pid Call Ev Exn Shared Op Ans} {p : Pid} {choice : Choice}
    (h : w.move sys (.step p choice) = some w') :
    ∃ op next answer shared, w.procs p = some (.request op next) ∧
      sys.exec p op choice w.conf.shared = some (answer, shared) ∧
      w' = w.leave p (w.conf.withShared shared) (next answer) := by
  simp only [move] at h
  split at h
  · rename_i op next hproc
    split at h
    · simp at h
    · rename_i answer shared hexec
      simp only [Option.some.injEq] at h
      exact ⟨op, next, answer, shared, hproc, hexec, h.symm⟩
  · simp at h

theorem calls_cases {sys : System Pid Call Ev Exn Shared Choice Tick Op Ans}
    {w w' : World Pid Call Ev Exn Shared Op Ans} {m : Move Pid Call Choice Tick}
    (h : w.move sys m = some w') : w'.conf.calls = w.conf.calls ∨
      ∃ p call, m = .arrive p call ∧ w.conf.calls p = none ∧
        w'.conf.calls = Function.update w.conf.calls p (some call) := by
  cases m with
  | arrive p call =>
      simp only [move] at h
      cases hcall : w.conf.calls p with
      | some old => simp [hcall] at h
      | none =>
          simp only [hcall, Option.some.injEq] at h
          subst w'
          exact .inr ⟨p, call, rfl, hcall, rfl⟩
  | step p choice =>
      obtain ⟨op, next, answer, shared, -, -, rfl⟩ := step_cases h
      exact .inl rfl
  | crash p =>
      simp only [move] at h
      split at h
      · simp at h
      · simp only [Option.some.injEq] at h
        subst w'
        exact .inl rfl
  | tick t =>
      simp only [move, Option.some.injEq] at h
      subst w'
      exact .inl rfl

end World

variable (sys : System Pid Call Ev Exn Shared Choice Tick Op Ans)

/-- The states reached from `start` by moves that are all `allowed`. -/
inductive Reach
    (allowed : World Pid Call Ev Exn Shared Op Ans → Move Pid Call Choice Tick →
      World Pid Call Ev Exn Shared Op Ans → Prop)
    (start : World Pid Call Ev Exn Shared Op Ans) :
    World Pid Call Ev Exn Shared Op Ans → Prop
  | refl : Reach allowed start start
  | move {w w' : World Pid Call Ev Exn Shared Op Ans} {m : Move Pid Call Choice Tick} :
      Reach allowed start w → w.move sys m = some w' → allowed w m w' →
      Reach allowed start w'

abbrev Reachable : World Pid Call Ev Exn Shared Op Ans →
    World Pid Call Ev Exn Shared Op Ans → Prop :=
  Reach sys (fun _ _ _ => True)

variable {sys}
variable {allowed : World Pid Call Ev Exn Shared Op Ans → Move Pid Call Choice Tick →
  World Pid Call Ev Exn Shared Op Ans → Prop}
variable {start w w' : World Pid Call Ev Exn Shared Op Ans}

theorem Reach.mono {allowed' : World Pid Call Ev Exn Shared Op Ans →
      Move Pid Call Choice Tick → World Pid Call Ev Exn Shared Op Ans → Prop}
    (h : ∀ w m w', allowed w m w' → allowed' w m w')
    (hr : Reach sys allowed start w) : Reach sys allowed' start w := by
  induction hr with
  | refl => exact .refl
  | move _ hm ha ih => exact .move ih hm (h _ _ _ ha)

theorem Reach.reachable (hr : Reach sys allowed start w) : Reachable sys start w :=
  hr.mono (fun _ _ _ _ => trivial)

theorem Reach.trans (h₁ : Reach sys allowed start w)
    (h₂ : Reach sys allowed w w') : Reach sys allowed start w' := by
  induction h₂ with
  | refl => exact h₁
  | move _ hm ha ih => exact .move ih hm ha

theorem Reach.tryMove (hr : Reachable sys start w) (m : Move Pid Call Choice Tick) :
    Reachable sys start ((w.move sys m).getD w) := by
  cases hmove : w.move sys m with
  | none => exact hr
  | some w' => exact .move hr hmove trivial

theorem Reach.arrival (hr : Reach sys allowed start w) {p : Pid} {call : Call}
    (hnew : start.conf.calls p = none) (hcall : w.conf.calls p = some call) :
    ∃ before after, Reach sys allowed start before ∧
      before.move sys (.arrive p call) = some after ∧
      allowed before (.arrive p call) after ∧ Reach sys allowed after w := by
  induction hr with
  | refl => simp [hnew] at hcall
  | @move w w' m hr hm ha ih =>
      have hearlier : w.conf.calls p = some call →
          ∃ before after, Reach sys allowed start before ∧
            before.move sys (.arrive p call) = some after ∧
            allowed before (.arrive p call) after ∧ Reach sys allowed after w' := by
        intro hcall
        obtain ⟨before, after, hbefore, hmove, hallowed, hafter⟩ := ih hcall
        exact ⟨before, after, hbefore, hmove, hallowed, .move hafter hm ha⟩
      rcases World.calls_cases hm with hsame | ⟨q, called, rfl, -, hcalls⟩
      · exact hearlier (hsame ▸ hcall)
      · rw [hcalls] at hcall
        by_cases hpq : p = q
        · subst q
          rw [Function.update_self, Option.some.injEq] at hcall
          subst called
          exact ⟨w, w', hr, hm, ha, .refl⟩
        · rw [Function.update_of_ne hpq] at hcall
          exact hearlier hcall

theorem reachable_of_run {moves : List (Move Pid Call Choice Tick)}
    (h : start.run sys moves = some w) : Reachable sys start w := by
  induction moves generalizing start with
  | nil =>
      cases h
      exact .refl
  | cons m moves ih =>
      simp only [World.run] at h
      cases hm : start.move sys m with
      | none => simp [hm] at h
      | some next =>
          simp only [hm] at h
          exact Reach.trans (.move .refl hm trivial) (ih h)

theorem reach_of_runIf {moves : List (Move Pid Call Choice Tick)}
    {ok : World Pid Call Ev Exn Shared Op Ans → Move Pid Call Choice Tick →
      World Pid Call Ev Exn Shared Op Ans → Bool}
    (hok : ∀ w m w', ok w m w' = true → allowed w m w')
    (h : start.runIf sys ok moves = some w) : Reach sys allowed start w := by
  induction moves generalizing start with
  | nil =>
      cases h
      exact .refl
  | cons m moves ih =>
      simp only [World.runIf] at h
      cases hm : start.move sys m with
      | none => simp [hm] at h
      | some next =>
          simp only [hm] at h
          split at h
          · rename_i hnext
            exact Reach.trans (.move .refl hm (hok _ _ _ hnext)) (ih h)
          · simp at h

theorem exists_of_run {moves : List (Move Pid Call Choice Tick)}
    {P : World Pid Call Ev Exn Shared Op Ans → Bool}
    (h : (start.run sys moves).any P = true) :
    ∃ w, Reachable sys start w ∧ P w = true := by
  cases hrun : start.run sys moves with
  | none => simp [hrun] at h
  | some w => exact ⟨w, reachable_of_run hrun, by simpa [hrun] using h⟩

theorem exists_of_runIf {moves : List (Move Pid Call Choice Tick)}
    {ok : World Pid Call Ev Exn Shared Op Ans → Move Pid Call Choice Tick →
      World Pid Call Ev Exn Shared Op Ans → Bool}
    {P : World Pid Call Ev Exn Shared Op Ans → Bool}
    (hok : ∀ w m w', ok w m w' = true → allowed w m w')
    (h : (start.runIf sys ok moves).any P = true) :
    ∃ w, Reach sys allowed start w ∧ P w = true := by
  cases hrun : start.runIf sys ok moves with
  | none => simp [hrun] at h
  | some w => exact ⟨w, reach_of_runIf hok hrun, by simpa [hrun] using h⟩

end Runs

end Kori.Foundation
