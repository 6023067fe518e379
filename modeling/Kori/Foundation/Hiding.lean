import Kori.Foundation.History

/-!
# Questions whose answers are known

Code that could do without some of its questions, because their answers are known in
advance, behaves like code that does not ask them.  When all calls of a system have such
code, what the system reports and what it does to the rest of its state depends on the
other moves alone: it is a refinement of a system that asks only the other questions.
-/

namespace Kori.Foundation

namespace Code

variable {Op : Type} {Ans : Op → Type} {Ev Exn : Type} {α β : Type}

def given (answer : (op : Op) → Option (Ans op)) :
    Code Op Ans Ev Exn α → Code Op Ans Ev Exn α
  | ret a => ret a
  | raise e => raise e
  | report event rest => report event (rest.given answer)
  | request op next =>
      match answer op with
      | some a => (next a).given answer
      | none => request op fun a => (next a).given answer

def Asking : Code Op Ans Ev Exn α → Prop
  | request _ _ => True
  | _ => False

/-- All questions without a known answer are in `P`, and one of them, not a report, comes
next after every known answer. -/
def Hides (answer : (op : Op) → Option (Ans op)) (P : Op → Prop) :
    Code Op Ans Ev Exn α → Prop
  | ret _ => True
  | raise _ => True
  | report _ rest => rest.Hides answer P
  | request op next =>
      match answer op with
      | some a => ((next a).given answer).Asking ∧ (next a).Hides answer P
      | none => P op ∧ ∀ a, (next a).Hides answer P

variable {answer : (op : Op) → Option (Ans op)} {P : Op → Prop}
variable {m : Code Op Ans Ev Exn α} {next : α → Code Op Ans Ev Exn β}
variable {handler : Exn → Code Op Ans Ev Exn α}

/-! ## Filling in answers -/

@[simp] theorem given_pure (a : α) :
    (pure a : Code Op Ans Ev Exn α).given answer = pure a := rfl

@[simp] theorem given_throw (e : Exn) :
    (throw e : Code Op Ans Ev Exn α).given answer = throw e := rfl

@[simp] theorem given_tell (event : Ev) :
    (tell event : Code Op Ans Ev Exn Unit).given answer = tell event := rfl

theorem given_known {op : Op} {a : Ans op} {next : Ans op → Code Op Ans Ev Exn α}
    (h : answer op = some a) : (request op next).given answer = (next a).given answer := by
  simp only [given, h]

theorem given_unknown {op : Op} {next : Ans op → Code Op Ans Ev Exn α}
    (h : answer op = none) :
    (request op next).given answer = request op fun a => (next a).given answer := by
  simp only [given, h]

theorem given_bind : (m >>= next).given answer =
    m.given answer >>= fun a => (next a).given answer := by
  induction m with
  | ret a => rfl
  | raise e => rfl
  | report event rest ih => exact congrArg (report event) ih
  | request op rest ih =>
      change (request op fun a => rest a >>= next).given answer = _
      cases h : answer op with
      | some a => rw [given_known h, given_known h, ih]
      | none =>
          rw [given_unknown h, given_unknown h]
          exact congrArg (request op) (funext ih)

theorem given_tryCatch : (tryCatch m handler : Code Op Ans Ev Exn α).given answer =
    tryCatch (m.given answer) fun e => (handler e).given answer := by
  induction m with
  | ret a => rfl
  | raise e => rfl
  | report event rest ih => exact congrArg (report event) ih
  | request op rest ih =>
      change (request op fun a => tryCatch (rest a) handler).given answer = _
      cases h : answer op with
      | some a => rw [given_known h, given_known h, ih]
      | none =>
          rw [given_unknown h, given_unknown h]
          exact congrArg (request op) (funext ih)

theorem Only.given (h : m.Only P) (hP : ∀ op, P op → answer op = none) :
    m.given answer = m := by
  induction m with
  | ret a => rfl
  | raise e => rfl
  | report event rest ih => exact h.elim
  | request op rest ih =>
      rw [given_unknown (hP op h.1)]
      exact congrArg (request op) (funext fun a => ih a (h.2 a))

/-! ## Code with known answers -/

theorem Asking.bind (h : m.Asking) : (m >>= next).Asking := by
  cases m with
  | request op rest => trivial
  | _ => exact h.elim

theorem Asking.tryCatch (h : m.Asking) :
    (tryCatch m handler : Code Op Ans Ev Exn α).Asking := by
  cases m with
  | request op rest => trivial
  | _ => exact h.elim

theorem hides_known {op : Op} {a : Ans op} {next : Ans op → Code Op Ans Ev Exn α}
    (h : answer op = some a) : (request op next).Hides answer P ↔
      ((next a).given answer).Asking ∧ (next a).Hides answer P := by
  simp only [Hides, h]

theorem hides_unknown {op : Op} {next : Ans op → Code Op Ans Ev Exn α}
    (h : answer op = none) : (request op next).Hides answer P ↔
      P op ∧ ∀ a, (next a).Hides answer P := by
  simp only [Hides, h]

theorem Hides.bind (h : m.Hides answer P) (hnext : ∀ a, (next a).Hides answer P) :
    (m >>= next).Hides answer P := by
  induction m with
  | ret a => exact hnext a
  | raise e => trivial
  | report event rest ih => exact ih h
  | request op rest ih =>
      change (request op fun a => rest a >>= next).Hides answer P
      cases hop : answer op with
      | some a =>
          rw [hides_known hop] at h ⊢
          rw [given_bind]
          exact ⟨h.1.bind, ih a h.2⟩
      | none =>
          rw [hides_unknown hop] at h ⊢
          exact ⟨h.1, fun a => ih a (h.2 a)⟩

theorem Hides.tryCatch (h : m.Hides answer P) (hhandler : ∀ e, (handler e).Hides answer P) :
    (tryCatch m handler : Code Op Ans Ev Exn α).Hides answer P := by
  induction m with
  | ret a => trivial
  | raise e => exact hhandler e
  | report event rest ih => exact ih h
  | request op rest ih =>
      change (request op fun a => MonadExcept.tryCatch (rest a) handler).Hides answer P
      cases hop : answer op with
      | some a =>
          rw [hides_known hop] at h ⊢
          rw [given_tryCatch]
          exact ⟨h.1.tryCatch, ih a h.2⟩
      | none =>
          rw [hides_unknown hop] at h ⊢
          exact ⟨h.1, fun a => ih a (h.2 a)⟩

theorem Only.hides (h : m.Only P) (hP : ∀ op, P op → answer op = none) :
    m.Hides answer P := by
  induction m with
  | ret a => trivial
  | raise e => trivial
  | report event rest ih => exact h.elim
  | request op rest ih =>
      rw [hides_unknown (hP op h.1)]
      exact ⟨h.1, fun a => ih a (h.2 a)⟩

theorem Hides.resume (h : m.Hides answer P) : (m.given answer).reports = m.reports ∧
    (m.given answer).resume = m.resume.given answer ∧ m.resume.Hides answer P := by
  induction m with
  | ret a => exact ⟨rfl, rfl, trivial⟩
  | raise e => exact ⟨rfl, rfl, trivial⟩
  | report event rest ih =>
      obtain ⟨hreports, hresume⟩ := ih h
      exact ⟨congrArg (event :: ·) hreports, hresume⟩
  | request op next ih =>
      refine ⟨?_, ?_, h⟩
      · cases hop : answer op with
        | some a =>
            rw [hides_known hop] at h
            rw [given_known hop]
            cases hnext : (next a).given answer <;> simp_all [Asking]
        | none => rw [given_unknown hop]; rfl
      · cases hop : answer op with
        | some a =>
            rw [hides_known hop] at h
            rw [given_known hop]
            change ((next a).given answer).resume = (request op next).given answer
            rw [given_known hop]
            cases hnext : (next a).given answer <;> simp_all [Asking, Code.resume]
        | none => rw [given_unknown hop]; exact (given_unknown hop).symm

end Code

/-! ## Systems of such code -/

section Systems

variable {Pid Call Call' Ev Exn Shared Shared' Choice Tick Op : Type} {Ans : Op → Type}

def World.seen (hidden : Op → Bool) (call : Call → Option Call')
    (x : Moment Pid Call Ev Exn Shared Choice Tick Op Ans) :
    Option (Move Pid Call' Choice Tick) :=
  match x.2 with
  | .arrive p c => (call c).map (.arrive p)
  | .step p choice => if (x.1.pending p).any hidden then none else some (.step p choice)
  | .crash p => some (.crash p)
  | .tick t => some (.tick t)

def seen (hidden : Op → Bool) (call : Call → Option Call')
    (past : List (Moment Pid Call Ev Exn Shared Choice Tick Op Ans)) :
    List (Move Pid Call' Choice Tick) :=
  (past.filterMap (World.seen hidden call)).reverse

/-- How `spec` does without the hidden questions of `sys`, as long as the state satisfies
`inv`, the calls are `fit` and the hidden questions are answered under choices that are `ok`. -/
structure Hiding (sys : System Pid Call Ev Exn Shared Choice Tick Op Ans)
    (spec : System Pid Call' Ev Exn Shared' Choice Tick Op Ans)
    (hidden : Op → Bool) (call : Call → Option Call') where
  answer : (op : Op) → Option (Ans op)
  visible : Op → Prop
  shared : Shared → Shared'
  inv : Shared → Prop
  fit : Call → Prop
  ok : Choice → Prop
  answers : ∀ op, hidden op = (answer op).isSome
  code : ∀ {c}, fit c → ∃ c', call c = some c' ∧ (sys.code c).Hides answer visible ∧
    (sys.code c).given answer = spec.code c'
  known : ∀ {p op a choice s b s'}, inv s → answer op = some a → ok choice →
    sys.exec p op choice s = some (b, s') → b = a ∧ shared s' = shared s ∧ inv s'
  asked : ∀ {p op choice s b s'}, inv s → visible op → sys.exec p op choice s = some (b, s') →
    spec.exec p op choice (shared s) = some (b, shared s') ∧ inv s'
  abort : ∀ {p s}, inv s → shared (sys.abort p s) = spec.abort p (shared s) ∧
    inv (sys.abort p s)
  tick : ∀ {t s}, inv s → shared (sys.tick t s) = spec.tick t (shared s) ∧ inv (sys.tick t s)

variable {sys : System Pid Call Ev Exn Shared Choice Tick Op Ans}
variable {spec : System Pid Call' Ev Exn Shared' Choice Tick Op Ans}
variable {hidden : Op → Bool} {call : Call → Option Call'}

namespace Hiding

variable (h : Hiding sys spec hidden call)

structure Allows (x : Moment Pid Call Ev Exn Shared Choice Tick Op Ans) : Prop where
  arrive : ∀ p c, x.2 = .arrive p c → h.fit c
  step : ∀ p choice op, x.2 = .step p choice → x.1.pending p = some op → hidden op = true →
    h.ok choice

/-- `b` is the state of `spec` in which `w` is seen. -/
structure Sees (w : World Pid Call Ev Exn Shared Op Ans)
    (b : World Pid Call' Ev Exn Shared' Op Ans) : Prop where
  inv : h.inv w.conf.shared
  shared : b.conf.shared = h.shared w.conf.shared
  out : b.conf.out = w.conf.out
  calls : ∀ p, b.conf.calls p = none ↔ w.conf.calls p = none
  procs : ∀ p, b.procs p = (w.procs p).map (Code.given h.answer)
  hides : ∀ p m, w.procs p = some m → m.Hides h.answer h.visible

variable {h}
variable {w w' : World Pid Call Ev Exn Shared Op Ans}
variable {b : World Pid Call' Ev Exn Shared' Op Ans}

theorem Sees.idle {s : Shared} (hinv : h.inv s) :
    h.Sees (World.idle s) (World.idle (h.shared s)) where
  inv := hinv
  shared := rfl
  out := rfl
  calls := fun _ => ⟨fun _ => rfl, fun _ => rfl⟩
  procs := fun _ => rfl
  hides := by simp [World.idle]

variable [DecidableEq Pid]

theorem Sees.leave (hs : h.Sees w b) (p : Pid) (conf : Conf Pid Call Ev Shared)
    (conf' : Conf Pid Call' Ev Shared') {code : Code Op Ans Ev Exn Unit}
    (hinv : h.inv conf.shared) (hshared : conf'.shared = h.shared conf.shared)
    (hout : conf'.out = conf.out) (hcalls : ∀ q, conf'.calls q = none ↔ conf.calls q = none)
    (hcode : code.Hides h.answer h.visible) :
    h.Sees (w.leave p conf code) (b.leave p conf' (code.given h.answer)) := by
  obtain ⟨hreports, hresume, hhides⟩ := hcode.resume
  refine ⟨hinv, hshared, ?_, hcalls, fun q => ?_, fun q m hm => ?_⟩
  · simp only [World.leave, Conf.tell_out, hout, hreports]
  · by_cases hq : q = p
    · subst q
      simp only [World.leave, Function.update_self, Option.map_some, hresume]
    · simp only [World.leave, Function.update_of_ne hq]
      exact hs.procs q
  · by_cases hq : q = p
    · subst q
      simp only [World.leave, Function.update_self, Option.some.injEq] at hm
      exact hm ▸ hhides
    · simp only [World.leave, Function.update_of_ne hq] at hm
      exact hs.hides q m hm

theorem Sees.stutter (hs : h.Sees w b) {p : Pid} {op : Op}
    {next : Ans op → Code Op Ans Ev Exn Unit} {a : Ans op} {s : Shared}
    (hproc : w.procs p = some (.request op next)) (ha : h.answer op = some a)
    (hshared : h.shared s = h.shared w.conf.shared) (hinv : h.inv s) :
    h.Sees (w.leave p (w.conf.withShared s) (next a)) b := by
  obtain ⟨hasking, hcode⟩ := (Code.hides_known ha).1 (hs.hides p _ hproc)
  have hleave := hs.leave p (w.conf.withShared s) b.conf hinv (hs.shared.trans hshared.symm)
    hs.out hs.calls hcode
  have hsame : b.leave p b.conf ((next a).given h.answer) = b := by
    have hproc' : b.procs p = some ((next a).given h.answer) := by
      rw [hs.procs p, hproc, Option.map_some, Code.given_known ha]
    cases hnext : (next a).given h.answer with
    | request op' next' =>
        rw [hnext] at hproc'
        simp only [World.leave, Code.reports_request, Conf.tell_nil, Code.resume, ← hproc',
          Function.update_eq_self]
    | _ => simp [hnext, Code.Asking] at hasking
  exact hsame ▸ hleave

theorem run_seen {x : Moment Pid Call Ev Exn Shared Choice Tick Op Ans}
    {b' : World Pid Call' Ev Exn Shared' Op Ans} {m : Move Pid Call' Choice Tick}
    (hseen : World.seen hidden call x = some m) (hm : b.move spec m = some b') :
    b.run spec (World.seen hidden call x).toList = some b' := by
  simp [hseen, World.run, hm]

theorem Sees.move (hs : h.Sees w b) {m : Move Pid Call Choice Tick}
    (hallows : h.Allows (w, m)) (hm : w.move sys m = some w') :
    ∃ b', b.run spec (World.seen hidden call (w, m)).toList = some b' ∧ h.Sees w' b' := by
  cases m with
  | arrive p c =>
      obtain ⟨c', hcall, hcode, hgiven⟩ := h.code (hallows.arrive p c rfl)
      simp only [World.move] at hm
      split at hm
      · simp at hm
      · rename_i hnew
        obtain rfl := Option.some.inj hm
        have hmove : b.move spec (.arrive p c') =
            some (b.leave p (b.conf.arrive p c') (spec.code c')) := by
          simp only [World.move, (hs.calls p).2 hnew]
        refine ⟨_, run_seen (by simp [World.seen, hcall]) hmove, ?_⟩
        rw [← hgiven]
        refine hs.leave p _ _ hs.inv hs.shared hs.out (fun q => ?_) hcode
        by_cases hq : q = p
        · subst q
          simp
        · simpa [Function.update_of_ne hq] using hs.calls q
  | step p choice =>
      obtain ⟨op, next, a, s, hproc, hexec, rfl⟩ := World.step_cases hm
      have hpending : w.pending p = some op := by simp [World.pending, hproc, Code.pending]
      have hhides := hs.hides p _ hproc
      cases ha : h.answer op with
      | some a' =>
          have hhidden : hidden op = true := by rw [h.answers, ha, Option.isSome_some]
          obtain ⟨rfl, hshared, hinv⟩ :=
            h.known hs.inv ha (hallows.step p choice op rfl hpending hhidden) hexec
          refine ⟨b, by simp [World.seen, hpending, hhidden, World.run], ?_⟩
          exact hs.stutter hproc ha hshared hinv
      | none =>
          have hhidden : hidden op = false := by rw [h.answers, ha, Option.isSome_none]
          obtain ⟨hvisible, hnext⟩ := (Code.hides_unknown ha).1 hhides
          obtain ⟨hspec, hinv⟩ := h.asked hs.inv hvisible hexec
          have hproc' : b.procs p =
              some (.request op fun a => (next a).given h.answer) := by
            rw [hs.procs p, hproc, Option.map_some, Code.given_unknown ha]
          have hmove : b.move spec (.step p choice) =
              some (b.leave p (b.conf.withShared (h.shared s)) ((next a).given h.answer)) := by
            simp only [World.move, hproc', hs.shared, hspec]
          refine ⟨_, run_seen (by simp [World.seen, hpending, hhidden]) hmove, ?_⟩
          exact hs.leave p _ _ hinv rfl hs.out hs.calls (hnext a)
  | crash p =>
      simp only [World.move] at hm
      split at hm
      · simp at hm
      · rename_i code hproc
        obtain rfl := Option.some.inj hm
        obtain ⟨habort, hinv⟩ := h.abort (p := p) hs.inv
        have hmove : b.move spec (.crash p) =
            some ⟨b.conf.withShared (h.shared (sys.abort p w.conf.shared)),
              Function.update b.procs p none⟩ := by
          simp only [World.move, hs.procs p, hproc, Option.map_some, hs.shared, habort]
        refine ⟨_, run_seen rfl hmove, hinv, rfl, hs.out, hs.calls, ?_, ?_⟩
        · intro q
          by_cases hq : q = p
          · subst q
            simp
          · simpa [Function.update_of_ne hq] using hs.procs q
        · intro q m hm
          by_cases hq : q = p
          · subst q
            simp at hm
          · exact hs.hides q m (by simpa [Function.update_of_ne hq] using hm)
  | tick t =>
      obtain rfl := Option.some.inj hm
      obtain ⟨htick, hinv⟩ := h.tick (t := t) hs.inv
      refine ⟨_, run_seen rfl rfl, hinv, ?_, hs.out, hs.calls, hs.procs, hs.hides⟩
      simp only [Conf.withShared_shared, hs.shared, htick]

/-! ## Runs -/

variable {past past' : List (Moment Pid Call Ev Exn Shared Choice Tick Op Ans)}

omit [DecidableEq Pid] in
theorem seen_cons (x : Moment Pid Call Ev Exn Shared Choice Tick Op Ans) :
    seen hidden call (x :: past) = seen hidden call past ++ (World.seen hidden call x).toList := by
  unfold seen
  rw [List.filterMap_cons]
  cases World.seen hidden call x <;> simp

/-- A run of the system is seen as a run of its specification. -/
theorem run_refines {s : Shared} (hinv : h.inv s) (hr : Run sys (World.idle s) past w)
    (hallows : ∀ x ∈ past, h.Allows x) :
    ∃ b, (World.idle (h.shared s)).run spec (seen hidden call past) = some b ∧ h.Sees w b := by
  induction hr with
  | nil => exact ⟨_, rfl, .idle hinv⟩
  | @cons past w w' m hr hm ih =>
      obtain ⟨b, hrun, hsees⟩ := ih fun x hx => hallows x (List.mem_cons_of_mem _ hx)
      obtain ⟨b', hmove, hsees'⟩ := hsees.move (hallows _ List.mem_cons_self) hm
      refine ⟨b', ?_, hsees'⟩
      rw [seen_cons, World.run_append, hrun]
      exact hmove

/-- Two runs with the same visible moves report the same, and lead to the same state as far
as it is visible, whatever the answers to the hidden questions were. -/
theorem runs_agree (h h' : Hiding sys spec hidden call) {s s' : Shared}
    (hinv : h.inv s) (hinv' : h'.inv s') (hsame : h.shared s = h'.shared s')
    (hr : Run sys (World.idle s) past w) (hr' : Run sys (World.idle s') past' w')
    (hallows : ∀ x ∈ past, h.Allows x) (hallows' : ∀ x ∈ past', h'.Allows x)
    (hseen : seen hidden call past = seen hidden call past') :
    w.conf.out = w'.conf.out ∧ h.shared w.conf.shared = h'.shared w'.conf.shared := by
  obtain ⟨b, hrun, hsees⟩ := run_refines hinv hr hallows
  obtain ⟨b', hrun', hsees'⟩ := run_refines hinv' hr' hallows'
  rw [hseen, hsame, hrun'] at hrun
  obtain rfl := Option.some.inj hrun
  exact ⟨hsees.out.symm.trans hsees'.out, hsees.shared.symm.trans hsees'.shared⟩

/-! ## Runs of the specification -/

/-- Hidden questions can always be answered, and the others as in the specification. -/
structure Complete (h : Hiding sys spec hidden call) : Prop where
  known : ∀ {p op a s}, h.inv s → h.answer op = some a →
    ∃ choice s', h.ok choice ∧ sys.exec p op choice s = some (a, s')
  asked : ∀ {p op choice s b t}, h.inv s → h.visible op →
    spec.exec p op choice (h.shared s) = some (b, t) → ∃ s', sys.exec p op choice s = some (b, s')

theorem Sees.settle (hcomplete : h.Complete) (hs : h.Sees w b) {p : Pid} {op : Op}
    {next' : Ans op → Code Op Ans Ev Exn Unit} (hproc : b.procs p = some (.request op next')) :
    ∃ later w₁ next, Run sys w later w₁ ∧ (∀ x ∈ later, h.Allows x) ∧
      seen hidden call later = [] ∧ h.Sees w₁ b ∧ w₁.procs p = some (.request op next) ∧
      h.answer op = none := by
  obtain ⟨m, hm, hgiven⟩ := Option.map_eq_some_iff.1 ((hs.procs p).symm.trans hproc)
  induction m generalizing w with
  | ret a => simp [Code.given] at hgiven
  | raise e => simp [Code.given] at hgiven
  | report event rest ih => simp [Code.given] at hgiven
  | request op₀ next₀ ih =>
      cases ha : h.answer op₀ with
      | none =>
          rw [Code.given_unknown ha] at hgiven
          obtain ⟨rfl, -⟩ := Code.request.inj hgiven
          exact ⟨[], w, next₀, .nil, by simp, rfl, hs, hm, ha⟩
      | some a =>
          obtain ⟨choice, s, hok, hexec⟩ := hcomplete.known (p := p) hs.inv ha
          obtain ⟨-, hshared, hinv⟩ := h.known hs.inv ha hok hexec
          rw [Code.given_known ha] at hgiven
          have hmove : w.move sys (.step p choice) =
              some (w.leave p (w.conf.withShared s) (next₀ a)) := by
            simp only [World.move, hm, hexec]
          have hproc₁ : (w.leave p (w.conf.withShared s) (next₀ a)).procs p =
              some (next₀ a) := by
            simp only [World.leave, Function.update_self]
            cases hnext : next₀ a <;> simp_all [Code.given, Code.resume]
          obtain ⟨later, w₁, next, hr, hallows, hseen, hsees, hproc', hnone⟩ :=
            ih a (hs.stutter hm ha hshared hinv) hproc₁ hgiven
          have hpending : w.pending p = some op₀ := by simp [World.pending, hm, Code.pending]
          have hhidden : hidden op₀ = true := by rw [h.answers, ha, Option.isSome_some]
          refine ⟨later ++ [(w, .step p choice)], w₁, next, Run.trans (.cons .nil hmove) hr, ?_,
            ?_, hsees, hproc', hnone⟩
          · intro x hx
            obtain hx | hx := List.mem_append.1 hx
            · exact hallows x hx
            · obtain rfl := List.mem_singleton.1 hx
              refine ⟨by simp, ?_⟩
              rintro p' choice' op' heq - -
              obtain ⟨-, rfl⟩ := Move.step.inj heq
              exact hok
          · simp only [seen, List.filterMap_append, List.reverse_append] at hseen ⊢
            simp [hseen, World.seen, hpending, hhidden]

theorem Sees.matched (hs : h.Sees w b) {m : Move Pid Call Choice Tick}
    {m' : Move Pid Call' Choice Tick} {b' : World Pid Call' Ev Exn Shared' Op Ans}
    (hallows : h.Allows (w, m)) (hm : w.move sys m = some w')
    (hseen : World.seen hidden call (w, m) = some m') (hm' : b.move spec m' = some b') :
    h.Sees w' b' := by
  obtain ⟨b'', hrun, hsees⟩ := hs.move hallows hm
  rw [run_seen hseen hm'] at hrun
  exact Option.some.inj hrun ▸ hsees

theorem Sees.follow (hcomplete : h.Complete) (hs : h.Sees w b)
    {m' : Move Pid Call' Choice Tick} {b' : World Pid Call' Ev Exn Shared' Op Ans}
    (hm' : b.move spec m' = some b')
    (hfit : ∀ p c', m' = .arrive p c' → ∃ c, h.fit c ∧ call c = some c') :
    ∃ later w', Run sys w later w' ∧ (∀ x ∈ later, h.Allows x) ∧
      seen hidden call later = [m'] ∧ h.Sees w' b' := by
  have hone : ∀ {m w'}, w.move sys m = some w' → h.Allows (w, m) →
      World.seen hidden call (w, m) = some m' →
      ∃ later w', Run sys w later w' ∧ (∀ x ∈ later, h.Allows x) ∧
        seen hidden call later = [m'] ∧ h.Sees w' b' := fun {m w'} hm hallows hseen =>
    ⟨[(w, m)], w', .cons .nil hm, by simpa using hallows, by simp [seen, hseen],
      hs.matched hallows hm hseen hm'⟩
  cases m' with
  | arrive p c' =>
      obtain ⟨c, hc, hcall⟩ := hfit p c' rfl
      have hnew : w.conf.calls p = none := by
        rw [← hs.calls p]
        simp only [World.move] at hm'
        split at hm'
        · simp at hm'
        · assumption
      have hm : w.move sys (.arrive p c) =
          some (w.leave p (w.conf.arrive p c) (sys.code c)) := by
        simp only [World.move, hnew]
      refine hone hm ⟨?_, by simp⟩ (by simp [World.seen, hcall])
      rintro p' c₁ heq
      obtain ⟨-, rfl⟩ := Move.arrive.inj heq
      exact hc
  | step p choice =>
      obtain ⟨op, next', a, t, hproc, hspec, -⟩ := World.step_cases hm'
      obtain ⟨later, w₁, next, hr, hallows, hseen, hs₁, hproc₁, hnone⟩ :=
        hs.settle hcomplete hproc
      have hvisible := ((Code.hides_unknown hnone).1 (hs₁.hides p _ hproc₁)).1
      rw [hs₁.shared] at hspec
      obtain ⟨s, hexec⟩ := hcomplete.asked hs₁.inv hvisible hspec
      have hm : w₁.move sys (.step p choice) =
          some (w₁.leave p (w₁.conf.withShared s) (next a)) := by
        simp only [World.move, hproc₁, hexec]
      have hpending : w₁.pending p = some op := by simp [World.pending, hproc₁, Code.pending]
      have hhidden : hidden op = false := by rw [h.answers, hnone, Option.isSome_none]
      have hallows₁ : h.Allows (w₁, .step p choice) := by
        refine ⟨by simp, ?_⟩
        rintro p' choice' op' heq hpending' hhidden'
        obtain ⟨rfl, rfl⟩ := Move.step.inj heq
        obtain rfl := Option.some.inj (hpending.symm.trans hpending')
        simp [hhidden] at hhidden'
      have hseen₁ : World.seen hidden call (w₁, (.step p choice : Move Pid Call Choice Tick)) =
          some (.step p choice) := by
        simp [World.seen, hpending, hhidden]
      refine ⟨(w₁, .step p choice) :: later, _, .cons hr hm, ?_, ?_,
        hs₁.matched hallows₁ hm hseen₁ hm'⟩
      · intro x hx
        obtain rfl | hx := List.mem_cons.1 hx
        · exact hallows₁
        · exact hallows x hx
      · rw [seen_cons, hseen, hseen₁]
        rfl
  | crash p =>
      have halive : ∃ m, w.procs p = some m := by
        simp only [World.move, hs.procs p] at hm'
        cases hproc : w.procs p with
        | none => simp [hproc] at hm'
        | some m => exact ⟨m, rfl⟩
      obtain ⟨m, hproc⟩ := halive
      have hm : w.move sys (.crash p) = some ⟨w.conf.withShared (sys.abort p w.conf.shared),
          Function.update w.procs p none⟩ := by
        simp only [World.move, hproc]
      exact hone hm ⟨by simp, by simp⟩ rfl
  | tick t => exact hone (m := .tick t) rfl ⟨by simp, by simp⟩ rfl

/-- Every run of the specification is seen in some run of the system. -/
theorem run_complete (hcomplete : h.Complete) (hs : h.Sees w b)
    {moves : List (Move Pid Call' Choice Tick)}
    {b' : World Pid Call' Ev Exn Shared' Op Ans} (hrun : b.run spec moves = some b')
    (hfit : ∀ p c', .arrive p c' ∈ moves → ∃ c, h.fit c ∧ call c = some c') :
    ∃ later w', Run sys w later w' ∧ (∀ x ∈ later, h.Allows x) ∧
      seen hidden call later = moves ∧ h.Sees w' b' := by
  induction moves generalizing w b with
  | nil =>
      obtain rfl := Option.some.inj hrun
      exact ⟨[], w, .nil, by simp, rfl, hs⟩
  | cons m moves ih =>
      simp only [World.run] at hrun
      split at hrun
      · simp at hrun
      · rename_i b₁ hm
        obtain ⟨first, w₁, hr₁, hallows₁, hseen₁, hs₁⟩ := hs.follow hcomplete hm
          fun p c' heq => hfit p c' (heq ▸ List.mem_cons_self)
        obtain ⟨later, w', hr', hallows', hseen', hs'⟩ := ih hs₁ hrun
          fun p c' hmem => hfit p c' (List.mem_cons_of_mem _ hmem)
        refine ⟨later ++ first, w', Run.trans hr₁ hr', ?_, ?_, hs'⟩
        · intro x hx
          obtain hx | hx := List.mem_append.1 hx
          · exact hallows' x hx
          · exact hallows₁ x hx
        · simp only [seen, List.filterMap_append, List.reverse_append] at hseen₁ hseen' ⊢
          rw [hseen₁, hseen']
          rfl

end Hiding

end Systems

end Kori.Foundation
