import Kori.Foundation.Interleaving

/-!
# Code and its history

What code has asked for and been answered decides what it does next.  `Heeds` is
the judgement for code under rules that look back on this history.  A `Run`
keeps all moves with the states in which they were made, and `Run.heeds` carries
the rules of a call's code over to the history of the process that serves it.

Histories and runs are lists with the latest entry first.
-/

namespace Kori.Foundation

structure Entry (Op : Type) (Ans : Op → Type) where
  op : Op
  answer : Ans op

/-- What code with a history may ask for, what it may report, and when it may end. -/
structure Rules (Op : Type) (Ans : Op → Type) (Ev : Type) where
  asks : List (Entry Op Ans) → Op → Prop
  tells : List (Entry Op Ans) → Ev → Prop
  ends : List (Entry Op Ans) → Prop

/-- `past'` continues `past` with operations in `P`. -/
def Extends {Op : Type} {Ans : Op → Type} (P : Op → Prop)
    (past past' : List (Entry Op Ans)) : Prop :=
  ∃ recent, past' = recent ++ past ∧ ∀ e ∈ recent, P e.op

section Extends

variable {Op : Type} {Ans : Op → Type} {P P' : Op → Prop}
variable {past past' past'' : List (Entry Op Ans)}

theorem Extends.refl (past : List (Entry Op Ans)) : Extends P past past :=
  ⟨[], rfl, by simp⟩

theorem Extends.trans (h : Extends P past past') (h' : Extends P past' past'') :
    Extends P past past'' := by
  obtain ⟨recent, rfl, hrecent⟩ := h
  obtain ⟨recent', rfl, hrecent'⟩ := h'
  refine ⟨recent' ++ recent, by simp, fun e he => ?_⟩
  rcases List.mem_append.1 he with he | he
  · exact hrecent' e he
  · exact hrecent e he

theorem Extends.cons (h : Extends P past past') {e : Entry Op Ans} (he : P e.op) :
    Extends P past (e :: past') :=
  h.trans ⟨[e], rfl, by simpa using he⟩

theorem Extends.mono (h : Extends P past past') (hP : ∀ op, P op → P' op) :
    Extends P' past past' := by
  obtain ⟨recent, rfl, hrecent⟩ := h
  exact ⟨recent, rfl, fun e he => hP _ (hrecent e he)⟩

theorem Extends.mem (h : Extends P past past') {e : Entry Op Ans} (he : e ∈ past) :
    e ∈ past' := by
  obtain ⟨recent, rfl, -⟩ := h
  exact List.mem_append_right _ he

theorem Extends.subset (h : Extends P past past') : past ⊆ past' := fun _ => h.mem

theorem Extends.old (h : Extends P past past') {e : Entry Op Ans} (he : e ∈ past')
    (hnew : ¬P e.op) : e ∈ past := by
  obtain ⟨recent, rfl, hrecent⟩ := h
  exact (List.mem_append.1 he).resolve_left fun hr => hnew (hrecent e hr)

end Extends

/-! ## The judgement -/

section Heeds

variable {Op : Type} {Ans : Op → Type} {Ev Exn : Type} {α β : Type}

/-- With the history `past` the code keeps to the rules and ends in `Q` or, with
an exception, in `E`. -/
def Heeds (r : Rules Op Ans Ev) : Code Op Ans Ev Exn α →
    (α → List (Entry Op Ans) → Prop) → (Exn → List (Entry Op Ans) → Prop) →
    List (Entry Op Ans) → Prop
  | .ret a, Q, _, past => Q a past
  | .raise e, _, E, past => E e past
  | .report event rest, Q, E, past => r.tells past event ∧ Heeds r rest Q E past
  | .request op next, Q, E, past =>
      r.asks past op ∧ ∀ a, Heeds r (next a) Q E (⟨op, a⟩ :: past)

variable {r r' : Rules Op Ans Ev} {past : List (Entry Op Ans)}
variable {Q Q' : α → List (Entry Op Ans) → Prop} {E E' : Exn → List (Entry Op Ans) → Prop}

@[simp] theorem heeds_pure (a : α) :
    Heeds r (pure a : Code Op Ans Ev Exn α) Q E past ↔ Q a past := Iff.rfl

@[simp] theorem heeds_throw (e : Exn) :
    Heeds r (throw e : Code Op Ans Ev Exn α) Q E past ↔ E e past := Iff.rfl

theorem Heeds.imp {m : Code Op Ans Ev Exn α} (h : Heeds r m Q E past)
    (hQ : ∀ a past', Q a past' → Q' a past') (hE : ∀ e past', E e past' → E' e past') :
    Heeds r m Q' E' past := by
  induction m generalizing past with
  | ret a => exact hQ a past h
  | raise e => exact hE e past h
  | report event rest ih => exact ⟨h.1, ih h.2⟩
  | request op next ih => exact ⟨h.1, fun a => ih a (h.2 a)⟩

theorem Heeds.weaken {m : Code Op Ans Ev Exn α} (h : Heeds r m Q E past)
    (hasks : ∀ past' op, past <:+ past' → r.asks past' op → r'.asks past' op)
    (htells : ∀ past' event, past <:+ past' → r.tells past' event → r'.tells past' event) :
    Heeds r' m Q E past := by
  induction m generalizing past with
  | ret a => exact h
  | raise e => exact h
  | report event rest ih =>
      exact ⟨htells past event (List.suffix_refl _) h.1, ih h.2 hasks htells⟩
  | request op next ih =>
      refine ⟨hasks past op (List.suffix_refl _) h.1, fun a => ih a (h.2 a) ?_ ?_⟩
      · exact fun past' op' hp => hasks past' op' ((List.suffix_cons _ _).trans hp)
      · exact fun past' event hp => htells past' event ((List.suffix_cons _ _).trans hp)

theorem Heeds.and {m : Code Op Ans Ev Exn α} (h : Heeds r m Q E past)
    (h' : Heeds r m Q' E' past) :
    Heeds r m (fun a past' => Q a past' ∧ Q' a past') (fun e past' => E e past' ∧ E' e past')
      past := by
  induction m generalizing past with
  | ret a => exact ⟨h, h'⟩
  | raise e => exact ⟨h, h'⟩
  | report event rest ih => exact ⟨h.1, ih h.2 h'.2⟩
  | request op next ih => exact ⟨h.1, fun a => ih a (h.2 a) (h'.2 a)⟩

theorem heeds_bind {m : Code Op Ans Ev Exn β} {next : β → Code Op Ans Ev Exn α} :
    Heeds r (m >>= next) Q E past ↔
      Heeds r m (fun b past' => Heeds r (next b) Q E past') E past := by
  induction m generalizing past with
  | ret b => exact Iff.rfl
  | raise e => exact Iff.rfl
  | report event rest ih => exact and_congr_right fun _ => ih
  | request op answer ih => exact and_congr_right fun _ => forall_congr' fun a => ih a

theorem heeds_tryCatch {m : Code Op Ans Ev Exn α} {handler : Exn → Code Op Ans Ev Exn α} :
    Heeds r (tryCatch m handler) Q E past ↔
      Heeds r m Q (fun e past' => Heeds r (handler e) Q E past') past := by
  induction m generalizing past with
  | ret b => exact Iff.rfl
  | raise e => exact Iff.rfl
  | report event rest ih => exact and_congr_right fun _ => ih
  | request op answer ih => exact and_congr_right fun _ => forall_congr' fun a => ih a

theorem Heeds.bind {m : Code Op Ans Ev Exn β} {next : β → Code Op Ans Ev Exn α}
    {R : β → List (Entry Op Ans) → Prop} (h : Heeds r m R E past)
    (hnext : ∀ b past', R b past' → Heeds r (next b) Q E past') :
    Heeds r (m >>= next) Q E past :=
  heeds_bind.2 (h.imp hnext fun _ _ h => h)

theorem Heeds.tryCatch {m : Code Op Ans Ev Exn α} {handler : Exn → Code Op Ans Ev Exn α}
    (h : Heeds r m Q E past) (hcatch : ∀ e past', E e past' → Heeds r (handler e) Q E' past') :
    Heeds r (tryCatch m handler) Q E' past :=
  heeds_tryCatch.2 (h.imp (fun _ _ h => h) hcatch)

theorem heeds_ask_bind {op : Op} {next : Ans op → Code Op Ans Ev Exn α} :
    Heeds r (Code.ask op >>= next) Q E past ↔
      r.asks past op ∧ ∀ a, Heeds r (next a) Q E (⟨op, a⟩ :: past) := Iff.rfl

theorem heeds_throwIf {condition : Prop} [Decidable condition] {e : Exn}
    {Q : Unit → List (Entry Op Ans) → Prop} (hthrow : condition → E e past)
    (hpass : ¬condition → Q () past) :
    Heeds r (Code.throwIf condition e : Code Op Ans Ev Exn Unit) Q E past := by
  unfold Code.throwIf
  split
  · rename_i h
    exact hthrow h
  · rename_i h
    exact hpass h

theorem heeds_forEach {body : α → Code Op Ans Ev Exn Unit}
    {I : List α → List (Entry Op Ans) → Prop} {as : List α} (h : I as past)
    (hbody : ∀ a rest past', I (a :: rest) past' →
      Heeds r (body a) (fun _ => I rest) E past') :
    Heeds r (Code.forEach body as) (fun _ => I []) E past := by
  induction as generalizing past with
  | nil => exact h
  | cons a rest ih => exact (hbody a rest past h).bind fun _ _ h => ih h

theorem Code.Only.heeds {P : Op → Prop} {m : Code Op Ans Ev Exn α} (h : m.Only P)
    (hasks : ∀ past' op, Extends P past past' → P op → r.asks past' op) :
    Heeds r m (fun _ => Extends P past) (fun _ => Extends P past) past := by
  suffices hfrom : ∀ past', Extends P past past' →
      Heeds r m (fun _ => Extends P past) (fun _ => Extends P past) past' from
    hfrom past (.refl past)
  induction m with
  | ret a => exact fun past' hp => hp
  | raise e => exact fun past' hp => hp
  | report event rest ih => exact h.elim
  | request op next ih =>
      intro past' hp
      exact ⟨hasks past' op hp h.1, fun a => ih a (h.2 a) _ (hp.cons h.1)⟩

theorem Code.Only.heeds_bind {P : Op → Prop} {m : Code Op Ans Ev Exn β}
    {next : β → Code Op Ans Ev Exn α} (h : m.Only P)
    (hasks : ∀ past' op, Extends P past past' → P op → r.asks past' op)
    (hnext : ∀ b past', Extends P past past' → Heeds r (next b) Q E past')
    (hthrow : ∀ e past', Extends P past past' → E e past') :
    Heeds r (m >>= next) Q E past :=
  Foundation.heeds_bind.2 ((h.heeds hasks).imp hnext hthrow)

theorem heeds_any (m : Code Op Ans Ev Exn α) (hasks : ∀ past op, r.asks past op)
    (htells : ∀ past event, r.tells past event) :
    Heeds r m (fun _ _ => True) (fun _ _ => True) past := by
  induction m generalizing past with
  | ret a => trivial
  | raise e => trivial
  | report event rest ih => exact ⟨htells past event, ih⟩
  | request op next ih => exact ⟨hasks past op, fun a => ih a⟩

section Within

variable {B : β → List (Entry Op Ans) → Prop} {X : Exn → List (Entry Op Ans) → Prop}
variable {own own' : List (Entry Op Ans)}

def Among (A : List (Entry Op Ans) → Prop) (past : List (Entry Op Ans)) : Prop :=
  ∃ own, A own ∧ own.Sublist past

variable (hasks : ∀ past past' op, r'.asks past op → r.asks past' op)
variable (htells : ∀ past past' event, r'.tells past event → r.tells past' event)

include hasks htells

theorem Heeds.within {m : Code Op Ans Ev Exn α} (h : Heeds r' m Q X own)
    (hown : own.Sublist past) :
    Heeds r m (fun a past' => Among (Q a) past' ∧ past.Sublist past') (fun _ _ => True)
      past := by
  suffices hfrom : ∀ past', past.Sublist past' → own.Sublist past' →
      Heeds r m (fun a past' => Among (Q a) past' ∧ past.Sublist past') (fun _ _ => True)
        past' from hfrom past (.refl _) hown
  clear hown
  induction m generalizing own with
  | ret a => exact fun past' hpast hown => ⟨⟨own, h, hown⟩, hpast⟩
  | raise e => exact fun _ _ _ => trivial
  | report event rest ih =>
      exact fun past' hpast hown => ⟨htells _ _ _ h.1, ih h.2 past' hpast hown⟩
  | request op next ih =>
      intro past' hpast hown
      refine ⟨hasks _ _ _ h.1, fun a => ?_⟩
      exact ih a (h.2 a) _ (hpast.cons _) (hown.cons_cons _)

theorem heeds_both {schedule : Op} {first : Ans schedule → Bool} {m : Code Op Ans Ev Exn α}
    {n : Code Op Ans Ev Exn β} (hschedule : ∀ past, r.asks past schedule)
    (hm : Heeds r' m Q X own) (hn : Heeds r' n B X own') (hown : own.Sublist past)
    (hown' : own'.Sublist past) :
    Heeds r (Code.both schedule first m n)
      (fun c past' => Among (Q c.1) past' ∧ Among (B c.2) past') (fun _ _ => True) past := by
  induction m generalizing n own own' past with
  | ret a =>
      apply (hn.within hasks htells hown').bind
      rintro b past' ⟨hB, hpast⟩
      exact ⟨⟨own, hm, hown.trans hpast⟩, hB⟩
  | raise e => trivial
  | report event rest ih => exact ⟨htells _ _ _ hm.1, ih hm.2 hn hown hown'⟩
  | request op left ihm =>
      -- the left operation stays pending while the right code moves on
      change Heeds r (Code.bothFrom schedule first op left _ n) _ _ past
      induction n generalizing own' past with
      | ret b =>
          refine ⟨hasks _ _ _ hm.1, fun a => ?_⟩
          apply ((hm.2 a).within hasks htells (hown.cons_cons _)).bind
          rintro a past' ⟨hQ, hpast⟩
          exact ⟨hQ, own', hn, (hown'.cons _).trans hpast⟩
      | raise e => trivial
      | report event rest ih => exact ⟨htells _ _ _ hn.1, ih hn.2 hown hown'⟩
      | request op' right ihn =>
          refine ⟨hschedule _, fun turn => ?_⟩
          dsimp only
          split
          · refine ⟨hasks _ _ _ hm.1, fun a => ?_⟩
            exact ihm a (hm.2 a) hn ((hown.cons _).cons_cons _) ((hown'.cons _).cons _)
          · refine ⟨hasks _ _ _ hn.1, fun b => ?_⟩
            exact ihn b (hn.2 b) ((hown.cons _).cons _) ((hown'.cons _).cons_cons _)

end Within

theorem Heeds.resume {m : Code Op Ans Ev Exn α} (h : Heeds r m Q E past) :
    Heeds r m.resume Q E past ∧ ∀ event ∈ m.reports, r.tells past event := by
  induction m with
  | ret a => exact ⟨h, by simp⟩
  | raise e => exact ⟨h, by simp [Code.reports]⟩
  | report event rest ih =>
      obtain ⟨hrest, hreports⟩ := ih h.2
      refine ⟨hrest, fun event' he => ?_⟩
      rcases List.mem_cons.1 he with rfl | he
      · exact h.1
      · exact hreports _ he
  | request op next ih => exact ⟨h, by simp⟩

theorem Heeds.pending {m : Code Op Ans Ev Exn α}
    (h : Heeds r m (fun _ => r.ends) (fun _ => r.ends) past) :
    (m.pending = none → r.ends past) ∧ ∀ op, m.pending = some op → r.asks past op := by
  induction m with
  | ret a => exact ⟨fun _ => h, by simp [Code.pending]⟩
  | raise e => exact ⟨fun _ => h, by simp [Code.pending]⟩
  | report event rest ih => exact ih h.2
  | request op next ih =>
      refine ⟨by simp [Code.pending], fun op' hop => ?_⟩
      obtain rfl := Option.some.inj hop
      exact h.1

end Heeds

/-! ## Runs with their moves -/

section Runs

variable {Pid Call Ev Exn Shared Choice Tick Op : Type} {Ans : Op → Type}
variable {sys : System Pid Call Ev Exn Shared Choice Tick Op Ans}

/-- A move and the state in which it was made. -/
abbrev Moment (Pid Call Ev Exn Shared Choice Tick Op : Type) (Ans : Op → Type) : Type :=
  World Pid Call Ev Exn Shared Op Ans × Move Pid Call Choice Tick

def World.answered (sys : System Pid Call Ev Exn Shared Choice Tick Op Ans)
    (w : World Pid Call Ev Exn Shared Op Ans) :
    Move Pid Call Choice Tick → Option (Pid × Entry Op Ans)
  | .step p choice =>
      match w.procs p with
      | some (.request op _) =>
          (sys.exec p op choice w.conf.shared).map fun result => (p, ⟨op, result.1⟩)
      | _ => none
  | _ => none

section Answered

variable {w : World Pid Call Ev Exn Shared Op Ans} {m : Move Pid Call Choice Tick}
variable {p q : Pid} {choice : Choice}

theorem World.answered_step {op : Op} {next : Ans op → Code Op Ans Ev Exn Unit}
    {answer : Ans op} {shared : Shared} (hproc : w.procs p = some (.request op next))
    (hexec : sys.exec p op choice w.conf.shared = some (answer, shared)) :
    w.answered sys (.step p choice) = some (p, ⟨op, answer⟩) := by
  simp [World.answered, hproc, hexec]

theorem World.answered_cases {e : Entry Op Ans} (h : w.answered sys m = some (p, e)) :
    ∃ choice next shared, m = .step p choice ∧ w.procs p = some (.request e.op next) ∧
      sys.exec p e.op choice w.conf.shared = some (e.answer, shared) := by
  unfold World.answered at h
  split at h
  · split at h
    · rename_i op next hproc
      obtain ⟨⟨answer, shared⟩, hexec, heq⟩ := Option.map_eq_some_iff.1 h
      obtain ⟨rfl, rfl⟩ := Prod.mk.inj heq
      exact ⟨_, next, shared, rfl, hproc, hexec⟩
    · simp at h
  · simp at h

theorem World.answered_move {e : Entry Op Ans} {w' : World Pid Call Ev Exn Shared Op Ans}
    [DecidableEq Pid] (h : w.answered sys m = some (p, e)) (hm : w.move sys m = some w') :
    ∃ choice next shared, m = .step p choice ∧ w.procs p = some (.request e.op next) ∧
      sys.exec p e.op choice w.conf.shared = some (e.answer, shared) ∧
      w' = w.leave p (w.conf.withShared shared) (next e.answer) := by
  obtain ⟨choice, next, shared, rfl, hproc, hexec⟩ := World.answered_cases h
  refine ⟨choice, next, shared, rfl, hproc, hexec, ?_⟩
  simp only [World.move, hproc] at hm
  split at hm
  · simp at hm
  · rename_i answer shared' hexec'
    obtain ⟨rfl, rfl⟩ := Prod.mk.inj (Option.some.inj (hexec.symm.trans hexec'))
    exact (Option.some.inj hm).symm

theorem mem_tell {c : Conf Pid Call Ev Shared} {events : List Ev} {event : Ev}
    (h : (q, event) ∈ (c.tell p events).out) :
    (q, event) ∈ c.out ∨ (q = p ∧ event ∈ events) := by
  simp only [Conf.tell_out, List.mem_append, List.mem_map, Prod.mk.injEq] at h
  obtain h | ⟨event', he, rfl, rfl⟩ := h
  · exact .inl h
  · exact .inr ⟨rfl, he⟩

end Answered

variable [DecidableEq Pid]
variable (sys)

/-- `Run sys start past w`: the moves `past` lead from `start` to `w`. -/
inductive Run (start : World Pid Call Ev Exn Shared Op Ans) :
    List (Moment Pid Call Ev Exn Shared Choice Tick Op Ans) →
      World Pid Call Ev Exn Shared Op Ans → Prop
  | nil : Run start [] start
  | cons {past : List (Moment Pid Call Ev Exn Shared Choice Tick Op Ans)}
      {w w' : World Pid Call Ev Exn Shared Op Ans} {m : Move Pid Call Choice Tick} :
      Run start past w → w.move sys m = some w' → Run start ((w, m) :: past) w'

/-- The history of one process in a run. -/
def heard (p : Pid) (past : List (Moment Pid Call Ev Exn Shared Choice Tick Op Ans)) :
    List (Entry Op Ans) :=
  past.filterMap fun x =>
    ((x.1.answered sys x.2).filter fun asked => asked.1 = p).map Prod.snd

variable {sys}
variable {start w w' : World Pid Call Ev Exn Shared Op Ans}
variable {past later before : List (Moment Pid Call Ev Exn Shared Choice Tick Op Ans)}
variable {m : Move Pid Call Choice Tick} {p q : Pid} {choice : Choice}

theorem heard_cons : heard sys p ((w, m) :: past) =
    (((w.answered sys m).filter fun asked => asked.1 = p).map Prod.snd).toList ++
      heard sys p past := by
  unfold heard
  rw [List.filterMap_cons]
  cases ((w.answered sys m).filter fun asked => asked.1 = p).map Prod.snd <;> rfl

theorem heard_cons_self {e : Entry Op Ans} (h : w.answered sys m = some (p, e)) :
    heard sys p ((w, m) :: past) = e :: heard sys p past := by
  simp [heard_cons, h, Option.filter]

theorem heard_cons_other (h : ∀ e, w.answered sys m ≠ some (p, e)) :
    heard sys p ((w, m) :: past) = heard sys p past := by
  rw [heard_cons]
  cases hans : w.answered sys m with
  | none => rfl
  | some asked =>
      have hne : asked.1 ≠ p := by
        rintro rfl
        exact h asked.2 hans
      simp [hne]

theorem mem_heard {e : Entry Op Ans} :
    e ∈ heard sys p past ↔ ∃ x ∈ past, x.1.answered sys x.2 = some (p, e) := by
  unfold heard
  rw [List.mem_filterMap]
  refine exists_congr fun x => and_congr_right fun _ => ?_
  cases x.1.answered sys x.2 with
  | none => simp
  | some asked =>
      obtain ⟨q, e'⟩ := asked
      by_cases hq : q = p <;> simp [hq]

theorem Run.reachable (h : Run sys start past w) : Reachable sys start w := by
  induction h with
  | nil => exact .refl
  | cons _ hm ih => exact .move ih hm trivial

theorem Run.split (h : Run sys start (later ++ before) w) :
    ∃ w₀, Run sys start before w₀ ∧ Run sys w₀ later w := by
  induction later generalizing w with
  | nil => exact ⟨w, h, .nil⟩
  | cons x later ih =>
      cases h with
      | cons hr hm =>
          obtain ⟨w₀, hbefore, hlater⟩ := ih hr
          exact ⟨w₀, hbefore, .cons hlater hm⟩

theorem Run.moment {x : Moment Pid Call Ev Exn Shared Choice Tick Op Ans}
    (h : Run sys start (later ++ x :: before) w) :
    Run sys start before x.1 ∧ ∃ w₁, x.1.move sys x.2 = some w₁ ∧ Run sys w₁ later w := by
  obtain ⟨w₁, hbefore, hlater⟩ := h.split
  cases hbefore with
  | cons hr hm => exact ⟨hr, w₁, hm, hlater⟩

theorem Run.trans (h : Run sys start before w) (h' : Run sys w later w') :
    Run sys start (later ++ before) w' := by
  induction h' with
  | nil => exact h
  | cons _ hm ih => exact .cons ih hm

def World.moments (sys : System Pid Call Ev Exn Shared Choice Tick Op Ans) :
    World Pid Call Ev Exn Shared Op Ans → List (Move Pid Call Choice Tick) →
      Option (List (Moment Pid Call Ev Exn Shared Choice Tick Op Ans) ×
        World Pid Call Ev Exn Shared Op Ans)
  | w, [] => some ([], w)
  | w, m :: moves =>
      (w.move sys m).bind fun w' =>
        (World.moments sys w' moves).map fun run => (run.1 ++ [(w, m)], run.2)

theorem run_of_moments {moves : List (Move Pid Call Choice Tick)}
    (h : start.moments sys moves = some (past, w)) :
    Run sys start past w ∧ past.map Prod.snd = moves.reverse := by
  induction moves generalizing start past with
  | nil =>
      simp only [World.moments, Option.some.injEq, Prod.mk.injEq] at h
      obtain ⟨rfl, rfl⟩ := h
      exact ⟨.nil, rfl⟩
  | cons m moves ih =>
      simp only [World.moments] at h
      obtain ⟨w₁, hm, h⟩ := Option.bind_eq_some_iff.1 h
      obtain ⟨⟨later, w₂⟩, hlater, heq⟩ := Option.map_eq_some_iff.1 h
      obtain ⟨rfl, rfl⟩ := Prod.mk.inj heq
      obtain ⟨hrun, hmoves⟩ := ih hlater
      exact ⟨Run.trans (.cons .nil hm) hrun, by simp [hmoves]⟩

theorem exists_of_moments {moves : List (Move Pid Call Choice Tick)}
    {P : List (Moment Pid Call Ev Exn Shared Choice Tick Op Ans) → Bool}
    (h : ((start.moments sys moves).any fun run => P run.1) = true) :
    ∃ past w, Run sys start past w ∧ past.map Prod.snd = moves.reverse ∧ P past = true := by
  obtain ⟨⟨past, w⟩, hrun, hP⟩ := (Option.any_eq_true _ _).1 h
  obtain ⟨hr, hmoves⟩ := run_of_moments hrun
  exact ⟨past, w, hr, hmoves, hP⟩

theorem Reachable.run (h : Reachable sys start w) : ∃ past, Run sys start past w := by
  induction h with
  | refl => exact ⟨[], .nil⟩
  | move _ hm _ ih =>
      obtain ⟨past, hr⟩ := ih
      exact ⟨_, .cons hr hm⟩

theorem World.calls_mono {call : Call} (h : w.move sys m = some w')
    (hcall : w.conf.calls p = some call) : w'.conf.calls p = some call := by
  rcases calls_cases h with hsame | ⟨q, called, rfl, hnone, hcalls⟩
  · rw [hsame]
    exact hcall
  · rw [hcalls, Function.update_of_ne, hcall]
    rintro rfl
    simp [hnone] at hcall

theorem Run.calls_mono {call : Call} (h : Run sys start past w)
    (hcall : start.conf.calls p = some call) : w.conf.calls p = some call := by
  induction h with
  | nil => exact hcall
  | cons _ hm ih => exact World.calls_mono hm ih

theorem Run.arrived {call : Call} (h : Run sys start past w)
    (hnone : start.conf.calls p = none) (hcall : w.conf.calls p = some call) :
    ∃ x ∈ past, x.2 = .arrive p call := by
  induction h with
  | nil => simp [hnone] at hcall
  | @cons past w w' m h hm ih =>
      rcases World.calls_cases hm with hsame | ⟨q, called, rfl, -, hcalls⟩
      · obtain ⟨x, hx, harrive⟩ := ih (hsame ▸ hcall)
        exact ⟨x, .tail _ hx, harrive⟩
      · by_cases hq : p = q
        · obtain rfl := hq
          rw [hcalls, Function.update_self] at hcall
          obtain rfl := Option.some.inj hcall
          exact ⟨_, .head _, rfl⟩
        · rw [hcalls, Function.update_of_ne hq] at hcall
          obtain ⟨x, hx, harrive⟩ := ih hcall
          exact ⟨x, .tail _ hx, harrive⟩

/-! ## Moments of a run

`x :: before <:+ past` says that `x` is a moment of the run, and that `before` led
to it. -/

variable {x y : Moment Pid Call Ev Exn Shared Choice Tick Op Ans}
variable {before' : List (Moment Pid Call Ev Exn Shared Choice Tick Op Ans)}

theorem Run.at (h : Run sys start past w) (hx : x :: before <:+ past) :
    Run sys start before x.1 ∧ ∃ w₁ later, x.1.move sys x.2 = some w₁ ∧ Run sys w₁ later w ∧
      past = later ++ x :: before := by
  obtain ⟨later, rfl⟩ := hx
  obtain ⟨hr, w₁, hm, hlater⟩ := h.moment
  exact ⟨hr, w₁, later, hm, hlater, rfl⟩

theorem Run.called_at (h : Run sys start past w) (hx : x :: before <:+ past) {call : Call}
    (hcall : x.1.conf.calls p = some call) : w.conf.calls p = some call := by
  obtain ⟨-, w₁, later, hm, hlater, -⟩ := h.at hx
  exact hlater.calls_mono (World.calls_mono hm hcall)

theorem heard_moment {e : Entry Op Ans} (h : e ∈ heard sys p past) :
    ∃ x before, x :: before <:+ past ∧ x.1.answered sys x.2 = some (p, e) := by
  obtain ⟨x, hx, hans⟩ := mem_heard.1 h
  obtain ⟨later, before, rfl⟩ := List.append_of_mem hx
  exact ⟨x, before, List.suffix_append later _, hans⟩

theorem heard_at {e : Entry Op Ans} (hx : x :: before <:+ past)
    (hans : x.1.answered sys x.2 = some (p, e)) : e ∈ heard sys p past :=
  mem_heard.2 ⟨x, hx.subset List.mem_cons_self, hans⟩

theorem moment_of_heard {e : Entry Op Ans} {history : List (Entry Op Ans)}
    (h : e :: history <:+ heard sys p past) :
    ∃ x before, x :: before <:+ past ∧ x.1.answered sys x.2 = some (p, e) ∧
      heard sys p before = history := by
  induction past with
  | nil => simp [heard] at h
  | cons x past ih =>
      obtain ⟨w, m⟩ := x
      by_cases hans : ∃ e', w.answered sys m = some (p, e')
      · obtain ⟨e', hans⟩ := hans
        rw [heard_cons_self hans] at h
        rcases List.suffix_cons_iff.1 h with heq | hlater
        · obtain ⟨rfl, rfl⟩ := List.cons.inj heq
          exact ⟨(w, m), past, List.suffix_refl _, hans, rfl⟩
        · obtain ⟨x, before, hx, hrest⟩ := ih hlater
          exact ⟨x, before, hx.trans (List.suffix_cons _ _), hrest⟩
      · rw [heard_cons_other fun e' h' => hans ⟨e', h'⟩] at h
        obtain ⟨x, before, hx, hrest⟩ := ih h
        exact ⟨x, before, hx.trans (List.suffix_cons _ _), hrest⟩

theorem heard_suffix (h : before <:+ past) : heard sys p before <:+ heard sys p past := by
  obtain ⟨later, rfl⟩ := h
  unfold heard
  rw [List.filterMap_append]
  exact List.suffix_append _ _

theorem heard_before (h : x :: before <:+ past) : heard sys p before <:+ heard sys p past :=
  heard_suffix ((List.suffix_cons x before).trans h)

/-- Two moments are one, or one of them led to the other. -/
theorem moments_cases {A : Type} {as before before' : List A} {x y : A}
    (hx : x :: before <:+ as) (hy : y :: before' <:+ as) :
    (x = y ∧ before = before') ∨ x :: before <:+ before' ∨ y :: before' <:+ before := by
  rcases List.suffix_or_suffix_of_suffix hx hy with h | h
  · rcases List.suffix_cons_iff.1 h with heq | h
    · exact .inl (List.cons.inj heq)
    · exact .inr (.inl h)
  · rcases List.suffix_cons_iff.1 h with heq | h
    · obtain ⟨rfl, rfl⟩ := List.cons.inj heq
      exact .inl ⟨rfl, rfl⟩
    · exact .inr (.inr h)

theorem Run.lasts {P : World Pid Call Ev Exn Shared Op Ans → Prop} (h : Run sys start past w)
    (hkeeps : ∀ w m w', w.move sys m = some w' → P w → P w') (hstart : P start) : P w := by
  induction h with
  | nil => exact hstart
  | cons _ hm ih => exact hkeeps _ _ _ hm ih

/-- A moment that leaves a lasting mark which was not there before is the only one. -/
theorem Run.marked_once {P : World Pid Call Ev Exn Shared Op Ans → Prop}
    {E : Moment Pid Call Ev Exn Shared Choice Tick Op Ans → Prop} (h : Run sys start past w)
    (hkeeps : ∀ w m w', w.move sys m = some w' → P w → P w')
    (hmarks : ∀ x w', E x → x.1.move sys x.2 = some w' → ¬P x.1 ∧ P w')
    (hx : x :: before <:+ past) (hy : y :: before' <:+ past) (hxe : E x) (hye : E y) :
    x = y ∧ before = before' := by
  have hnot : ∀ {x y before before'}, y :: before' <:+ past → x :: before <:+ before' →
      E x → ¬E y := by
    intro x y before before' hy hx hxe hye
    obtain ⟨hry, w₂, -, hm₂, -⟩ := h.at hy
    obtain ⟨-, w₁, later, hm₁, hlater, -⟩ := hry.at hx
    exact (hmarks y w₂ hye hm₂).1 (hlater.lasts hkeeps (hmarks x w₁ hxe hm₁).2)
  rcases moments_cases hx hy with hsame | hlater | hlater
  · exact hsame
  · exact absurd hye (hnot hy hlater hxe)
  · exact absurd hxe (hnot hx hlater hye)

/-- `P` holds of every moment of the run, given what went before. -/
def Throughout {A : Type} (P : List A → A → Prop) : List A → Prop
  | [] => True
  | x :: before => P before x ∧ Throughout P before

instance Throughout.decidable {A : Type} {P : List A → A → Prop}
    [∀ before a, Decidable (P before a)] : (as : List A) → Decidable (Throughout P as)
  | [] => .isTrue trivial
  | _ :: before => @instDecidableAnd _ _ _ (Throughout.decidable before)

theorem Throughout.at {A : Type} {P : List A → A → Prop} {as before : List A} {a : A}
    (h : Throughout P as) (ha : a :: before <:+ as) : P before a := by
  induction as with
  | nil => simp at ha
  | cons a' as ih =>
      rcases List.suffix_cons_iff.1 ha with heq | hlater
      · obtain ⟨rfl, rfl⟩ := List.cons.inj heq
        exact h.1
      · exact ih h.2 hlater

theorem throughout_of_at {A : Type} {P : List A → A → Prop} {as : List A}
    (h : ∀ a before, a :: before <:+ as → P before a) : Throughout P as := by
  induction as with
  | nil => trivial
  | cons a as ih =>
      exact ⟨h a as (List.suffix_refl _),
        ih fun a' before ha => h a' before (ha.trans (List.suffix_cons a as))⟩

theorem Reach.run {allowed : World Pid Call Ev Exn Shared Op Ans → Move Pid Call Choice Tick →
      World Pid Call Ev Exn Shared Op Ans → Prop} (h : Reach sys allowed start w) :
    ∃ past, Run sys start past w ∧ Throughout (fun _ x => ∃ w', allowed x.1 x.2 w') past := by
  induction h with
  | refl => exact ⟨[], .nil, trivial⟩
  | @move w w' m _ hm ha ih =>
      obtain ⟨past, hr, hall⟩ := ih
      exact ⟨_, .cons hr hm, ⟨w', ha⟩, hall⟩

/-! ## Rules that calls keep to -/

section Kept

variable {rules : Call → Rules Op Ans Ev}

structure Kept (sys : System Pid Call Ev Exn Shared Choice Tick Op Ans)
    (rules : Call → Rules Op Ans Ev)
    (past : List (Moment Pid Call Ev Exn Shared Choice Tick Op Ans))
    (w : World Pid Call Ev Exn Shared Op Ans) (p : Pid) : Prop where
  unheard : w.conf.calls p = none → heard sys p past = [] ∧ w.procs p = none
  code : ∀ call m, w.conf.calls p = some call → w.procs p = some m →
    Heeds (rules call) m (fun _ => (rules call).ends) (fun _ => (rules call).ends)
      (heard sys p past)
  told : ∀ call event, w.conf.calls p = some call → (p, event) ∈ w.conf.out →
    ∃ later before, past = later ++ before ∧ (rules call).tells (heard sys p before) event

/-- Every call's code keeps to the rules of the call. -/
def Obeyed (sys : System Pid Call Ev Exn Shared Choice Tick Op Ans)
    (rules : Call → Rules Op Ans Ev) : Prop :=
  ∀ call, Heeds (rules call) (sys.code call) (fun _ => (rules call).ends)
    (fun _ => (rules call).ends) []

theorem Kept.idle {shared : Shared} : Kept sys rules [] (World.idle shared) p where
  unheard := fun _ => ⟨rfl, rfl⟩
  code := by simp [World.idle]
  told := by simp [World.idle]

theorem Kept.other (h : Kept sys rules past w p) (hans : ∀ e, w.answered sys m ≠ some (p, e))
    (hcalls : w'.conf.calls p = w.conf.calls p)
    (hprocs : ∀ m, w'.procs p = some m → w.procs p = some m)
    (hout : ∀ event, (p, event) ∈ w'.conf.out → (p, event) ∈ w.conf.out) :
    Kept sys rules ((w, m) :: past) w' p := by
  refine ⟨fun hcall => ?_, fun call code hcall hcode => ?_, fun call event hcall hevent => ?_⟩
  · obtain ⟨hheard, hproc⟩ := h.unheard (hcalls ▸ hcall)
    refine ⟨(heard_cons_other hans).trans hheard, ?_⟩
    cases hproc' : w'.procs p with
    | none => rfl
    | some code => simp [hprocs code hproc'] at hproc
  · rw [heard_cons_other hans]
    exact h.code call code (hcalls ▸ hcall) (hprocs code hcode)
  · obtain ⟨later, before, rfl, htells⟩ := h.told call event (hcalls ▸ hcall) (hout event hevent)
    exact ⟨(w, m) :: later, before, rfl, htells⟩

theorem Kept.arrive (hobeyed : Obeyed sys rules) (h : Kept sys rules past w p) {call : Call}
    (hnew : w.conf.calls q = none) (hsilent : ∀ event, (q, event) ∉ w.conf.out) :
    Kept sys rules ((w, .arrive q call) :: past)
      (w.leave q (w.conf.arrive q call) (sys.code call)) p := by
  have hans : ∀ e, w.answered sys (.arrive q call) ≠ some (p, e) := by simp [World.answered]
  by_cases hpq : p = q
  · subst q
    obtain ⟨hheard, -⟩ := h.unheard hnew
    have hheeds := (hobeyed call).resume
    refine ⟨by simp [World.leave], ?_, ?_⟩
    · intro call' code hcall hcode
      simp only [World.leave, Conf.tell_calls, Conf.arrive_calls, Function.update_self,
        Option.some.injEq] at hcall hcode
      subst call' code
      rw [heard_cons_other hans, hheard]
      exact hheeds.1
    · intro call' event hcall hevent
      simp only [World.leave, Conf.tell_calls, Conf.arrive_calls, Function.update_self,
        Option.some.injEq] at hcall
      subst call'
      rcases mem_tell hevent with hold | ⟨-, hnew⟩
      · exact absurd hold (hsilent event)
      · refine ⟨[], _, rfl, ?_⟩
        rw [heard_cons_other hans, hheard]
        exact hheeds.2 event hnew
  · refine h.other hans ?_ ?_ ?_
    · simp [World.leave, Function.update_of_ne hpq]
    · intro code hcode
      simpa [World.leave, Function.update_of_ne hpq] using hcode
    · intro event hevent
      exact (mem_tell hevent).resolve_right fun hmine => hpq hmine.1

theorem Kept.step (h : Kept sys rules past w p) {op : Op}
    {next : Ans op → Code Op Ans Ev Exn Unit} {answer : Ans op} {shared : Shared}
    (hproc : w.procs q = some (.request op next))
    (hexec : sys.exec q op choice w.conf.shared = some (answer, shared)) :
    Kept sys rules ((w, .step q choice) :: past)
      (w.leave q (w.conf.withShared shared) (next answer)) p := by
  have hans := World.answered_step hproc hexec
  by_cases hpq : p = q
  · subst q
    have hheeds : ∀ call, w.conf.calls p = some call →
        Heeds (rules call) (next answer) (fun _ => (rules call).ends)
          (fun _ => (rules call).ends) (⟨op, answer⟩ :: heard sys p past) :=
      fun call hcall => (h.code call _ hcall hproc).2 answer
    refine ⟨?_, ?_, ?_⟩
    · intro hcall
      obtain ⟨-, hnone⟩ := h.unheard hcall
      simp [hproc] at hnone
    · intro call code hcall hcode
      simp only [World.leave, Function.update_self, Option.some.injEq] at hcode
      subst code
      rw [heard_cons_self hans]
      exact (hheeds call hcall).resume.1
    · intro call event hcall hevent
      rcases mem_tell hevent with hold | ⟨-, hnew⟩
      · obtain ⟨later, before, rfl, htells⟩ := h.told call event hcall hold
        exact ⟨_ :: later, before, rfl, htells⟩
      · refine ⟨[], _, rfl, ?_⟩
        rw [heard_cons_self hans]
        exact (hheeds call hcall).resume.2 event hnew
  · refine h.other ?_ rfl ?_ ?_
    · intro e he
      rw [hans] at he
      exact hpq (Prod.mk.inj (Option.some.inj he)).1.symm
    · intro code hcode
      simpa [World.leave, Function.update_of_ne hpq] using hcode
    · intro event hevent
      exact (mem_tell hevent).resolve_right fun hmine => hpq hmine.1

/-- In every run each process keeps to the rules of its call. -/
theorem Run.kept {shared : Shared} (hobeyed : Obeyed sys rules)
    (h : Run sys (World.idle shared) past w) :
    (∀ p, Kept sys rules past w p) ∧ ∀ p event, w.conf.calls p = none →
      (p, event) ∉ w.conf.out := by
  induction h with
  | nil => exact ⟨fun _ => .idle, by simp [World.idle]⟩
  | @cons past w w' m hr hm ih =>
      obtain ⟨hkept, hsilent⟩ := ih
      cases m with
      | arrive q call =>
          simp only [World.move] at hm
          split at hm
          · simp at hm
          · rename_i hnew
            simp only [Option.some.injEq] at hm
            subst w'
            refine ⟨fun p => (hkept p).arrive hobeyed hnew fun e => hsilent q e hnew, ?_⟩
            intro p event hcall hevent
            by_cases hpq : p = q
            · subst q
              simp [World.leave] at hcall
            · simp only [World.leave, Conf.tell_calls, Conf.arrive_calls,
                Function.update_of_ne hpq] at hcall
              exact hsilent p event hcall
                ((mem_tell hevent).resolve_right fun hmine => hpq hmine.1)
      | step q choice =>
          obtain ⟨op, next, answer, shared, hproc, hexec, rfl⟩ := World.step_cases hm
          refine ⟨fun p => (hkept p).step hproc hexec, fun p event hcall hevent => ?_⟩
          rcases mem_tell hevent with hold | ⟨rfl, -⟩
          · exact hsilent p event hcall hold
          · obtain ⟨-, hnone⟩ := (hkept p).unheard hcall
            simp [hproc] at hnone
      | crash q =>
          simp only [World.move] at hm
          split at hm
          · simp at hm
          · simp only [Option.some.injEq] at hm
            subst w'
            refine ⟨fun p => (hkept p).other (by simp [World.answered]) rfl ?_ ?_, hsilent⟩
            · intro code hcode
              by_cases hpq : p = q
              · subst q
                simp at hcode
              · simpa [Function.update_of_ne hpq] using hcode
            · exact fun event hevent => hevent
      | tick k =>
          simp only [World.move, Option.some.injEq] at hm
          subst w'
          exact ⟨fun p => (hkept p).other (by simp [World.answered]) rfl (fun _ h => h)
            fun _ h => h, hsilent⟩

inductive Elsewhere (sys : System Pid Call Ev Exn Shared Choice Tick Op Ans) (p : Pid)
    (s : Shared) : Shared → Prop
  | step {q : Pid} {op : Op} {choice : Choice} {a : Ans op} {s' : Shared} : q ≠ p →
      sys.exec q op choice s = some (a, s') → Elsewhere sys p s s'
  | crash {q : Pid} : q ≠ p → Elsewhere sys p s (sys.abort q s)
  | tick {k : Tick} : Elsewhere sys p s (sys.tick k s)

theorem Run.follows {shared : Shared} (h : Run sys (World.idle shared) past w) (p : Pid)
    (alive : List (Entry Op Ans) → Shared → Prop) (gone : Shared → Prop) (hstart : gone shared)
    (hbegin : ∀ s, gone s → alive [] s)
    (hstep : ∀ past op choice (a : Ans op) s s', alive past s →
      sys.exec p op choice s = some (a, s') → alive (⟨op, a⟩ :: past) s')
    (habort : ∀ past s, alive past s → gone (sys.abort p s))
    (hother : ∀ s s', Elsewhere sys p s s' →
      (gone s → gone s') ∧ ∀ past, alive past s → alive past s') :
    ((w.procs p).isSome → alive (heard sys p past) w.conf.shared) ∧
      (w.procs p = none → gone w.conf.shared) := by
  induction h with
  | nil => exact ⟨by simp [World.idle], fun _ => hstart⟩
  | @cons past w w' m hr hm ih =>
      obtain ⟨halive, hgone⟩ := ih
      cases m with
      | arrive q call =>
          have hheard : heard sys p ((w, .arrive q call) :: past) = heard sys p past :=
            heard_cons_other (by simp [World.answered])
          rw [hheard]
          simp only [World.move] at hm
          split at hm
          · simp at hm
          · rename_i hnew
            obtain rfl := Option.some.inj hm
            by_cases hpq : p = q
            · subst q
              have hobeyed : Obeyed sys fun _ =>
                  ⟨fun _ _ => True, fun _ _ => True, fun _ => True⟩ :=
                fun call => heeds_any _ (fun _ _ => trivial) fun _ _ => trivial
              obtain ⟨hnone, hproc⟩ := ((hr.kept hobeyed).1 p).unheard hnew
              refine ⟨fun _ => ?_, by simp [World.leave]⟩
              rw [hnone]
              exact hbegin _ (hgone hproc)
            · have hsame : (w.leave q (w.conf.arrive q call) (sys.code call)).procs p =
                  w.procs p := by simp [World.leave, Function.update_of_ne hpq]
              rw [hsame]
              exact ⟨halive, hgone⟩
      | step q choice =>
          obtain ⟨op, next, answer, s, hproc, hexec, rfl⟩ := World.step_cases hm
          have hans : w.answered sys (.step q choice) = some (q, ⟨op, answer⟩) :=
            World.answered_step hproc hexec
          by_cases hpq : p = q
          · subst q
            refine ⟨fun _ => ?_, by simp [World.leave]⟩
            rw [heard_cons_self hans]
            exact hstep _ _ _ _ _ _ (halive (by simp [hproc])) hexec
          · have hsame : (w.leave q (w.conf.withShared s) (next answer)).procs p =
                w.procs p := by simp [World.leave, Function.update_of_ne hpq]
            have hmoved := hother _ _ (.step (Ne.symm hpq) hexec)
            rw [hsame, heard_cons_other]
            · exact ⟨fun h => hmoved.2 _ (halive h), fun h => hmoved.1 (hgone h)⟩
            · intro e he
              rw [hans] at he
              exact hpq (Prod.mk.inj (Option.some.inj he)).1.symm
      | crash q =>
          have hheard : heard sys p ((w, .crash q) :: past) = heard sys p past :=
            heard_cons_other (by simp [World.answered])
          rw [hheard]
          simp only [World.move] at hm
          split at hm
          · simp at hm
          · rename_i code hproc
            obtain rfl := Option.some.inj hm
            by_cases hpq : p = q
            · subst q
              exact ⟨by simp, fun _ => habort _ _ (halive (by simp [hproc]))⟩
            · have hmoved := hother w.conf.shared _ (.crash (Ne.symm hpq))
              dsimp only
              rw [Function.update_of_ne hpq]
              exact ⟨fun h => hmoved.2 _ (halive h), fun h => hmoved.1 (hgone h)⟩
      | tick k =>
          have hheard : heard sys p ((w, .tick k) :: past) = heard sys p past :=
            heard_cons_other (by simp [World.answered])
          rw [hheard]
          obtain rfl := Option.some.inj hm
          have hmoved := hother w.conf.shared _ (.tick (k := k))
          exact ⟨fun h => hmoved.2 _ (halive h), fun h => hmoved.1 (hgone h)⟩

theorem Run.due {shared : Shared} (hobeyed : Obeyed sys rules)
    (h : Run sys (World.idle shared) past w) {call : Call} (hcall : w.conf.calls p = some call)
    (halive : (w.procs p).isSome) :
    (w.pending p = none → (rules call).ends (heard sys p past)) ∧
      ∀ op, w.pending p = some op → (rules call).asks (heard sys p past) op := by
  obtain ⟨m, hm⟩ := Option.isSome_iff_exists.1 halive
  have hheeds := ((h.kept hobeyed).1 p).code call m hcall hm
  rw [World.pending, hm]
  exact hheeds.pending

theorem Run.asks {shared : Shared} (hobeyed : Obeyed sys rules)
    (h : Run sys (World.idle shared) past w) {e : Entry Op Ans}
    (hans : w.answered sys m = some (p, e)) :
    ∃ call, w.conf.calls p = some call ∧ (rules call).asks (heard sys p past) e.op := by
  obtain ⟨choice, next, shared', rfl, hproc, hexec⟩ := World.answered_cases hans
  have hkept := (h.kept hobeyed).1 p
  cases hcall : w.conf.calls p with
  | none => simp [(hkept.unheard hcall).2] at hproc
  | some call => exact ⟨call, rfl, (hkept.code call _ hcall hproc).1⟩

theorem Run.asked {shared : Shared} (hobeyed : Obeyed sys rules)
    (h : Run sys (World.idle shared) past w) {call : Call}
    (hcall : w.conf.calls p = some call) :
    Throughout (fun before e => (rules call).asks before e.op) (heard sys p past) := by
  induction h with
  | nil => trivial
  | @cons past w w' m hr hm ih =>
      cases hbefore : w.conf.calls p with
      | none =>
          -- the call has just arrived
          have hnone : ∀ e, w.answered sys m ≠ some (p, e) := by
            intro e hans
            obtain ⟨call', hcall', -⟩ := hr.asks hobeyed hans
            simp [hbefore] at hcall'
          rw [heard_cons_other hnone, (((hr.kept hobeyed).1 p).unheard hbefore).1]
          trivial
      | some call' =>
          obtain rfl : call' = call :=
            Option.some.inj ((World.calls_mono hm hbefore).symm.trans hcall)
          by_cases hans : ∃ e, w.answered sys m = some (p, e)
          · obtain ⟨e, hans⟩ := hans
            obtain ⟨call'', hcall'', hasks⟩ := hr.asks hobeyed hans
            obtain rfl := Option.some.inj (hbefore.symm.trans hcall'')
            rw [heard_cons_self hans]
            exact ⟨hasks, ih hbefore⟩
          · rw [heard_cons_other fun e h => hans ⟨e, h⟩]
            exact ih hbefore

/-- An operation that a call asks for at most once is made at most once. -/
theorem Run.once {shared : Shared} (hobeyed : Obeyed sys rules)
    (h : Run sys (World.idle shared) past w) {call : Call} {P : Op → Prop}
    (hcall : w.conf.calls p = some call)
    (honce : ∀ before op, (rules call).asks before op → P op → ∀ e ∈ before, ¬P e.op)
    {e e' : Entry Op Ans} (hx : x :: before <:+ past) (hy : y :: before' <:+ past)
    (hxe : x.1.answered sys x.2 = some (p, e)) (hye : y.1.answered sys y.2 = some (p, e'))
    (hP : P e.op) (hP' : P e'.op) : x = y ∧ before = before' := by
  have hnot : ∀ {x y : Moment Pid Call Ev Exn Shared Choice Tick Op Ans} {before before'}
      {e e' : Entry Op Ans}, x :: before <:+ past → y :: before' <:+ before →
      x.1.answered sys x.2 = some (p, e) → y.1.answered sys y.2 = some (p, e') →
      P e.op → ¬P e'.op := by
    intro x y before before' e e' hx hy hxe hye hP
    have hcons : heard sys p (x :: before) = e :: heard sys p before := heard_cons_self hxe
    have hsuffix : e :: heard sys p before <:+ heard sys p past := hcons ▸ heard_suffix hx
    exact honce _ _ ((h.asked hobeyed hcall).at hsuffix) hP e' (heard_at hy hye)
  rcases moments_cases hx hy with hsame | hlater | hlater
  · exact hsame
  · exact absurd hP (hnot hy hlater hye hxe hP')
  · exact absurd hP' (hnot hx hlater hxe hye hP)

end Kept

end Runs

end Kori.Foundation
