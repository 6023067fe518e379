import Kori.Foundation.Interleaving

/-!
# Code that runs alone

An interpreter for code on which no other process has an influence.  The answers come
from a state of any type, so the same code can be run on a store, on a record of what the
outside world decides, or on both.
-/

namespace Kori.Foundation

structure Outcome (σ Ev Exn α : Type) where
  result : Except Exn α
  events : List Ev
  state : σ

namespace Code

variable {Op : Type} {Ans : Op → Type} {Ev Exn σ : Type} {α β : Type}

/-- Run the code to its end; `none` when an operation gets no answer. -/
def interpret (answer : (op : Op) → σ → Option (Ans op × σ)) :
    Code Op Ans Ev Exn α → σ → Option (Outcome σ Ev Exn α)
  | ret a, s => some ⟨.ok a, [], s⟩
  | raise e, s => some ⟨.error e, [], s⟩
  | report event rest, s =>
      (interpret answer rest s).map fun o => { o with events := event :: o.events }
  | request op next, s => (answer op s).bind fun r => interpret answer (next r.1) r.2

variable {answer : (op : Op) → σ → Option (Ans op × σ)} {s s' : σ} {a : α} {e : Exn}
variable {m : Code Op Ans Ev Exn α} {next : α → Code Op Ans Ev Exn β}
variable {handler : Exn → Code Op Ans Ev Exn α}

@[simp] theorem interpret_pure : interpret answer (pure a : Code Op Ans Ev Exn α) s =
    some ⟨.ok a, [], s⟩ := rfl

@[simp] theorem interpret_throw : interpret answer (throw e : Code Op Ans Ev Exn α) s =
    some ⟨.error e, [], s⟩ := rfl

@[simp] theorem interpret_tell {event : Ev} :
    interpret answer (tell event : Code Op Ans Ev Exn Unit) s = some ⟨.ok (), [event], s⟩ := rfl

@[simp] theorem interpret_ask {op : Op} :
    interpret answer (ask op : Code Op Ans Ev Exn (Ans op)) s =
      (answer op s).map fun r => ⟨.ok r.1, [], r.2⟩ := by
  simp only [interpret, ask]
  cases answer op s <;> rfl

theorem interpret_throwIf {condition : Prop} [Decidable condition] :
    interpret answer (throwIf condition e : Code Op Ans Ev Exn Unit) s =
      some ⟨if condition then .error e else .ok (), [], s⟩ := by
  unfold throwIf
  split <;> rfl

/-! ## Composition -/

def after (events : List Ev) (o : Outcome σ Ev Exn α) : Outcome σ Ev Exn α :=
  { o with events := events ++ o.events }

@[simp] theorem map_after_nil (o : Option (Outcome σ Ev Exn α)) : o.map (after []) = o := by
  cases o <;> rfl

def proceed (next : α → σ → Option (Outcome σ Ev Exn β)) (o : Outcome σ Ev Exn α) :
    Option (Outcome σ Ev Exn β) :=
  match o.result with
  | .ok a => (next a o.state).map (after o.events)
  | .error e => some ⟨.error e, o.events, o.state⟩

def recover (handler : Exn → σ → Option (Outcome σ Ev Exn α)) (o : Outcome σ Ev Exn α) :
    Option (Outcome σ Ev Exn α) :=
  match o.result with
  | .ok _ => some o
  | .error e => (handler e o.state).map (after o.events)

theorem interpret_bind : interpret answer (m >>= next) s =
    (interpret answer m s).bind (proceed fun a => interpret answer (next a)) := by
  induction m generalizing s with
  | ret a => exact (map_after_nil _).symm
  | raise e => rfl
  | report event rest ih =>
      change (interpret answer (rest >>= next) s).map _ = _
      rw [ih, interpret, Option.map_bind, Option.bind_map]
      congr 1
      funext o
      simp only [Function.comp_apply, proceed]
      split
      · rw [Option.map_map]
        rfl
      · rfl
  | request op rest ih =>
      change ((answer op s).bind fun r => interpret answer (rest r.1 >>= next) r.2) = _
      rw [interpret, Option.bind_assoc]
      congr 1
      funext r
      exact ih r.1

theorem interpret_tryCatch : interpret answer (tryCatch m handler) s =
    (interpret answer m s).bind (recover fun e => interpret answer (handler e)) := by
  induction m generalizing s with
  | ret a => rfl
  | raise e => exact (map_after_nil _).symm
  | report event rest ih =>
      change (interpret answer (tryCatch rest handler) s).map _ = _
      rw [ih, interpret, Option.map_bind, Option.bind_map]
      congr 1
      funext o
      simp only [Function.comp_apply, recover]
      split
      · rfl
      · rw [Option.map_map]
        rfl
  | request op rest ih =>
      change ((answer op s).bind fun r =>
        interpret answer (tryCatch (rest r.1) handler) r.2) = _
      rw [interpret, Option.bind_assoc]
      congr 1
      funext r
      exact ih r.1

variable {events : List Ev}

theorem interpret_bind_ok (h : interpret answer m s = some ⟨.ok a, events, s'⟩) :
    interpret answer (m >>= next) s = (interpret answer (next a) s').map (after events) := by
  rw [interpret_bind, h]
  rfl

theorem interpret_bind_silent (h : interpret answer m s = some ⟨.ok a, [], s'⟩) :
    interpret answer (m >>= next) s = interpret answer (next a) s' := by
  rw [interpret_bind_ok h, map_after_nil]

theorem interpret_bind_error (h : interpret answer m s = some ⟨.error e, events, s'⟩) :
    interpret answer (m >>= next) s = some ⟨.error e, events, s'⟩ := by
  rw [interpret_bind, h]
  rfl

theorem interpret_tryCatch_error (h : interpret answer m s = some ⟨.error e, events, s'⟩) :
    interpret answer (tryCatch m handler) s =
      (interpret answer (handler e) s').map (after events) := by
  rw [interpret_tryCatch, h]
  rfl

/-! ## Every outcome -/

def Meets (Q : α → σ → Prop) (E : Exn → σ → Prop) (o : Outcome σ Ev Exn α) : Prop :=
  match o.result with
  | .ok a => Q a o.state
  | .error e => E e o.state

/-- Whatever the answers are, the code ends in `Q`, or with an exception in `E`. -/
def Ends (answer : (op : Op) → σ → Option (Ans op × σ)) (m : Code Op Ans Ev Exn α) (s : σ)
    (Q : α → σ → Prop) (E : Exn → σ → Prop) : Prop :=
  ∀ o, interpret answer m s = some o → Meets Q E o

variable {Q : α → σ → Prop} {R : β → σ → Prop} {E F : Exn → σ → Prop}

theorem Meets.imp {o : Outcome σ Ev Exn α} (h : Meets Q E o) {Q' : α → σ → Prop}
    {E' : Exn → σ → Prop} (hQ : ∀ a s, Q a s → Q' a s) (hE : ∀ e s, E e s → E' e s) :
    Meets Q' E' o := by
  obtain ⟨result, events, s⟩ := o
  cases result with
  | ok a => exact hQ a s h
  | error e => exact hE e s h

theorem Ends.imp (h : Ends answer m s Q E) {Q' : α → σ → Prop} {E' : Exn → σ → Prop}
    (hQ : ∀ a s', Q a s' → Q' a s') (hE : ∀ e s', E e s' → E' e s') :
    Ends answer m s Q' E' :=
  fun o ho => (h o ho).imp hQ hE

theorem ends_pure (h : Q a s) : Ends answer (pure a : Code Op Ans Ev Exn α) s Q E := by
  rintro o ho
  obtain rfl := Option.some.inj ho
  exact h

theorem ends_throw (h : E e s) : Ends answer (throw e : Code Op Ans Ev Exn α) s Q E := by
  rintro o ho
  obtain rfl := Option.some.inj ho
  exact h

theorem ends_ask {op : Op} {Q : Ans op → σ → Prop}
    (h : ∀ a s', answer op s = some (a, s') → Q a s') :
    Ends answer (ask op : Code Op Ans Ev Exn (Ans op)) s Q E := by
  intro o ho
  rw [interpret_ask] at ho
  obtain ⟨r, hanswer, rfl⟩ := Option.map_eq_some_iff.1 ho
  exact h r.1 r.2 hanswer

theorem Ends.bind (h : Ends answer m s Q E)
    (hnext : ∀ a s', Q a s' → Ends answer (next a) s' R E) :
    Ends answer (m >>= next) s R E := by
  intro o ho
  rw [interpret_bind] at ho
  obtain ⟨⟨result, events, s'⟩, hm, ho⟩ := Option.bind_eq_some_iff.1 ho
  have hmeets := h _ hm
  cases result with
  | ok a =>
      obtain ⟨o', hrest, rfl⟩ := Option.map_eq_some_iff.1 ho
      exact hnext a s' hmeets o' hrest
  | error e =>
      obtain rfl := Option.some.inj ho
      exact hmeets

theorem ends_request {op : Op} {next : Ans op → Code Op Ans Ev Exn β}
    (h : ∀ a s', answer op s = some (a, s') → Ends answer (next a) s' R E) :
    Ends answer (ask op >>= next) s R E :=
  (ends_ask (Q := fun a s' => answer op s = some (a, s')) fun _ _ h => h).bind h

theorem Ends.tryCatch (h : Ends answer m s Q F)
    (hhandler : ∀ e s', F e s' → Ends answer (handler e) s' Q E) :
    Ends answer (tryCatch m handler) s Q E := by
  intro o ho
  rw [interpret_tryCatch] at ho
  obtain ⟨⟨result, events, s'⟩, hm, ho⟩ := Option.bind_eq_some_iff.1 ho
  have hmeets := h _ hm
  cases result with
  | ok a =>
      obtain rfl := Option.some.inj ho
      exact hmeets
  | error e =>
      obtain ⟨o', hrest, rfl⟩ := Option.map_eq_some_iff.1 ho
      exact hhandler e s' hmeets o' hrest

/-! ## Invariants -/

/-- As long as `I` holds, every operation keeps it; the code ends in `A`, or with an
exception in `X`. -/
def Keeps (answer : (op : Op) → σ → Option (Ans op × σ)) (I : σ → Prop) (A : α → Prop)
    (X : Exn → Prop) : Code Op Ans Ev Exn α → Prop
  | ret a => A a
  | raise e => X e
  | report _ rest => rest.Keeps answer I A X
  | request op next => ∀ s a s', I s → answer op s = some (a, s') →
      I s' ∧ (next a).Keeps answer I A X

variable {I : σ → Prop} {A : α → Prop} {B : β → Prop} {X Y : Exn → Prop}

theorem Keeps.ends (h : m.Keeps answer I A X) (hs : I s) :
    Ends answer m s (fun a s' => A a ∧ I s') (fun e s' => X e ∧ I s') := by
  induction m generalizing s with
  | ret a => exact ends_pure ⟨h, hs⟩
  | raise e => exact ends_throw ⟨h, hs⟩
  | report event rest ih =>
      intro o ho
      obtain ⟨o', hrest, rfl⟩ := Option.map_eq_some_iff.1 ho
      exact ih h hs o' hrest
  | request op rest ih =>
      intro o ho
      obtain ⟨r, hanswer, hrest⟩ := Option.bind_eq_some_iff.1 ho
      obtain ⟨hs', hnext⟩ := h s r.1 r.2 hs hanswer
      exact ih r.1 hnext hs' o hrest

theorem keeps_pure (h : A a) : (pure a : Code Op Ans Ev Exn α).Keeps answer I A X := h

theorem keeps_throw (h : X e) : (throw e : Code Op Ans Ev Exn α).Keeps answer I A X := h

theorem keeps_ask {op : Op} {A : Ans op → Prop}
    (h : ∀ s a s', I s → answer op s = some (a, s') → I s' ∧ A a) :
    (ask op : Code Op Ans Ev Exn (Ans op)).Keeps answer I A X := h

theorem Keeps.bind (h : m.Keeps answer I A X)
    (hnext : ∀ a, A a → (next a).Keeps answer I B X) : (m >>= next).Keeps answer I B X := by
  induction m with
  | ret a => exact hnext a h
  | raise e => exact h
  | report event rest ih => exact ih h
  | request op rest ih =>
      intro s a s' hs hanswer
      obtain ⟨hs', hrest⟩ := h s a s' hs hanswer
      exact ⟨hs', ih a hrest⟩

theorem keeps_forEach {body : α → Code Op Ans Ev Exn Unit} {as : List α}
    (h : ∀ a, (body a).Keeps answer I (fun _ => True) X) :
    (forEach body as).Keeps answer I (fun _ => True) X := by
  induction as with
  | nil => trivial
  | cons a as ih => exact (h a).bind fun _ _ => ih

theorem Keeps.both {schedule : Op} {first : Ans schedule → Bool}
    {n : Code Op Ans Ev Exn β}
    (hschedule : ∀ s a s', I s → answer schedule s = some (a, s') → I s')
    (hm : m.Keeps answer I A X) (hn : n.Keeps answer I B X) :
    (Code.both schedule first m n).Keeps answer I (fun r => A r.1 ∧ B r.2) X := by
  induction m generalizing n with
  | ret a => exact Keeps.bind hn fun b hb => keeps_pure ⟨hm, hb⟩
  | raise e => exact hm
  | report event rest ih => exact ih hm hn
  | request op left ihm =>
      -- the left operation stays pending while the right code moves on
      change (bothFrom schedule first op left _ n).Keeps answer I _ X
      induction n with
      | ret b =>
          intro s a s' hs hanswer
          obtain ⟨hs', hleft⟩ := hm s a s' hs hanswer
          exact ⟨hs', Keeps.bind hleft fun a ha => keeps_pure ⟨ha, hn⟩⟩
      | raise e => exact hn
      | report event rest ih => exact ih hn
      | request op' right ihn =>
          intro s turn s' hs hanswer
          refine ⟨hschedule s turn s' hs hanswer, ?_⟩
          dsimp only
          split
          · intro s a s' hs hanswer
            obtain ⟨hs', hleft⟩ := hm s a s' hs hanswer
            exact ⟨hs', ihm a hleft hn⟩
          · intro s b s' hs hanswer
            obtain ⟨hs', hright⟩ := hn s b s' hs hanswer
            exact ⟨hs', ihn b hright⟩

end Code

end Kori.Foundation
