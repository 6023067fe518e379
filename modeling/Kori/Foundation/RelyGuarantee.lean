import Mathlib.Order.Defs.Unbundled
import Kori.Foundation.Interleaving

/-!
# Rely and guarantee

Each process keeps a guarantee with every step it takes, provided that the
others keep to what it relies on.  `Obeys` is the judgement for code that does
not report: it speaks about the state the code is in.  `Leads` also relates the
states in which such code ends to the state it starts in.  A report is made
together with the step before it, so the judgement `Settles` for code that
reports remembers the state before that step.

`Contract.sound` turns the obligations of every call's code into a statement
about every move of every run, and `Contract.follow` adds what is proved about
one process in particular.
-/

namespace Kori.Foundation

/-- The shared vocabulary of a rely-guarantee argument. -/
structure Terms (Pid Call Ev Shared Choice Op : Type) where
  /-- Holds of every state. -/
  Inv : Conf Pid Call Ev Shared → Prop
  /-- What a process may expect of the moves of all others together. -/
  Rely : Pid → Conf Pid Call Ev Shared → Conf Pid Call Ev Shared → Prop
  /-- What each move of a process itself satisfies. -/
  Guar : Pid → Conf Pid Call Ev Shared → Conf Pid Call Ev Shared → Prop
  /-- What a process may assume of the moment and the outcome of its operations. -/
  Meets : Pid → Op → Choice → Conf Pid Call Ev Shared → Prop
  rely_refl : ∀ p c, Rely p c c
  rely_trans : ∀ {p c c' c''}, Rely p c c' → Rely p c' c'' → Rely p c c''

namespace Terms

variable {Pid Call Ev Exn Shared Choice Tick Op : Type} {Ans : Op → Type}

def Stable (t : Terms Pid Call Ev Shared Choice Op) (p : Pid)
    (K : Conf Pid Call Ev Shared → Prop) : Prop :=
  ∀ c c', t.Rely p c c' → K c → K c'

/-- A step of `p` that keeps the guarantee and has not been reported on yet. -/
def Silent (t : Terms Pid Call Ev Shared Choice Op) (p : Pid)
    (c c' : Conf Pid Call Ev Shared) : Prop :=
  t.Guar p c c' ∧ c'.out = c.out

def quiet (t : Terms Pid Call Ev Shared Choice Op) :
    Terms Pid Call Ev Shared Choice Op :=
  { t with Guar := fun p c c' => t.Guar p c c' ∧ t.Rely p c c' }

end Terms

section Judgements

variable {Pid Call Ev Exn Shared Choice Tick Op : Type} {Ans : Op → Type}
variable {α β : Type}
variable (sys : System Pid Call Ev Exn Shared Choice Tick Op Ans)
variable (t : Terms Pid Call Ev Shared Choice Op) (p : Pid)

/-- From state `c` the code keeps the guarantee, reports nothing and ends in `Q`
or, with an exception, in `E`. -/
def Obeys : Code Op Ans Ev Exn α → (α → Conf Pid Call Ev Shared → Prop) →
    (Exn → Conf Pid Call Ev Shared → Prop) → Conf Pid Call Ev Shared → Prop
  | .ret a, Q, _, c => Q a c
  | .raise e, _, E, c => E e c
  | .report _ _, _, _, _ => False
  | .request op next, Q, E, c =>
      ∀ c₁, t.Rely p c c₁ → t.Inv c₁ → ∀ choice answer shared,
        t.Meets p op choice c₁ →
        sys.exec p op choice c₁.shared = some (answer, shared) →
          t.Guar p c₁ (c₁.withShared shared) ∧
            Obeys (next answer) Q E (c₁.withShared shared)

/-- After a step from `c` to `c'` the code keeps the guarantee, that step and
its reports included, and ends in `Q` or, with an exception, in `E`. -/
def Settles : Code Op Ans Ev Exn α →
    (α → Conf Pid Call Ev Shared → Conf Pid Call Ev Shared → Prop) →
    (Exn → Conf Pid Call Ev Shared → Conf Pid Call Ev Shared → Prop) →
    Conf Pid Call Ev Shared → Conf Pid Call Ev Shared → Prop
  | .ret a, Q, _, c, c' => Q a c c'
  | .raise e, _, E, c, c' => E e c c'
  | .report event rest, Q, E, c, c' => Settles rest Q E c (c'.tell p [event])
  | .request op next, Q, E, c, c' =>
      t.Guar p c c' ∧ ∀ c₁, t.Rely p c' c₁ → t.Inv c₁ →
        ∀ choice answer shared, t.Meets p op choice c₁ →
        sys.exec p op choice c₁.shared = some (answer, shared) →
          Settles (next answer) Q E c₁ (c₁.withShared shared)

/-- The code that a process is left with between two of its moves. -/
def Safe : Code Op Ans Ev Exn Unit → Conf Pid Call Ev Shared → Prop
  | .request op next, c =>
      ∀ c₁, t.Rely p c c₁ → t.Inv c₁ → ∀ choice answer shared,
        t.Meets p op choice c₁ →
        sys.exec p op choice c₁.shared = some (answer, shared) →
          Settles sys t p (next answer) (fun _ => t.Guar p) (fun _ => t.Guar p)
            c₁ (c₁.withShared shared)
  | _, _ => True

variable {sys t p}
variable {Q Q' : α → Conf Pid Call Ev Shared → Prop}
variable {E E' : Exn → Conf Pid Call Ev Shared → Prop}
variable {c c' : Conf Pid Call Ev Shared}

/-! ## Code that does not report -/

@[simp] theorem obeys_pure (a : α) :
    Obeys sys t p (pure a : Code Op Ans Ev Exn α) Q E c ↔ Q a c := Iff.rfl

@[simp] theorem obeys_throw (e : Exn) :
    Obeys sys t p (throw e : Code Op Ans Ev Exn α) Q E c ↔ E e c := Iff.rfl

theorem Obeys.imp {m : Code Op Ans Ev Exn α} (h : Obeys sys t p m Q E c)
    (hQ : ∀ a c, Q a c → Q' a c) (hE : ∀ e c, E e c → E' e c) :
    Obeys sys t p m Q' E' c := by
  induction m generalizing c with
  | ret a => exact hQ a c h
  | raise e => exact hE e c h
  | report event rest ih => exact h.elim
  | request op next ih =>
      intro c₁ hrely hinv choice answer shared hmeets hexec
      obtain ⟨hguar, hnext⟩ := h c₁ hrely hinv choice answer shared hmeets hexec
      exact ⟨hguar, ih answer hnext⟩

theorem Obeys.terms {t' : Terms Pid Call Ev Shared Choice Op}
    {m : Code Op Ans Ev Exn α} (h : Obeys sys t p m Q E c)
    (hInv : ∀ c, t'.Inv c → t.Inv c)
    (hRely : ∀ c c', t'.Rely p c c' → t.Rely p c c')
    (hGuar : ∀ c c', t.Guar p c c' → t'.Guar p c c')
    (hMeets : ∀ op choice c, t'.Meets p op choice c → t.Meets p op choice c) :
    Obeys sys t' p m Q E c := by
  induction m generalizing c with
  | ret a => exact h
  | raise e => exact h
  | report event rest ih => exact h.elim
  | request op next ih =>
      intro c₁ hrely hinv choice answer shared hmeets hexec
      obtain ⟨hguar, hnext⟩ := h c₁ (hRely _ _ hrely) (hInv _ hinv) choice answer
        shared (hMeets _ _ _ hmeets) hexec
      exact ⟨hGuar _ _ hguar, ih answer hnext⟩

theorem Obeys.of_quiet {m : Code Op Ans Ev Exn α}
    (h : Obeys sys t.quiet p m Q E c) : Obeys sys t p m Q E c :=
  h.terms (fun _ h => h) (fun _ _ h => h) (fun _ _ h => h.1) (fun _ _ _ h => h)

theorem obeys_bind {m : Code Op Ans Ev Exn β} {next : β → Code Op Ans Ev Exn α} :
    Obeys sys t p (m >>= next) Q E c ↔
      Obeys sys t p m (fun b => Obeys sys t p (next b) Q E) E c := by
  induction m generalizing c with
  | ret b => exact Iff.rfl
  | raise e => exact Iff.rfl
  | report event rest ih => exact Iff.rfl
  | request op answer ih =>
      constructor
      · intro h c₁ hrely hinv choice a shared hmeets hexec
        obtain ⟨hguar, hnext⟩ := h c₁ hrely hinv choice a shared hmeets hexec
        exact ⟨hguar, (ih a).1 hnext⟩
      · intro h c₁ hrely hinv choice a shared hmeets hexec
        obtain ⟨hguar, hnext⟩ := h c₁ hrely hinv choice a shared hmeets hexec
        exact ⟨hguar, (ih a).2 hnext⟩

theorem obeys_tryCatch {m : Code Op Ans Ev Exn α}
    {handler : Exn → Code Op Ans Ev Exn α} :
    Obeys sys t p (tryCatch m handler) Q E c ↔
      Obeys sys t p m Q (fun e => Obeys sys t p (handler e) Q E) c := by
  induction m generalizing c with
  | ret b => exact Iff.rfl
  | raise e => exact Iff.rfl
  | report event rest ih => exact Iff.rfl
  | request op answer ih =>
      constructor
      · intro h c₁ hrely hinv choice a shared hmeets hexec
        obtain ⟨hguar, hnext⟩ := h c₁ hrely hinv choice a shared hmeets hexec
        exact ⟨hguar, (ih a).1 hnext⟩
      · intro h c₁ hrely hinv choice a shared hmeets hexec
        obtain ⟨hguar, hnext⟩ := h c₁ hrely hinv choice a shared hmeets hexec
        exact ⟨hguar, (ih a).2 hnext⟩

/-- What holds across all quiet steps may be carried through quiet code. -/
theorem Obeys.frame {m : Code Op Ans Ev Exn α} {K : Conf Pid Call Ev Shared → Prop}
    (h : Obeys sys t.quiet p m Q E c) (hstable : t.Stable p K) (hK : K c) :
    Obeys sys t.quiet p m (fun a c => Q a c ∧ K c) (fun e c => E e c ∧ K c) c := by
  induction m generalizing c with
  | ret a => exact ⟨h, hK⟩
  | raise e => exact ⟨h, hK⟩
  | report event rest ih => exact h.elim
  | request op next ih =>
      intro c₁ hrely hinv choice answer shared hmeets hexec
      obtain ⟨hguar, hnext⟩ := h c₁ hrely hinv choice answer shared hmeets hexec
      exact ⟨hguar, ih answer hnext
        (hstable _ _ hguar.2 (hstable _ _ hrely hK))⟩

theorem Obeys.rely {m : Code Op Ans Ev Exn α} (h : Obeys sys t p m Q E c)
    (hQ : ∀ a, t.Stable p (Q a)) (hE : ∀ e, t.Stable p (E e))
    (hrely : t.Rely p c c') : Obeys sys t p m Q E c' := by
  cases m with
  | ret a => exact hQ a _ _ hrely h
  | raise e => exact hE e _ _ hrely h
  | report event rest => exact h.elim
  | request op next => exact fun c₁ hrely₁ => h c₁ (t.rely_trans hrely hrely₁)

/-- Two pieces of quiet code run at once do not disturb each other. -/
theorem obeys_both {schedule : Op} {first : Ans schedule → Bool}
    {m : Code Op Ans Ev Exn α} {n : Code Op Ans Ev Exn β}
    {R : β → Conf Pid Call Ev Shared → Prop} {K : Conf Pid Call Ev Shared → Prop}
    (hschedule : ∀ c choice answer shared, K c → t.Inv c →
      sys.exec p schedule choice c.shared = some (answer, shared) →
        t.Guar p c (c.withShared shared) ∧ t.Rely p c (c.withShared shared))
    (hm : Obeys sys t.quiet p m Q E c) (hn : Obeys sys t.quiet p n R E c) (hK : K c)
    (hQ : ∀ a, t.Stable p (Q a)) (hR : ∀ b, t.Stable p (R b))
    (hE : ∀ e, t.Stable p (E e)) (hstable : t.Stable p K) :
    Obeys sys t.quiet p (Code.both schedule first m n)
      (fun result c => Q result.1 c ∧ R result.2 c) E c := by
  induction m generalizing c n with
  | ret a =>
      exact obeys_bind.2 ((hn.frame (hQ a) hm).imp
        (fun b c h => (⟨h.2, h.1⟩ : Q a c ∧ R b c)) (fun _ _ h => h.1))
  | raise e => exact hm
  | report event rest ih => exact hm.elim
  | request op left ihm =>
      have hleft : ∀ {n : Code Op Ans Ev Exn β} {c},
          Obeys sys t.quiet p (.request op left) Q E c →
          Obeys sys t.quiet p n R E c → K c →
          Obeys sys t.quiet p (Code.bothFrom schedule first op left
            (fun a => Code.both schedule first (left a)) n)
            (fun result c => Q result.1 c ∧ R result.2 c) E c := by
        intro n
        induction n with
        | ret b =>
            intro c hm hn _
            exact obeys_bind.2 ((hm.frame (hR b) hn).imp
              (fun a c h => (h : Q a c ∧ R b c)) (fun _ _ h => h.1))
        | raise e => exact fun hm hn _ => hn
        | report event rest ih => exact fun hm hn _ => hn.elim
        | request op' right ihn =>
            intro c hm hn hK c₁ hrely hinv choice turn shared hmeets hexec
            have hK₁ := hstable _ _ hrely hK
            have hquiet := hschedule c₁ choice turn shared hK₁ hinv hexec
            have hrely' := t.rely_trans hrely hquiet.2
            refine ⟨hquiet, ?_⟩
            have hm' := Obeys.rely hm hQ hE hrely'
            have hn' := Obeys.rely hn hR hE hrely'
            have hK' := hstable _ _ hrely' hK
            dsimp only
            split
            · intro c₂ hrely₂ hinv₂ choice₂ a shared₂ hmeets₂ hexec₂
              obtain ⟨hguar, hnext⟩ := hm' c₂ hrely₂ hinv₂ choice₂ a shared₂ hmeets₂ hexec₂
              have hrely₃ := t.rely_trans hrely₂ hguar.2
              exact ⟨hguar, ihm a hnext (Obeys.rely hn' hR hE hrely₃)
                (hstable _ _ hrely₃ hK')⟩
            · intro c₂ hrely₂ hinv₂ choice₂ b shared₂ hmeets₂ hexec₂
              obtain ⟨hguar, hnext⟩ := hn' c₂ hrely₂ hinv₂ choice₂ b shared₂ hmeets₂ hexec₂
              have hrely₃ := t.rely_trans hrely₂ hguar.2
              exact ⟨hguar, ihn b (Obeys.rely hm' hQ hE hrely₃) hnext
                (hstable _ _ hrely₃ hK')⟩
      exact hleft hm hn hK

/-! ## Code between two related states -/

section Related

variable (L : Conf Pid Call Ev Shared → Conf Pid Call Ev Shared → Prop)

variable (sys t p) in
/-- The code obeys the terms, and `L` relates `c` to every state it ends in. -/
def Leads (m : Code Op Ans Ev Exn α) (Q : α → Conf Pid Call Ev Shared → Prop)
    (E : Exn → Conf Pid Call Ev Shared → Prop) (c : Conf Pid Call Ev Shared) : Prop :=
  Obeys sys t p m (fun a c' => L c c' ∧ Q a c') (fun e c' => L c c' ∧ E e c') c

variable {L}

theorem Leads.imp {m : Code Op Ans Ev Exn α} (h : Leads sys t p L m Q E c)
    (hQ : ∀ a c', L c c' → Q a c' → Q' a c') (hE : ∀ e c', L c c' → E e c' → E' e c') :
    Leads sys t p L m Q' E' c :=
  Obeys.imp h (fun a c' h => ⟨h.1, hQ a c' h.1 h.2⟩) fun e c' h => ⟨h.1, hE e c' h.1 h.2⟩

theorem Leads.of_quiet {m : Code Op Ans Ev Exn α}
    (h : Leads sys t.quiet p (t.Rely p) m Q E c)
    (hL : ∀ c', t.Rely p c c' → L c c') : Leads sys t p L m Q E c :=
  (Obeys.of_quiet h).imp (fun _ c' h => ⟨hL c' h.1, h.2⟩) fun _ c' h => ⟨hL c' h.1, h.2⟩

theorem leads_ask {op : Op} {Q : Ans op → Conf Pid Call Ev Shared → Prop}
    (h : ∀ c₁, t.Rely p c c₁ → t.Inv c₁ → ∀ choice answer shared,
      t.Meets p op choice c₁ → sys.exec p op choice c₁.shared = some (answer, shared) →
        t.Guar p c₁ (c₁.withShared shared) ∧ L c (c₁.withShared shared) ∧
          Q answer (c₁.withShared shared)) :
    Leads sys t p L (Code.ask op : Code Op Ans Ev Exn (Ans op)) Q E c :=
  h

variable [IsPreorder (Conf Pid Call Ev Shared) L]

theorem leads_pure {a : α} (h : Q a c) :
    Leads sys t p L (pure a : Code Op Ans Ev Exn α) Q E c :=
  ⟨Std.Refl.refl c, h⟩

theorem leads_throw {e : Exn} (h : E e c) :
    Leads sys t p L (throw e : Code Op Ans Ev Exn α) Q E c :=
  ⟨Std.Refl.refl c, h⟩

theorem Leads.bind {m : Code Op Ans Ev Exn β} {next : β → Code Op Ans Ev Exn α}
    {R : β → Conf Pid Call Ev Shared → Prop} (h : Leads sys t p L m R E c)
    (hnext : ∀ b c', L c c' → R b c' → Leads sys t p L (next b) Q E c') :
    Leads sys t p L (m >>= next) Q E c := by
  refine obeys_bind.2 (Obeys.imp h ?_ fun _ _ h => h)
  intro b c' h
  exact Obeys.imp (hnext b c' h.1 h.2)
    (fun _ c'' h' => ⟨IsTrans.trans _ _ _ h.1 h'.1, h'.2⟩)
    fun _ c'' h' => ⟨IsTrans.trans _ _ _ h.1 h'.1, h'.2⟩

theorem Leads.tryCatch {m : Code Op Ans Ev Exn α}
    {handler : Exn → Code Op Ans Ev Exn α} (h : Leads sys t p L m Q E c)
    (hcatch : ∀ e c', L c c' → E e c' → Leads sys t p L (handler e) Q E' c') :
    Leads sys t p L (tryCatch m handler) Q E' c := by
  refine obeys_tryCatch.2 (Obeys.imp h (fun _ _ h => h) ?_)
  intro e c' h
  exact Obeys.imp (hcatch e c' h.1 h.2)
    (fun _ c'' h' => ⟨IsTrans.trans _ _ _ h.1 h'.1, h'.2⟩)
    fun _ c'' h' => ⟨IsTrans.trans _ _ _ h.1 h'.1, h'.2⟩

theorem leads_throwIf {condition : Prop} [Decidable condition] {e : Exn}
    {Q : Unit → Conf Pid Call Ev Shared → Prop}
    (hthrow : condition → E e c) (hpass : ¬condition → Q () c) :
    Leads sys t p L (Code.throwIf condition e : Code Op Ans Ev Exn Unit) Q E c := by
  unfold Code.throwIf
  split
  · rename_i h
    exact leads_throw (hthrow h)
  · rename_i h
    exact leads_pure (hpass h)

theorem leads_throwIf_bind {condition : Prop} [Decidable condition] {e : Exn}
    {next : Unit → Code Op Ans Ev Exn α} (hthrow : condition → E e c)
    (hpass : ¬condition → Leads sys t p L (next ()) Q E c) :
    Leads sys t p L (Code.throwIf condition e >>= next) Q E c := by
  unfold Code.throwIf
  split
  · rename_i h
    exact leads_throw (hthrow h)
  · rename_i h
    exact hpass h

theorem leads_forEach {body : β → Code Op Ans Ev Exn Unit} {bs : List β}
    {K : List β → Conf Pid Call Ev Shared → Prop}
    (hbody : ∀ b rest c', L c c' → K (b :: rest) c' →
      Leads sys t p L (body b) (fun _ => K rest) E c') (hK : K bs c) :
    Leads sys t p L (Code.forEach body bs) (fun _ => K []) E c := by
  induction bs generalizing c with
  | nil => exact leads_pure hK
  | cons b rest ih =>
      refine (hbody b rest c (Std.Refl.refl c) hK).bind fun _ c' hL h => ih ?_ h
      exact fun b' rest' c'' hL' => hbody b' rest' c'' (IsTrans.trans _ _ _ hL hL')

theorem leads_only {P : Op → Prop} {m : Code Op Ans Ev Exn α} (hm : m.Only P)
    (hrely : ∀ c₁ c₂, t.Rely p c₁ c₂ → L c₁ c₂)
    (h : ∀ op c₁ choice answer shared, P op → L c c₁ → t.Inv c₁ →
      sys.exec p op choice c₁.shared = some (answer, shared) →
        t.Guar p c₁ (c₁.withShared shared) ∧ L c₁ (c₁.withShared shared)) :
    Leads sys t p L m (fun _ _ => True) (fun _ _ => True) c := by
  suffices hleads : ∀ c', L c c' →
      Obeys sys t p m (fun _ c'' => L c c'' ∧ True) (fun _ c'' => L c c'' ∧ True) c' from
    hleads c (Std.Refl.refl c)
  induction m with
  | ret a => exact fun c' hc => ⟨hc, trivial⟩
  | raise e => exact fun c' hc => ⟨hc, trivial⟩
  | report event rest ih => exact hm.elim
  | request op next ih =>
      intro c' hc c₁ hrely₁ hinv choice answer shared _ hexec
      have hc₁ := IsTrans.trans _ _ _ hc (hrely _ _ hrely₁)
      obtain ⟨hguar, hstep⟩ := h op c₁ choice answer shared hm.1 hc₁ hinv hexec
      exact ⟨hguar, ih answer (hm.2 answer) _ (IsTrans.trans _ _ _ hc₁ hstep)⟩

end Related

theorem leads_both {schedule : Op} {first : Ans schedule → Bool}
    {m : Code Op Ans Ev Exn α} {n : Code Op Ans Ev Exn β}
    {R : β → Conf Pid Call Ev Shared → Prop}
    (hschedule : ∀ c₁ choice answer shared, t.Rely p c c₁ → t.Inv c₁ →
      sys.exec p schedule choice c₁.shared = some (answer, shared) →
        t.Guar p c₁ (c₁.withShared shared) ∧ t.Rely p c₁ (c₁.withShared shared))
    (hm : Leads sys t.quiet p (t.Rely p) m Q E c)
    (hn : Leads sys t.quiet p (t.Rely p) n R E c)
    (hQ : ∀ a, t.Stable p (Q a)) (hR : ∀ b, t.Stable p (R b))
    (hE : ∀ e, t.Stable p (E e)) :
    Leads sys t.quiet p (t.Rely p) (Code.both schedule first m n)
      (fun result c' => Q result.1 c' ∧ R result.2 c') E c := by
  have hL : t.Stable p (fun c' => t.Rely p c c') := fun c₁ c₂ h h₁ => t.rely_trans h₁ h
  refine Obeys.imp (obeys_both hschedule hm hn (t.rely_refl p c) ?_ ?_ ?_ hL)
    (fun _ _ h => ⟨h.1.1, h.1.2, h.2.2⟩) (fun _ _ h => h)
  · exact fun a c₁ c₂ h h₁ => ⟨hL c₁ c₂ h h₁.1, hQ a c₁ c₂ h h₁.2⟩
  · exact fun b c₁ c₂ h h₁ => ⟨hL c₁ c₂ h h₁.1, hR b c₁ c₂ h h₁.2⟩
  · exact fun e c₁ c₂ h h₁ => ⟨hL c₁ c₂ h h₁.1, hE e c₁ c₂ h h₁.2⟩

/-! ## Code that reports -/

section Reporting

variable {P P' : α → Conf Pid Call Ev Shared → Conf Pid Call Ev Shared → Prop}
variable {X X' : Exn → Conf Pid Call Ev Shared → Conf Pid Call Ev Shared → Prop}

@[simp] theorem settles_pure (a : α) :
    Settles sys t p (pure a : Code Op Ans Ev Exn α) P X c c' ↔ P a c c' := Iff.rfl

@[simp] theorem settles_throw (e : Exn) :
    Settles sys t p (throw e : Code Op Ans Ev Exn α) P X c c' ↔ X e c c' := Iff.rfl

@[simp] theorem settles_tell (event : Ev)
    {P : Unit → Conf Pid Call Ev Shared → Conf Pid Call Ev Shared → Prop} :
    Settles sys t p (Code.tell event : Code Op Ans Ev Exn Unit) P X c c' ↔
      P () c (c'.tell p [event]) := Iff.rfl

theorem Settles.imp {m : Code Op Ans Ev Exn α} (h : Settles sys t p m P X c c')
    (hP : ∀ a c c', P a c c' → P' a c c') (hX : ∀ e c c', X e c c' → X' e c c') :
    Settles sys t p m P' X' c c' := by
  induction m generalizing c c' with
  | ret a => exact hP a c c' h
  | raise e => exact hX e c c' h
  | report event rest ih => exact ih h
  | request op next ih =>
      refine ⟨h.1, ?_⟩
      intro c₁ hrely hinv choice answer shared hmeets hexec
      exact ih answer (h.2 c₁ hrely hinv choice answer shared hmeets hexec)

theorem settles_bind {m : Code Op Ans Ev Exn β} {next : β → Code Op Ans Ev Exn α} :
    Settles sys t p (m >>= next) P X c c' ↔
      Settles sys t p m (fun b => Settles sys t p (next b) P X) X c c' := by
  induction m generalizing c c' with
  | ret b => exact Iff.rfl
  | raise e => exact Iff.rfl
  | report event rest ih => exact ih
  | request op answer ih =>
      refine and_congr_right fun _ => ?_
      constructor
      · intro h c₁ hrely hinv choice a shared hmeets hexec
        exact (ih a).1 (h c₁ hrely hinv choice a shared hmeets hexec)
      · intro h c₁ hrely hinv choice a shared hmeets hexec
        exact (ih a).2 (h c₁ hrely hinv choice a shared hmeets hexec)

theorem settles_throwIf {condition : Prop} [Decidable condition] {e : Exn}
    {P : Unit → Conf Pid Call Ev Shared → Conf Pid Call Ev Shared → Prop}
    (hthrow : condition → X e c c') (hpass : ¬condition → P () c c') :
    Settles sys t p (Code.throwIf condition e : Code Op Ans Ev Exn Unit) P X c c' := by
  unfold Code.throwIf
  split
  · rename_i h
    exact hthrow h
  · rename_i h
    exact hpass h

theorem settles_throwIf_bind {condition : Prop} [Decidable condition] {e : Exn}
    {next : Unit → Code Op Ans Ev Exn α} (hthrow : condition → X e c c')
    (hpass : ¬condition → Settles sys t p (next ()) P X c c') :
    Settles sys t p (Code.throwIf condition e >>= next) P X c c' := by
  unfold Code.throwIf
  split
  · rename_i h
    exact hthrow h
  · rename_i h
    exact hpass h

theorem settles_tryCatch {m : Code Op Ans Ev Exn α}
    {handler : Exn → Code Op Ans Ev Exn α} :
    Settles sys t p (tryCatch m handler) P X c c' ↔
      Settles sys t p m P (fun e => Settles sys t p (handler e) P X) c c' := by
  induction m generalizing c c' with
  | ret b => exact Iff.rfl
  | raise e => exact Iff.rfl
  | report event rest ih => exact ih
  | request op answer ih =>
      refine and_congr_right fun _ => ?_
      constructor
      · intro h c₁ hrely hinv choice a shared hmeets hexec
        exact (ih a).1 (h c₁ hrely hinv choice a shared hmeets hexec)
      · intro h c₁ hrely hinv choice a shared hmeets hexec
        exact (ih a).2 (h c₁ hrely hinv choice a shared hmeets hexec)

theorem Obeys.settles {m : Code Op Ans Ev Exn α} (h : Obeys sys t p m Q E c')
    (hs : t.Silent p c c')
    (hP : ∀ a c₁ c₂, t.Silent p c₁ c₂ → Q a c₂ → P a c₁ c₂)
    (hX : ∀ e c₁ c₂, t.Silent p c₁ c₂ → E e c₂ → X e c₁ c₂) :
    Settles sys t p m P X c c' := by
  induction m generalizing c c' with
  | ret a => exact hP a c c' hs h
  | raise e => exact hX e c c' hs h
  | report event rest ih => exact h.elim
  | request op next ih =>
      refine ⟨hs.1, ?_⟩
      intro c₁ hrely hinv choice answer shared hmeets hexec
      obtain ⟨hguar, hnext⟩ := h c₁ hrely hinv choice answer shared hmeets hexec
      exact ih answer hnext ⟨hguar, rfl⟩

theorem Leads.settles {L : Conf Pid Call Ev Shared → Conf Pid Call Ev Shared → Prop}
    {m : Code Op Ans Ev Exn α} (h : Leads sys t p L m Q E c')
    (hs : t.Silent p c c')
    (hP : ∀ a c₁ c₂, t.Silent p c₁ c₂ → L c' c₂ → Q a c₂ → P a c₁ c₂)
    (hX : ∀ e c₁ c₂, t.Silent p c₁ c₂ → L c' c₂ → E e c₂ → X e c₁ c₂) :
    Settles sys t p m P X c c' :=
  Obeys.settles h hs (fun a c₁ c₂ hs' h => hP a c₁ c₂ hs' h.1 h.2)
    fun e c₁ c₂ hs' h => hX e c₁ c₂ hs' h.1 h.2

theorem Leads.settles_bind {L : Conf Pid Call Ev Shared → Conf Pid Call Ev Shared → Prop}
    {m : Code Op Ans Ev Exn β} {next : β → Code Op Ans Ev Exn α}
    {R : β → Conf Pid Call Ev Shared → Prop} (h : Leads sys t p L m R E c')
    (hs : t.Silent p c c')
    (hnext : ∀ b c₁ c₂, t.Silent p c₁ c₂ → L c' c₂ → R b c₂ →
      Settles sys t p (next b) P X c₁ c₂)
    (hX : ∀ e c₁ c₂, t.Silent p c₁ c₂ → L c' c₂ → E e c₂ → X e c₁ c₂) :
    Settles sys t p (m >>= next) P X c c' :=
  Foundation.settles_bind.2 (h.settles hs hnext hX)

theorem settles_ask {op : Op}
    {P : Ans op → Conf Pid Call Ev Shared → Conf Pid Call Ev Shared → Prop}
    (hs : t.Guar p c c')
    (h : ∀ c₁, t.Rely p c' c₁ → t.Inv c₁ → ∀ choice answer shared,
      t.Meets p op choice c₁ → sys.exec p op choice c₁.shared = some (answer, shared) →
        P answer c₁ (c₁.withShared shared)) :
    Settles sys t p (Code.ask op : Code Op Ans Ev Exn (Ans op)) P X c c' :=
  ⟨hs, h⟩

end Reporting

/-! ## Code between two moves -/

theorem safe_of_settles {m : Code Op Ans Ev Exn Unit}
    (h : Settles sys t p m (fun _ => t.Guar p) (fun _ => t.Guar p) c c') :
    t.Guar p c (c'.tell p m.reports) ∧
      Safe sys t p m.resume (c'.tell p m.reports) := by
  induction m generalizing c' with
  | ret a => exact ⟨(Conf.tell_nil c' p).symm ▸ h, trivial⟩
  | raise e => exact ⟨(Conf.tell_nil c' p).symm ▸ h, trivial⟩
  | report event rest ih =>
      rw [Code.reports_report, Conf.tell_cons]
      exact ih h
  | request op next ih =>
      simp only [Code.reports_request, Conf.tell_nil]
      exact h

theorem Safe.rely {m : Code Op Ans Ev Exn Unit} (h : Safe sys t p m c)
    (hrely : t.Rely p c c') : Safe sys t p m c' := by
  cases m with
  | ret a => trivial
  | raise e => trivial
  | report event rest => trivial
  | request op next => exact fun c₁ hrely₁ => h c₁ (t.rely_trans hrely hrely₁)

variable [DecidableEq Pid]

theorem Safe.step {w w' : World Pid Call Ev Exn Shared Op Ans}
    {m : Code Op Ans Ev Exn Unit} {choice : Choice}
    (hproc : w.procs p = some m) (hsafe : Safe sys t p m w.conf)
    (hinv : t.Inv w.conf)
    (hmeets : ∀ op next, m = .request op next → t.Meets p op choice w.conf)
    (hmove : w.move sys (.step p choice) = some w') :
    t.Guar p w.conf w'.conf ∧
      ∃ m', w'.procs = Function.update w.procs p (some m') ∧
        Safe sys t p m' w'.conf := by
  obtain ⟨op, next, answer, shared, hop, hexec, rfl⟩ := World.step_cases hmove
  obtain rfl : m = .request op next := Option.some.inj (hproc.symm.trans hop)
  have h := safe_of_settles (hsafe w.conf (t.rely_refl p _) hinv choice answer shared
    (hmeets op next rfl) hexec)
  exact ⟨h.1, _, rfl, h.2⟩

end Judgements

/-! ## Contracts -/

section Contracts

variable {Pid Call Ev Exn Shared Choice Tick Op : Type} {Ans : Op → Type}
variable [DecidableEq Pid]

/-- The obligations under which safe code is safe in company. -/
structure Contract (sys : System Pid Call Ev Exn Shared Choice Tick Op Ans)
    extends Terms Pid Call Ev Shared Choice Op where
  meets : ∀ p op choice c, Meets p op choice c
  inv_guar : ∀ {p c c'}, Inv c → Guar p c c' → Inv c'
  guar_rely : ∀ {p q c c'}, Inv c → Guar p c c' → q ≠ p → Rely q c c'
  inv_abort : ∀ {p c}, Inv c → Inv (c.withShared (sys.abort p c.shared))
  abort_rely : ∀ {p q c}, Inv c → q ≠ p →
    Rely q c (c.withShared (sys.abort p c.shared))
  inv_tick : ∀ {k c}, Inv c → Inv (c.withShared (sys.tick k c.shared))
  tick_rely : ∀ {k q c}, Inv c → Rely q c (c.withShared (sys.tick k c.shared))
  /-- Every call keeps the guarantee from its arrival on. -/
  arrival : ∀ p call c, Inv c → c.calls p = none →
    Settles sys toTerms p (sys.code call) (fun _ => Guar p) (fun _ => Guar p)
      c (c.arrive p call)

namespace Contract

variable {sys : System Pid Call Ev Exn Shared Choice Tick Op Ans}

inductive Link (contract : Contract sys) : Move Pid Call Choice Tick →
    Conf Pid Call Ev Shared → Conf Pid Call Ev Shared → Prop
  | arrive {p call c c'} : contract.Guar p c c' → Link contract (.arrive p call) c c'
  | step {p choice c c'} : contract.Guar p c c' → Link contract (.step p choice) c c'
  | crash {p c} :
      Link contract (.crash p) c (c.withShared (sys.abort p c.shared))
  | tick {k c} : Link contract (.tick k) c (c.withShared (sys.tick k c.shared))

structure Sound (contract : Contract sys)
    (w : World Pid Call Ev Exn Shared Op Ans) : Prop where
  inv : contract.Inv w.conf
  safe : ∀ p m, w.procs p = some m → Safe sys contract.toTerms p m w.conf

theorem sound_idle (contract : Contract sys) {shared : Shared}
    (h : contract.Inv ⟨shared, fun _ => none, []⟩) :
    contract.Sound (World.idle shared) where
  inv := h
  safe := by simp [World.idle]

theorem Sound.update (contract : Contract sys)
    {w : World Pid Call Ev Exn Shared Op Ans} {conf : Conf Pid Call Ev Shared}
    {p : Pid} {m : Code Op Ans Ev Exn Unit} (h : contract.Sound w)
    (hinv : contract.Inv conf) (hsafe : Safe sys contract.toTerms p m conf)
    (hrely : ∀ q, q ≠ p → contract.Rely q w.conf conf) :
    contract.Sound ⟨conf, Function.update w.procs p (some m)⟩ where
  inv := hinv
  safe := by
    intro q m' hq
    by_cases hqp : q = p
    · subst q
      simp only [Function.update_self, Option.some.injEq] at hq
      exact hq ▸ hsafe
    · simp only [Function.update_of_ne hqp] at hq
      exact (h.safe q m' hq).rely (hrely q hqp)

theorem sound_move (contract : Contract sys)
    {w w' : World Pid Call Ev Exn Shared Op Ans} {m : Move Pid Call Choice Tick}
    (h : contract.Sound w) (hmove : w.move sys m = some w') :
    contract.Link m w.conf w'.conf ∧ contract.Sound w' := by
  cases m with
  | arrive p call =>
      simp only [World.move] at hmove
      cases hcall : w.conf.calls p with
      | some old => simp [hcall] at hmove
      | none =>
          simp only [hcall, Option.some.injEq] at hmove
          subst w'
          obtain ⟨hguar, hsafe⟩ :=
            safe_of_settles (contract.arrival p call w.conf h.inv hcall)
          exact ⟨.arrive hguar, h.update contract (contract.inv_guar h.inv hguar) hsafe
            fun q hq => contract.guar_rely h.inv hguar hq⟩
  | step p choice =>
      obtain ⟨op, next, -, -, hproc, -, -⟩ := World.step_cases hmove
      obtain ⟨hguar, left, hprocs, hsafe⟩ := (h.safe p _ hproc).step hproc h.inv
        (fun _ _ _ => contract.meets ..) hmove
      have hsound := h.update contract (contract.inv_guar h.inv hguar) hsafe
        fun q hq => contract.guar_rely h.inv hguar hq
      rw [← hprocs] at hsound
      exact ⟨.step hguar, hsound⟩
  | crash p =>
      simp only [World.move] at hmove
      cases hproc : w.procs p with
      | none => simp [hproc] at hmove
      | some left =>
          simp only [hproc, Option.some.injEq] at hmove
          subst w'
          refine ⟨.crash, contract.inv_abort h.inv, ?_⟩
          intro q other hq
          by_cases hqp : q = p
          · subst q
            simp at hq
          · simp only [Function.update_of_ne hqp] at hq
            exact (h.safe q other hq).rely (contract.abort_rely h.inv hqp)
  | tick k =>
      simp only [World.move, Option.some.injEq] at hmove
      subst w'
      refine ⟨.tick, contract.inv_tick h.inv, ?_⟩
      intro q other hq
      exact (h.safe q other hq).rely (contract.tick_rely h.inv)

variable {allowed : World Pid Call Ev Exn Shared Op Ans →
  Move Pid Call Choice Tick → World Pid Call Ev Exn Shared Op Ans → Prop}
variable {start w : World Pid Call Ev Exn Shared Op Ans}

theorem sound (contract : Contract sys) (h : contract.Sound start)
    (hr : Reach sys allowed start w) : contract.Sound w := by
  induction hr with
  | refl => exact h
  | move _ hm _ ih => exact (contract.sound_move ih hm).2

/-- A property kept by every link between sound states holds after every run
that starts with it. -/
theorem preserved (contract : Contract sys) (h : contract.Sound start)
    (P : Conf Pid Call Ev Shared → Prop) (h₀ : P start.conf)
    (hstep : ∀ w m w', contract.Sound w → allowed w m w' →
      contract.Link m w.conf w'.conf → P w.conf → P w'.conf)
    (hr : Reach sys allowed start w) : P w.conf := by
  induction hr with
  | refl => exact h₀
  | move hr hm ha ih =>
      have hsound := contract.sound h hr
      exact hstep _ _ _ hsound ha (contract.sound_move hsound hm).1 ih

theorem link_rely (contract : Contract sys) {p : Pid}
    {m : Move Pid Call Choice Tick} {c c' : Conf Pid Call Ev Shared}
    (h : contract.Link m c c') (hinv : contract.Inv c)
    (hother : (∀ q call, m = .arrive q call → p ≠ q) ∧
      (∀ q choice, m = .step q choice → p ≠ q) ∧ (∀ q, m = .crash q → p ≠ q)) :
    contract.Rely p c c' := by
  cases h with
  | arrive hguar => exact contract.guar_rely hinv hguar (hother.1 _ _ rfl)
  | step hguar => exact contract.guar_rely hinv hguar (hother.2.1 _ _ rfl)
  | crash => exact contract.abort_rely hinv (hother.2.2 _ rfl)
  | tick => exact contract.tick_rely hinv

/--
What is proved about one process under terms of its own.  `t` may assume more
of every state and of the process's operations than the contract does, as far
as the allowed moves grant it.
-/
theorem follow (contract : Contract sys) {p : Pid}
    {t : Terms Pid Call Ev Shared Choice Op}
    (hRely : ∀ c c', contract.Rely p c c' → t.Rely p c c')
    (hInv : ∀ w, Reach sys allowed start w → t.Inv w.conf)
    (hMeets : ∀ w choice w' op next, Reach sys allowed start w →
      allowed w (.step p choice) w' → w.procs p = some (.request op next) →
      t.Meets p op choice w.conf)
    (hsound : contract.Sound start) (hcall : start.conf.calls p ≠ none)
    (hsafe : ∀ m, start.procs p = some m → Safe sys t p m start.conf)
    (hr : Reach sys allowed start w) :
    w.conf.calls p ≠ none ∧ ∀ m, w.procs p = some m → Safe sys t p m w.conf := by
  induction hr with
  | refl => exact ⟨hcall, hsafe⟩
  | @move w w' m hr hm ha ih =>
      obtain ⟨hcall, hsafe⟩ := ih
      have hs := contract.sound hsound hr
      have hlink := (contract.sound_move hs hm).1
      cases m with
      | arrive q call =>
          have hqp : p ≠ q := by
            rintro rfl
            cases h : w.conf.calls p with
            | none => exact hcall h
            | some old => simp [World.move, h] at hm
          have hr' := contract.link_rely hlink hs.inv
            ⟨by rintro _ _ ⟨⟩; exact hqp, by simp, by simp⟩
          simp only [World.move] at hm
          split at hm
          · simp at hm
          · simp only [Option.some.injEq] at hm
            subst w'
            refine ⟨by simpa [World.leave, Function.update_of_ne hqp] using hcall, ?_⟩
            intro m hproc
            simp only [World.leave, Function.update_of_ne hqp] at hproc
            exact (hsafe m hproc).rely (hRely _ _ hr')
      | step q choice =>
          obtain ⟨op, next, answer, shared, hproc, hexec, rfl⟩ := World.step_cases hm
          refine ⟨by simpa [World.leave] using hcall, ?_⟩
          intro m hm'
          by_cases hqp : p = q
          · subst q
            obtain ⟨-, left, hprocs, hsafe'⟩ := (hsafe _ hproc).step hproc (hInv _ hr)
              (fun op' next' h => hMeets _ _ _ _ _ hr ha (h ▸ hproc)) hm
            rw [hprocs, Function.update_self, Option.some.injEq] at hm'
            exact hm' ▸ hsafe'
          · have hr' := contract.link_rely hlink hs.inv
              ⟨by simp, by rintro _ _ ⟨⟩; exact hqp, by simp⟩
            simp only [World.leave, Function.update_of_ne hqp] at hm'
            exact (hsafe m hm').rely (hRely _ _ hr')
      | crash q =>
          simp only [World.move] at hm
          split at hm
          · simp at hm
          · simp only [Option.some.injEq] at hm
            subst w'
            refine ⟨by simpa using hcall, ?_⟩
            intro m hproc
            by_cases hqp : p = q
            · subst q
              simp at hproc
            · have hr' := contract.link_rely hlink hs.inv
                ⟨by simp, by simp, by rintro _ ⟨⟩; exact hqp⟩
              simp only [Function.update_of_ne hqp] at hproc
              exact (hsafe m hproc).rely (hRely _ _ hr')
      | tick k =>
          have hr' : contract.Rely p w.conf w'.conf :=
            contract.link_rely hlink hs.inv ⟨by simp, by simp, by simp⟩
          simp only [World.move, Option.some.injEq] at hm
          subst w'
          exact ⟨hcall, fun m hproc => (hsafe m hproc).rely (hRely _ _ hr')⟩

end Contract

end Contracts

end Kori.Foundation
