import Kori.Foundation.History

/-!
# Serving a sequential object

A sequential object takes whole actions, one after the other.  A system serves the object
when every move either leaves what the object shows as it is, or does the work of one whole
action for the call of the process that makes it.  The runs of such a system are serial: what
they leave, and what they report, is what the actions leave and report in some order, and
each action takes place while its call is being served.
-/

namespace Kori.Foundation

/-- What an action makes of a state, and what it reports.  It may be impossible. -/
structure SerialObject (St Act Res : Type) where
  apply : Act → St → Option (St × Option Res)

namespace SerialObject

variable {St Act Res Pid : Type} (obj : SerialObject St Act Res)

def run : List (Pid × Act) → St → Option (St × List (Pid × Res))
  | [], s => some (s, [])
  | (p, act) :: acts, s =>
      (obj.apply act s).bind fun (s', res) =>
        (run acts s').map fun (s'', rest) =>
          (s'', res.toList.map (fun res => (p, res)) ++ rest)

variable {obj} {acts : List (Pid × Act)} {s s' s'' : St} {reports reports' : List (Pid × Res)}

theorem run_concat {p : Pid} {act : Act} {res : Option Res}
    (h : obj.run acts s = some (s', reports)) (hact : obj.apply act s' = some (s'', res)) :
    obj.run (acts ++ [(p, act)]) s =
      some (s'', reports ++ res.toList.map (fun res => (p, res))) := by
  induction acts generalizing s reports with
  | nil =>
      obtain ⟨rfl, rfl⟩ := Prod.mk.inj (Option.some.inj h)
      simp [run, hact]
  | cons first acts ih =>
      obtain ⟨q, act'⟩ := first
      obtain ⟨⟨s₁, res₁⟩, hfirst, hrest⟩ := Option.bind_eq_some_iff.1 h
      obtain ⟨⟨s₂, rest⟩, hrun, heq⟩ := Option.map_eq_some_iff.1 hrest
      obtain ⟨rfl, rfl⟩ := Prod.mk.inj heq
      simp [run, hfirst, ih hrun]

theorem reported_of_mem (h : obj.run acts s = some (s', reports)) {p : Pid} {act : Act}
    (hmem : (p, act) ∈ acts)
    (hreports : ∀ t t' res, obj.apply act t = some (t', res) → res.isSome) :
    ∃ res, (p, res) ∈ reports := by
  induction acts generalizing s reports with
  | nil => simp at hmem
  | cons first acts ih =>
      obtain ⟨q, act'⟩ := first
      obtain ⟨⟨s₁, res₁⟩, hfirst, hrest⟩ := Option.bind_eq_some_iff.1 h
      obtain ⟨⟨s₂, rest⟩, hrun, heq⟩ := Option.map_eq_some_iff.1 hrest
      obtain ⟨rfl, rfl⟩ := Prod.mk.inj heq
      rcases List.mem_cons.1 hmem with hhere | hlater
      · obtain ⟨rfl, rfl⟩ := Prod.mk.inj hhere
        obtain ⟨res, rfl⟩ := Option.isSome_iff_exists.1 (hreports _ _ _ hfirst)
        exact ⟨res, by simp⟩
      · obtain ⟨res, hres⟩ := ih hrun hlater
        exact ⟨res, List.mem_append_right _ hres⟩

end SerialObject

section Runs

variable {Pid Call Ev Exn Shared Choice Tick Op St Act Res : Type} {Ans : Op → Type}
variable [DecidableEq Pid]

def World.Over (w : World Pid Call Ev Exn Shared Op Ans) (p : Pid) : Prop :=
  (w.conf.calls p).isSome ∧ w.pending p = none

variable {sys : System Pid Call Ev Exn Shared Choice Tick Op Ans}
variable {start w w' : World Pid Call Ev Exn Shared Op Ans} {m : Move Pid Call Choice Tick}
variable {p : Pid}

theorem World.Over.move (h : w.Over p) (hm : w.move sys m = some w') : w'.Over p := by
  obtain ⟨hcalled, hpending⟩ := h
  cases m with
  | arrive q call =>
      simp only [World.move] at hm
      cases hcall : w.conf.calls q with
      | some old => simp [hcall] at hm
      | none =>
          simp only [hcall, Option.some.injEq] at hm
          subst w'
          have hne : p ≠ q := by
            rintro rfl
            simp [hcall] at hcalled
          constructor
          · simpa [World.leave, Conf.tell, Conf.arrive, hne] using hcalled
          · simpa [World.pending, World.leave, hne] using hpending
  | step q choice =>
      obtain ⟨op, next, answer, shared, hproc, -, rfl⟩ := World.step_cases hm
      have hne : p ≠ q := by
        rintro rfl
        simp [World.pending, hproc, Code.pending] at hpending
      exact ⟨hcalled, by simpa [World.pending, World.leave, hne] using hpending⟩
  | crash q =>
      simp only [World.move] at hm
      split at hm
      · simp at hm
      · simp only [Option.some.injEq] at hm
        subst w'
        refine ⟨hcalled, ?_⟩
        by_cases hpq : p = q
        · simp [World.pending, hpq]
        · simpa [World.pending, hpq] using hpending
  | tick t =>
      simp only [World.move, Option.some.injEq] at hm
      subst w'
      exact ⟨hcalled, hpending⟩

theorem World.Over.later {allowed : World Pid Call Ev Exn Shared Op Ans →
      Move Pid Call Choice Tick → World Pid Call Ev Exn Shared Op Ans → Prop}
    (h : w.Over p) (hr : Reach sys allowed w w') : w'.Over p := by
  induction hr with
  | refl => exact h
  | move _ hm _ ih => exact ih.move hm

/-- What a system shows of an object, and what its processes do for their calls. -/
structure Service (Pid Call Ev Shared St Act Res : Type) where
  view : Shared → St
  reported : Ev → Option Res
  fits : Call → Act → Prop

namespace Service

variable (service : Service Pid Call Ev Shared St Act Res)

def results (c : Conf Pid Call Ev Shared) : List (Pid × Res) :=
  c.out.filterMap fun e => (service.reported e.2).map fun res => (e.1, res)

/-- The move does nothing, or all of one action. -/
inductive Serves (obj : SerialObject St Act Res) (w : World Pid Call Ev Exn Shared Op Ans)
    (w' : World Pid Call Ev Exn Shared Op Ans) : Move Pid Call Choice Tick → Prop
  | quiet {m : Move Pid Call Choice Tick} :
      service.view w'.conf.shared = service.view w.conf.shared →
      service.results w'.conf = service.results w.conf → Serves obj w w' m
  | acts {p : Pid} {choice : Choice} {call act res} : w.conf.calls p = some call →
      service.fits call act →
      obj.apply act (service.view w.conf.shared) = some (service.view w'.conf.shared, res) →
      service.results w'.conf =
        service.results w.conf ++ res.toList.map (fun res => (p, res)) →
      Serves obj w w' (.step p choice)

/-- What happens between two states of a run is what the `acts` do in their order. -/
structure Serial (obj : SerialObject St Act Res) (w w' : World Pid Call Ev Exn Shared Op Ans)
    (acts : List (Pid × Act)) : Prop where
  outcome : ∃ reports, obj.run acts (service.view w.conf.shared) =
      some (service.view w'.conf.shared, reports) ∧
    service.results w'.conf = service.results w.conf ++ reports
  called : ∀ p act, (p, act) ∈ acts → ∃ call, w'.conf.calls p = some call ∧
    service.fits call act ∧ ¬w.Over p

variable {service} {obj : SerialObject St Act Res} {acts : List (Pid × Act)}

omit [DecidableEq Pid] in
theorem Serial.refl : service.Serial obj w w [] where
  outcome := ⟨[], rfl, by simp⟩
  called := by simp

theorem Serial.move {w₀ : World Pid Call Ev Exn Shared Op Ans}
    (h : service.Serial obj w₀ w acts) (hr : Reachable sys w₀ w)
    (hm : w.move sys m = some w') (hserves : service.Serves obj w w' m) :
    ∃ acts', service.Serial obj w₀ w' (acts ++ acts') := by
  obtain ⟨reports, hrun, hresults⟩ := h.outcome
  have hcalled : ∀ p act, (p, act) ∈ acts → ∃ call, w'.conf.calls p = some call ∧
      service.fits call act ∧ ¬w₀.Over p := by
    intro p act hact
    obtain ⟨call, hcall, hrest⟩ := h.called p act hact
    exact ⟨call, World.calls_mono hm hcall, hrest⟩
  cases hserves with
  | quiet hview hsame =>
      refine ⟨[], ⟨reports, ?_, ?_⟩, ?_⟩
      · simpa [hview] using hrun
      · exact hsame.trans hresults
      · simpa using hcalled
  | @acts p choice call act res hcall hfits happly hreports =>
      refine ⟨[(p, act)], ⟨_, SerialObject.run_concat hrun happly, ?_⟩, ?_⟩
      · rw [hreports, hresults, List.append_assoc]
      · intro q act' hmem
        rcases List.mem_append.1 hmem with hbefore | hlast
        · exact hcalled q act' hbefore
        · obtain ⟨rfl, rfl⟩ := Prod.mk.inj (List.mem_singleton.1 hlast)
          refine ⟨call, World.calls_mono hm hcall, hfits, fun hover => ?_⟩
          -- who has come to an end takes no step
          obtain ⟨op, next, answer, shared, hproc, -⟩ := World.step_cases hm
          have hpending := (hover.later hr).2
          simp [World.pending, hproc, Code.pending] at hpending

/-- The runs of a system that serves the object are serial. -/
theorem serial_of_serves
    (hserves : ∀ w m w', Reachable sys start w → w.move sys m = some w' →
      service.Serves obj w w' m)
    (hr : Reachable sys start w) (hr' : Reachable sys w w') :
    ∃ acts, service.Serial obj w w' acts := by
  induction hr' with
  | refl => exact ⟨[], .refl⟩
  | move hr' hm _ ih =>
      obtain ⟨acts, hserial⟩ := ih
      obtain ⟨acts', hserial'⟩ := hserial.move hr' hm (hserves _ _ _ (hr.trans hr') hm)
      exact ⟨acts ++ acts', hserial'⟩

end Service

end Runs

end Kori.Foundation
