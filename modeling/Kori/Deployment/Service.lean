import Kori.Contract.Runs
import Kori.Deployment.Constraints

/-!
# The deployed service

Whatever the order in which bootstrap scripts, server instances and requests
start, the application runs from an opening state with one SYSTEM wallet, and
every instance has cached the identifier of this wallet.
-/

namespace Kori

open Foundation

/-! ## Before and after the SYSTEM wallet -/

/-- A database with the schema of the last migration, and nothing that runs on it. -/
structure Installed (shared : Shared) : Prop where
  constraints : Constraints shared.db.committed
  idle : ∀ p, shared.db.tx p = none
  leases : ∀ p, shared.leases p = none
  minted : ∀ u o, shared.minted u = some o → o = .opening
  devices : ∀ userId deviceId device u,
    shared.db.committed.row (.device userId deviceId) = some device →
    device.refreshSessionId = some u ∨ device.currentRefreshJti = some u →
    shared.minted u = some .opening

def Deployment.fresh (shared : Shared) : Deployment := ⟨World.idle shared, fun _ => none⟩

/-- The application runs on the tables that were installed, to which at most the SYSTEM
wallet has been added, and every instance serves with this wallet. -/
structure Deployed (env : Env) (tables : Data) (id : Uuid) (start : Shared)
    (d : Deployment) : Prop where
  opening : Opening (env.withSystemWallet id) start
  installed : start.db.committed = tables ∨
    start.db.committed = tables.put (.wallet id) bootstrapWallet
  reachable : Reachable (kori (env.withSystemWallet id)) (World.idle start) d.service
  cached : ∀ i id', d.cachedSystemWalletId i = some id' → id' = id

/-- How far a deployment has come. -/
inductive Stage (env : Env) (tables : Data) : Deployment → Prop
  | waiting {shared : Shared} (hinstalled : Installed shared)
      (htables : shared.db.committed = tables)
      (hnone : ∀ id, ¬Data.SystemWallet shared.db.committed id) :
      Stage env tables (.fresh shared)
  | serving {d : Deployment} {id : Uuid} {start : Shared}
      (h : Deployed env tables id start d) : Stage env tables d

section Stages

variable {env : Env} {shared : Shared} {d : Deployment} {id : Uuid}

theorem Installed.opening (env : Env) (h : Installed shared)
    (hsystem : Data.SystemWallet shared.db.committed id) :
    Opening (env.withSystemWallet id) shared where
  integrity := by
    obtain ⟨w, hw, htype⟩ := hsystem
    exact h.constraints.integrity hw htype
  idle := h.idle
  leases := h.leases
  minted := h.minted
  devices := h.devices

theorem Installed.bootstrap (h : Installed shared)
    (hfree : shared.db.committed.row (.wallet id) = none)
    (hnone : ∀ id', ¬Data.SystemWallet shared.db.committed id') :
    Installed (shared.withCommitted (shared.db.committed.put (.wallet id) bootstrapWallet)) where
  constraints := h.constraints.bootstrap hfree hnone
  idle := h.idle
  leases := h.leases
  minted := h.minted
  devices := by
    intro userId deviceId device u hrow
    exact h.devices userId deviceId device u ((Tables.row_put_of_ne (by simp) ..).symm.trans hrow)

theorem Integrity.systemWallet {t : Data} (h : Integrity id t) {id' : Uuid} :
    t.SystemWallet id' ↔ id' = id := by
  constructor
  · rintro ⟨w, hw, htype⟩
    exact h.systemOnly id' w hw htype
  · rintro rfl
    obtain ⟨w, hw, -, htype, -⟩ := h.system
    exact ⟨w, hw, htype⟩

variable {tables : Data} {start : Shared}

theorem Deployed.integrity (h : Deployed env tables id start d) : Integrity id d.data :=
  (run_inv h.opening.sound h.reachable).integrity

theorem Stage.systemWallets (h : Stage env tables d) :
    Data.systemWallets d.data = [] ∨ ∃ id w, Data.systemWallets d.data = [(id, w)] ∧
      d.data.SystemWallet id ∧ w.userId = none ∧ w.isActive = true := by
  cases h with
  | waiting hinstalled htables hnone => exact .inl (systemWallets_eq_nil.2 hnone)
  | @serving _ id start h =>
      obtain ⟨w, hw, howner, htype, hactive⟩ := h.integrity.system
      right
      exact ⟨id, w, systemWallets_eq_singleton hw htype
        fun id' h' => h.integrity.systemWallet.1 h', ⟨w, hw, htype⟩, howner, hactive⟩

/-! ### Moves of the application -/

theorem exec_withSystemWallet (env : Env) (id : Uuid) :
    Shared.exec (env.withSystemWallet id) = Shared.exec env := by
  funext p op choice shared
  cases op <;> cases choice <;> rfl

theorem move_withSystemWallet {w : KoriWorld} {m : KoriMove}
    (h : ∀ p call, m ≠ .arrive p call) :
    w.move (kori (env.withSystemWallet id)) m = w.move (kori env) m := by
  cases m with
  | arrive p call => exact absurd rfl (h p call)
  | step p choice => simp only [World.move, kori, exec_withSystemWallet]
  | crash p => simp only [World.move, kori]
  | tick k => simp only [World.move, kori]

theorem serve_cached (served : LaunchId × KoriMove) :
    (d.serve env served).cachedSystemWalletId = d.cachedSystemWalletId := by
  obtain ⟨i, m⟩ := served
  cases m with
  | arrive p call =>
      simp only [Deployment.serve]
      split <;> rfl
  | _ => rfl

theorem Deployed.serve (h : Deployed env tables id start d) (served : LaunchId × KoriMove) :
    Deployed env tables id start (d.serve env served) where
  opening := h.opening
  installed := h.installed
  cached := (serve_cached served).symm ▸ h.cached
  reachable := by
    obtain ⟨i, m⟩ := served
    have hmove := h.reachable.tryMove m
    cases m with
    | arrive p call =>
        simp only [Deployment.serve]
        split
        · exact h.reachable
        · next id' hid =>
            rw [h.cached i id' hid]
            exact hmove
    | _ =>
        rw [move_withSystemWallet (by simp)] at hmove
        exact hmove

theorem Stage.serve (h : Stage env tables d) (served : LaunchId × KoriMove) :
    Stage env tables (d.serve env served) := by
  cases h with
  | @waiting shared hinstalled htables hnone =>
      obtain ⟨i, m⟩ := served
      cases m with
      | tick k =>
          have hexpired : Installed (Shared.expire k shared) := { hinstalled with }
          have hstage : Stage env tables (.fresh (Shared.expire k shared)) :=
            .waiting hexpired htables hnone
          exact hstage
      | _ => exact .waiting hinstalled htables hnone
  | serving h => exact .serving (h.serve served)

theorem Stage.serve_keeps (h : Stage env tables d) (served : LaunchId × KoriMove)
    (hsystem : d.data.SystemWallet id) : (d.serve env served).data.SystemWallet id := by
  cases h with
  | waiting hinstalled htables hnone => exact absurd hsystem (hnone id)
  | serving h =>
      exact (h.serve served).integrity.systemWallet.2 (h.integrity.systemWallet.1 hsystem)

/-! ### Steps of what starts -/

inductive LaunchStep (i : LaunchId) : Deployment → Deployment → Prop
  | same (d : Deployment) : LaunchStep i d d
  | bootstrap {d : Deployment} {id : Uuid} (hfree : d.data.row (.wallet id) = none)
      (hnone : ∀ id', ¬d.data.SystemWallet id') :
      LaunchStep i d (d.commit (d.data.put (.wallet id) bootstrapWallet))
  | cache {d : Deployment} {id : Uuid} (hsystem : d.data.SystemWallet id) :
      LaunchStep i d (d.cache i (some id))

variable {d' : Deployment} {i : LaunchId}

theorem Stage.cache (h : Stage env tables d) {cached : Option Uuid}
    (hsystem : ∀ id, cached = some id → d.data.SystemWallet id) :
    Stage env tables (d.cache i cached) := by
  cases h with
  | @waiting shared hinstalled htables hnone =>
      cases cached with
      | none =>
          have hsame : (Deployment.fresh shared).cache i none = .fresh shared := by
            simp [Deployment.fresh, Deployment.cache]
          rw [hsame]
          exact .waiting hinstalled htables hnone
      | some id => exact absurd (hsystem id rfl) (hnone id)
  | @serving _ id start h =>
      have hcached : ∀ j id', (d.cache i cached).cachedSystemWalletId j = some id' →
          id' = id := by
        intro j id' hid
        by_cases hj : j = i
        · subst j
          simp only [Deployment.cache, Function.update_self] at hid
          exact h.integrity.systemWallet.1 (hsystem id' hid)
        · simp only [Deployment.cache, Function.update_of_ne hj] at hid
          exact h.cached j id' hid
      exact .serving ⟨h.opening, h.installed, h.reachable, hcached⟩

/-- The step that creates the SYSTEM wallet opens the application. -/
theorem Stage.step (h : Stage env tables d) (hstep : LaunchStep i d d') :
    Stage env tables d' := by
  cases hstep with
  | same => exact h
  | @bootstrap id hfree hnone =>
      cases h with
      | @waiting shared hinstalled htables _ =>
          have hopening := (hinstalled.bootstrap hfree hnone).opening env
            ⟨bootstrapWallet, Tables.row_put_self .., rfl⟩
          exact .serving ⟨hopening, .inr (congrArg (Tables.put · _ _) htables), .refl,
            by simp [Deployment.commit, Deployment.fresh]⟩
      | serving h => exact absurd (h.integrity.systemWallet.2 rfl) (hnone _)
  | cache hsystem =>
      apply h.cache
      rintro id' ⟨⟩
      exact hsystem

theorem LaunchStep.keeps (h : LaunchStep i d d') (hsystem : d.data.SystemWallet id) :
    d'.data.SystemWallet id := by
  cases h with
  | same => exact hsystem
  | bootstrap hfree hnone => exact absurd hsystem (hnone id)
  | cache => exact hsystem

/-! ### The guarantee -/

/-- What a report says about the deployment before and after its step. -/
def Warranted (i : LaunchId) (d d' : Deployment) : LaunchReport → Prop
  | .bootstrapped => ∃ id, d'.data.SystemWallet id
  | .ready => ∃ id, d'.cachedSystemWalletId i = some id ∧ d'.data.SystemWallet id
  | .failed e => (∃ s, e = .sql s) ∨
      e = .error (notOneSystemWallet 0) ∧ ∀ id, ¬d.data.SystemWallet id

abbrev DeploymentState := Conf LaunchId Launch LaunchReport Deployment

structure LaunchGuar (i : LaunchId) (c c' : DeploymentState) : Prop where
  step : LaunchStep i c.shared c'.shared
  reports : ∃ reports : List LaunchReport, c'.out = c.out ++ reports.map (fun r => (i, r)) ∧
    ∀ r ∈ reports, Warranted i c.shared c'.shared r

def launchTerms (env : Env) (tables : Data) :
    Terms LaunchId Launch LaunchReport Deployment LaunchChoice LaunchOp where
  Inv c := Stage env tables c.shared
  Rely _ c c' := ∀ id, c.shared.data.SystemWallet id → c'.shared.data.SystemWallet id
  Guar := LaunchGuar
  Meets _ _ _ _ := True
  rely_refl _ _ _ h := h
  rely_trans h h' id hid := h' id (h id hid)

variable {c c' : DeploymentState}

theorem LaunchGuar.silent (hstep : LaunchStep i c.shared c'.shared) (hout : c'.out = c.out) :
    LaunchGuar i c c' where
  step := hstep
  reports := ⟨[], by simp [hout], by simp⟩

def Concludes (i : LaunchId) (report : LaunchReport) (c c' : DeploymentState) : Prop :=
  LaunchGuar i c (c'.tell i [report])

theorem LaunchStep.concludes (hstep : LaunchStep i c.shared c'.shared) (hout : c'.out = c.out)
    {report : LaunchReport} (hreport : Warranted i c.shared c'.shared report) :
    Concludes i report c c' where
  step := hstep
  reports := ⟨[report], by simp [hout], by simpa using hreport⟩

theorem LaunchStep.concludes_sql {e : SqlError} (hstep : LaunchStep i c.shared c'.shared)
    (hout : c'.out = c.out) : Concludes i (.failed (.sql e)) c c' :=
  hstep.concludes hout (.inl ⟨e, rfl⟩)

section Code

variable {α : Type}
variable {P : List (Uuid × Wallet) → DeploymentState → DeploymentState → Prop}
variable {X : Exn → DeploymentState → DeploymentState → Prop}

theorem settles_findSystemWallets (hs : LaunchGuar i c c')
    (hfail : ∀ c₁ e, X (.sql e) c₁ c₁)
    (hnone : ∀ c₁ : DeploymentState, (∀ id, ¬c₁.shared.data.SystemWallet id) → P [] c₁ c₁)
    (hone : ∀ (c₁ : DeploymentState) id w, c₁.shared.data.SystemWallet id →
      w.userId = none → w.isActive = true → P [(id, w)] c₁ c₁) :
    Settles (deployment env) (launchTerms env tables) i findSystemWallets P X c c' := by
  refine settles_bind.2 (settles_ask hs ?_)
  intro c₁ hrely hinv choice answer shared _ hexec
  cases choice with
  | found rows =>
      simp only [deployment, Deployment.exec, Option.ite_none_right_eq_some,
        Option.some.injEq, Prod.mk.injEq] at hexec
      obtain ⟨hperm, rfl, rfl⟩ := hexec
      rcases hinv.systemWallets with hnil | ⟨id, w, hsingle, hsystem, howner, hactive⟩
      · rw [hnil] at hperm
        rw [hperm.eq_nil]
        exact hnone c₁ (systemWallets_eq_nil.1 hnil)
      · rw [hsingle] at hperm
        rw [List.perm_singleton.1 hperm]
        exact hone c₁ id w hsystem howner hactive
  | fail =>
      simp only [deployment, Deployment.exec, Option.some.injEq, Prod.mk.injEq] at hexec
      obtain ⟨rfl, rfl⟩ := hexec
      exact hfail c₁ .other
  | _ => simp [deployment, Deployment.exec] at hexec

theorem settles_createSystemWallet {P : Uuid → DeploymentState → DeploymentState → Prop}
    (hs : LaunchGuar i c c')
    (hfail : ∀ (c₁ c₂ : DeploymentState) e, LaunchStep i c₁.shared c₂.shared →
      c₂.out = c₁.out → X (.sql e) c₁ c₂)
    (hcreated : ∀ (c₁ c₂ : DeploymentState) id, LaunchStep i c₁.shared c₂.shared →
      c₂.out = c₁.out → c₂.shared.data.SystemWallet id → P id c₁ c₂) :
    Settles (deployment env) (launchTerms env tables) i createSystemWallet P X c c' := by
  have hinsert : ∀ (d : Deployment) u t,
      Data.insertWallet d.data u bootstrapWallet = .ok t →
        LaunchStep i d (d.commit t) ∧ (d.commit t).data.SystemWallet u := by
    intro d u t h
    unfold Data.insertWallet at h
    split_ifs at h with hrow hsystem hcheck
    · simp only [Except.ok.injEq] at h
      subst t
      have hfree : Tables.row d.data (.wallet u) = none := by simpa using hrow
      have hnil : Data.systemWallets d.data = [] := by
        simpa [bootstrapWallet] using hsystem
      exact ⟨.bootstrap hfree (systemWallets_eq_nil.1 hnil),
        bootstrapWallet, Tables.row_put_self .., rfl⟩
  refine settles_bind.2 (settles_ask hs ?_)
  intro c₁ hrely hinv choice answer shared _ hexec
  cases choice with
  | generated u =>
      simp only [deployment, Deployment.exec] at hexec
      split at hexec
      · next t hok =>
          simp only [Option.some.injEq, Prod.mk.injEq] at hexec
          obtain ⟨rfl, rfl⟩ := hexec
          exact hcreated c₁ _ u (hinsert _ u t hok).1 rfl (hinsert _ u t hok).2
      · next e herror =>
          simp only [Option.some.injEq, Prod.mk.injEq] at hexec
          obtain ⟨rfl, rfl⟩ := hexec
          exact hfail c₁ _ e (.same _) rfl
  | lost u =>
      simp only [deployment, Deployment.exec] at hexec
      split at hexec
      · next t hok =>
          simp only [Option.some.injEq, Prod.mk.injEq] at hexec
          obtain ⟨rfl, rfl⟩ := hexec
          exact hfail c₁ _ .other (hinsert _ u t hok).1 rfl
      · next e herror =>
          simp only [Option.some.injEq, Prod.mk.injEq] at hexec
          obtain ⟨rfl, rfl⟩ := hexec
          exact hfail c₁ _ e (.same _) rfl
  | fail =>
      simp only [deployment, Deployment.exec, Option.some.injEq, Prod.mk.injEq] at hexec
      obtain ⟨rfl, rfl⟩ := hexec
      exact hfail c₁ _ .other (.same _) rfl
  | _ => simp [deployment, Deployment.exec] at hexec

end Code

theorem settles_bootstrapRequiredState (hs : LaunchGuar i c c') :
    Settles (deployment env) (launchTerms env tables) i bootstrapRequiredState (Concludes i)
      (fun e => Concludes i (.failed e)) c c' := by
  refine settles_bind.2 (settles_findSystemWallets hs ?_ ?_ ?_)
  · intro c₁ e
    exact LaunchStep.concludes_sql (.same _) rfl
  · intro c₁ hnone
    refine settles_throwIf_bind (by simp) fun _ => ?_
    refine settles_bind.2 (settles_createSystemWallet (.silent (.same _) rfl) ?_ ?_)
    · intro c₂ c₃ e hstep hout
      exact hstep.concludes_sql hout
    · intro c₂ c₃ id hstep hout hsystem
      exact hstep.concludes hout ⟨id, hsystem⟩
  · intro c₁ id w hsystem howner hactive
    refine settles_throwIf_bind (by simp) fun _ => ?_
    refine settles_throwIf_bind (by cases w.currency; simp) fun _ => ?_
    refine settles_throwIf_bind (by simp [howner]) fun _ => ?_
    refine settles_throwIf_bind (by simp [hactive]) fun _ => ?_
    exact LaunchStep.concludes (.same _) rfl ⟨id, hsystem⟩

theorem settles_onModuleInit (hs : LaunchGuar i c c') :
    Settles (deployment env) (launchTerms env tables) i onModuleInit (Concludes i)
      (fun e => Concludes i (.failed e)) c c' := by
  refine settles_bind.2 (settles_findSystemWallets hs ?_ ?_ ?_)
  · intro c₁ e
    exact LaunchStep.concludes_sql (.same _) rfl
  · intro c₁ hnone
    exact LaunchStep.concludes (.same _) rfl (.inr ⟨rfl, hnone⟩)
  · intro c₁ id w hsystem howner hactive
    refine settles_throwIf_bind (by cases w.currency; simp [howner, hactive]) fun _ => ?_
    rw [walletIdFrom, idFrom_uuidText]
    refine settles_bind.2 (settles_ask (.silent (.same _) rfl) ?_)
    intro c₂ hrely hinv choice answer shared _ hexec
    cases choice with
    | go =>
        simp only [deployment, Deployment.exec, Option.some.injEq, Prod.mk.injEq] at hexec
        obtain ⟨-, rfl⟩ := hexec
        have hkept : c₂.shared.data.SystemWallet id := hrely id hsystem
        have hcached : LaunchStep i c₂.shared
            (c₂.withShared (c₂.shared.cache i (some id))).shared := .cache hkept
        exact hcached.concludes rfl ⟨id, Function.update_self .., hkept⟩
    | _ => simp [deployment, Deployment.exec] at hexec

theorem settles_run (launch : Launch) (hs : LaunchGuar i c c') :
    Settles (deployment env) (launchTerms env tables) i launch.run (fun _ => LaunchGuar i)
      (fun _ => LaunchGuar i) c c' := by
  have hcode : Settles (deployment env) (launchTerms env tables) i launch.code (Concludes i)
      (fun e => Concludes i (.failed e)) c c' := by
    cases launch with
    | bootstrapRequiredState => exact settles_bootstrapRequiredState hs
    | onModuleInit => exact settles_onModuleInit hs
  exact settles_bind.2 (settles_tryCatch.2 (hcode.imp (fun _ _ _ h => h) fun _ _ _ h => h))

def launchContract (env : Env) (tables : Data) : Contract (deployment env) where
  toTerms := launchTerms env tables
  meets _ _ _ _ := trivial
  inv_guar h hguar := h.step hguar.step
  guar_rely _ hguar _ _ hsystem := hguar.step.keeps hsystem
  inv_abort h := h.cache (by simp)
  abort_rely _ _ _ hsystem := hsystem
  inv_tick h := h.serve _
  tick_rely h _ hsystem := h.serve_keeps _ hsystem
  arrival i launch c _ _ := settles_run launch (.silent (.same _) rfl)

/-! ## Runs -/

theorem Installed.stage (h : Installed shared) :
    Stage env shared.db.committed (.fresh shared) := by
  by_cases hnone : ∀ id, ¬Data.SystemWallet shared.db.committed id
  · exact .waiting h rfl hnone
  · simp only [not_forall, not_not] at hnone
    obtain ⟨id, hsystem⟩ := hnone
    exact .serving ⟨h.opening env hsystem, .inl rfl, .refl, by simp [Deployment.fresh]⟩

theorem Installed.sound (h : Installed shared) :
    (launchContract env shared.db.committed).Sound (World.idle (.fresh shared)) :=
  Contract.sound_idle _ h.stage

variable {w w' : DeploymentWorld}

/--
However bootstrap scripts, server instances and requests are interleaved: either no request
has been made and no instance is ready, or the application is in a state that it reaches
from an opening state on the installed tables, and all instances serve with one SYSTEM wallet.
-/
theorem deployed_service (h : Installed shared)
    (hr : Reachable (deployment env) (World.idle (.fresh shared)) w) :
    ((∀ p, w.conf.shared.service.conf.calls p = none) ∧
        ∀ i, w.conf.shared.cachedSystemWalletId i = none) ∨
      ∃ id start, Deployed env shared.db.committed id start w.conf.shared := by
  have hstage : Stage env shared.db.committed w.conf.shared :=
    ((launchContract env _).sound h.sound hr).inv
  generalize w.conf.shared = d at hstage
  cases hstage with
  | waiting => exact .inl ⟨fun _ => rfl, fun _ => rfl⟩
  | @serving _ id start hdeployed => exact .inr ⟨id, start, hdeployed⟩

end Stages

namespace Sample

def blank : Shared where
  db := .quiet .empty
  redis := fun _ => none
  minted := fun _ => none
  tokens := []
  leases := fun _ => none

theorem installed : Installed blank where
  constraints := by constructor <;> simp [blank, Store.quiet, indexed_empty]
  idle := fun _ => rfl
  leases := fun _ => rfl
  minted := by simp [blank]
  devices := by simp [blank, Store.quiet]

def startMoves : List DeploymentMove :=
  [.arrive 0 .bootstrapRequiredState, .step 0 (.found []), .step 0 (.generated 9),
    .arrive 1 .onModuleInit, .step 1 (.found [(9, bootstrapWallet)]), .step 1 .go,
    .tick (1, .arrive 7 (.refresh none))]

theorem starts (P : DeploymentWorld → Bool)
    (h : ((World.idle (.fresh blank)).run (deployment env) startMoves).any P = true) :
    ∃ w, Reachable (deployment env) (World.idle (.fresh blank)) w ∧ P w = true :=
  exists_of_run h

end Sample

theorem deployed_service_of_bootstrap : ∃ (w : DeploymentWorld) (id : Uuid) (start : Shared),
    Reachable (deployment Sample.env) (World.idle (.fresh Sample.blank)) w ∧
      Deployed Sample.env .empty id start w.conf.shared ∧
      w.conf.shared.service.conf.calls 7 ≠ none := by
  obtain ⟨w, hr, hcalled⟩ := Sample.starts
    (fun w => w.conf.shared.service.conf.calls 7 ≠ none) (by decide +kernel)
  have hcalled := of_decide_eq_true hcalled
  obtain ⟨hcalls, -⟩ | ⟨id, start, hdeployed⟩ := deployed_service Sample.installed hr
  · exact absurd (hcalls 7) hcalled
  · exact ⟨w, id, start, hr, hdeployed, hcalled⟩

section Starts

variable {env : Env} {shared : Shared} {tables : Data} {c c' : DeploymentState}
variable {w w' : DeploymentWorld}

theorem launch_link {m : DeploymentMove} (hinv : Stage env tables c.shared)
    (h : (launchContract env tables).Link m c c') :
    (∀ id, c.shared.data.SystemWallet id → c'.shared.data.SystemWallet id) ∧
      (c'.out = c.out ∨ ∃ i, LaunchGuar i c c') := by
  cases h with
  | @arrive i _ _ _ hguar => exact ⟨fun _ => hguar.step.keeps, .inr ⟨i, hguar⟩⟩
  | @step i _ _ _ hguar => exact ⟨fun _ => hguar.step.keeps, .inr ⟨i, hguar⟩⟩
  | crash => exact ⟨fun _ hsystem => hsystem, .inl rfl⟩
  | tick => exact ⟨fun _ hsystem => hinv.serve_keeps _ hsystem, .inl rfl⟩

def Justified (t : Data) : LaunchReport → Prop
  | .bootstrapped | .ready => ∃ id, t.SystemWallet id
  | .failed e => (∃ s, e = .sql s) ∨ e = .error (notOneSystemWallet 0)

theorem Warranted.justified {i : LaunchId} {d d' : Deployment} {report : LaunchReport}
    (h : Warranted i d d' report) : Justified d'.data report := by
  cases report with
  | bootstrapped => exact h
  | ready => exact h.imp fun _ h => h.2
  | failed e => exact h.imp_right And.left

theorem Justified.keeps {t t' : Data} {report : LaunchReport} (h : Justified t report)
    (hkeeps : ∀ id, t.SystemWallet id → t'.SystemWallet id) : Justified t' report := by
  cases report with
  | failed e => exact h
  | _ => exact h.imp hkeeps

theorem run_justified (h : Installed shared)
    (hr : Reachable (deployment env) (World.idle (.fresh shared)) w) :
    ∀ x ∈ w.conf.out, Justified w.conf.shared.data x.2 := by
  refine (launchContract env _).preserved h.sound
    (fun c => ∀ x ∈ c.out, Justified c.shared.data x.2) (by simp [World.idle]) ?_ hr
  intro w₁ m w₂ hsound _ hlink hold x hx
  obtain ⟨hkeeps, hsame | ⟨i, hguar⟩⟩ := launch_link hsound.inv hlink
  · rw [hsame] at hx
    exact (hold x hx).keeps hkeeps
  · obtain ⟨reports, hout, hreports⟩ := hguar.reports
    rw [hout, List.mem_append] at hx
    cases hx with
    | inl hx => exact (hold x hx).keeps hkeeps
    | inr hx =>
        obtain ⟨report, hmem, rfl⟩ := List.mem_map.1 hx
        exact (hreports report hmem).justified

/-- Where there is a SYSTEM wallet, it stays and only failing statements are reported. -/
theorem run_settled (hs : (launchContract env tables).Sound w) {id : Uuid}
    (hsystem : w.conf.shared.data.SystemWallet id) (hr : Reachable (deployment env) w w') :
    w'.conf.shared.data.SystemWallet id ∧ ∀ i e, (i, .failed e) ∈ w'.conf.out →
      (i, .failed e) ∈ w.conf.out ∨ ∃ s, e = .sql s := by
  refine (launchContract env tables).preserved hs
    (fun c => c.shared.data.SystemWallet id ∧ ∀ i e, (i, .failed e) ∈ c.out →
      (i, .failed e) ∈ w.conf.out ∨ ∃ s, e = .sql s) ⟨hsystem, fun _ _ h => .inl h⟩ ?_ hr
  rintro w₁ m w₂ hsound _ hlink ⟨hsystem, hold⟩
  obtain ⟨hkeeps, hsame | ⟨j, hguar⟩⟩ := launch_link hsound.inv hlink
  · exact ⟨hkeeps id hsystem, by rwa [hsame]⟩
  · refine ⟨hkeeps id hsystem, ?_⟩
    intro i e hmem
    obtain ⟨reports, hout, hreports⟩ := hguar.reports
    rw [hout, List.mem_append] at hmem
    cases hmem with
    | inl hmem => exact hold i e hmem
    | inr hmem =>
        obtain ⟨report, hreport, heq⟩ := List.mem_map.1 hmem
        obtain ⟨rfl, rfl⟩ := Prod.mk.inj heq
        cases hreports _ hreport with
        | inl hsql => exact .inr hsql
        | inr hnone => exact absurd hsystem (hnone.2 id)

/--
A start fails with a failing statement, or because an instance finds no SYSTEM wallet.  Once a
bootstrap or an instance has succeeded there is one SYSTEM wallet, which is the same for ever,
and from then on a start fails with a failing statement only.
-/
theorem start_up_succeeds (h : Installed shared)
    (hr : Reachable (deployment env) (World.idle (.fresh shared)) w) :
    (∀ i e, (i, .failed e) ∈ w.conf.out →
      (∃ s, e = .sql s) ∨ e = .error (notOneSystemWallet 0)) ∧
    ∀ i, (i, .bootstrapped) ∈ w.conf.out ∨ (i, .ready) ∈ w.conf.out →
      ∃ id, ∀ w', Reachable (deployment env) w w' →
        (∃ wallet, Data.systemWallets w'.conf.shared.data = [(id, wallet)]) ∧
          ∀ j e, (j, .failed e) ∈ w'.conf.out →
            (j, .failed e) ∈ w.conf.out ∨ ∃ s, e = .sql s := by
  have hjustified := run_justified h hr
  have hsound := (launchContract env _).sound h.sound hr
  refine ⟨fun i e hmem => hjustified _ hmem, ?_⟩
  intro i hdone
  have hsystem : ∃ id, w.conf.shared.data.SystemWallet id := by
    cases hdone with
    | inl hmem => exact hjustified _ hmem
    | inr hmem => exact hjustified _ hmem
  obtain ⟨id, hsystem⟩ := hsystem
  refine ⟨id, ?_⟩
  intro w' hr'
  obtain ⟨⟨wallet, hwallet⟩, hfailed⟩ := run_settled hsound hsystem hr'
  have hmem : (id, wallet) ∈ Data.systemWallets w'.conf.shared.data :=
    mem_systemWallets.2 hwallet
  refine ⟨⟨wallet, ?_⟩, hfailed⟩
  rcases ((launchContract env _).sound hsound hr').inv.systemWallets with hnil | ⟨id', w₁, hone, -⟩
  · simp [hnil] at hmem
  · rw [hone, List.mem_singleton] at hmem
    rw [hone, hmem]

end Starts

theorem start_up_succeeds_of_bootstrap : ∃ w : DeploymentWorld,
    Reachable (deployment Sample.env) (World.idle (.fresh Sample.blank)) w ∧
      (0, .bootstrapped) ∈ w.conf.out ∧
      ∃ id, ∀ w', Reachable (deployment Sample.env) w w' →
        ∃ wallet, Data.systemWallets w'.conf.shared.data = [(id, wallet)] := by
  obtain ⟨w, hr, hdone⟩ := Sample.starts
    (fun w => (0, .bootstrapped) ∈ w.conf.out) (by decide +kernel)
  have hdone := of_decide_eq_true hdone
  obtain ⟨id, hlater⟩ := (start_up_succeeds Sample.installed hr).2 0 (.inl hdone)
  exact ⟨w, hr, hdone, id, fun w' hr' => (hlater w' hr').1⟩

end Kori
