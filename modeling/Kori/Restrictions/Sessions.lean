import Kori.Conduct.Suspensions
import Kori.Restrictions.Frozen
import Kori.Sessions.Frames

/-!
# Suspended accounts have no session

A suspension clears the devices it has listed, and a login writes its session when
the account was ACTIVE in the snapshot of its update.  What goes wrong goes wrong
at that write: it comes after the suspension, or it is on a device that the
suspension has not listed.
-/

namespace Kori

open Foundation

section SessionFree

variable {env : Env} {shared : Shared} {w w' : KoriWorld} {p q : Pid} {choice : Choice}
variable {past : List KoriMoment} {u : Uuid} {d : JsString} {t : Data}

def TrustDevice.Cleared (device : TrustDevice) : Prop :=
  device.refreshSessionId = none ∧ device.currentRefreshJti = none

/-- No device of a suspended account has a session. -/
def SessionFree (t : Data) : Prop :=
  ∀ u d device, t.Suspended u → t.row (.device u d) = some device → device.Cleared

def OpensSession (w : KoriWorld) (m : KoriMove) (u : Uuid) (d : JsString) : Prop :=
  ∃ q dto change device, m = .step q .go ∧ w.conf.calls q = some (.login dto) ∧
    w.pending q = some (.sql (.update (.device u d) change)) ∧
    (State.data w.conf).row (.device u d) = some device ∧ device.isAuthorized = true

/-- The account is not suspended, and every suspension that is under way and has
listed the devices of the account has listed this one. -/
structure Unrestricted (env : Env) (before : List KoriMoment) (w : KoriWorld) (u : Uuid)
    (d : JsString) : Prop where
  status : ¬(State.data w.conf).Suspended u
  listed : ∀ p actor t, w.conf.calls p = some (.suspend actor u) →
    (w.conf.shared.db.tx p).isSome → Listed u (heard (kori env) p before) t →
    d ∈ Data.devicesOf t u

/-! ## Steps -/

theorem SessionStep.becomes_live {c : State} {replies : List Reply}
    (h : SessionStep p c t replies) {device : TrustDevice}
    (hrow : t.row (.device u d) = some device) (hlive : ¬device.Cleared) :
    (∃ device₀, c.data.row (.device u d) = some device₀ ∧ ¬device₀.Cleared) ∨
      ∃ call, c.calls p = some call ∧ call.SignIn := by
  cases h with
  | quiet _ hrows =>
      obtain hbefore | hcleared := hrows _ _ _ hrow
      · exact .inl ⟨device, hbefore, hlive⟩
      · exact absurd hcleared hlive
  | opened hcall hsign _ _ _ _ _ _ _ _ => exact .inr ⟨_, hcall, hsign⟩
  | @rotated payload jti role device₀ now _ hrow₀ hholds _ _ hothers =>
      by_cases hk : Key.device u d = .device payload.sub payload.deviceId
      · obtain ⟨rfl, rfl⟩ := Key.device.inj hk
        refine .inl ⟨device₀, hrow₀, fun hcleared => ?_⟩
        simp [holdsToken, hcleared.1] at hholds
      · exact .inl ⟨device, hothers _ _ hk ▸ hrow, hlive⟩

theorem asks_suspended {call : Call} {before : History} {user : User} {e : Entry Op Op.Ans}
    (hwrites : Writes (.user u) user e) (hasks : Asks env call before e.op)
    (hstatus : user.status = .suspended) {x : KoriMoment}
    (hans : x.1.answered (kori env) x.2 = some (p, e)) :
    (∃ actor, call = .suspend actor u) ∧ InTransaction before := by
  have htouches := asks_touches hasks hwrites.writesRow
  cases call with
  | suspend actor target =>
      cases hwrites with
      | update =>
          cases hasks with
          | free hfree _ => exact hfree.elim
          | restrict hopen => exact ⟨⟨actor, rfl⟩, hopen⟩
      | insert =>
          cases hasks with
          | free hfree _ => exact hfree.elim
  | reactivate actor target =>
      cases hwrites with
      | update =>
          cases hasks with
          | free hfree => exact hfree.elim
          | update hactive =>
              obtain ⟨user₀, -, hchange⟩ := answered_update hans
              simp [hactive _ _ hchange] at hstatus
      | insert =>
          cases hasks with
          | free hfree => exact hfree.elim
  | register _ | registerBusiness _ =>
      cases hwrites with
      | update =>
          cases hasks with
          | free hfree => exact hfree.elim
          | provision _ hasks => cases hasks
      | insert =>
          cases hasks with
          | free hfree => exact hfree.elim
          | provision _ hasks =>
              cases hasks with
              | user _ _ hactive _ => simp [hactive] at hstatus
              | other _ huser _ => exact absurd rfl (huser u)
  | _ => simp [Call.Touches, Key.IsTransfer, Key.IsWallet, Key.IsApproval] at htouches

theorem run_suspended (hopening : Opening env shared)
    (hr : Run (kori env) (World.idle shared) past w)
    (hm : w.move (kori env) (.step q choice) = some w')
    (hu : (State.data w'.conf).Suspended u) (hbefore : ¬(State.data w.conf).Suspended u) :
    ∃ actor own, w.conf.calls q = some (.suspend actor u) ∧
      w.answered (kori env) (.step q choice) = some (q, ⟨.sql .commit, .ok ()⟩) ∧
      uncommitted (statements (heard (kori env) q past)) = some own := by
  obtain ⟨user, hrow, hstatus⟩ := hu
  have hnew : (State.data w.conf).row (.user u) ≠ some user := fun h =>
    hbefore ⟨user, h, hstatus⟩
  obtain ⟨e, hans, hpublishes⟩ := run_published hopening.idle hr hm hrow hnew
  obtain ⟨call, hcall, hasks⟩ := hr.asks obeyed hans
  cases hpublishes with
  | update houtside _ _ =>
      have hwrites := asks_suspended (x := (w, .step q choice)) .update hasks hstatus hans
      exact absurd hwrites.2 houtside
  | insert houtside =>
      have hwrites := asks_suspended (x := (w, .step q choice)) .insert hasks hstatus hans
      exact absurd hwrites.2 houtside
  | commit hown hv =>
      obtain ⟨e', he', hwrites⟩ := writes_of_uncommitted hown hv
      obtain ⟨x, before, hx, hansx⟩ := heard_moment he'
      obtain ⟨call', hcall', hasks'⟩ := (hr.at hx).1.asks obeyed hansx
      obtain rfl := Option.some.inj ((hr.called_at hx hcall').symm.trans hcall)
      obtain ⟨⟨actor, rfl⟩, -⟩ := asks_suspended hwrites hasks' hstatus hansx
      exact ⟨actor, _, hcall, hans, hown⟩

theorem login_opens (hopening : Opening env shared)
    (hr : Run (kori env) (World.idle shared) past w)
    (hm : w.move (kori env) (.step q choice) = some w') {dto : AuthCredentialsDto}
    (hcall : w.conf.calls q = some (.login dto)) {device : TrustDevice}
    (hrow : (State.data w'.conf).row (.device u d) = some device)
    (hnew : (State.data w.conf).row (.device u d) ≠ some device) :
    OpensSession w (.step q choice) u d := by
  obtain ⟨e, hans, hpublishes⟩ := run_published hopening.idle hr hm hrow hnew
  obtain ⟨called, hcalled, hasks⟩ := hr.asks obeyed hans
  obtain rfl := Option.some.inj (hcalled.symm.trans hcall)
  obtain ⟨-, phone, -, hasks⟩ := hasks
  obtain ⟨choice', next, s, hstep, hproc, hexec⟩ := World.answered_cases hans
  obtain ⟨-, rfl⟩ := Move.step.inj hstep
  have hpending : w.pending q = some e.op := by
    rw [World.pending, hproc]
    rfl
  cases hpublishes with
  | update _ hrow₀ hchange =>
      have hgo : choice = .go := by
        obtain ⟨-, ha, -⟩ | ⟨hgo, -⟩ := exec_sql hexec
        · simp [Store.fail] at ha
        · exact hgo
      cases hasks with
      | establish _ _ hasks =>
          cases hasks with
          | update hauthorized =>
              exact ⟨q, dto, _, _, by rw [hgo], hcall, hpending, hrow₀,
                (hauthorized _ _ hchange).1⟩
  | insert _ =>
      cases hasks with
      | establish _ _ hasks => cases hasks
  | commit hown _ =>
      have hnot := (run_single hopening.idle hr hcall single_login).2
      simp [InTransaction, hown] at hnot

theorem register_active (hopening : Opening env shared)
    (hr : Run (kori env) (World.idle shared) past w)
    (hm : w.move (kori env) (.step q choice) = some w') {dto : RegisterDto}
    (hcall : Registers w.conf q dto) {device : TrustDevice}
    (hrow : (State.data w'.conf).row (.device u d) = some device)
    (hnew : (State.data w.conf).row (.device u d) ≠ some device) :
    ¬(State.data w'.conf).Suspended u ∧ w.conf.shared.db.lock (.user u) = some q := by
  obtain ⟨own, hans, hown, hv⟩ :=
    run_registers hopening.idle hr hm hcall hrow hnew (.inr ⟨u, d, rfl⟩)
  have hasked := registers_asked hr hcall
  obtain ⟨-, huser⟩ := RegisterAsks.device hasked hown hv
  obtain ⟨-, next, -, -, hproc, -⟩ := World.answered_cases hans
  refine ⟨?_, run_locks hopening.idle hr (by simp [hproc]) hown huser⟩
  obtain ⟨user, huser⟩ := Option.isSome_iff_exists.1 huser
  rintro ⟨user', hrow', hstatus⟩
  have hafter := run_committed hopening.idle hr hm hans hown huser
  obtain rfl := Option.some.inj (hafter.symm.trans hrow')
  simp [(RegisterAsks.user hasked hown huser).2.1] at hstatus

def Guarded (env : Env) (before : List KoriMoment) (x : KoriMoment) : Prop :=
  ∀ u d, OpensSession x.1 x.2 u d → Unrestricted env before x.1 u d

inductive Live (env : Env) (past : List KoriMoment) (w w' : KoriWorld) (q : Pid) (u : Uuid)
    (d : JsString) : Prop
  | before {device} : (State.data w.conf).row (.device u d) = some device → ¬device.Cleared →
      Live env past w w' q u d
  | login {dto} : w.conf.calls q = some (.login dto) → Unrestricted env past w u d →
      Live env past w w' q u d
  | register {dto} : Registers w.conf q dto → ¬(State.data w'.conf).Suspended u →
      w.conf.shared.db.lock (.user u) = some q → Live env past w w' q u d

theorem run_live (hopening : Opening env shared)
    (hr : Run (kori env) (World.idle shared) past w)
    (hm : w.move (kori env) (.step q choice) = some w')
    (hguarded : Guarded env past (w, .step q choice)) {device : TrustDevice}
    (hrow : (State.data w'.conf).row (.device u d) = some device) (hlive : ¬device.Cleared) :
    Live env past w w' q u d := by
  by_cases hnew : (State.data w.conf).row (.device u d) = some device
  · exact .before hnew hlive
  · obtain ⟨replies, -, heffect⟩ :=
      (guar_of_step ((contract env).sound hopening.sound hr.reachable) hm).effect
    obtain ⟨device₀, hrow₀, hlive₀⟩ | ⟨call, hcall, hsign⟩ :=
      heffect.session.becomes_live hrow hlive
    · exact .before hrow₀ hlive₀
    · have hregister : ∀ dto, Registers w.conf q dto → Live env past w w' q u d := by
        intro dto hregisters
        obtain ⟨hnot, hlock⟩ := register_active hopening hr hm hregisters hrow hnew
        exact .register hregisters hnot hlock
      cases call with
      | login dto =>
          exact .login hcall (hguarded u d (login_opens hopening hr hm hcall hrow hnew))
      | register dto => exact hregister dto (.inl hcall)
      | registerBusiness dto => exact hregister dto (.inr hcall)
      | _ => exact hsign.elim

/-! ## Runs -/

/-- What keeps suspended accounts without sessions: a suspension that is under way has
listed every device that has a session. -/
structure Clearing (env : Env) (past : List KoriMoment) (w : KoriWorld) : Prop where
  free : SessionFree (State.data w.conf)
  listed : ∀ p actor u t d device, w.conf.calls p = some (.suspend actor u) →
    (w.conf.shared.db.tx p).isSome → Listed u (heard (kori env) p past) t →
    (State.data w.conf).row (.device u d) = some device → ¬device.Cleared →
    d ∈ Data.devicesOf t u

theorem Clearing.suspending (hopening : Opening env shared)
    (hr : Run (kori env) (World.idle shared) past w) (h : Clearing env past w)
    (hm : w.move (kori env) (.step p choice) = some w') {actor : Option Uuid}
    (hcall : w.conf.calls p = some (.suspend actor u)) (htx : (w'.conf.shared.db.tx p).isSome)
    (hlisted : Listed u (heard (kori env) p ((w, .step p choice) :: past)) t)
    {device : TrustDevice} (hrow : (State.data w.conf).row (.device u d) = some device)
    (hlive : ¬device.Cleared) : d ∈ Data.devicesOf t u := by
  obtain ⟨op, next, answer, s, hproc, hexec, rfl⟩ := World.step_cases hm
  have hans : w.answered (kori env) (.step p choice) = some (p, ⟨op, answer⟩) :=
    World.answered_step hproc hexec
  have hcons : heard (kori env) p ((w, .step p choice) :: past) =
      ⟨op, answer⟩ :: heard (kori env) p past := heard_cons_self hans
  have hr' := Run.cons hr hm
  obtain ⟨called, hcalled, hasks⟩ := hr.asks obeyed hans
  obtain rfl := Option.some.inj (hcalled.symm.trans hcall)
  rw [hcons] at hlisted
  rcases List.mem_cons.1 hlisted with heq | hbefore
  · rw [← heq] at hans
    have hview : t = w.conf.shared.db.view p :=
      answered_select (x := (w, .step p choice)) hans
    rw [mem_devicesOf, hview]
    exact Store.view_isSome (by simp [hrow])
  · refine h.listed p actor u t d device hcall ?_ hbefore hrow hlive
    -- the transaction has not just started
    have halive := (run_follows hopening.idle hr p).alive (by simp [hproc])
    have hafter := (run_follows hopening.idle hr' p).alive (by simp [World.leave])
    obtain ⟨own, hown⟩ := Option.isSome_iff_exists.1 htx
    rw [Store.ownRows, hown, hcons] at hafter
    have hopen : (uncommitted (statements (heard (kori env) p past))).isSome := by
      cases op with
      | sql statement =>
          rw [statements_sql, uncommitted_cons] at hafter
          rcases Executed.apply_cases hafter.symm with ⟨hstart, -⟩ | hsame | ⟨_, _, _, hsame, -⟩
          · obtain rfl : statement = .start := hstart
            cases hasks with
            | free hfree _ => exact hfree.elim
            | start hnew => exact absurd hbefore (hnew t)
          · simp [hsame]
          · simp [hsame]
      | _ =>
          rw [statements_cons (by simp)] at hafter
          simp [← hafter]
    rw [← halive, Store.ownRows, Option.isSome_map] at hopen
    exact hopen

/-- A step of the server keeps it. -/
theorem Clearing.step (hopening : Opening env shared)
    (hr : Run (kori env) (World.idle shared) past w) (h : Clearing env past w)
    (hm : w.move (kori env) (.step q choice) = some w')
    (hguarded : Guarded env past (w, .step q choice)) :
    Clearing env ((w, .step q choice) :: past) w' := by
  obtain ⟨op, next, answer, s, hproc, hexec, heq⟩ := World.step_cases hm
  have hans : w.answered (kori env) (.step q choice) = some (q, ⟨op, answer⟩) :=
    World.answered_step hproc hexec
  constructor
  · intro u d device hu hrow
    by_contra hlive
    have hfrom := run_live hopening hr hm hguarded hrow hlive
    by_cases hbefore : (State.data w.conf).Suspended u
    · cases hfrom with
      | before hrow₀ hlive₀ => exact hlive₀ (h.free u d _ hbefore hrow₀)
      | login _ hunrestricted => exact hunrestricted.status hbefore
      | register _ hnot _ => exact hnot hu
    · -- the suspension commits now, and has cleared what it has listed
      obtain ⟨actor, own, hcall, hcommit, hown⟩ := run_suspended hopening hr hm hu hbefore
      obtain ⟨t, hlisted, hall⟩ := suspension_lists hopening hr hcall hcommit hown
      have hd : d ∈ Data.devicesOf t u := by
        cases hfrom with
        | before hrow₀ hlive₀ =>
            have halive := (run_follows hopening.idle hr q).alive (by simp [hproc])
            rw [hown] at halive
            refine h.listed q actor u t d _ hcall ?_ hlisted hrow₀ hlive₀
            rw [← Option.isSome_map, ← Store.ownRows, halive]
            rfl
        | login hlogin _ => simp [hcall] at hlogin
        | register hregisters _ _ => simp [Registers, hcall] at hregisters
      obtain ⟨device', hdevice⟩ := Option.isSome_iff_exists.1 (hall d hd)
      have hafter := run_committed hopening.idle hr hm hcommit hown hdevice
      obtain rfl := Option.some.inj (hafter.symm.trans hrow)
      exact hlive (suspension_clears hr hcall hown hdevice)
  · intro p actor u t d device hcall htx hlisted hrow hlive
    have hfrom := run_live hopening hr hm hguarded hrow hlive
    have hcall₀ : w.conf.calls p = some (.suspend actor u) := by
      rw [heq] at hcall
      exact hcall
    by_cases hpq : p = q
    · subst q
      cases hfrom with
      | before hrow₀ hlive₀ =>
          exact h.suspending hopening hr hm hcall₀ htx hlisted hrow₀ hlive₀
      | login hlogin _ => simp [hcall₀] at hlogin
      | register hregisters _ _ => simp [Registers, hcall₀] at hregisters
    · have hheard : heard (kori env) p ((w, .step q choice) :: past) =
          heard (kori env) p past := by
        refine heard_cons_other fun e he => ?_
        rw [hans] at he
        exact hpq (Prod.mk.inj (Option.some.inj he)).1.symm
      have htx₀ : (w.conf.shared.db.tx p).isSome := by
        rw [heq] at htx
        exact exec_tx hexec hpq ▸ htx
      rw [hheard] at hlisted
      cases hfrom with
      | before hrow₀ hlive₀ => exact h.listed p actor u t d _ hcall₀ htx₀ hlisted hrow₀ hlive₀
      | login _ hunrestricted => exact hunrestricted.listed p actor t hcall₀ htx₀ hlisted
      | register _ _ hlock =>
          -- the suspension holds the account too
          have hfollows := run_follows hopening.idle hr p
          have hsome : (w.procs p).isSome := by
            by_contra hnone
            simp [hfollows.gone (by simpa using hnone)] at htx₀
          have hopen := hfollows.alive hsome
          obtain ⟨own, hown⟩ := Option.isSome_iff_exists.1 htx₀
          rw [Store.ownRows, hown] at hopen
          have hheld := run_locks hopening.idle hr hsome hopen.symm
            (SuspendAsks.restricting (suspend_asked hr hcall₀) hlisted hopen.symm)
          exact absurd (Option.some.inj (hheld.symm.trans hlock)) hpq

theorem Clearing.other (hr : Run (kori env) (World.idle shared) past w)
    (h : Clearing env past w) {m : KoriMove} (hm : w.move (kori env) m = some w')
    (hnot : ∀ q choice, m ≠ .step q choice) : Clearing env ((w, m) :: past) w' := by
  have hheard : ∀ p, heard (kori env) p ((w, m) :: past) = heard (kori env) p past := by
    intro p
    refine heard_cons_other fun e he => ?_
    obtain ⟨choice, -, -, hstep, -, -⟩ := World.answered_cases he
    exact hnot _ _ hstep
  have hdb : State.data w'.conf = State.data w.conf ∧
      ∀ p, (w'.conf.shared.db.tx p).isSome → (w.conf.shared.db.tx p).isSome := by
    cases m with
    | arrive q call =>
        simp only [World.move] at hm
        split at hm
        · simp at hm
        · obtain rfl := Option.some.inj hm
          exact ⟨rfl, fun _ h => h⟩
    | step q choice => exact absurd rfl (hnot q choice)
    | crash q =>
        simp only [World.move] at hm
        split at hm
        · simp at hm
        · obtain rfl := Option.some.inj hm
          refine ⟨rfl, fun p htx => ?_⟩
          by_cases hpq : p = q
          · subst q
            simp [kori, Shared.abort, Store.rollback, Store.finish] at htx
          · exact (Store.rollback_frame w.conf.shared.db q).tx p hpq ▸ htx
    | tick k =>
        obtain rfl := Option.some.inj hm
        exact ⟨rfl, fun _ h => h⟩
  refine ⟨hdb.1 ▸ h.free, fun p actor u t d device hcall htx hlisted hrow hlive => ?_⟩
  rw [hheard] at hlisted
  rw [hdb.1] at hrow
  obtain ⟨x, before, hx, hans⟩ := heard_moment hlisted
  obtain ⟨call, hcalled, -⟩ := (hr.at hx).1.asks obeyed hans
  have hbefore := hr.called_at hx hcalled
  obtain rfl := Option.some.inj ((World.calls_mono hm hbefore).symm.trans hcall)
  exact h.listed p actor u t d device hbefore (hdb.2 p htx) hlisted hrow hlive

theorem run_clearing (hopening : Opening env shared)
    (hfree : SessionFree shared.db.committed) (hr : Run (kori env) (World.idle shared) past w)
    (hguarded : Throughout (Guarded env) past) : Clearing env past w := by
  induction hr with
  | nil => exact ⟨hfree, by simp [World.idle]⟩
  | @cons past w w' m hr hm ih =>
      have hbefore := ih hguarded.2
      cases m with
      | step q choice => exact hbefore.step hopening hr hm hguarded.1
      | _ => exact hbefore.other hr hm (by simp)

/-- As long as no login opens a session on a device of a suspended account, or on one
that a suspension under way has missed, no suspended account has a session, and none
has one when it is reactivated. -/
theorem suspended_without_session (hopening : Opening env shared)
    (hfree : SessionFree shared.db.committed) (hr : Run (kori env) (World.idle shared) past w)
    (hguarded : Throughout (Guarded env) past) :
    SessionFree (State.data w.conf) ∧
      ∀ q choice w' actor target u d device, w.move (kori env) (.step q choice) = some w' →
        w.conf.calls q = some (.reactivate actor target) → (State.data w.conf).Suspended u →
        (State.data w'.conf).row (.device u d) = some device → device.Cleared := by
  have hnow := (run_clearing hopening hfree hr hguarded).free
  refine ⟨hnow, fun q choice w' actor target u d device hm hcall hu hrow => ?_⟩
  refine hnow u d device hu ?_
  by_contra hnew
  simpa [Call.Touches] using run_touches hopening.idle hr hm hrow hnew hcall

end SessionFree

namespace Sample

theorem staffed_sessionFree : SessionFree staffed.db.committed := by
  have hactive : ∀ e ∈ staffed.db.committed.rows.entries, Restricted e = false := by
    decide +kernel
  rintro u d device ⟨user, hrow, hstatus⟩
  have hnot := hactive _ (AList.mem_lookup_iff.1 hrow)
  simp [Restricted, hstatus] at hnot

def loginMoves (p : Pid) (dto : AuthCredentialsDto) (sid jti : Uuid) : List KoriMove :=
  .arrive p (.login dto) :: [.go, .go, .go, .turn true, .go, .go, .uuid sid, .uuid jti,
    .instant time].map (.step p)

def lateLogin : List KoriMove :=
  loginMoves 0 ⟨js "1", js "1234", js "d"⟩ 77 78 ++
    (suspendMoves 1 1 [.device 1 (js "d")]).dropLast ++
    [.step 0 .go, .step 1 .go, .step 0 .go]

def SignedIn (t : Data) (u : Uuid) (d : JsString) : Bool :=
  (t.row (.device u d)).any fun device => device.refreshSessionId.isSome

def opens (x : KoriMoment) : Option (Uuid × JsString) :=
  match x.2 with
  | .step q .go =>
      match x.1.conf.calls q, x.1.pending q with
      | some (.login _), some (.sql (.update (.device u d) _)) =>
          if ((State.data x.1.conf).row (.device u d)).any TrustDevice.isAuthorized then
            some (u, d)
          else none
      | _, _ => none
  | _ => none

theorem opens_iff {x : KoriMoment} {u : Uuid} {d : JsString} :
    opens x = some (u, d) ↔ OpensSession x.1 x.2 u d := by
  constructor
  · intro h
    unfold opens at h
    split at h
    · rename_i q hmove
      split at h
      · rename_i hcall hpending
        simp only [Option.ite_none_right_eq_some, Option.any_eq_true, Option.some.injEq,
          Prod.mk.injEq] at h
        obtain ⟨⟨device, hrow, hauthorized⟩, rfl, rfl⟩ := h
        exact ⟨q, _, _, device, hmove, hcall, hpending, hrow, hauthorized⟩
      · simp at h
    · simp at h
  · rintro ⟨q, dto, change, device, hmove, hcall, hpending, hrow, hauthorized⟩
    simp [opens, hmove, hcall, hpending, hrow, hauthorized]

def suspends : KoriMove → Bool
  | .arrive _ (.suspend _ _) => true
  | _ => false

def opensFreely (before : List KoriMoment) (x : KoriMoment) : Prop :=
  ∀ device ∈ opens x, ((State.data x.1.conf).row (.user device.1)).all
    (fun user => user.status ≠ .suspended) = true ∧ before.any (fun y => suspends y.2) = false

instance (before : List KoriMoment) (x : KoriMoment) : Decidable (opensFreely before x) :=
  inferInstanceAs (Decidable (∀ device ∈ opens x, _))

theorem guarded_of_opensFreely {before : List KoriMoment} {x : KoriMoment}
    (hr : Run (kori env) (World.idle staffed) before x.1) (h : opensFreely before x) :
    Guarded env before x := by
  intro u d hopens
  obtain ⟨hstatus, hnone⟩ := h (u, d) (opens_iff.2 hopens)
  constructor
  · rintro ⟨user, hrow, hsuspended⟩
    simp [hrow, hsuspended] at hstatus
  · intro p actor t hcall
    obtain ⟨y, hy, harrive⟩ := hr.arrived rfl hcall
    rw [List.any_eq_false] at hnone
    exact absurd (by rw [harrive]; rfl) (hnone y hy)

def earlyLogin : List KoriMove :=
  loginMoves 0 ⟨js "1", js "1234", js "d"⟩ 77 78 ++ [.step 0 .go, .step 0 .go] ++
    suspendMoves 1 1 [.device 1 (js "d")]

end Sample

theorem suspended_with_session : Opening Sample.env Sample.staffed ∧
    SessionFree Sample.staffed.db.committed ∧
    ∃ w, Reachable (kori Sample.env) (World.idle Sample.staffed) w ∧
      ¬SessionFree (State.data w.conf) := by
  refine ⟨Sample.staffed_opening, Sample.staffed_sessionFree, ?_⟩
  have hrun : (((World.idle Sample.staffed).run (kori Sample.env) Sample.lateLogin).any fun w =>
      ((State.data w.conf).row (.user 1)).map User.status = some .suspended ∧
        Sample.SignedIn (State.data w.conf) 1 (js "d")) = true := by
    decide +kernel
  obtain ⟨w, hr, hw⟩ := exists_of_run hrun
  obtain ⟨hstatus, hsigned⟩ := of_decide_eq_true hw
  obtain ⟨user, hrow, hsuspended⟩ := Option.map_eq_some_iff.1 hstatus
  obtain ⟨device, hdevice, hsid⟩ := (Option.any_eq_true _ _).1 hsigned
  refine ⟨w, hr, fun hfree => ?_⟩
  simp [(hfree 1 _ device ⟨user, hrow, hsuspended⟩ hdevice).1] at hsid

theorem suspended_without_session_of_suspension : ∃ past w x,
    Run (kori Sample.env) (World.idle Sample.staffed) past w ∧ x ∈ past ∧
      OpensSession x.1 x.2 1 (js "d") ∧ Throughout (Guarded Sample.env) past ∧
      (State.data w.conf).Suspended 1 ∧ SessionFree (State.data w.conf) := by
  have hpossible : (((World.idle Sample.staffed).moments (kori Sample.env)
      Sample.earlyLogin).any fun run =>
        (run.1.any fun x => Sample.opens x = some (1, js "d")) &&
          (decide (Throughout Sample.opensFreely run.1) &&
            decide (((State.data run.2.conf).row (.user 1)).map User.status =
              some .suspended))) = true := by
    decide +kernel
  obtain ⟨⟨past, w⟩, hmoments, htest⟩ := (Option.any_eq_true _ _).1 hpossible
  obtain ⟨hr, -⟩ := run_of_moments hmoments
  simp only [Bool.and_eq_true, List.any_eq_true, decide_eq_true_eq] at htest
  obtain ⟨⟨x, hx, hopens⟩, hfreely, hsuspended⟩ := htest
  obtain ⟨user, hrow, hstatus⟩ := Option.map_eq_some_iff.1 hsuspended
  have hguarded : Throughout (Guarded Sample.env) past :=
    throughout_of_at fun x before hx =>
      Sample.guarded_of_opensFreely (hr.at hx).1 (hfreely.at hx)
  exact ⟨past, w, x, hr, hx, Sample.opens_iff.1 hopens, hguarded, ⟨user, hrow, hstatus⟩,
    (suspended_without_session Sample.staffed_opening Sample.staffed_sessionFree hr
      hguarded).1⟩

end Kori
