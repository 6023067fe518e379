import Kori.Verification.Challenges

/-!
# Logins that are under way

A login that has not been throttled looks up the account, compares the PIN and counts
a failure, in this order, and imposes the throttle when the count reaches the limit.
What it does next tells how far it has come.
-/

namespace Kori

open Foundation

section Logins

variable {env : Env} {shared : Shared} {w w' : KoriWorld} {m : KoriMove} {p q : Pid}
variable {past : List KoriMoment} {x : KoriMoment} {phone : JsString} {op op' : Op}
variable {h₀ before : History} {dto : AuthCredentialsDto} {choice : Choice}

/-! ## The rules of a login -/

theorem LoginAsks.failing (h : LoginAsks env dto phone h₀ op)
    (hfails : LoginFails env dto phone h₀) : op = .redis (.incrementWithTtl phone) := by
  have hpin : ∀ {id user devices}, ¬PinVerified env dto phone id user devices h₀ :=
    fun hverified => hverified.not_fails hfails
  cases h with
  | record _ => rfl
  | throttle hpast =>
      subst hpast
      exact absurd hfails LoginFails.not_nil
  | account hpast =>
      subst hpast
      cases hfails
  | compare hpast haccount =>
      cases hfails with
      | noAccount hnone =>
          simp only [lookup, List.cons.injEq, Entry.mk.injEq, heq_eq_eq, Except.ok.injEq,
            true_and, and_true] at hpast
          simp [hpast, haccount] at hnone
      | wrongPin _ _ =>
          have hlength := congrArg List.length hpast
          simp [comparison, lookup] at hlength
  | impose hpast _ _ =>
      subst hpast
      obtain ⟨t, heq⟩ | ⟨id, devices, heq⟩ := hfails.of_cons <;> simp at heq
  | turn hverified | forget hverified | release hverified | token hverified
  | issue hverified _ _ _ | establish hverified _ _ => exact absurd hverified hpin

theorem LoginAsks.counted {count : Nat}
    (h : LoginAsks env dto phone (⟨.redis (.incrementWithTtl phone), .ok count⟩ :: before) op)
    (hfails : LoginFails env dto phone before) :
    op = .redis (.set (.loginThrottle phone) () false) ∧ (count : Int) ≥ env.loginMaxFailures := by
  have hpin : ∀ {id user devices}, ¬PinVerified env dto phone id user devices
      (⟨.redis (.incrementWithTtl phone), .ok count⟩ :: before) := by
    rintro id user devices ⟨⟨t, haccount, hsuffix⟩, hpin⟩
    rcases List.suffix_cons_iff.1 hsuffix with hall | hsuffix
    · simp [comparison] at hall
    · exact PinVerified.not_fails ⟨⟨t, haccount, hsuffix⟩, hpin⟩ hfails
  cases h with
  | throttle hpast => simp at hpast
  | account hpast => simp [unthrottled] at hpast
  | compare hpast _ => simp [lookup] at hpast
  | record hnow =>
      obtain ⟨t, heq⟩ | ⟨id, devices, heq⟩ := hnow.of_cons <;> simp at heq
  | impose hpast _ hlimit =>
      obtain ⟨heq, rfl⟩ := List.cons.inj hpast
      obtain rfl : count = _ := by simpa using heq
      exact ⟨rfl, hlimit⟩
  | turn hverified | forget hverified | release hverified | token hverified
  | issue hverified _ _ _ | establish hverified _ _ => exact absurd hverified hpin

/-! ## What a login does next -/

/-- `p` serves a login for the phone and is about to make the operation. -/
structure AboutTo (env : Env) (phone : JsString) (w : KoriWorld) (p : Pid) (op : Op) : Prop where
  login : ∃ dto, w.conf.calls p = some (.login dto) ∧ phoneOf env dto.phone = some phone
  pending : w.pending p = some op

def Reading (env : Env) (phone : JsString) (w : KoriWorld) (p : Pid) : Prop :=
  AboutTo env phone w p (.redis (.get (.loginThrottle phone)))

def Comparing (env : Env) (phone : JsString) (w : KoriWorld) (p : Pid) : Prop :=
  ∃ id, AboutTo env phone w p (.sql (.select (.devices id)))

def Recording (env : Env) (phone : JsString) (w : KoriWorld) (p : Pid) : Prop :=
  AboutTo env phone w p (.redis (.incrementWithTtl phone))

def Imposing (env : Env) (phone : JsString) (w : KoriWorld) (p : Pid) : Prop :=
  AboutTo env phone w p (.redis (.set (.loginThrottle phone) () false))

inductive Op.Unsettled (phone : JsString) : Op → Prop
  | account : Op.Unsettled phone (.sql (.select (.userByPhone phone)))
  | compare {id : Uuid} : Op.Unsettled phone (.sql (.select (.devices id)))
  | record : Op.Unsettled phone (.redis (.incrementWithTtl phone))

/-- `p` has not been throttled, and its failure, if it comes to that, is not counted yet. -/
def InFlight (env : Env) (phone : JsString) (w : KoriWorld) (p : Pid) : Prop :=
  ∃ op, AboutTo env phone w p op ∧ op.Unsettled phone

theorem AboutTo.unique (h : AboutTo env phone w p op) (h' : AboutTo env phone w p op') :
    op = op' := Option.some.inj (h.pending.symm.trans h'.pending)

theorem login_due (hr : Run (kori env) (World.idle shared) past w)
    (hcall : w.conf.calls p = some (.login dto)) (hphone : phoneOf env dto.phone = some phone)
    (halive : (w.procs p).isSome) :
    (w.pending p = none → LoginEnds env dto phone (heard (kori env) p past)) ∧
      ∀ op, w.pending p = some op → LoginAsks env dto phone (heard (kori env) p past) op := by
  obtain ⟨hends, hasks⟩ := hr.due obeyed hcall halive
  refine ⟨fun hnone => hends hnone phone hphone, fun op hop => ?_⟩
  obtain ⟨-, phone', hphone', hasks⟩ := hasks op hop
  exact Option.some.inj (hphone'.symm.trans hphone) ▸ hasks

theorem AboutTo.asks (h : AboutTo env phone w p op)
    (hr : Run (kori env) (World.idle shared) past w) :
    ∃ dto, w.conf.calls p = some (.login dto) ∧ phoneOf env dto.phone = some phone ∧
      LoginAsks env dto phone (heard (kori env) p past) op := by
  obtain ⟨dto, hcall, hphone⟩ := h.login
  have halive : (w.procs p).isSome := by
    cases hproc : w.procs p with
    | none => simpa [World.pending, hproc] using h.pending
    | some _ => rfl
  exact ⟨dto, hcall, hphone, (login_due hr hcall hphone halive).2 op h.pending⟩

theorem pending_answered {e : Entry Op Op.Ans}
    (hans : w.answered (kori env) m = some (p, e)) : w.pending p = some e.op := by
  obtain ⟨choice, next, s, -, hproc, -⟩ := World.answered_cases hans
  rw [World.pending, hproc]
  rfl

theorem pending_other (hm : w.move (kori env) m = some w') (harrive : ∀ call, m ≠ .arrive p call)
    (hstep : ∀ choice, m ≠ .step p choice) (hcrash : m ≠ .crash p) :
    w'.pending p = w.pending p ∧ w'.conf.calls p = w.conf.calls p := by
  cases m with
  | arrive q call =>
      have hpq : p ≠ q := fun heq => harrive call (heq ▸ rfl)
      simp only [World.move] at hm
      split at hm
      · simp at hm
      · obtain rfl := Option.some.inj hm
        simp [World.pending, World.leave, Function.update_of_ne hpq]
  | step q choice =>
      have hpq : p ≠ q := fun heq => hstep choice (heq ▸ rfl)
      obtain ⟨op, next, a, s, -, -, rfl⟩ := World.step_cases hm
      simp [World.pending, World.leave, Function.update_of_ne hpq]
  | crash q =>
      have hpq : p ≠ q := fun heq => hcrash (heq ▸ rfl)
      simp only [World.move] at hm
      split at hm
      · simp at hm
      · obtain rfl := Option.some.inj hm
        simp [World.pending, Function.update_of_ne hpq]
  | tick k =>
      obtain rfl := Option.some.inj hm
      exact ⟨rfl, rfl⟩

theorem AboutTo.stays (h : AboutTo env phone w p op) (hm : w.move (kori env) m = some w')
    (hstep : ∀ choice, m ≠ .step p choice) (hcrash : m ≠ .crash p) :
    AboutTo env phone w' p op := by
  obtain ⟨dto, hcall, hphone⟩ := h.login
  have harrive : ∀ call, m ≠ .arrive p call := by
    rintro call rfl
    simp [World.move, hcall] at hm
  obtain ⟨hpending, hcalls⟩ := pending_other hm harrive hstep hcrash
  exact ⟨⟨dto, hcalls.trans hcall, hphone⟩, hpending.trans h.pending⟩

inductive Comes (env : Env) (phone : JsString) (past : List KoriMoment) (w : KoriWorld)
    (m : KoriMove) (p : Pid) (op : Op) : Prop
  | before : (∀ choice, m ≠ .step p choice) → AboutTo env phone w p op →
      Comes env phone past w m p op
  | first {dto : AuthCredentialsDto} : LoginAsks env dto phone [] op → Comes env phone past w m p op
  | next {dto : AuthCredentialsDto} {e : Entry Op Op.Ans} :
      w.conf.calls p = some (.login dto) → phoneOf env dto.phone = some phone →
      w.answered (kori env) m = some (p, e) →
      LoginAsks env dto phone (e :: heard (kori env) p past) op → Comes env phone past w m p op

theorem AboutTo.comes (h : AboutTo env phone w' p op)
    (hr : Run (kori env) (World.idle shared) past w) (hm : w.move (kori env) m = some w') :
    Comes env phone past w m p op := by
  obtain ⟨dto, hcall, hphone, hasks⟩ := h.asks (.cons hr hm)
  cases m with
  | arrive q call =>
      by_cases hpq : p = q
      · subst q
        have hnone : w.conf.calls p = none := by
          simp only [World.move] at hm
          split at hm
          · simp at hm
          · assumption
        rw [heard_cons_other (by simp [World.answered]),
          (((hr.kept obeyed).1 p).unheard hnone).1] at hasks
        exact .first hasks
      · obtain ⟨hpending, hcalls⟩ := pending_other (p := p) hm
          (by simp [Ne.symm hpq]) (by simp) (by simp)
        exact .before (by simp) ⟨⟨dto, hcalls ▸ hcall, hphone⟩, hpending ▸ h.pending⟩
  | step q choice =>
      by_cases hpq : p = q
      · subst q
        obtain ⟨op', next, a, s, hproc, hexec, rfl⟩ := World.step_cases hm
        have hans : w.answered (kori env) (.step p choice) = some (p, ⟨op', a⟩) :=
          World.answered_step hproc hexec
        rw [heard_cons_self hans] at hasks
        exact .next hcall hphone hans hasks
      · obtain ⟨hpending, hcalls⟩ := pending_other (p := p) hm (by simp) (by simp [Ne.symm hpq])
          (by simp)
        exact .before (by simp [Ne.symm hpq])
          ⟨⟨dto, hcalls ▸ hcall, hphone⟩, hpending ▸ h.pending⟩
  | crash q =>
      by_cases hpq : p = q
      · subst q
        have hpending := h.pending
        simp only [World.move] at hm
        split at hm
        · simp at hm
        · obtain rfl := Option.some.inj hm
          simp [World.pending] at hpending
      · obtain ⟨hpending, hcalls⟩ := pending_other (p := p) hm (by simp) (by simp)
          (by simp [Ne.symm hpq])
        exact .before (by simp) ⟨⟨dto, hcalls ▸ hcall, hphone⟩, hpending ▸ h.pending⟩
  | tick k =>
      obtain ⟨hpending, hcalls⟩ := pending_other (p := p) hm (by simp) (by simp) (by simp)
      exact .before (by simp) ⟨⟨dto, hcalls ▸ hcall, hphone⟩, hpending ▸ h.pending⟩

theorem LoginAsks.unsettled {e : Entry Op Op.Ans} (h : LoginAsks env dto phone (e :: h₀) op)
    (hop : op.Unsettled phone) : e = Kori.unthrottled phone ∨
      e.op.Unsettled phone ∧ e.op ≠ .redis (.incrementWithTtl phone) := by
  cases hop with
  | account =>
      cases h with
      | account hpast => exact .inl (List.cons.inj hpast).1
      | establish _ _ hasks => cases hasks
  | compare =>
      cases h with
      | compare hpast _ =>
          obtain ⟨rfl, -⟩ := List.cons.inj hpast
          exact .inr ⟨.account, by simp⟩
      | establish _ _ hasks => cases hasks
  | record =>
      cases h with
      | record hfails =>
          obtain ⟨t, rfl⟩ | ⟨id, devices, rfl⟩ := hfails.of_cons
          · exact .inr ⟨.account, by simp⟩
          · exact .inr ⟨.compare, by simp⟩
      | establish _ _ hasks => cases hasks

theorem LoginAsks.settled (h : LoginAsks env dto phone [] op) : ¬op.Unsettled phone := by
  intro hop
  cases hop with
  | account =>
      cases h with
      | account hpast => simp at hpast
      | establish _ _ hasks => cases hasks
  | compare =>
      cases h with
      | compare hpast _ => simp [lookup] at hpast
      | establish _ _ hasks => cases hasks
  | record =>
      cases h with
      | record hfails => exact LoginFails.not_nil hfails
      | establish _ _ hasks => cases hasks

/-- A login gets under way by reading that it is not throttled; it has settled once its
failure is counted. -/
theorem InFlight.comes (h : InFlight env phone w' p)
    (hr : Run (kori env) (World.idle shared) past w) (hm : w.move (kori env) m = some w') :
    (InFlight env phone w p ∧ ∀ choice, m = .step p choice → ¬Recording env phone w p) ∨
      Reading env phone w p ∧ w.answered (kori env) m = some (p, unthrottled phone) := by
  obtain ⟨op, habout, hop⟩ := h
  cases habout.comes hr hm with
  | before hstep hbefore =>
      exact .inl ⟨⟨op, hbefore, hop⟩, fun choice heq => absurd heq (hstep choice)⟩
  | first hasks => exact absurd hop hasks.settled
  | @next dto e hcall hphone hans hasks =>
      obtain rfl | ⟨hunsettled, hne⟩ := hasks.unsettled hop
      · exact .inr ⟨⟨⟨dto, hcall, hphone⟩, pending_answered hans⟩, hans⟩
      · have hbefore : AboutTo env phone w p e.op := ⟨⟨dto, hcall, hphone⟩, pending_answered hans⟩
        exact .inl ⟨⟨e.op, hbefore, hunsettled⟩, fun _ _ hrecording =>
          hne (hbefore.unique hrecording)⟩

/-! ## Wrong PINs -/

theorem Effect.pin {c : State} {t : Data} {replies : List Reply} {u : Uuid} {user : User}
    (h : Effect env p c t replies) (hrow : c.data.row (.user u) = some user) :
    ∃ user', t.row (.user u) = some user' ∧ user'.pin = user.pin := by
  have hsame : ∀ {t' : Data}, t'.row (.user u) = c.data.row (.user u) →
      ∃ user', t'.row (.user u) = some user' ∧ user'.pin = user.pin :=
    fun heq => ⟨user, heq.trans hrow, rfl⟩
  cases h with
  | none _ => exact hsame rfl
  | replayed _ _ => exact hsame rfl
  | transferred hpost =>
      exact hsame (TransferOrder.post_row (by simp) (by simp) (by simp) (by simp))
  | @suspended userId user' walletId w devices _ huser _ _ _ _ _ _ _ _ =>
      by_cases hne : u = userId
      · subst userId
        obtain rfl := Option.some.inj (huser.symm.trans hrow)
        refine ⟨{ user' with status := .suspended }, ?_, rfl⟩
        rw [clearDevices_row (by simp), Tables.row_put_self]
      · refine hsame ?_
        rw [clearDevices_row (by simp), Tables.row_put_of_ne (by simpa using hne),
          Tables.row_put_of_ne (by simp)]
  | @reactivated userId user' _ huser _ _ _ =>
      by_cases hne : u = userId
      · subst userId
        obtain rfl := Option.some.inj (huser.symm.trans hrow)
        exact ⟨{ user' with status := .active }, Tables.row_put_self .., rfl⟩
      · exact hsame (Tables.row_put_of_ne (by simpa using hne) ..)
  | @registered id user' walletId type deviceId device sid jti t hnew hclaim =>
      have hne : u ≠ id := by
        rintro rfl
        simp [hnew.newUser] at hrow
      refine hsame ?_
      rw [Data.addAccount_row (by simpa using hne) (by simp) (by simp) (by simp) (by simp)
        (by simp), hclaim.row (by simp)]
  | froze _ _ _ | activated _ _ _ _ _ | device _ _ | enrolledNew _ _ _ _ _ | approved _ _ _
  | renewed _ _ _ => exact hsame (by simp)

theorem run_pin {start : KoriWorld} (hs : (contract env).Sound start)
    (hr : Reachable (kori env) start w) {u : Uuid} {user : User}
    (hrow : (State.data start.conf).row (.user u) = some user) :
    ∃ user', (State.data w.conf).row (.user u) = some user' ∧ user'.pin = user.pin := by
  refine run_preserves (P := fun c => ∃ user', (State.data c).row (.user u) = some user' ∧
    user'.pin = user.pin) hs ⟨user, hrow, rfl⟩ ?_ ?_ hr
  · rintro p c c' - hg ⟨user₁, hrow₁, hpin₁⟩
    obtain ⟨replies, -, heffect⟩ := hg.effect
    obtain ⟨user₂, hrow₂, hpin₂⟩ := heffect.pin hrow₁
    exact ⟨user₂, hrow₂, hpin₂.trans hpin₁⟩
  · rintro c c' hstill ⟨user₁, hrow₁, hpin₁⟩
    exact ⟨user₁, hstill.data ▸ hrow₁, hpin₁⟩

/-- No login for the phone that makes a step in the moment `x` presents the right PIN. -/
def WrongPin (env : Env) (phone : JsString) (x : KoriMoment) : Prop :=
  ∀ p choice dto, x.2 = .step p choice → x.1.conf.calls p = some (.login dto) →
    phoneOf env dto.phone = some phone → ∀ u user,
    Data.accountByPhone (State.data x.1.conf) phone = some (u, user) →
    env.verifyPin dto.pin user.pin = false

theorem WrongPin.unverified (hopening : Opening env shared)
    (hr : Run (kori env) (World.idle shared) past w) (h : WrongPin env phone (w, .step p choice))
    (hcall : w.conf.calls p = some (.login dto)) (hphone : phoneOf env dto.phone = some phone)
    {id : Uuid} {user : User} {t : Data} (haccount : t.accountByPhone phone = some (id, user))
    (hread : ⟨.sql (.select (.userByPhone phone)), .ok t⟩ ∈ heard (kori env) p past) :
    env.verifyPin dto.pin user.pin = false := by
  obtain ⟨hindex, hrow⟩ := accountByPhone_row haccount
  obtain ⟨id', hindex', hsame⟩ :=
    run_read hopening hr hcall (by simp [Call.Touches]) hread hindex
  obtain rfl : id' = id := hsame
  obtain ⟨w₀, hr₀, hlater, hseen⟩ :=
    run_seen hopening.idle hr hcall (by simp [Call.Touches]) hread hrow
  obtain ⟨user', hrow', hpin⟩ := run_pin ((contract env).sound hopening.sound hr₀) hlater hseen
  rw [← hpin]
  refine h p choice dto rfl hcall hphone id' user' ?_
  simp [Data.accountByPhone, hindex', hrow']

theorem WrongPin.not_verified (hopening : Opening env shared)
    (hr : Run (kori env) (World.idle shared) past w) (h : WrongPin env phone (w, .step p choice))
    (hcall : w.conf.calls p = some (.login dto)) (hphone : phoneOf env dto.phone = some phone)
    {id : Uuid} {user : User} {devices : Data} :
    ¬PinVerified env dto phone id user devices (heard (kori env) p past) := by
  rintro ⟨⟨t, haccount, hsuffix⟩, hpin⟩
  have hread : ⟨.sql (.select (.userByPhone phone)), .ok t⟩ ∈ heard (kori env) p past :=
    hsuffix.subset (.tail _ (.head _))
  simp [h.unverified hopening hr hcall hphone haccount hread] at hpin

/-! ## Steps of a login -/

theorem step_answered (hm : w.move (kori env) (.step p choice) = some w') :
    ∃ e, w.answered (kori env) (.step p choice) = some (p, e) ∧ (w'.procs p).isSome ∧
      w'.conf.calls p = w.conf.calls p := by
  obtain ⟨op, next, a, s, hproc, hexec, rfl⟩ := World.step_cases hm
  exact ⟨⟨op, a⟩, World.answered_step hproc hexec, by simp [World.leave], by simp [World.leave]⟩

theorem Comparing.recording (hopening : Opening env shared)
    (hr : Run (kori env) (World.idle shared) past w) (h : Comparing env phone w p)
    (hwrong : WrongPin env phone (w, .step p .go))
    (hm : w.move (kori env) (.step p .go) = some w') : Recording env phone w' p := by
  obtain ⟨id, habout⟩ := h
  obtain ⟨dto, hcall, hphone, hasks⟩ := habout.asks hr
  obtain ⟨⟨op, answer⟩, hans, halive, hcalls⟩ := step_answered hm
  obtain rfl : _ = op := Option.some.inj (habout.pending.symm.trans (pending_answered hans))
  obtain ⟨devices, rfl⟩ : ∃ devices, answer = .ok devices := by
    obtain ⟨choice, s, hstep, hexec⟩ := answered_exec (x := (w, .step p .go)) hans
    obtain ⟨-, rfl⟩ := Move.step.inj hstep
    obtain ⟨hfail, -⟩ | ⟨-, db, hdb, -⟩ := exec_sql hexec
    · simp at hfail
    · simp only [Store.exec, Option.some.injEq, Prod.mk.injEq] at hdb
      exact ⟨_, hdb.1.symm⟩
  have hcons : heard (kori env) p ((w, .step p .go) :: past) =
      ⟨.sql (.select (.devices id)), .ok devices⟩ :: heard (kori env) p past :=
    heard_cons_self hans
  have hfails : LoginFails env dto phone (heard (kori env) p ((w, .step p .go) :: past)) := by
    cases hasks with
    | @compare t _ user hpast haccount =>
        have hread : ⟨.sql (.select (.userByPhone phone)), .ok t⟩ ∈ heard (kori env) p past := by
          rw [hpast]
          exact .head _
        rw [hcons, hpast]
        exact .wrongPin haccount (hwrong.unverified hopening hr hcall hphone haccount hread)
    | establish _ _ hasks => cases hasks
  have hdue := login_due (.cons hr hm) (hcalls.trans hcall) hphone halive
  refine ⟨⟨dto, hcalls.trans hcall, hphone⟩, ?_⟩
  cases hpending : w'.pending p with
  | none => exact absurd hfails (hdue.1 hpending).recorded
  | some op => rw [(hdue.2 op hpending).failing hfails]

theorem Recording.imposing (hr : Run (kori env) (World.idle shared) past w)
    (h : Recording env phone w p) (hm : w.move (kori env) (.step p .go) = some w') {count : Nat}
    (hans : w.answered (kori env) (.step p .go) =
      some (p, ⟨.redis (.incrementWithTtl phone), .ok count⟩))
    (hlimit : (count : Int) ≥ env.loginMaxFailures) : Imposing env phone w' p := by
  obtain ⟨dto, hcall, hphone, hasks⟩ := h.asks hr
  obtain ⟨e, -, halive, hcalls⟩ := step_answered hm
  have hfails : LoginFails env dto phone (heard (kori env) p past) := by
    cases hasks with
    | record hfails => exact hfails
    | establish _ _ hasks => cases hasks
  have hcons : heard (kori env) p ((w, .step p .go) :: past) =
      ⟨.redis (.incrementWithTtl phone), .ok count⟩ :: heard (kori env) p past :=
    heard_cons_self hans
  have hdue := login_due (.cons hr hm) (hcalls.trans hcall) hphone halive
  rw [hcons] at hdue
  refine ⟨⟨dto, hcalls.trans hcall, hphone⟩, ?_⟩
  cases hpending : w'.pending p with
  | none => exact absurd hlimit ((hdue.1 hpending).imposed count _ rfl hfails)
  | some op => rw [((hdue.2 op hpending).counted hfails).1]

end Logins

end Kori
