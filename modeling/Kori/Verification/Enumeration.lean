import Kori.Conduct.Footprint
import Kori.Foundation.Hiding

/-!
# Logins with wrong PINs

A login whose PIN is wrong looks into the database, and then does exactly what it does for a
phone without an account.  From outside, such logins are logins that ask nothing but Redis.
-/

namespace Kori

open Foundation Code

section Guesses

variable {env : Env} {t : Data} {dto : AuthCredentialsDto} {phone : JsString}

def PinCorrect (env : Env) (t : Data) (dto : AuthCredentialsDto) : Prop :=
  ∃ phone id user, phoneOf env dto.phone = some phone ∧
    t.accountByPhone phone = some (id, user) ∧ env.verifyPin dto.pin user.pin = true

/-! ## Logins over Redis -/

def failedLogin (env : Env) (dto : AuthCredentialsDto) : Action TokensResponse := do
  let phone ← phoneNumberFrom env dto.phone
  assertLoginNotThrottled phone
  recordLoginFailure env phone
  throw invalidCredentials

def blindLogin (env : Env) (dto : AuthCredentialsDto) : Action Unit :=
  respond do
    validationPipe env (.credentials dto)
    let tokens ← failedLogin env dto
    pure (.tokens tokens)

def Redis.perform (p : Pid) : (op : Op) → Choice → Redis → Option (op.Ans × Redis)
  | .redis command, .go, r => some (.ok (r.exec p command).1, (r.exec p command).2)
  | .redis command, .lost, r => some (.error, (r.exec p command).2)
  | .redis _, .fail, r => some (.error, r)
  | .redis _, .offline, r => some (.offline, r)
  | _, _, _ => none

/-- Any number of such logins over one Redis. -/
def blindLogins (env : Env) :
    System Pid AuthCredentialsDto Reply Exn Redis Choice RedisKey Op Op.Ans where
  code := blindLogin env
  exec := Redis.perform
  abort := fun _ r => r
  tick := fun k r => r.remove k

/-! ## Logins over tables -/

def Op.Reads : Op → Bool
  | .sql (.select _) => true
  | _ => false

def tableAnswers (t : Data) : (op : Op) → Option op.Ans
  | .sql (.select _) => some (.ok t)
  | _ => none

def Op.OnRedis (op : Op) : Prop := ∃ command, op = .redis command

theorem tableAnswers_redis {op : Op} (h : op.OnRedis) : tableAnswers t op = none := by
  obtain ⟨command, rfl⟩ := h
  rfl

theorem given_select {α : Type} {query : Query} {body : Data → Action α} :
    (select query >>= body).given (tableAnswers t) = (body t).given (tableAnswers t) := by
  have hanswer : tableAnswers t (.sql (.select query)) = some (.ok t) := rfl
  exact given_known hanswer

theorem hides_select {α : Type} {query : Query} {body : Data → Action α}
    (hasking : ((body t).given (tableAnswers t)).Asking)
    (hbody : (body t).Hides (tableAnswers t) Op.OnRedis) :
    (select query >>= body).Hides (tableAnswers t) Op.OnRedis := by
  have hanswer : tableAnswers t (.sql (.select query)) = some (.ok t) := rfl
  exact (hides_known hanswer).2 ⟨hasking, hbody⟩

theorem phoneNumberFrom_cases (env : Env) (value : JsString) :
    (∃ phone, phoneOf env value = some phone ∧ phoneNumberFrom env value = pure phone) ∨
      ∃ e, phoneNumberFrom env value = throw e := by
  unfold phoneNumberFrom phoneOf
  dsimp only
  split
  · exact .inr ⟨_, rfl⟩
  · split
    · exact .inr ⟨_, rfl⟩
    · rename_i number hnumber
      exact .inl ⟨number, hnumber, rfl⟩

/-! ## A login whose PIN is wrong -/

theorem recordLoginFailure_onRedis (phone : JsString) :
    (recordLoginFailure env phone).Only Op.OnRedis :=
  recordLoginFailure_only ⟨_, rfl⟩ ⟨_, rfl⟩

theorem recorded (phone : JsString) (rest : Unit → Action TokensResponse) :
    ((recordLoginFailure env phone >>= rest).given (tableAnswers t)).Asking := by
  rw [given_bind, (recordLoginFailure_onRedis phone).given fun _ => tableAnswers_redis]
  trivial

def loginLookup (env : Env) (dto : AuthCredentialsDto) (phone : JsString) :
    Action TokensResponse := do
  let users ← select (.userByPhone phone)
  match users.accountByPhone phone with
  | none => do
      recordLoginFailure env phone
      throw invalidCredentials
  | some (id, user) => do
      let devices ← select (.devices id)
      if env.verifyPin dto.pin user.pin then
        loginVerified env phone dto.deviceId id user (devices.row (.device id dto.deviceId))
      else
        recordLoginFailure env phone
        throw invalidCredentials

theorem login_eq (env : Env) (dto : AuthCredentialsDto) : login env dto = (do
    let phone ← phoneNumberFrom env dto.phone
    assertLoginNotThrottled phone
    loginLookup env dto phone) := by
  refine congrArg (phoneNumberFrom env dto.phone >>= ·) (funext fun phone => ?_)
  refine congrArg (assertLoginNotThrottled phone >>= ·) (funext fun _ => ?_)
  refine congrArg (select (.userByPhone phone) >>= ·) (funext fun users => ?_)
  cases haccount : users.accountByPhone phone <;> simp only [Data.accountByPhone] at haccount <;>
    simp only [haccount]

theorem loginLookup_blind (hphone : phoneOf env dto.phone = some phone)
    (hwrong : ¬PinCorrect env t dto) :
    (loginLookup env dto phone).given (tableAnswers t) = (do
      recordLoginFailure env phone
      throw invalidCredentials) ∧
      (loginLookup env dto phone).Hides (tableAnswers t) Op.OnRedis := by
  have hfail : ((do
      recordLoginFailure env phone
      throw invalidCredentials) : Action TokensResponse).Only Op.OnRedis :=
    (recordLoginFailure_onRedis phone).bind fun _ => only_throw _
  have hgiven := hfail.given fun op (h : op.OnRedis) => tableAnswers_redis (t := t) h
  have hhides := hfail.hides fun op (h : op.OnRedis) => tableAnswers_redis (t := t) h
  unfold loginLookup
  rw [given_select]
  cases haccount : t.accountByPhone phone with
  | none =>
      refine ⟨hgiven, hides_select ?_ ?_⟩
      · simp only [haccount]
        exact recorded phone _
      · simp only [haccount]
        exact hhides
  | some account =>
      obtain ⟨id, user⟩ := account
      have hpin : ¬env.verifyPin dto.pin user.pin = true := fun hpin =>
        hwrong ⟨phone, id, user, hphone, haccount, hpin⟩
      have hdevices : (do
          let devices ← select (.devices id)
          if env.verifyPin dto.pin user.pin then
            loginVerified env phone dto.deviceId id user (devices.row (.device id dto.deviceId))
          else
            recordLoginFailure env phone
            throw invalidCredentials : Action TokensResponse) = (do
          let _ ← select (.devices id)
          recordLoginFailure env phone
          throw invalidCredentials) :=
        congrArg (select (.devices id) >>= ·) (funext fun _ => if_neg hpin)
      refine ⟨?_, hides_select ?_ ?_⟩
      · dsimp only
        rw [hdevices, given_select]
        exact hgiven
      · simp only [haccount, hdevices, given_select]
        exact recorded phone _
      · simp only [haccount, hdevices]
        exact hides_select (recorded phone _) hhides

theorem login_blind (hwrong : ¬PinCorrect env t dto) :
    (login env dto).given (tableAnswers t) = failedLogin env dto ∧
      (login env dto).Hides (tableAnswers t) Op.OnRedis := by
  rw [login_eq]
  unfold failedLogin
  obtain ⟨phone, hphone, heq⟩ | ⟨e, heq⟩ := phoneNumberFrom_cases env dto.phone
  · have hthrottle : (assertLoginNotThrottled phone).Only Op.OnRedis :=
      assertLoginNotThrottled_only ⟨_, rfl⟩
    obtain ⟨hgiven, hhides⟩ := loginLookup_blind hphone hwrong
    rw [heq]
    constructor
    · change (assertLoginNotThrottled phone >>= fun _ => loginLookup env dto phone).given _ =
        assertLoginNotThrottled phone >>= _
      rw [given_bind, hthrottle.given fun _ => tableAnswers_redis, hgiven]
    · change (assertLoginNotThrottled phone >>= fun _ => loginLookup env dto phone).Hides _ _
      exact (hthrottle.hides fun _ => tableAnswers_redis).bind fun _ => hhides
  · rw [heq]
    exact ⟨rfl, trivial⟩

theorem loginEndpoint_blind (hwrong : ¬PinCorrect env t dto) :
    (respond (AuthController.login env dto)).given (tableAnswers t) = blindLogin env dto ∧
      (respond (AuthController.login env dto)).Hides (tableAnswers t) Op.OnRedis := by
  obtain ⟨hgiven, hhides⟩ := login_blind hwrong
  have hpipe : (validationPipe env (.credentials dto)).Only Op.OnRedis := validationPipe_only _
  constructor
  · simp only [respond, blindLogin, AuthController.login, given_bind, given_tryCatch, hgiven,
      hpipe.given fun _ => tableAnswers_redis, given_pure, given_tell]
  · refine Hides.bind (Hides.tryCatch ?_ fun _ => trivial) fun _ => trivial
    exact (hpipe.hides fun _ => tableAnswers_redis).bind fun _ => hhides.bind fun _ => trivial

/-! ## All logins -/

def Call.credentials : Call → Option AuthCredentialsDto
  | .login dto => some dto
  | _ => none

theorem exec_onRedis {p : Pid} {command : RedisCommand} {choice : Choice} {s s' : Shared}
    {a : RedisReply command.Ans}
    (h : Shared.exec env p (.redis command) choice s = some (a, s')) :
    Redis.perform p (.redis command) choice s.redis = some (a, s'.redis) ∧ s'.db = s.db := by
  cases choice <;> simp only [Shared.exec, Option.some.injEq, Prod.mk.injEq, reduceCtorEq] at h
  · obtain ⟨rfl, rfl⟩ := Prod.mk.inj h
    exact ⟨rfl, rfl⟩
  all_goals
    obtain ⟨rfl, rfl⟩ := h
    exact ⟨rfl, rfl⟩

/-- Logins with wrong PINs are seen as logins over Redis. -/
def loginHiding (env : Env) (t : Data) :
    Hiding (kori env) (blindLogins env) Op.Reads Call.credentials where
  answer := tableAnswers t
  visible := Op.OnRedis
  shared := Shared.redis
  inv := fun s => s.db.committed = t ∧ ∀ p, s.db.tx p = none
  fit := fun call => ∃ dto, call = .login dto ∧ ¬PinCorrect env t dto
  ok := fun choice => choice = .go
  answers := by
    intro op
    cases op with
    | sql statement => cases statement <;> rfl
    | _ => rfl
  code := by
    rintro _ ⟨dto, rfl, hwrong⟩
    obtain ⟨hgiven, hhides⟩ := loginEndpoint_blind hwrong
    exact ⟨dto, rfl, hhides, hgiven⟩
  known := by
    rintro p op a choice s b s' ⟨hcommitted, hidle⟩ hanswer rfl hexec
    cases op with
    | sql statement =>
        cases statement with
        | select query =>
            obtain rfl := Option.some.inj hanswer
            simp only [kori, Shared.exec, Store.exec, Option.map_some, Option.some.injEq,
              Prod.mk.injEq] at hexec
            obtain ⟨rfl, rfl⟩ := hexec
            exact ⟨by rw [Store.view_of_idle (hidle p), hcommitted], rfl, hcommitted, hidle⟩
        | _ => simp [tableAnswers] at hanswer
    | _ => simp [tableAnswers] at hanswer
  asked := by
    rintro p _ choice s b s' ⟨hcommitted, hidle⟩ ⟨command, rfl⟩ hexec
    obtain ⟨hperform, hdb⟩ := exec_onRedis hexec
    exact ⟨hperform, hdb ▸ hcommitted, hdb ▸ hidle⟩
  abort := by
    rintro p s ⟨hcommitted, hidle⟩
    refine ⟨rfl, hcommitted, fun q => ?_⟩
    change Function.update s.db.tx p none q = none
    by_cases hq : q = p
    · rw [hq, Function.update_self]
    · rw [Function.update_of_ne hq, hidle q]
  tick := fun hinv => ⟨rfl, hinv⟩

/-- What happened to the logins of a run: when they came, what became of their Redis commands,
which keys expired, which servers died. -/
def attempts (past : List KoriMoment) : List (Move Pid AuthCredentialsDto Choice RedisKey) :=
  seen Op.Reads Call.credentials past

/-- Only logins with wrong PINs arrive, and the database answers. -/
structure Guessing (env : Env) (t : Data) (x : KoriMoment) : Prop where
  arrive : ∀ p call, x.2 = .arrive p call → ∃ dto, call = .login dto ∧ ¬PinCorrect env t dto
  answered : ∀ p choice query, x.2 = .step p choice →
    x.1.pending p = some (.sql (.select query)) → choice = .go

theorem allows_iff {x : KoriMoment} : (loginHiding env t).Allows x ↔ Guessing env t x := by
  constructor
  · intro h
    exact ⟨h.arrive, fun p choice query hstep hpending => h.step p choice _ hstep hpending rfl⟩
  · intro h
    refine ⟨h.arrive, fun p choice op hstep hpending hreads => ?_⟩
    cases op with
    | sql statement =>
        cases statement with
        | select query => exact h.answered p choice query hstep hpending
        | _ => simp [Op.Reads] at hreads
    | _ => simp [Op.Reads] at hreads

theorem loginHiding_complete (t : Data) : (loginHiding env t).Complete where
  known := by
    rintro p op a s ⟨hcommitted, hidle⟩ hanswer
    cases op with
    | sql statement =>
        cases statement with
        | select query =>
            obtain rfl := Option.some.inj hanswer
            refine ⟨.go, s, rfl, ?_⟩
            simp only [kori, Shared.exec, Store.exec, Option.map_some,
              Store.view_of_idle (hidle p), hcommitted]
        | _ => simp [loginHiding, tableAnswers] at hanswer
    | _ => simp [loginHiding, tableAnswers] at hanswer
  asked := by
    rintro p _ choice s b r - ⟨command, rfl⟩ hspec
    cases choice <;> simp only [blindLogins, Redis.perform, Option.some.injEq, Prod.mk.injEq,
      reduceCtorEq] at hspec
    all_goals
      obtain ⟨rfl, -⟩ := hspec
      exact ⟨_, rfl⟩

theorem arrived_of_attempt {past : List KoriMoment} {p : Pid}
    (h : .arrive p dto ∈ attempts past) : ∃ x ∈ past, x.2 = .arrive p (.login dto) := by
  obtain ⟨x, hx, hseen⟩ := List.mem_filterMap.1 (List.mem_reverse.1 h)
  refine ⟨x, hx, ?_⟩
  obtain ⟨w, m⟩ := x
  cases m with
  | arrive q call =>
      cases call with
      | login dto' =>
          simp only [World.seen, Call.credentials, Option.map_some, Option.some.injEq,
            Move.arrive.injEq] at hseen
          rw [hseen.1, hseen.2]
      | _ => simp [World.seen, Call.credentials] at hseen
  | step q choice =>
      simp only [World.seen] at hseen
      split at hseen <;> simp at hseen
  | _ => simp [World.seen] at hseen

/-- Over a second database, attempts with wrong PINs can take the course that they took over
the first; and whenever they do, they get the same answers and leave the same Redis, whichever
accounts there are. -/
theorem logins_reveal_nothing (shared₁ shared₂ : Shared) {past₁ : List KoriMoment}
    {w₁ : KoriWorld} (hredis : shared₁.redis = shared₂.redis)
    (hidle₁ : ∀ p, shared₁.db.tx p = none) (hidle₂ : ∀ p, shared₂.db.tx p = none)
    (hr₁ : Run (kori env) (World.idle shared₁) past₁ w₁)
    (hwrong₁ : ∀ x ∈ past₁, Guessing env shared₁.db.committed x)
    (hwrong₂ : ∀ x ∈ past₁, ∀ p dto, x.2 = .arrive p (.login dto) →
      ¬PinCorrect env shared₂.db.committed dto) :
    (∃ past₂ w₂, Run (kori env) (World.idle shared₂) past₂ w₂ ∧
      (∀ x ∈ past₂, Guessing env shared₂.db.committed x) ∧ attempts past₂ = attempts past₁) ∧
    ∀ past₂ w₂, Run (kori env) (World.idle shared₂) past₂ w₂ →
      (∀ x ∈ past₂, Guessing env shared₂.db.committed x) → attempts past₂ = attempts past₁ →
      w₁.conf.out = w₂.conf.out ∧ w₁.conf.shared.redis = w₂.conf.shared.redis := by
  have hallows₁ := fun x hx => allows_iff.2 (hwrong₁ x hx)
  constructor
  · have hinv₁ : (loginHiding env shared₁.db.committed).inv shared₁ := ⟨rfl, hidle₁⟩
    obtain ⟨b, hrun, -⟩ := Hiding.run_refines hinv₁ hr₁ hallows₁
    have hstart : (loginHiding env shared₂.db.committed).Sees (World.idle shared₂)
        (World.idle shared₂.redis) := .idle ⟨rfl, hidle₂⟩
    have hfit : ∀ p dto, .arrive p dto ∈ attempts past₁ →
        ∃ call, (loginHiding env shared₂.db.committed).fit call ∧ call.credentials = some dto := by
      intro p dto hmem
      obtain ⟨x, hx, harrive⟩ := arrived_of_attempt hmem
      exact ⟨.login dto, ⟨dto, rfl, hwrong₂ x hx p dto harrive⟩, rfl⟩
    change (World.idle shared₁.redis).run (blindLogins env) (attempts past₁) = some b at hrun
    rw [hredis] at hrun
    obtain ⟨past₂, w₂, hr₂, hallows₂, hseen, -⟩ :=
      Hiding.run_complete (loginHiding_complete _) hstart hrun hfit
    exact ⟨past₂, w₂, hr₂, fun x hx => allows_iff.1 (hallows₂ x hx), hseen⟩
  · intro past₂ w₂ hr₂ hguess₂ hsame
    exact Hiding.runs_agree (loginHiding env _) (loginHiding env _) ⟨rfl, hidle₁⟩
      ⟨rfl, hidle₂⟩ hredis hr₁ hr₂ hallows₁ (fun x hx => allows_iff.2 (hguess₂ x hx)) hsame.symm

end Guesses

namespace Sample

def deserted : Shared := { shared with db := .quiet .empty }

def guess : AuthCredentialsDto := ⟨js "1", js "0000", js "d"⟩

def guessMoves : List KoriMove :=
  .arrive 0 (.login guess) :: List.replicate 4 (.step 0 .go)

theorem guess_wrong (t : Data) (h : t.accountByPhone (js "1") = some (1, customer (js "1")) ∨
    t.accountByPhone (js "1") = none) : ¬PinCorrect env t guess := by
  rintro ⟨phone, id, user, hphone, haccount, hpin⟩
  obtain rfl : js "1" = phone := Option.some.inj hphone
  obtain h | h := h <;> rw [h] at haccount
  · obtain ⟨-, rfl⟩ := Prod.mk.inj (Option.some.inj haccount)
    exact absurd hpin (by decide)
  · simp at haccount

end Sample

/-- The guess is answered as it would be if nobody had an account. -/
theorem logins_reveal_nothing_of_guess : ∃ past₁ w₁ past₂ w₂,
    Run (kori Sample.env) (World.idle Sample.shared) past₁ w₁ ∧
      Run (kori Sample.env) (World.idle Sample.deserted) past₂ w₂ ∧
      attempts past₂ = attempts past₁ ∧ w₁.conf.out = [(0, .failed invalidCredentials)] ∧
      w₁.conf.out = w₂.conf.out ∧ w₁.conf.shared.redis = w₂.conf.shared.redis := by
  have hrun : (((World.idle Sample.shared).moments (kori Sample.env) Sample.guessMoves).any
      fun run => run.2.conf.out = [(0, .failed invalidCredentials)]) = true := by decide +kernel
  obtain ⟨⟨past₁, w₁⟩, hrun, hout⟩ := (Option.any_eq_true _ _).1 hrun
  obtain ⟨hr₁, hmoves⟩ := run_of_moments hrun
  have hmade : ∀ x ∈ past₁, x.2 = .arrive 0 (.login Sample.guess) ∨ x.2 = .step 0 .go := by
    intro x hx
    have hmem : x.2 ∈ Sample.guessMoves.reverse := hmoves ▸ List.mem_map_of_mem hx
    obtain h | hmem := List.mem_cons.1 (List.mem_reverse.1 hmem)
    · exact .inl h
    · exact .inr (List.eq_of_mem_replicate hmem)
  have hwrong := Sample.guess_wrong Sample.data (.inl (by decide +kernel))
  have hguess : ∀ x ∈ past₁, Guessing Sample.env Sample.shared.db.committed x := by
    intro x hx
    obtain h | h := hmade x hx
    · refine ⟨fun p call harrive => ?_, fun p choice query hstep => by simp [h] at hstep⟩
      obtain ⟨-, rfl⟩ := Move.arrive.inj (h.symm.trans harrive)
      exact ⟨_, rfl, hwrong⟩
    · refine ⟨fun p call harrive => by simp [h] at harrive, fun p choice query hstep _ => ?_⟩
      exact (Move.step.inj (h.symm.trans hstep)).2.symm
  have hdeserted : ∀ x ∈ past₁, ∀ p dto, x.2 = .arrive p (.login dto) →
      ¬PinCorrect Sample.env Sample.deserted.db.committed dto := by
    intro x hx p dto harrive
    obtain h | h := hmade x hx
    · obtain ⟨-, heq⟩ := Move.arrive.inj (h.symm.trans harrive)
      obtain rfl := Call.login.inj heq
      exact Sample.guess_wrong _ (.inr rfl)
    · simp [h] at harrive
  obtain ⟨⟨past₂, w₂, hr₂, hguess₂, hsame⟩, hagree⟩ := logins_reveal_nothing
    Sample.shared Sample.deserted rfl (fun _ => rfl) (fun _ => rfl) hr₁ hguess hdeserted
  obtain ⟨hreplies, hredis⟩ := hagree past₂ w₂ hr₂ hguess₂ hsame
  exact ⟨past₁, w₁, past₂, w₂, hr₁, hr₂, hsame, of_decide_eq_true hout, hreplies, hredis⟩

end Kori
