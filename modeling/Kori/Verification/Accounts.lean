import Kori.Conduct.Registrations
import Kori.Verification.Attempts

/-!
# Accounts are backed by verified phones

A registration consumes a proof that was stored by the request which had the OTP of
the phone verified.  That request stores one proof, and a proof that has been consumed
is gone.
-/

namespace Kori

open Foundation

section Accounts

variable {env : Env} {shared : Shared} {w w' : KoriWorld} {p q p' q' : Pid}
variable {past before before' : List KoriMoment} {x y c c' s s' v v' : KoriMoment}
variable {beforeC beforeC' beforeS beforeS' beforeV beforeV' : List KoriMoment}
variable {tokenHash phone phone' deviceId deviceId' : JsString}

/-! ## Proofs of verification -/

theorem Ran.consumed
    (h : Ran x p (.consumeRegistrationAuthorization tokenHash phone deviceId) .consumed) :
    ∃ writer, x.1.conf.shared.redis (.registrationAuthorization phone) =
      some ⟨⟨tokenHash, phone, deviceId⟩, writer⟩ := by
  have hout := h.outcome
  simp only [Redis.exec] at hout
  obtain ⟨writer, hproof, -⟩ | ⟨-, status, hstatus, heq⟩ :=
    consumeRegistrationScript_cases x.1.conf.shared.redis tokenHash phone deviceId
  · exact ⟨writer, hproof⟩
  · rw [heq] at hout
    exact absurd hout hstatus

theorem Ran.consumed_spent
    (h : Ran x p (.consumeRegistrationAuthorization tokenHash phone deviceId) .consumed)
    (hm : x.1.move (kori env) x.2 = some w') :
    w'.conf.shared.redis (.registrationAuthorization phone) = none := by
  have hout := h.outcome
  rw [h.after hm]
  simp only [Redis.exec] at hout ⊢
  obtain ⟨writer, -, heq⟩ | ⟨-, status, hstatus, heq⟩ :=
    consumeRegistrationScript_cases x.1.conf.shared.redis tokenHash phone deviceId
  · simp [heq]
  · rw [heq] at hout
    exact absurd hout hstatus

/-- In the moment `c` a proof is consumed which `q` has stored in the moment `s`, after
the OTP for the same phone and device was verified in the moment `v`. -/
structure Redeemed (env : Env) (past : List KoriMoment) (p : Pid)
    (tokenHash phone deviceId : JsString) (c : KoriMoment) (beforeC : List KoriMoment) (q : Pid)
    (s : KoriMoment) (beforeS : List KoriMoment) (v : KoriMoment) (beforeV : List KoriMoment) :
    Prop where
  moment : c :: beforeC <:+ past
  consumed : Ran c p (.consumeRegistrationAuthorization tokenHash phone deviceId) .consumed
  stored : Stored env beforeC (⟨⟨tokenHash, phone, deviceId⟩, q⟩ :
    RedisEntry (.registrationAuthorization phone)) s beforeS
  token : ∃ token, tokenHash = env.sha256 token ∧
    ⟨.randomToken, token⟩ ∈ heard (kori env) q beforeS
  verified : v :: beforeV <:+ beforeS ∧ ∃ challengeId otp maxFailures,
    Ran v q (.verifyOtp phone challengeId deviceId otp maxFailures) .verified

theorem redeemed (hempty : ∀ phone, shared.redis (.registrationAuthorization phone) = none)
    (hr : Run (kori env) (World.idle shared) past w) (hc : c :: beforeC <:+ past)
    (h : Ran c p (.consumeRegistrationAuthorization tokenHash phone deviceId) .consumed) :
    ∃ q s beforeS v beforeV,
      Redeemed env past p tokenHash phone deviceId c beforeC q s beforeS v beforeV := by
  obtain ⟨writer, hproof⟩ := h.consumed
  obtain ⟨s, beforeS, hstored⟩ :=
    run_stored (hr.at hc).1 (by simp [RedisKey.IsCounter]) (hempty phone) hproof
  obtain ⟨nx, hset⟩ := hstored.set
  have hs := hstored.moment.trans ((List.suffix_cons c beforeC).trans hc)
  obtain ⟨call, -, hcommands⟩ := ran_asks hr hs hset (by simp [Op.Free])
  obtain ⟨dto, token, -, hverified, hdrawn, hvalue, -, -⟩ := hcommands.registration
  obtain ⟨rfl, -, rfl⟩ := RegistrationAuthorizationState.mk.inj hvalue
  obtain ⟨v, beforeV, hv, hans⟩ := heard_moment hverified.2
  exact ⟨writer, s, beforeS, v, beforeV, hc, h, hstored, ⟨token, rfl, hdrawn⟩, hv, _, _, _,
    ran_of_answered hans⟩

theorem Redeemed.stored_at (h : Redeemed env past p tokenHash phone deviceId c beforeC q s
    beforeS v beforeV) : s :: beforeS <:+ past :=
  h.stored.moment.trans ((List.suffix_cons c beforeC).trans h.moment)

theorem registration_once (hr : Run (kori env) (World.idle shared) past w)
    (hx : x :: before <:+ past) (hy : y :: before' <:+ past)
    {value value' : RegistrationAuthorizationState} {nx nx' : Bool}
    (hran : Ran x q (.set (.registrationAuthorization phone) value nx) true)
    (hran' : Ran y q (.set (.registrationAuthorization phone') value' nx') true) :
    x = y ∧ before = before' := by
  obtain ⟨call, -, hcommands⟩ := ran_asks hr hx hran (by simp [Op.Free])
  obtain ⟨call', -, hcommands'⟩ := ran_asks hr hy hran' (by simp [Op.Free])
  obtain ⟨dto, token, -, -, -, -, -, rfl⟩ := hcommands.registration
  obtain ⟨dto', token', -, -, -, -, -, rfl⟩ := hcommands'.registration
  exact ran_once hr (fun _ _ _ => registration_never) hx hy hran hran' ⟨_, _, rfl⟩ ⟨_, _, rfl⟩

theorem Redeemed.once (hr : Run (kori env) (World.idle shared) past w) {tokenHash' : JsString}
    (h : Redeemed env past p tokenHash phone deviceId c beforeC q s beforeS v beforeV)
    (h' : Redeemed env past p' tokenHash' phone' deviceId' c' beforeC' q s' beforeS' v'
      beforeV') : c = c' ∧ beforeC = beforeC' := by
  obtain ⟨nx, hset⟩ := h.stored.set
  obtain ⟨nx', hset'⟩ := h'.stored.set
  obtain ⟨rfl, rfl⟩ := registration_once hr h.stored_at h'.stored_at hset hset'
  exact h.stored.once hr h.moment h'.moment h'.stored (fun _ => h.consumed.consumed_spent)
    fun _ => h'.consumed.consumed_spent

theorem registration_token_once
    (hsha : Set.InjOn env.sha256 {token | token ∈ w.conf.shared.tokens})
    (hempty : ∀ phone, shared.redis (.registrationAuthorization phone) = none)
    (hr : Run (kori env) (World.idle shared) past w) (hc : c :: beforeC <:+ past)
    (hc' : c' :: beforeC' <:+ past)
    (h : Ran c p (.consumeRegistrationAuthorization tokenHash phone deviceId) .consumed)
    (h' : Ran c' p' (.consumeRegistrationAuthorization tokenHash phone' deviceId') .consumed) :
    c = c' ∧ beforeC = beforeC' := by
  obtain ⟨q, s, beforeS, v, beforeV, hredeemed⟩ := redeemed hempty hr hc h
  obtain ⟨q', s', beforeS', v', beforeV', hredeemed'⟩ := redeemed hempty hr hc' h'
  obtain ⟨token, htoken, hheard⟩ := hredeemed.token
  obtain ⟨token', htoken', hheard'⟩ := hredeemed'.token
  have hdrawn := (heard_before hredeemed.stored_at).subset hheard
  have hdrawn' := (heard_before hredeemed'.stored_at).subset hheard'
  -- two tokens with one digest are one token, drawn once
  obtain rfl := hsha (token_drawn hr hdrawn) (token_drawn hr hdrawn') (htoken.symm.trans htoken')
  obtain rfl := token_owner hr hdrawn hdrawn'
  exact hredeemed.once hr hredeemed'

theorem registration_refused (hr : Run (kori env) (World.idle shared) past w)
    (hx : x :: before <:+ past) {choice : Choice} (hstep : x.2 = .step p choice)
    {dto : RegisterDto} (hcall : Registers x.1.conf p dto)
    (hm : x.1.move (kori env) x.2 = some w')
    {entry : RedisEntry (.registrationAuthorization phone)}
    (hentry : x.1.conf.shared.redis (.registrationAuthorization phone) = some entry)
    (hwrong : entry.value.tokenHash ≠ env.sha256 dto.registrationToken ∨
      phoneOf env dto.phone ≠ some entry.value.phone ∨ entry.value.deviceId ≠ dto.deviceId) :
    w'.conf.shared.redis (.registrationAuthorization phone) = some entry := by
  rw [← hentry]
  rcases redis_cases hm with hsame | ⟨k, htick, -⟩ | ⟨q, command, a, hran⟩
  · rw [hsame]
  · simp [hstep] at htick
  · rw [hran.after hm]
    by_cases hwrites : command.Writes (.registrationAuthorization phone)
    · obtain rfl : q = p := by
        rcases hran.move with hmove | hmove <;> exact (Move.step.inj (hmove.symm.trans hstep)).1
      obtain ⟨call, hcalled, hcommands⟩ := ran_asks hr hx hran hwrites.not_free
      have hregisters : call = .register dto ∨ call = .registerBusiness dto := by
        rcases hcall with hcall | hcall
        · exact .inl (Option.some.inj (hcalled.symm.trans (hr.called_at hx hcall)))
        · exact .inr (Option.some.inj (hcalled.symm.trans (hr.called_at hx hcall)))
      obtain ⟨hphone, rfl⟩ := hcommands.consume hregisters hwrites
      simp only [Redis.exec]
      obtain ⟨writer, hproof, -⟩ | ⟨-, status, -, heq⟩ := consumeRegistrationScript_cases
        x.1.conf.shared.redis (env.sha256 dto.registrationToken) phone dto.deviceId
      · obtain rfl := Option.some.inj (hentry.symm.trans hproof)
        simp [hphone] at hwrong
      · rw [heq]
    · exact Redis.exec_frame hwrites

/-! ## Accounts -/

/-- In the moment `x` the step of `p` creates the account. -/
structure Created (env : Env) (x : KoriMoment) (p : Pid) (u : Uuid) (user : User) : Prop where
  step : ∃ choice, x.2 = .step p choice
  fresh : (State.data x.1.conf).row (.user u) = none
  row : ∃ w', x.1.move (kori env) x.2 = some w' ∧ (State.data w'.conf).row (.user u) = some user

variable {u u' : Uuid} {user user' : User} {dto dto' : RegisterDto}

theorem created_registers (hopening : Opening env shared)
    (hr : Run (kori env) (World.idle shared) past w) (hx : x :: before <:+ past)
    (h : Created env x p u user) (hcall : Registers x.1.conf p dto) :
    ⟨.sql (.insert (.user u) user), .ok ()⟩ ∈ heard (kori env) p before ∧
      ProofConsumed env dto user.phone (heard (kori env) p before) := by
  obtain ⟨choice, hstep⟩ := h.step
  obtain ⟨w', hm, hrow⟩ := h.row
  rw [hstep] at hm
  have hnew : (State.data x.1.conf).row (.user u) ≠ some user := by simp [h.fresh]
  obtain ⟨own, -, hown, hv⟩ := run_registers hopening.idle (hr.at hx).1 hm hcall hrow hnew
    (.inl ⟨u, rfl⟩)
  obtain ⟨hinsert, -, hconsumed⟩ := RegisterAsks.user (registers_asked (hr.at hx).1 hcall) hown hv
  exact ⟨hinsert, hconsumed⟩

theorem Created.stays (hopening : Opening env shared)
    (hr : Run (kori env) (World.idle shared) past w) (hx : x :: before <:+ past)
    (h : Created env x p u user) :
    ∃ user', (State.data w.conf).row (.user u) = some user' ∧ user'.phone = user.phone := by
  obtain ⟨w', hm, hrow⟩ := h.row
  obtain ⟨hbefore, w₁, later, hm₁, hlater, -⟩ := hr.at hx
  obtain rfl := Option.some.inj (hm.symm.trans hm₁)
  have hreach : Reachable (kori env) (World.idle shared) w' := .move hbefore.reachable hm trivial
  have hgrows := run_grows ((contract env).sound hopening.sound hreach) hlater.reachable
  obtain ⟨user', hrow', hphone, -⟩ := hgrows.user hrow
  exact ⟨user', hrow', hphone⟩

theorem Created.unused (hopening : Opening env shared)
    (hr : Run (kori env) (World.idle shared) past w) (hx : x :: before <:+ past)
    (h : Created env x p u user) (hrow : (State.data x.1.conf).row (.user u') = some user') :
    user'.phone ≠ user.phone := by
  intro hphone
  obtain ⟨w', hm, hcreated⟩ := h.row
  have hbefore := (hr.at hx).1.reachable
  have hmove : Reachable (kori env) x.1 w' := .move .refl hm trivial
  have hreach : Reachable (kori env) (World.idle shared) w' := .move hbefore hm trivial
  have hgrows := run_grows ((contract env).sound hopening.sound hbefore) hmove
  obtain ⟨user'', hrow', hphone', -⟩ := hgrows.user hrow
  have husers := (run_inv hopening.sound hreach).integrity.users
  have hsame : u' = u := husers.unique hrow' hcreated (congrArg some (hphone'.trans hphone)) rfl
  subst hsame
  simp [h.fresh] at hrow

theorem created_once (hopening : Opening env shared)
    (hr : Run (kori env) (World.idle shared) past w) (hx : x :: before <:+ past)
    (hy : y :: before' <:+ past) (h : Created env x p u user) (h' : Created env y q u user') :
    x = y ∧ before = before' := by
  rcases moments_cases hx hy with hsame | hlater | hlater
  · exact hsame
  · obtain ⟨there, hrow, -⟩ := h.stays hopening (hr.at hy).1 hlater
    simp [h'.fresh] at hrow
  · obtain ⟨there, hrow, -⟩ := h'.stays hopening (hr.at hx).1 hlater
    simp [h.fresh] at hrow

theorem phone_once (hopening : Opening env shared)
    (hr : Run (kori env) (World.idle shared) past w) (hx : x :: before <:+ past)
    (hy : y :: before' <:+ past) (h : Created env x p u user) (h' : Created env y q u' user')
    (hphone : user.phone = user'.phone) : u = u' := by
  obtain ⟨there, hrow, hthere⟩ := h.stays hopening hr hx
  obtain ⟨there', hrow', hthere'⟩ := h'.stays hopening hr hy
  have husers := (run_inv hopening.sound hr.reachable).integrity.users
  exact husers.unique hrow hrow' (congrArg some hthere)
    (congrArg some (hthere'.trans hphone.symm))

/-! ## Backing -/

/-- In the moment `v` a challenge for the phone and the device is verified. -/
def VerifiedFor (v : KoriMoment) (phone deviceId : JsString) : Prop :=
  ∃ q challengeId otp maxFailures,
    Ran v q (.verifyOtp phone challengeId deviceId otp maxFailures) .verified ∧
      v.1.conf.shared.redis.Compares phone challengeId deviceId maxFailures otp

def Backs (env : Env) (past : List KoriMoment) (u : Uuid) (backing : List KoriMoment) : Prop :=
  ∀ x before p user dto, x :: before <:+ past → Created env x p u user →
    Registers x.1.conf p dto → ∃ tokenHash c beforeC q s beforeS v beforeV,
      c :: beforeC <:+ before ∧ backing = v :: beforeV ∧
        Redeemed env past p tokenHash user.phone dto.deviceId c beforeC q s beforeS v beforeV

theorem created_redeemed (hopening : Opening env shared)
    (hempty : ∀ phone, shared.redis (.registrationAuthorization phone) = none)
    (hr : Run (kori env) (World.idle shared) past w) (hx : x :: before <:+ past)
    (h : Created env x p u user) (hcall : Registers x.1.conf p dto) :
    ∃ tokenHash c beforeC q s beforeS v beforeV, c :: beforeC <:+ before ∧
      Redeemed env past p tokenHash user.phone dto.deviceId c beforeC q s beforeS v beforeV := by
  obtain ⟨-, -, hconsumed⟩ := created_registers hopening hr hx h hcall
  obtain ⟨c, beforeC, hc, hans⟩ := heard_moment hconsumed
  have hc' := hc.trans ((List.suffix_cons x before).trans hx)
  obtain ⟨q, s, beforeS, v, beforeV, hredeemed⟩ :=
    redeemed hempty hr hc' (ran_of_answered hans)
  exact ⟨_, c, beforeC, q, s, beforeS, v, beforeV, hc, hredeemed⟩

theorem Created.unique (h : Created env x p u user) (h' : Created env x q u user') :
    p = q ∧ user = user' := by
  obtain ⟨choice, hstep⟩ := h.step
  obtain ⟨choice', hstep'⟩ := h'.step
  obtain ⟨w', hm, hrow⟩ := h.row
  obtain ⟨w'', hm', hrow'⟩ := h'.row
  obtain rfl := Option.some.inj (hm.symm.trans hm')
  exact ⟨(Move.step.inj (hstep.symm.trans hstep')).1, Option.some.inj (hrow.symm.trans hrow')⟩

theorem Registers.unique {c : State} (h : Registers c p dto) (h' : Registers c p dto') :
    dto = dto' := by
  rcases h with h | h <;> rcases h' with h' | h' <;> 
    simpa using h.symm.trans h'

theorem exists_backs (hopening : Opening env shared)
    (hempty : ∀ phone, shared.redis (.registrationAuthorization phone) = none)
    (hr : Run (kori env) (World.idle shared) past w) (u : Uuid) :
    ∃ backing, Backs env past u backing := by
  by_cases hcreated : ∃ x before p user dto, x :: before <:+ past ∧ Created env x p u user ∧
      Registers x.1.conf p dto
  · obtain ⟨x, before, p, user, dto, hx, h, hcall⟩ := hcreated
    obtain ⟨tokenHash, c, beforeC, q, s, beforeS, v, beforeV, hc, hredeemed⟩ :=
      created_redeemed hopening hempty hr hx h hcall
    refine ⟨v :: beforeV, ?_⟩
    intro y before' p' user' dto' hy h' hcall'
    obtain ⟨rfl, rfl⟩ := created_once hopening hr hx hy h h'
    obtain ⟨rfl, rfl⟩ := h.unique h'
    obtain rfl := hcall.unique hcall'
    exact ⟨tokenHash, c, beforeC, q, s, beforeS, v, beforeV, hc, rfl, hredeemed⟩
  · refine ⟨[], ?_⟩
    intro x before p user dto hx h hcall
    exact absurd ⟨x, before, p, user, dto, hx, h, hcall⟩ hcreated

theorem Backs.injective (hopening : Opening env shared)
    (hr : Run (kori env) (World.idle shared) past w) {backing : List KoriMoment}
    (h : Backs env past u backing) (h' : Backs env past u' backing) (hx : x :: before <:+ past)
    (hy : y :: before' <:+ past) (hcreated : Created env x p u user)
    (hcreated' : Created env y q u' user') (hcall : Registers x.1.conf p dto)
    (hcall' : Registers y.1.conf q dto') : u = u' := by
  obtain ⟨tokenHash, c, beforeC, o, s, beforeS, v, beforeV, -, rfl, hredeemed⟩ :=
    h x before p user dto hx hcreated hcall
  obtain ⟨tokenHash', c', beforeC', o', s', beforeS', v', beforeV', -, heq, hredeemed'⟩ :=
    h' y before' q user' dto' hy hcreated' hcall'
  obtain ⟨rfl, rfl⟩ := List.cons.inj heq
  -- the OTP was verified for one request, which has stored one proof
  obtain ⟨-, challengeId, otp, maxFailures, hran⟩ := hredeemed.verified
  obtain ⟨-, challengeId', otp', maxFailures', hran'⟩ := hredeemed'.verified
  obtain ⟨rfl, -⟩ := hran.unique hran'
  obtain ⟨rfl, rfl⟩ := hredeemed.once hr hredeemed'
  -- which was consumed by one registration
  obtain ⟨rfl, -⟩ := hredeemed.consumed.unique hredeemed'.consumed
  obtain ⟨hinsert, -⟩ := created_registers hopening hr hx hcreated hcall
  obtain ⟨hinsert', -⟩ := created_registers hopening hr hy hcreated' hcall'
  have hregisters : Registers w.conf p dto := hcall.imp (hr.called_at hx) (hr.called_at hx)
  exact RegisterAsks.one_user (registers_asked hr hregisters)
    ((heard_before hx).subset hinsert) ((heard_before hy).subset hinsert')

/-- While all devices can be sent, every account is backed by a verification of its phone; a
registration token is consumed once, a wrong one consumes nothing, and a phone has one
account. -/
theorem accounts_backed (hopening : Opening env shared)
    (hempty : ∀ phone, shared.redis (.registrationAuthorization phone) = none)
    (hsha : Set.InjOn env.sha256 {token | token ∈ w.conf.shared.tokens})
    (hr : Run (kori env) (World.idle shared) past w) (hdevices : DevicesSendable past) :
    (∃ backing : Uuid → List KoriMoment,
      (∀ x before p u user dto, x :: before <:+ past → Created env x p u user →
        Registers x.1.conf p dto → phoneOf env dto.phone = some user.phone ∧
          ∃ v beforeV, backing u = v :: beforeV ∧ v :: beforeV <:+ before ∧
            VerifiedFor v user.phone dto.deviceId) ∧
      ∀ x before p u user dto y before' q u' user' dto', x :: before <:+ past →
        y :: before' <:+ past → Created env x p u user → Created env y q u' user' →
        Registers x.1.conf p dto → Registers y.1.conf q dto' → backing u = backing u' →
        u = u') ∧
    (∀ c beforeC c' beforeC' p p' token phone phone' deviceId deviceId',
      c :: beforeC <:+ past → c' :: beforeC' <:+ past →
      Received c p (.consumeRegistrationAuthorization (env.sha256 token) phone deviceId)
        .consumed →
      Received c' p' (.consumeRegistrationAuthorization (env.sha256 token) phone' deviceId')
        .consumed → c = c' ∧ beforeC = beforeC') ∧
    (∀ x before w' p choice dto phone, x :: before <:+ past → x.2 = .step p choice →
      Registers x.1.conf p dto → x.1.move (kori env) x.2 = some w' →
      ∀ entry : RedisEntry (.registrationAuthorization phone),
        x.1.conf.shared.redis (.registrationAuthorization phone) = some entry →
        entry.value.tokenHash ≠ env.sha256 dto.registrationToken ∨
          phoneOf env dto.phone ≠ some entry.value.phone ∨
          entry.value.deviceId ≠ dto.deviceId →
        w'.conf.shared.redis (.registrationAuthorization phone) = some entry ∧
          ∀ command a, Received x p command a →
            (x.1.conf.shared.redis.exec p command.received).2 (.registrationAuthorization phone) =
              some entry) ∧
    ∀ x before p u user, x :: before <:+ past → Created env x p u user →
      (∀ u' user', (State.data x.1.conf).row (.user u') = some user' →
        user'.phone ≠ user.phone) ∧
      ∀ y before' q u' user', y :: before' <:+ past → Created env y q u' user' →
        user.phone = user'.phone → u = u' ∧ x = y ∧ before = before' := by
  refine ⟨?_, ?_, ?_, ?_⟩
  · choose backing hbacking using exists_backs hopening hempty hr
    refine ⟨backing, ?_, ?_⟩
    · intro x before p u user dto hx h hcall
      obtain ⟨-, hphone, -⟩ := created_registers hopening hr hx h hcall
      obtain ⟨tokenHash, c, beforeC, q, s, beforeS, v, beforeV, hc, hv, hredeemed⟩ :=
        hbacking u x before p user dto hx h hcall
      obtain ⟨hsuffix, challengeId, otp, maxFailures, hran⟩ := hredeemed.verified
      refine ⟨hphone, v, beforeV, hv, ?_, q, challengeId, otp, maxFailures, hran,
        hran.compares⟩
      exact hsuffix.trans ((List.suffix_cons s beforeS).trans
        (hredeemed.stored.moment.trans ((List.suffix_cons c beforeC).trans hc)))
    · intro x before p u user dto y before' q u' user' dto' hx hy h h' hcall hcall' heq
      have hbacking' : Backs env past u' (backing u) := heq ▸ hbacking u'
      exact (hbacking u).injective hopening hr hbacking' hx hy h h' hcall hcall'
  · intro c beforeC c' beforeC' p p' token phone phone' deviceId deviceId' hc hc' h h'
    exact registration_token_once hsha hempty hr hc hc' (h.consumes hr hdevices hc)
      (h'.consumes hr hdevices hc')
  · intro x before w' p choice dto phone hx hstep hcall hm entry hentry hwrong
    have hsame := registration_refused hr hx hstep hcall hm hentry hwrong
    refine ⟨hsame, ?_⟩
    intro command a h
    rw [run_received hr hdevices hx h.sent, ← h.sent.after hm]
    exact hsame
  · intro x before p u user hx h
    refine ⟨fun u' user' hrow => h.unused hopening hr hx hrow, ?_⟩
    intro y before' q u' user' hy h' hphone
    obtain rfl := phone_once hopening hr hx hy h h' hphone
    exact ⟨rfl, created_once hopening hr hx hy h h'⟩

end Accounts

namespace Sample

def verifyOtpMoves (p : Pid) (dto : VerifyOtpDto) : List KoriMove :=
  .arrive p (.verifyOtp dto) :: [.go, .go, .text (js "t"), .go].map (.step p)

def registerDto : RegisterDto := ⟨⟨js "3", js "1234", js "e"⟩, js "t"⟩

def registerMoves (p : Pid) (dto : RegisterDto) (u : Uuid) : List KoriMove :=
  .arrive p (.register dto) :: [.go, .go, .text dto.pin, .go, .uuid u, .go, .go, .uuid 51,
    .uuid 52, .uuid 13, .go, .go, .uuid 23, .instant time, .go, .go].map (.step p)

def creates (p : Pid) (dto : RegisterDto) (u : Uuid) (w w' : KoriWorld) : Bool :=
  ((State.data w.conf).row (.user u)).isNone ∧ w.conf.calls p = some (.register dto) ∧
    ((State.data w'.conf).row (.user u)).any fun user => user.phone = dto.phone

def createsAt (x : KoriMoment) (p : Pid) (dto : RegisterDto) (u : Uuid) : Bool :=
  match x.2 with
  | .step q .go => decide (q = p) &&
      (x.1.move (kori env) (.step q .go)).any (creates q dto u x.1)
  | _ => false

theorem created_of_createsAt {x : KoriMoment} {p : Pid} {dto : RegisterDto} {u : Uuid}
    (h : createsAt x p dto u = true) : ∃ user, Created env x p u user ∧
      x.1.conf.calls p = some (.register dto) ∧ user.phone = dto.phone := by
  unfold createsAt at h
  split at h
  · rename_i q hmove
    simp only [Bool.and_eq_true, decide_eq_true_eq] at h
    obtain ⟨rfl, hcreates⟩ := h
    obtain ⟨w', hm, hw⟩ := (Option.any_eq_true _ _).1 hcreates
    obtain ⟨hnone, hcall, hsome⟩ := of_decide_eq_true hw
    obtain ⟨user, hrow, hphone⟩ := (Option.any_eq_true _ _).1 hsome
    rw [← hmove] at hm
    exact ⟨user, ⟨⟨.go, hmove⟩, Option.isNone_iff_eq_none.1 hnone, w', hm, hrow⟩, hcall,
      of_decide_eq_true hphone⟩
  · simp at h

def consumes (x : KoriMoment) (p : Pid) (tokenHash phone deviceId : JsString) : Bool :=
  sendsAt x p fun
    | .consumeRegistrationAuthorization tokenHash' phone' deviceId' =>
        tokenHash' = tokenHash ∧ phone' = phone ∧ deviceId' = deviceId ∧
          (x.1.conf.shared.redis.exec p (.consumeRegistrationAuthorization tokenHash' phone'
            (toWellFormed deviceId'))).1 = .consumed
    | _ => false

theorem received_of_consumes {x : KoriMoment} {p : Pid} {tokenHash phone deviceId : JsString}
    (h : consumes x p tokenHash phone deviceId = true) : x.2 = .step p .go ∧
      Received x p (.consumeRegistrationAuthorization tokenHash phone deviceId) .consumed := by
  obtain ⟨hmove, command, htest, hreceived⟩ := received_of_sendsAt h
  cases command with
  | consumeRegistrationAuthorization tokenHash' phone' deviceId' =>
      obtain ⟨rfl, rfl, rfl, hconsumed⟩ := of_decide_eq_true htest
      exact ⟨hmove, hreceived _ hconsumed⟩
  | _ => simp at htest

def presentationMoves (deviceId deviceId' : JsString) : List KoriMove :=
  sendOtpMoves 0 ⟨js "3", deviceId⟩ 77 123456 ++
    verifyOtpMoves 1 ⟨⟨js "3", deviceId⟩, js "123456", uuidText 77, none⟩ ++
    [.arrive 2 (.register ⟨⟨js "3", js "1234", deviceId'⟩, js "t"⟩), .step 2 .go]

end Sample

theorem accounts_backed_of_registration : ∃ past w x before user v beforeV,
    Run (kori Sample.env) (World.idle Sample.shared) past w ∧ x :: before <:+ past ∧
      Created Sample.env x 2 3 user ∧ user.phone = js "3" ∧ v :: beforeV <:+ before ∧
      VerifiedFor v (js "3") (js "e") := by
  obtain ⟨x, before, w, hr, htest⟩ := Sample.last_of
    (Sample.sendOtpMoves 0 Sample.sendOtpDto 77 123456 ++
      Sample.verifyOtpMoves 1 ⟨Sample.sendOtpDto, js "123456", uuidText 77, none⟩ ++
      Sample.registerMoves 2 Sample.registerDto 3 ++ [.step 2 .go])
    (fun x before => (x :: before).all namesSendable &&
      Sample.createsAt x 2 Sample.registerDto 3)
    (by decide +kernel)
  obtain ⟨hsendable, hcreates⟩ := Bool.and_eq_true_iff.1 htest
  obtain ⟨user, hcreated, hcall, hphone⟩ := Sample.created_of_createsAt hcreates
  obtain ⟨backing, hbacked, -⟩ := (accounts_backed Sample.opening (fun _ => rfl)
    Function.injective_id.injOn hr (devicesSendable_of_all hsendable)).1
  obtain ⟨-, v, beforeV, -, hv, hverified⟩ := hbacked _ before 2 3 user Sample.registerDto
    (List.suffix_refl _) hcreated (.inl hcall)
  have hthree : user.phone = js "3" := hphone
  exact ⟨_, w, x, before, user, v, beforeV, hr, List.suffix_refl _, hcreated, hthree, hv,
    hthree ▸ hverified⟩

/-- The proof was stored for the device U+FFFD, and is consumed by a registration from a device
that is a surrogate without its other half. -/
theorem proof_consumed_by_other : ∃ past w x before dto,
    ∃ entry : RedisEntry (.registrationAuthorization (js "3")),
      Run (kori Sample.env) (World.idle Sample.shared) past w ∧ x :: before <:+ past ∧
      x.2 = .step 2 .go ∧ Registers x.1.conf 2 dto ∧
      x.1.conf.shared.redis (.registrationAuthorization (js "3")) = some entry ∧
      entry.value.deviceId ≠ dto.deviceId ∧
      ∃ command : RedisCommand, ∃ a, Received x 2 command a ∧
        (x.1.conf.shared.redis.exec 2 command.received).2 (.registrationAuthorization (js "3")) =
          none := by
  let dto : RegisterDto := ⟨⟨js "3", js "1234", [0xD800]⟩, js "t"⟩
  obtain ⟨x, before, w, hr, htest⟩ := Sample.last_of (Sample.presentationMoves [0xFFFD] [0xD800])
    (fun x _ => ((x.1.conf.shared.redis (.registrationAuthorization (js "3"))).any fun entry =>
        entry.value.deviceId = [0xFFFD]) &&
      (decide (x.1.conf.calls 2 = some (.register dto)) &&
        Sample.consumes x 2 (js "t") (js "3") [0xD800]))
    (by decide +kernel)
  simp only [Bool.and_eq_true, decide_eq_true_eq] at htest
  obtain ⟨hstored, hcall, hconsumes⟩ := htest
  obtain ⟨entry, hentry, hdevice⟩ := (Option.any_eq_true _ _).1 hstored
  have hdevice : entry.value.deviceId = [0xFFFD] := of_decide_eq_true hdevice
  obtain ⟨hmove, hreceived⟩ := Sample.received_of_consumes hconsumes
  refine ⟨_, w, x, before, dto, entry, hr, List.suffix_refl _, hmove, .inl hcall, hentry, ?_, _,
    _, hreceived, ?_⟩
  · rw [hdevice]
    decide
  · have hout := hreceived.outcome
    simp only [Redis.exec] at hout ⊢
    obtain ⟨writer, -, heq⟩ | ⟨-, status, hstatus, heq⟩ := consumeRegistrationScript_cases
      x.1.conf.shared.redis (js "t") (js "3") (toWellFormed [0xD800])
    · simp [heq]
    · rw [heq] at hout
      exact absurd hout hstatus

end Kori
