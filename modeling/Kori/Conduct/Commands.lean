import Kori.Conduct.Keys

/-!
# Redis commands of a call

Which calls may store a challenge, a pointer or a proof, what they know then, and
that they store each of these once.
-/

namespace Kori

open Foundation

variable {env : Env} {shared : Shared} {w w' : KoriWorld} {p q : Pid} {call : Call}
variable {past before before' : List KoriMoment} {x y : KoriMoment} {h₀ : History}
variable {command : RedisCommand} {phone challengeId deviceId : JsString} {nx : Bool}

/-- A command of a call that writes Redis keys. -/
inductive Commands (env : Env) (h₀ : History) (command : RedisCommand) : Call → Prop
  | transfer {request} : Op.OnCache (.redis command) → Commands env h₀ command (.transfer request)
  | sendOtp {dto} : SendOtpAsks env dto h₀ (.redis command) →
      Commands env h₀ command (.sendOtp dto)
  | verifyOtp {dto} : VerifyOtpAsks env dto h₀ (.redis command) →
      Commands env h₀ command (.verifyOtp dto)
  | register {dto} : RegisterAsks env dto h₀ (.redis command) →
      Commands env h₀ command (.register dto)
  | registerBusiness {dto} : RegisterAsks env dto h₀ (.redis command) →
      Commands env h₀ command (.registerBusiness dto)
  | login {dto phone} : phoneOf env dto.phone = some phone →
      LoginAsks env dto phone h₀ (.redis command) → Commands env h₀ command (.login dto)

theorem asks_redis (hasks : Asks env call h₀ (.redis command))
    (hget : ¬(Op.redis command).Free) : Commands env h₀ command call := by
  have hrows : ∀ {keys}, ¬(Op.redis command).OnRows keys := by
    intro keys hrows
    cases command <;> first
      | exact hrows
      | exact hget trivial
  cases call with
  | transfer _ => exact .transfer (hasks.resolve_right hrows)
  | deactiveWallet _ _ | activeWallet _ _ | approveBusinessAccount _ _ =>
      exact absurd hasks hrows
  | suspend _ _ =>
      cases hasks with
      | free hfree _ => exact absurd hfree hget
  | reactivate _ _ =>
      cases hasks with
      | free hfree => exact absurd hfree hget
  | sendOtp _ => exact .sendOtp hasks
  | verifyOtp _ => exact .verifyOtp hasks
  | register _ => exact .register hasks
  | registerBusiness _ => exact .registerBusiness hasks
  | login _ =>
      obtain ⟨-, phone, hphone, hasks⟩ := hasks
      exact .login hphone hasks
  | refresh _ | logout _ =>
      obtain ⟨payload, -, hasks⟩ := hasks
      cases hasks with
      | free hfree => exact absurd hfree hget
  | revokeTrustedDevice _ _ =>
      obtain ⟨userId, -, hasks⟩ := hasks
      cases hasks with
      | free hfree => exact absurd hfree hget

theorem ran_asks (hr : Run (kori env) (World.idle shared) past w) (hx : x :: before <:+ past)
    {a : command.Ans} (hran : Ran x p command a) (hget : ¬(Op.redis command).Free) :
    ∃ call, w.conf.calls p = some call ∧
      Commands env (heard (kori env) p before) command call := by
  obtain ⟨answer, hans⟩ : ∃ answer,
    x.1.answered (kori env) x.2 = some (p, ⟨.redis command, answer⟩) := hran.answered
  obtain ⟨call, hcall, hasks⟩ := (hr.at hx).1.asks obeyed hans
  exact ⟨call, hr.called_at hx hcall, asks_redis hasks hget⟩

/-! ## Values that are stored -/

theorem Commands.challenge {value : OtpChallenge}
    (h : Commands env h₀ (.set (.otpChallenge phone challengeId) value nx) call) :
    ∃ dto u, call = .sendOtp dto ∧ phoneOf env dto.phone = some phone ∧
      challengeId = uuidText u ∧ ⟨.randomUUID, u⟩ ∈ h₀ ∧ value.phone = phone ∧
      value.deviceId = dto.deviceId ∧ BelowLimit env phone h₀ ∧ Never Op.StoresChallenge h₀ ∧
      nx = false := by
  cases h with
  | transfer hcache => exact hcache.elim
  | @sendOtp dto hasks =>
      cases hasks with
      | free hfree _ => exact hfree.elim
      | challenge hphone hbelow hdrawn hnever =>
          exact ⟨dto, _, rfl, hphone, rfl, hdrawn, rfl, rfl, hbelow, hnever, rfl⟩
  | verifyOtp hasks =>
      cases hasks with
      | free hfree => exact hfree.elim
  | register hasks | registerBusiness hasks =>
      cases hasks with
      | free hfree => exact hfree.elim
  | login _ hasks =>
      cases hasks with
      | establish _ _ hasks => cases hasks

theorem Commands.pointer (h : Commands env h₀ (.set (.otpActiveChallenge phone) challengeId nx)
    call) :
    ∃ dto u, call = .sendOtp dto ∧ phoneOf env dto.phone = some phone ∧
      challengeId = uuidText u ∧ ⟨.randomUUID, u⟩ ∈ h₀ ∧ Never Op.StoresPointer h₀ ∧
      nx = false := by
  cases h with
  | transfer hcache => exact hcache.elim
  | @sendOtp dto hasks =>
      cases hasks with
      | free hfree _ => exact hfree.elim
      | pointer hphone hdrawn hnever => exact ⟨dto, _, rfl, hphone, rfl, hdrawn, hnever, rfl⟩
  | verifyOtp hasks =>
      cases hasks with
      | free hfree => exact hfree.elim
  | register hasks | registerBusiness hasks =>
      cases hasks with
      | free hfree => exact hfree.elim
  | login _ hasks =>
      cases hasks with
      | establish _ _ hasks => cases hasks

theorem Commands.registration {value : RegistrationAuthorizationState}
    (h : Commands env h₀ (.set (.registrationAuthorization phone) value nx) call) :
    ∃ dto token, call = .verifyOtp dto ∧ OtpVerified env dto phone h₀ ∧
      ⟨.randomToken, token⟩ ∈ h₀ ∧ value = ⟨env.sha256 token, phone, dto.deviceId⟩ ∧
      Never Op.IssuesRegistration h₀ ∧ nx = false := by
  cases h with
  | transfer hcache => exact hcache.elim
  | sendOtp hasks =>
      cases hasks with
      | free hfree _ => exact hfree.elim
  | @verifyOtp dto hasks =>
      cases hasks with
      | free hfree => exact hfree.elim
      | issue hverified _ hdrawn hnever =>
          exact ⟨dto, _, rfl, hverified, hdrawn, rfl, hnever, rfl⟩
  | register hasks | registerBusiness hasks =>
      cases hasks with
      | free hfree => exact hfree.elim
  | login _ hasks =>
      cases hasks with
      | establish _ _ hasks => cases hasks

theorem Commands.enrollment {value : DeviceEnrollmentAuthorizationState}
    (h : Commands env h₀ (.set (.deviceEnrollmentAuthorization phone) value nx) call) :
    ∃ dto user devices token, call = .login dto ∧ phoneOf env dto.phone = some phone ∧
      PinVerified env dto phone value.userId user devices h₀ ∧
      devices.trusts value.userId dto.deviceId = false ∧ ⟨.randomToken, token⟩ ∈ h₀ ∧
      value.tokenHash = env.sha256 token ∧ value.phone = phone ∧
      value.deviceId = dto.deviceId ∧ Never Op.IssuesEnrollment h₀ ∧ nx = false := by
  cases h with
  | transfer hcache => exact hcache.elim
  | sendOtp hasks =>
      cases hasks with
      | free hfree _ => exact hfree.elim
  | verifyOtp hasks =>
      cases hasks with
      | free hfree => exact hfree.elim
  | register hasks | registerBusiness hasks =>
      cases hasks with
      | free hfree => exact hfree.elim
  | @login dto phone' hphone hasks =>
      cases hasks with
      | issue hverified htrusts hdrawn hnever =>
          exact ⟨dto, _, _, _, rfl, hphone, hverified, htrusts, hdrawn, rfl, rfl, rfl, hnever,
            rfl⟩
      | establish _ _ hasks => cases hasks

/-! ## The failure counter of OTPs -/

theorem RedisCommand.Writes.not_free {k : RedisKey} (h : command.Writes k) :
    ¬(Op.redis command).Free := by
  cases command with
  | get _ => exact h.elim
  | _ => exact id

theorem Commands.otpFailure (h : Commands env h₀ command call)
    (hw : command.Writes (.otpFailure phone)) :
    ∃ dto, call = .verifyOtp dto ∧ phoneOf env dto.phone = some phone ∧
      command = .verifyOtp phone dto.challengeId dto.deviceId dto.otp env.otpMaxFailures := by
  cases h with
  | transfer hcache =>
      cases command with
      | set k _ _ | del k =>
          obtain rfl : RedisKey.otpFailure phone = k := hw
          exact hcache.elim
      | _ => exact hcache.elim
  | sendOtp hasks =>
      cases hasks with
      | free hfree _ => exact absurd hfree hw.not_free
      | _ => simp [RedisCommand.Writes] at hw
  | @verifyOtp dto hasks =>
      cases hasks with
      | free hfree => exact absurd hfree hw.not_free
      | verify hphone _ =>
          simp only [RedisCommand.Writes, RedisKey.otpFailure.injEq, reduceCtorEq,
            or_false] at hw
          subst hw
          exact ⟨dto, rfl, hphone, rfl⟩
      | _ => simp [RedisCommand.Writes] at hw
  | register hasks | registerBusiness hasks =>
      cases hasks with
      | free hfree => exact absurd hfree hw.not_free
      | _ => simp [RedisCommand.Writes] at hw
  | login _ hasks =>
      cases hasks with
      | establish _ _ hasks => cases hasks
      | _ => simp [RedisCommand.Writes] at hw

/-! ## The throttling of logins -/

theorem Commands.login_keys {k : RedisKey} (h : Commands env h₀ command call)
    (hk : k = .loginFailure phone ∨ k = .loginThrottle phone) (hw : command.Writes k) :
    ∃ dto, call = .login dto ∧ phoneOf env dto.phone = some phone ∧
      LoginAsks env dto phone h₀ (.redis command) := by
  cases h with
  | transfer hcache =>
      cases command with
      | set k' _ _ | del k' =>
          obtain rfl : k = k' := hw
          rcases hk with rfl | rfl <;> exact hcache.elim
      | _ => exact hcache.elim
  | sendOtp hasks =>
      cases hasks with
      | free hfree _ => exact absurd hfree hw.not_free
      | _ => rcases hk with rfl | rfl <;> simp [RedisCommand.Writes] at hw
  | verifyOtp hasks =>
      cases hasks with
      | free hfree => exact absurd hfree hw.not_free
      | _ => rcases hk with rfl | rfl <;> simp [RedisCommand.Writes] at hw
  | register hasks | registerBusiness hasks =>
      cases hasks with
      | free hfree => exact absurd hfree hw.not_free
      | _ => rcases hk with rfl | rfl <;> simp [RedisCommand.Writes] at hw
  | @login dto phone' hphone hasks =>
      suffices hsame : phone' = phone from hsame ▸ ⟨dto, rfl, hphone, hasks⟩
      cases hasks with
      | throttle _ => exact hw.elim
      | establish _ _ hasks => cases hasks
      | record _ | impose _ _ _ | forget _ | release _ =>
          rcases hk with rfl | rfl <;> simp [RedisCommand.Writes] at hw
          exact hw.symm
      | issue _ _ _ _ => rcases hk with rfl | rfl <;> simp [RedisCommand.Writes] at hw

/-! ## Proofs of a registration -/

theorem Commands.consume {dto : RegisterDto} (h : Commands env h₀ command call)
    (hcall : call = .register dto ∨ call = .registerBusiness dto)
    (hw : command.Writes (.registrationAuthorization phone)) :
    phoneOf env dto.phone = some phone ∧ command = .consumeRegistrationAuthorization
      (env.sha256 dto.registrationToken) phone dto.deviceId := by
  have hasks : RegisterAsks env dto h₀ (.redis command) := by
    rcases hcall with rfl | rfl <;> cases h <;> assumption
  cases hasks with
  | free hfree => exact absurd hfree hw.not_free
  | consume hphone _ =>
      obtain rfl := RedisKey.registrationAuthorization.inj hw
      exact ⟨hphone, rfl⟩

/-! ## At most once -/

theorem Ran.unique {command' : RedisCommand} {a : command.Ans} {a' : command'.Ans}
    (h : Ran x p command a) (h' : Ran x q command' a') : p = q ∧ command = command' := by
  obtain rfl : p = q := by
    rcases h.move with h₁ | h₁ <;> rcases h'.move with h₂ | h₂ <;>
      exact (Move.step.inj (h₁.symm.trans h₂)).1
  obtain ⟨next, hproc⟩ := h.code
  obtain ⟨next', hproc'⟩ := h'.code
  have hcode := Option.some.inj (hproc.symm.trans hproc')
  injection hcode with hop
  exact ⟨rfl, Op.redis.inj hop⟩

/-- Two moments that take away what one `SET` has stored are the same. -/
theorem Stored.once (hr : Run (kori env) (World.idle shared) past w) {k k' : RedisKey}
    {entry : RedisEntry k} {entry' : RedisEntry k'} {c c' s : KoriMoment}
    {beforeC beforeC' beforeS : List KoriMoment} (hc : c :: beforeC <:+ past)
    (hc' : c' :: beforeC' <:+ past) (h : Stored env beforeC entry s beforeS)
    (h' : Stored env beforeC' entry' s beforeS)
    (hspent : ∀ w', c.1.move (kori env) c.2 = some w' → w'.conf.shared.redis k = none)
    (hspent' : ∀ w', c'.1.move (kori env) c'.2 = some w' → w'.conf.shared.redis k' = none) :
    c = c' ∧ beforeC = beforeC' := by
  obtain ⟨nx, hset⟩ := h.set
  obtain ⟨nx', hset'⟩ := h'.set
  obtain ⟨-, hcommand⟩ := hset.unique hset'
  obtain rfl : k = k' := by injection hcommand
  rcases moments_cases hc hc' with hsame | hlater | hlater
  · exact hsame
  · obtain ⟨-, w₁, -, hm, -⟩ := hr.at hc
    have hthere := h'.since c beforeC w₁ hlater h.moment hm
    simp [hspent w₁ hm] at hthere
  · obtain ⟨-, w₁, -, hm, -⟩ := hr.at hc'
    have hthere := h.since c' beforeC' w₁ hlater h'.moment hm
    simp [hspent' w₁ hm] at hthere

theorem ran_once (hr : Run (kori env) (World.idle shared) past w) {P : Op → Prop}
    (honce : ∀ call h₀ op, Asks env call h₀ op → P op → Never P h₀) {command' : RedisCommand}
    {a : command.Ans} {a' : command'.Ans} (hx : x :: before <:+ past) (hy : y :: before' <:+ past)
    (hran : Ran x p command a) (hran' : Ran y p command' a') (hP : P (.redis command))
    (hP' : P (.redis command')) : x = y ∧ before = before' := by
  obtain ⟨answer, hans⟩ : ∃ answer,
    x.1.answered (kori env) x.2 = some (p, ⟨.redis command, answer⟩) := hran.answered
  obtain ⟨answer', hans'⟩ : ∃ answer,
    y.1.answered (kori env) y.2 = some (p, ⟨.redis command', answer⟩) := hran'.answered
  obtain ⟨call, hcall, -⟩ := (hr.at hx).1.asks obeyed hans
  exact hr.once obeyed (hr.called_at hx hcall) (honce call) hx hy hans hans' hP hP'

theorem challenge_never {op : Op} (hasks : Asks env call h₀ op) (hop : op.StoresChallenge) :
    Never Op.StoresChallenge h₀ := by
  obtain ⟨phone, challengeId, value, rfl⟩ := hop
  obtain ⟨dto, u, -, -, -, -, -, -, -, hnever, -⟩ :=
    (asks_redis hasks (by simp [Op.Free])).challenge
  exact hnever

theorem pointer_never {op : Op} (hasks : Asks env call h₀ op) (hop : op.StoresPointer) :
    Never Op.StoresPointer h₀ := by
  obtain ⟨phone, challengeId, rfl⟩ := hop
  obtain ⟨dto, u, -, -, -, -, hnever, -⟩ := (asks_redis hasks (by simp [Op.Free])).pointer
  exact hnever

theorem registration_never {op : Op} (hasks : Asks env call h₀ op)
    (hop : op.IssuesRegistration) : Never Op.IssuesRegistration h₀ := by
  obtain ⟨phone, value, rfl⟩ := hop
  obtain ⟨dto, token, -, -, -, -, hnever, -⟩ :=
    (asks_redis hasks (by simp [Op.Free])).registration
  exact hnever

theorem enrollment_never {op : Op} (hasks : Asks env call h₀ op) (hop : op.IssuesEnrollment) :
    Never Op.IssuesEnrollment h₀ := by
  obtain ⟨phone, value, rfl⟩ := hop
  obtain ⟨dto, user, devices, token, -, -, -, -, -, -, -, -, hnever, -⟩ :=
    (asks_redis hasks (by simp [Op.Free])).enrollment
  exact hnever

end Kori
