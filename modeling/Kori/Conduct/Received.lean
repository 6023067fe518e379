import Kori.Cache.Keys
import Kori.Conduct.Keys
import Kori.Conduct.Sending

/-!
# Commands as Redis receives them

The scripts compare bytes.  The identifier of a device is the one argument that a request may
choose freely, and a surrogate without its other half is lost when it is sent as UTF-8.
-/

namespace Kori

open Foundation

/-- What Redis receives.  Phones, digests, UUIDs and digits are ASCII. -/
@[reducible] def RedisCommand.received : RedisCommand → RedisCommand
  | .verifyOtp phone challengeId deviceId otp maxFailures =>
      .verifyOtp phone challengeId (toWellFormed deviceId) otp maxFailures
  | .consumeRegistrationAuthorization tokenHash phone deviceId =>
      .consumeRegistrationAuthorization tokenHash phone (toWellFormed deviceId)
  | .consumeDeviceEnrollmentAuthorization tokenHash userId phone deviceId =>
      .consumeDeviceEnrollmentAuthorization tokenHash userId phone (toWellFormed deviceId)
  | command => command

/-- In the moment `x` this is the outcome of the command of `p` as Redis receives it. -/
structure Received (x : KoriMoment) (p : Pid) (command : RedisCommand)
    (a : command.received.Ans) : Prop where
  move : x.2 = .step p .go ∨ x.2 = .step p .lost
  code : ∃ next, x.1.procs p = some (.request (.redis command) next)
  outcome : (x.1.conf.shared.redis.exec p command.received).1 = a

def Call.device : Call → Option JsString
  | .sendOtp dto => some dto.deviceId
  | .verifyOtp dto => some dto.deviceId
  | .register dto | .registerBusiness dto => some dto.deviceId
  | .login dto => some dto.deviceId
  | _ => none

/-- The devices that the requests name can be sent. -/
def DevicesSendable (past : List KoriMoment) : Prop :=
  ∀ x ∈ past, ∀ p call, x.2 = .arrive p call → ∀ deviceId ∈ call.device, IsWellFormed deviceId

def namesSendable (x : KoriMoment) : Bool :=
  match x.2 with
  | .arrive _ call => call.device.all fun deviceId => IsWellFormed deviceId
  | _ => true

theorem devicesSendable_of_all {past : List KoriMoment} (h : past.all namesSendable = true) :
    DevicesSendable past := by
  intro x hx p call harrive deviceId hdevice
  have hnamed : namesSendable x = true := List.all_eq_true.1 h x hx
  simp only [namesSendable, harrive, Option.all_eq_true, decide_eq_true_eq] at hnamed
  exact hnamed deviceId hdevice

section

variable {env : Env} {shared : Shared} {w : KoriWorld} {x : KoriMoment} {p : Pid}
variable {past before : List KoriMoment} {call : Call} {command : RedisCommand}

theorem Sends.received (h : Sends env call command)
    (hdevice : ∀ deviceId ∈ call.device, IsWellFormed deviceId) :
    command.received = command := by
  cases h with
  | verify hphone =>
      have hsame := hdevice _ rfl
      simp only [RedisCommand.received, show toWellFormed _ = _ from hsame]
  | enroll hphone =>
      have hsame := hdevice _ rfl
      simp only [RedisCommand.received, show toWellFormed _ = _ from hsame]
  | @register _ dto _ hregister hphone =>
      have hsame : toWellFormed dto.deviceId = dto.deviceId := by
        rcases hregister with rfl | rfl
        · exact hdevice _ rfl
        · exact hdevice _ rfl
      simp only [RedisCommand.received, hsame]
  | _ => rfl

/-- While all devices can be sent, Redis receives the commands that are sent. -/
theorem run_received (hr : Run (kori env) (World.idle shared) past w)
    (hdevices : DevicesSendable past) (hx : x :: before <:+ past) {a : command.Ans}
    (h : Ran x p command a) : command.received = command := by
  obtain ⟨answer, hans⟩ : ∃ answer,
    x.1.answered (kori env) x.2 = some (p, ⟨.redis command, answer⟩) := h.answered
  obtain ⟨call, hcall, hsends⟩ := (hr.at hx).1.asks sends_only hans
  obtain ⟨y, hy, harrive⟩ := (hr.at hx).1.arrived rfl hcall
  have hbefore : before <:+ past := (List.suffix_cons x before).trans hx
  exact Sends.received hsends (hdevices y (hbefore.subset hy) p call harrive)

def sendsAt (x : KoriMoment) (p : Pid) (test : RedisCommand → Bool) : Bool :=
  match x.2 with
  | .step q .go => decide (q = p) && sends x.1 p test
  | _ => false

theorem received_of_sendsAt {test : RedisCommand → Bool} (h : sendsAt x p test = true) :
    x.2 = .step p .go ∧ ∃ command, test command = true ∧
      ∀ a, (x.1.conf.shared.redis.exec p command.received).1 = a → Received x p command a := by
  unfold sendsAt at h
  split at h
  · rename_i q hmove
    simp only [Bool.and_eq_true, decide_eq_true_eq] at h
    obtain ⟨rfl, hsends⟩ := h
    obtain ⟨command, next, hproc, htest⟩ := sends_iff.1 hsends
    exact ⟨hmove, command, htest, fun a hout => ⟨.inl hmove, ⟨next, hproc⟩, hout⟩⟩
  · simp at h

variable {phone challengeId deviceId otp tokenHash : JsString} {maxFailures : Int}

theorem Received.sent {a : command.received.Ans} (h : Received x p command a) :
    Ran x p command (x.1.conf.shared.redis.exec p command).1 :=
  ⟨h.move, h.code, rfl⟩

/-- While all devices can be sent, what is received is what the server runs. -/
theorem Received.ran (hr : Run (kori env) (World.idle shared) past w)
    (hdevices : DevicesSendable past) (hx : x :: before <:+ past) {a : command.received.Ans}
    (h : Received x p command a) : ∃ a' : command.Ans, HEq a a' ∧ Ran x p command a' := by
  have hsame := run_received hr hdevices hx h.sent
  obtain ⟨hmove, hcode, hout⟩ := h
  generalize command.received = received at a hout hsame
  subst received
  exact ⟨a, .rfl, hmove, hcode, hout⟩

theorem Received.verifies (hr : Run (kori env) (World.idle shared) past w)
    (hdevices : DevicesSendable past) (hx : x :: before <:+ past) {status : OtpVerificationStatus}
    (h : Received x p (.verifyOtp phone challengeId deviceId otp maxFailures) status) :
    Ran x p (.verifyOtp phone challengeId deviceId otp maxFailures) status := by
  obtain ⟨a, heq, hran⟩ := h.ran hr hdevices hx
  exact eq_of_heq heq ▸ hran

theorem Received.consumes (hr : Run (kori env) (World.idle shared) past w)
    (hdevices : DevicesSendable past) (hx : x :: before <:+ past)
    {status : AuthorizationConsumeStatus}
    (h : Received x p (.consumeRegistrationAuthorization tokenHash phone deviceId) status) :
    Ran x p (.consumeRegistrationAuthorization tokenHash phone deviceId) status := by
  obtain ⟨a, heq, hran⟩ := h.ran hr hdevices hx
  exact eq_of_heq heq ▸ hran

end

end Kori
