import Kori.Cache.Refinement
import Kori.Conduct.Received
import Kori.Verification.Accounts

/-!
# Runs on texts

A run of the server with Redis as it holds texts: the commands that the requests send, and
the keys that expire, make the texts; and every answer is the one that the model gives.
-/

namespace Kori

open Foundation Kori.Runtime

section Texts

variable {env : Env} {call : Call} {command : RedisCommand} {phone : JsString}

/-! ## What requests send is proper -/

/-- What the server is configured with, and what its libraries return. -/
structure Env.Sendable (env : Env) : Prop where
  dialable : ∀ {s phone}, env.parsePhoneNumber s = some phone → IsDialable phone
  sha256 : ∀ s, IsWellFormed (env.sha256 s)
  otpMaxFailures : env.otpMaxFailures.natAbs ≤ 2 ^ 53

/-- The strings of the request that end up in Redis can be sent. -/
def Call.Sendable : Call → Prop
  | .transfer request => ∀ key, request.idempotencyKey = some key → IsWellFormed key
  | .sendOtp dto => IsWellFormed dto.deviceId
  | .verifyOtp dto => IsWellFormed dto.challengeId ∧ IsWellFormed dto.deviceId ∧
      IsWellFormed dto.otp
  | .register dto | .registerBusiness dto => IsWellFormed dto.deviceId
  | .login dto => IsWellFormed dto.deviceId
  | _ => True

theorem isSurrogate_ascii {c : UInt16} (h : c.toNat < 128) : ¬IsSurrogate c := by
  simp only [IsSurrogate, isHighSurrogate, isLowSurrogate, decide_eq_true_eq,
    UInt16.le_iff_toNat_le, UInt16.toNat_ofNat, Nat.reducePow, Nat.reduceMod]
  omega

theorem hexDigit_ascii {n : Nat} (h : n < 16) : (hexDigit n).toNat < 128 := by
  have hall : ∀ n : Fin 16, (hexDigit n).toNat < 128 := by decide
  exact hall ⟨n, h⟩

theorem uuidText_isWellFormed (u : Uuid) : IsWellFormed (uuidText u) := by
  have hdigits : ∀ c ∈ hexText 32 u.toNat, c.toNat < 128 := by
    intro c hc
    obtain ⟨i, -, rfl⟩ := List.mem_map.1 hc
    exact hexDigit_ascii (Nat.mod_lt _ (by omega))
  apply isWellFormed_of_units
  intro c hc
  apply isSurrogate_ascii
  unfold uuidText at hc
  generalize hexText 32 u.toNat = digits at hc hdigits
  have hcases : c = 45 ∨ c ∈ digits := by
    simp only [List.mem_append, List.mem_cons] at hc
    rcases hc with (((hc | hc | hc) | hc | hc) | hc | hc) | hc | hc
    all_goals first
      | exact .inl hc
      | exact .inr (List.mem_of_mem_drop (List.mem_of_mem_take hc))
      | exact .inr (List.mem_of_mem_take hc)
      | exact .inr (List.mem_of_mem_drop hc)
  cases hcases with
  | inl hdash =>
      rw [hdash]
      decide
  | inr hdigit => exact hdigits c hdigit

theorem code_isWellFormed (code : Nat) : IsWellFormed (padStart 6 (natText code)) := by
  apply isWellFormed_of_units
  intro c hc
  rw [padStart, List.mem_append] at hc
  apply isSurrogate_digit
  cases hc with
  | inl hzero =>
      rw [List.eq_of_mem_replicate hzero]
      decide
  | inr hdigit => exact natText_isDigit _ c hdigit

theorem Env.Sendable.dials {value : JsString} (henv : env.Sendable)
    (h : phoneOf env value = some phone) : IsDialable phone := by
  unfold phoneOf at h
  split at h
  · simp at h
  · exact henv.dialable h

theorem Sends.proper (h : Sends env call command) (henv : env.Sendable)
    (hcall : call.Sendable) : command.Proper := by
  cases h with
  | cached hkey => exact ⟨hcall _ hkey, trivial⟩
  | mark hkey | keep hkey => exact ⟨hcall _ hkey, id, trivial⟩
  | unmark hkey => exact hcall _ hkey
  | failures hphone | cooldown hphone | throttled hphone => exact ⟨henv.dials hphone, trivial⟩
  | lock hphone | impose hphone => exact ⟨henv.dials hphone, id, trivial⟩
  | unlock hphone | record hphone | forget hphone | release hphone => exact henv.dials hphone
  | challenge hphone =>
      have hdial := henv.dials hphone
      refine ⟨⟨hdial, uuidText_isWellFormed _⟩, id, ?_⟩
      simpa [RedisValue.Fits, OtpChallenge.fields] using
        ⟨hdial.isWellFormed, hcall, code_isWellFormed _⟩
  | activate hphone => exact ⟨henv.dials hphone, id, uuidText_isWellFormed _⟩
  | retract hphone => exact ⟨henv.dials hphone, uuidText_isWellFormed _⟩
  | verify hphone =>
      obtain ⟨hchallenge, hdevice, hotp⟩ := hcall
      exact ⟨henv.dials hphone, hchallenge, hdevice, hotp, henv.otpMaxFailures⟩
  | permit hphone =>
      have hdial := henv.dials hphone
      refine ⟨hdial, id, ?_⟩
      simpa [RedisValue.Fits, RegistrationAuthorizationState.fields] using
        ⟨henv.sha256 _, hdial.isWellFormed, hcall.2.1⟩
  | enroll hphone => exact ⟨henv.sha256 _, henv.dials hphone, hcall.2.1⟩
  | register hregister hphone =>
      rcases hregister with rfl | rfl
      · exact ⟨henv.sha256 _, henv.dials hphone, hcall⟩
      · exact ⟨henv.sha256 _, henv.dials hphone, hcall⟩
  | invite hphone =>
      have hdial := henv.dials hphone
      refine ⟨hdial, id, ?_⟩
      simpa [RedisValue.Fits, DeviceEnrollmentAuthorizationState.fields] using
        ⟨henv.sha256 _, hdial.isWellFormed, uuidText_isWellFormed _, hcall⟩

/-! ## Texts in a run -/

/-- What a moment makes of the texts: a command that is run leaves what Redis makes of it, and
a key that expires is gone. -/
def follow (lua : Lua) (store : Keyspace) (x : KoriMoment) : Keyspace :=
  match x.2 with
  | .step p .go | .step p .lost =>
      match x.1.procs p with
      | some (.request (.redis command) _) =>
          match command.send lua store with
          | .ok (_, store') => store'
          | .error _ => store
      | _ => store
  | .tick k => if k.Proper then Keyspace.remove store k.sent else store
  | _ => store

def textsAfter (lua : Lua) (store : Keyspace) : List KoriMoment → Keyspace
  | [] => store
  | x :: before => follow lua (textsAfter lua store before) x

section

variable {lua : Lua} {store store' : Keyspace} {shared : Shared} {w w' : KoriWorld}
variable {m : KoriMove} {p : Pid} {past : List KoriMoment} {bound : Nat}

theorem Ran.follow {x : KoriMoment} {a : command.Ans} {answer : TextAnswer}
    (h : Ran x p command a) (hsend : command.send lua store = .ok (answer, store')) :
    follow lua store x = store' := by
  obtain ⟨w, m⟩ := x
  obtain ⟨hmove, ⟨next, hproc⟩, -⟩ := h
  change w.procs p = some (.request (.redis command) next) at hproc
  rcases hmove with hmove | hmove
  · obtain rfl : m = .step p .go := hmove
    simp only [Kori.follow, hproc, hsend]
  · obtain rfl : m = .step p .lost := hmove
    simp only [Kori.follow, hproc, hsend]

theorem follow_step {choice : Choice} (h : ∀ q command a, ¬Ran (w, .step p choice) q command a) :
    follow lua store (w, .step p choice) = store := by
  have hsilent : ∀ command next, choice = .go ∨ choice = .lost →
      w.procs p ≠ some (.request (.redis command) next) := by
    intro command next hchoice hproc
    apply h p command _ ⟨?_, ⟨next, hproc⟩, rfl⟩
    rcases hchoice with rfl | rfl
    · exact .inl rfl
    · exact .inr rfl
  unfold follow
  split
  · rename_i heq
    obtain ⟨rfl, rfl⟩ := Move.step.inj heq
    split
    · rename_i hproc
      exact absurd hproc (hsilent _ _ (.inl rfl))
    · rfl
  · rename_i heq
    obtain ⟨rfl, rfl⟩ := Move.step.inj heq
    split
    · rename_i hproc
      exact absurd hproc (hsilent _ _ (.inr rfl))
    · rfl
  · rename_i heq
    simp at heq
  · rfl

theorem Represents.expire {r : Redis} {k : RedisKey} (h : Represents bound store r) :
    Represents bound (if k.Proper then Keyspace.remove store k.sent else store) (r.remove k) := by
  split
  · rename_i hk
    exact h.remove hk
  · rename_i hk
    have hnone : r k = none := by
      cases hentry : r k with
      | none => rfl
      | some entry => exact absurd (h.fits k entry hentry).1 hk
    have hsame : r.remove k = r := by
      rw [Redis.remove, ← hnone, Function.update_eq_self]
    rw [hsame]
    exact h

theorem Ran.represents (hlua : lua.Standard) (h : Represents bound store w.conf.shared.redis)
    (hbound : bound < 2 ^ 53) (hproper : command.Proper)
    (hm : w.move (kori env) m = some w') {a : command.Ans} (hran : Ran (w, m) p command a) :
    (∃ answer, command.send lua store = .ok (answer, Kori.follow lua store (w, m)) ∧
        command.Reads answer a) ∧
      Represents (bound + 1) (Kori.follow lua store (w, m)) w'.conf.shared.redis := by
  obtain ⟨answer, store', hsend, hreads, h'⟩ :=
    send_represents (p := p) hlua h hbound hproper
  have hfollow : Kori.follow lua store (w, m) = store' := hran.follow hsend
  have hredis : w'.conf.shared.redis = (w.conf.shared.redis.exec p command).2 := hran.after hm
  have houtcome : (w.conf.shared.redis.exec p command).1 = a := hran.outcome
  rw [houtcome] at hreads
  rw [hfollow, hredis]
  exact ⟨⟨answer, hsend, hreads⟩, h'⟩

theorem follow_other (h : Represents bound store w.conf.shared.redis)
    (hnone : ∀ p command a, ¬Ran (w, m) p command a) (hm : w.move (kori env) m = some w') :
    Represents bound (follow lua store (w, m)) w'.conf.shared.redis := by
  cases m with
  | step q choice =>
      rw [follow_step hnone]
      rcases redis_cases hm with hsame | ⟨k, htick, -⟩ | ⟨p, command, a, hran⟩
      · rw [hsame]
        exact h
      · simp at htick
      · exact absurd hran (hnone p command a)
  | arrive q call =>
      have hmoved := moved hm
      generalize w'.conf.shared = s at hmoved ⊢
      cases hmoved
      exact h
  | crash q =>
      have hmoved := moved hm
      generalize w'.conf.shared = s at hmoved ⊢
      cases hmoved
      exact h
  | tick k =>
      have hmoved := moved hm
      generalize w'.conf.shared = s at hmoved ⊢
      cases hmoved
      exact h.expire

/-- One move on values and on texts. -/
theorem follow_represents (hlua : lua.Standard)
    (h : Represents bound store w.conf.shared.redis) (hbound : bound < 2 ^ 53)
    (hproper : ∀ p command a, Ran (w, m) p command a → command.Proper)
    (hm : w.move (kori env) m = some w') :
    Represents (bound + 1) (follow lua store (w, m)) w'.conf.shared.redis ∧
      ∀ p command a, Ran (w, m) p command a → ∃ answer,
        command.send lua store = .ok (answer, follow lua store (w, m)) ∧
          command.Reads answer a := by
  constructor
  · by_cases hsome : ∃ p command a, Ran (w, m) p command a
    · obtain ⟨p, command, a, hran⟩ := hsome
      exact (hran.represents hlua h hbound (hproper p command a hran) hm).2
    · have hother : Represents bound (follow lua store (w, m)) w'.conf.shared.redis :=
        follow_other h (fun p command a hran => hsome ⟨p, command, a, hran⟩) hm
      exact hother.mono (Nat.le_succ bound)
  · intro p command a hran
    exact (hran.represents hlua h hbound (hproper p command a hran) hm).1

theorem ran_proper (henv : env.Sendable) (hr : Run (kori env) (World.idle shared) past w)
    (hcalls : ∀ x ∈ past, ∀ p call, x.2 = .arrive p call → call.Sendable) {a : command.Ans}
    (hran : Ran (w, m) p command a) : command.Proper := by
  obtain ⟨answer, hans⟩ : ∃ answer,
    w.answered (kori env) m = some (p, ⟨.redis command, answer⟩) := hran.answered
  obtain ⟨call, hcall, hsends⟩ := hr.asks sends_only hans
  obtain ⟨x, hx, harrive⟩ := hr.arrived rfl hcall
  exact Sends.proper hsends henv (hcalls x hx p call harrive)

/-- Redis as it holds texts goes through every run with the values of the model: its texts are
those of the values, and it answers every command alike. -/
theorem texts_represent (henv : env.Sendable) (hlua : lua.Standard)
    (hstart : Represents bound store shared.redis)
    (hr : Run (kori env) (World.idle shared) past w)
    (hcalls : ∀ x ∈ past, ∀ p call, x.2 = .arrive p call → call.Sendable)
    (hbound : bound + past.length ≤ 2 ^ 53) :
    Represents (bound + past.length) (textsAfter lua store past) w.conf.shared.redis ∧
      ∀ x before p command a, x :: before <:+ past → Ran x p command a → ∃ answer,
        command.send lua (textsAfter lua store before) =
            .ok (answer, textsAfter lua store (x :: before)) ∧
          command.Reads answer a := by
  induction hr with
  | nil =>
      refine ⟨hstart, ?_⟩
      intro x before p command a hx
      simp at hx
  | @cons past w w' m hr hm ih =>
      rw [List.length_cons] at hbound
      have hbefore : ∀ x ∈ past, ∀ p call, x.2 = .arrive p call → call.Sendable :=
        fun x hx => hcalls x (.tail _ hx)
      obtain ⟨h, hanswers⟩ := ih hbefore (by omega)
      obtain ⟨h', hanswer⟩ := follow_represents hlua h (by omega)
        (fun p command a hran => ran_proper henv hr hbefore hran) hm
      refine ⟨h', ?_⟩
      intro x before p command a hx hran
      rcases List.suffix_cons_iff.1 hx with heq | hx
      · obtain ⟨rfl, rfl⟩ := List.cons.inj heq
        exact hanswer p command a hran
      · exact hanswers x before p command a hx hran

theorem send_received (command : RedisCommand) :
    command.send lua store = command.received.send lua store := by
  have hsame : ∀ s, toWellFormed (toWellFormed s) = toWellFormed s := toWellFormed_isWellFormed
  cases command with
  | verifyOtp phone challengeId deviceId otp maxFailures =>
      simp only [RedisCommand.send, hsame]
  | consumeRegistrationAuthorization tokenHash phone deviceId =>
      simp only [RedisCommand.send, hsame]
  | consumeDeviceEnrollmentAuthorization tokenHash userId phone deviceId =>
      simp only [RedisCommand.send, hsame]
  | _ => rfl

/-- What Redis receives decides the answer, whatever device the request names. -/
theorem Received.represents {x : KoriMoment} (hlua : lua.Standard)
    (h : Represents bound store x.1.conf.shared.redis) (hbound : bound < 2 ^ 53)
    (hproper : command.received.Proper) {a : command.received.Ans}
    (hreceived : Received x p command a) :
    ∃ answer store', command.send lua store = .ok (answer, store') ∧
      command.received.Reads answer a ∧
      Represents (bound + 1) store' (x.1.conf.shared.redis.exec p command.received).2 := by
  obtain ⟨answer, store', hsend, hreads, h'⟩ :=
    send_represents (p := p) hlua h hbound hproper
  rw [hreceived.outcome] at hreads
  exact ⟨answer, store', (send_received command).trans hsend, hreads, h'⟩

end

end Texts

namespace Sample

def luaField : JsString × Json Numeral → Option (JsString × LuaValue)
  | (name, .string s) => some (name, .string s)
  | _ => none

def lua : Lua where
  decode s :=
    match Json.parse numerals s with
    | some (.string s) => .ok (.string s)
    | some (.object members) => .ok (.table (members.filterMap luaField))
    | _ => .error "Expected value"
  tonumber
    | 45 :: rest => (integerOf rest).map fun n => Number.ofInt (-n)
    | s => (integerOf s).map Number.ofInt
  tostring x := ((stringify (.number x)).toOption.bind id).getD []

section

variable {fields : List (JsString × JsString)}

theorem luaField_strings (fields : List (JsString × JsString)) :
    (fields.map fun f => (f.1, Json.string f.2)).filterMap luaField =
      fields.map fun f => (f.1, LuaValue.string f.2) := by
  induction fields with
  | nil => rfl
  | cons f fields ih => simp [luaField, ih]

theorem lookup_field (hkeys : (fields.map Prod.fst).Nodup) {f : JsString × JsString}
    (hf : f ∈ fields) :
    (fields.map fun f => (f.1, LuaValue.string f.2)).lookup f.1 = some (.string f.2) := by
  induction fields with
  | nil => simp at hf
  | cons g fields ih =>
      rw [List.map_cons, List.nodup_cons] at hkeys
      rw [List.map_cons, List.lookup_cons]
      rcases List.mem_cons.1 hf with rfl | hf
      · simp
      · have hname : (f.1 == g.1) = false := by
          rw [beq_eq_false_iff_ne]
          intro heq
          exact hkeys.1 (heq ▸ List.mem_map_of_mem hf)
        rw [hname]
        exact ih hkeys.2 hf

theorem natText_head (n : Nat) : (natText n).head? ≠ some 45 := by
  intro hhead
  have hdigit := natText_isDigit n 45 (List.mem_of_mem_head? hhead)
  exact absurd hdigit (by decide)

end

theorem lua_standard : lua.Standard where
  decode_string := by
    intro s _
    have hparse : Json.parse numerals (quote s) = some (.string s) :=
      Json.parse_text (.string s)
    simp only [lua, hparse]
  decode_object := by
    intro fields hkeys _
    have hparse : Json.parse numerals (objectText fields) =
        some (.object (fields.map fun f => (f.1, .string f.2))) := Json.parse_text _
    refine ⟨fields.map fun f => (f.1, .string f.2), ?_, fun f hf => lookup_field hkeys hf⟩
    simp only [lua, hparse, luaField_strings]
  tonumber_int := by
    intro n hn
    by_cases hsign : n < 0
    · have hread : integerOf (natText n.natAbs) = some (n.natAbs : Int) :=
        integerOf_natText (by omega)
      have hback : -(n.natAbs : Int) = n := by omega
      rw [intText, if_pos hsign]
      simp only [lua, hread, Option.map_some, hback]
    · have hread : integerOf (natText n.toNat) = some (n.toNat : Int) :=
        integerOf_natText (by omega)
      have hback : (n.toNat : Int) = n := by omega
      have hhead := natText_head n.toNat
      rw [intText, if_neg hsign]
      unfold lua
      dsimp only
      split
      · rename_i rest heq
        rw [heq] at hhead
        exact absurd rfl hhead
      · rw [hread, Option.map_some, hback]

def dialEnv : Env :=
  { env with
    parsePhoneNumber := fun s => if IsDialable s then some s else none
    sha256 := fun s => natText s.length }

theorem dialEnv_sendable : dialEnv.Sendable where
  dialable := by
    intro s phone h
    simp only [dialEnv, Option.ite_none_right_eq_some] at h
    obtain ⟨hdial, hphone⟩ := h
    rw [← Option.some.inj hphone]
    exact hdial
  sha256 s := natText_isWellFormed _
  otpMaxFailures := by decide

def otpDto : VerifyOtpDto := ⟨sendOtpDto, js "123456", uuidText 77, none⟩

def otpMoves : List KoriMove :=
  sendOtpMoves 0 sendOtpDto 77 123456 ++ [.arrive 1 (.verifyOtp otpDto), .step 1 .go]

def verifiesLast (past : List KoriMoment) : Bool :=
  past.head?.any fun x => verifies x.1 1 (js "3") (uuidText 77) (js "e") (js "123456")

theorem otpMoves_sendable {m : KoriMove} (hm : m ∈ otpMoves) {p : Pid} {call : Call}
    (h : m = .arrive p call) : call.Sendable := by
  subst h
  simp only [otpMoves, sendOtpMoves, List.mem_append, List.mem_cons, List.mem_map,
    Move.arrive.injEq, reduceCtorEq, and_false, exists_false, or_false, List.not_mem_nil] at hm
  rcases hm with ⟨-, rfl⟩ | ⟨-, rfl⟩
  · exact (by decide : IsWellFormed (js "e"))
  · exact (by decide +kernel : IsWellFormed (uuidText 77) ∧ IsWellFormed (js "e") ∧
      IsWellFormed (js "123456"))

end Sample

theorem texts_represent_of_otp : ∃ past w x before maxFailures rest,
    Run (kori Sample.dialEnv) (World.idle Sample.shared) past w ∧ x :: before <:+ past ∧
      Ran x 1 (.verifyOtp (js "3") (uuidText 77) (js "e") (js "123456") maxFailures) .verified ∧
      RedisCommand.send Sample.lua (textsAfter Sample.lua (fun _ => none) before)
          (.verifyOtp (js "3") (uuidText 77) (js "e") (js "123456") maxFailures) =
        .ok (.reply (js "VERIFIED" :: rest),
          textsAfter Sample.lua (fun _ => none) (x :: before)) := by
  have hpossible : (((World.idle Sample.shared).moments (kori Sample.dialEnv)
      Sample.otpMoves).any fun run => Sample.verifiesLast run.1) = true := by decide +kernel
  obtain ⟨past, w, hr, hmoves, htest⟩ := exists_of_moments hpossible
  obtain ⟨x, hx, hverifies⟩ := (Option.any_eq_true _ _).1 htest
  obtain ⟨before, rfl⟩ := List.head?_eq_some_iff.1 hx
  obtain ⟨w₁, m⟩ := x
  have hlast : m = .step 1 .go ∧ before.map Prod.snd = Sample.otpMoves.reverse.tail :=
    List.cons.inj hmoves
  obtain ⟨rfl, -⟩ := hlast
  obtain ⟨maxFailures, hran⟩ := Sample.ran_of_verifies hverifies
  have hstart : Represents 0 (fun _ => none) Sample.shared.redis :=
    ⟨fun _ _ => rfl, by simp [Sample.shared]⟩
  have hlength : 0 + (((w₁, .step 1 .go) :: before) : List KoriMoment).length ≤ 2 ^ 53 := by
    have hlen := congrArg List.length hmoves
    rw [List.length_map] at hlen
    rw [hlen]
    decide
  obtain ⟨-, hanswers⟩ := texts_represent Sample.dialEnv_sendable Sample.lua_standard hstart hr
    (fun y hy p call harrive => Sample.otpMoves_sendable (List.mem_reverse.1
      (hmoves ▸ List.mem_map_of_mem hy)) harrive) hlength
  obtain ⟨answer, hsend, rest, rfl⟩ := hanswers _ before 1 _ _ (List.suffix_refl _) hran
  exact ⟨_, w, _, before, maxFailures, rest, hr, List.suffix_refl _, hran, hsend⟩

end Kori
