import Kori.Runtime.Json
import Kori.Runtime.Numbers
import Kori.Server

/-!
# The texts of Redis keys

The server makes its keys of fixed texts, phone numbers and identifiers.  No two keys have
the same text, because a key can be read back from its text.
-/

namespace Kori

open Kori.Runtime

/-! ## Encoding -/

/-- What is left of a string that is sent as UTF-8: a surrogate without its other half becomes
U+FFFD. -/
def toWellFormed : JsString → JsString
  | c :: d :: rest =>
      if isHighSurrogate c ∧ isLowSurrogate d then c :: d :: toWellFormed rest
      else if isHighSurrogate c ∨ isLowSurrogate c then 0xFFFD :: toWellFormed (d :: rest)
      else c :: toWellFormed (d :: rest)
  | [c] => if isHighSurrogate c ∨ isLowSurrogate c then [0xFFFD] else [c]
  | [] => []

def IsWellFormed (s : JsString) : Prop := toWellFormed s = s

instance (s : JsString) : Decidable (IsWellFormed s) := inferInstanceAs (Decidable (_ = _))

def IsSurrogate (c : UInt16) : Prop := isHighSurrogate c = true ∨ isLowSurrogate c = true
  deriving Decidable

section

variable {c : UInt16} {s t : JsString}

theorem toWellFormed_cons (h : ¬IsSurrogate c) (s : JsString) :
    toWellFormed (c :: s) = c :: toWellFormed s := by
  obtain ⟨hhigh, hlow⟩ := not_or.1 h
  cases s with
  | nil => simp [toWellFormed, hhigh, hlow]
  | cons d s => simp [toWellFormed, hhigh, hlow]

theorem isWellFormed_of_units (h : ∀ c ∈ s, ¬IsSurrogate c) : IsWellFormed s := by
  induction s with
  | nil => rfl
  | cons c s ih =>
      have hrest : toWellFormed s = s := ih fun d hd => h d (.tail _ hd)
      rw [IsWellFormed, toWellFormed_cons (h c (.head _)), hrest]

theorem IsWellFormed.append (hs : IsWellFormed s) (ht : IsWellFormed t) :
    IsWellFormed (s ++ t) := by
  induction s using toWellFormed.induct with
  | case1 c d rest hpair ih =>
      rw [IsWellFormed, toWellFormed, if_pos hpair] at hs
      have hwithout : toWellFormed rest = rest := (List.cons.inj (List.cons.inj hs).2).2
      have hrest : toWellFormed (rest ++ t) = rest ++ t := ih hwithout
      rw [IsWellFormed, List.cons_append, List.cons_append, toWellFormed, if_pos hpair, hrest]
  | case2 c d rest hpair halone ih =>
      rw [IsWellFormed, toWellFormed, if_neg hpair, if_pos halone] at hs
      -- U+FFFD is no surrogate
      obtain ⟨rfl, -⟩ := List.cons.inj hs
      exact absurd halone (by decide)
  | case3 c d rest hpair halone ih =>
      rw [IsWellFormed, toWellFormed, if_neg hpair, if_neg halone] at hs
      have hrest : toWellFormed (d :: rest ++ t) = d :: rest ++ t := ih (List.cons.inj hs).2
      rw [IsWellFormed, List.cons_append, toWellFormed_cons halone, hrest]
  | case4 c halone =>
      rw [IsWellFormed, toWellFormed, if_pos halone] at hs
      obtain ⟨rfl, -⟩ := List.cons.inj hs
      exact absurd halone (by decide)
  | case5 c halone =>
      have ht : toWellFormed t = t := ht
      rw [IsWellFormed, List.singleton_append, toWellFormed_cons halone, ht]
  | case6 => exact ht

theorem toWellFormed_isWellFormed (s : JsString) : IsWellFormed (toWellFormed s) := by
  induction s using toWellFormed.induct with
  | case1 c d rest hpair ih =>
      have hrest : toWellFormed (toWellFormed rest) = toWellFormed rest := ih
      rw [toWellFormed, if_pos hpair, IsWellFormed, toWellFormed, if_pos hpair, hrest]
  | case2 c d rest hpair halone ih =>
      have hrest : toWellFormed (toWellFormed (d :: rest)) = toWellFormed (d :: rest) := ih
      rw [toWellFormed, if_neg hpair, if_pos halone, IsWellFormed,
        toWellFormed_cons (by decide), hrest]
  | case3 c d rest hpair halone ih =>
      have hrest : toWellFormed (toWellFormed (d :: rest)) = toWellFormed (d :: rest) := ih
      rw [toWellFormed, if_neg hpair, if_neg halone, IsWellFormed, toWellFormed_cons halone,
        hrest]
  | case4 c halone =>
      rw [toWellFormed, if_pos halone]
      decide
  | case5 c halone =>
      rw [toWellFormed, if_neg halone, IsWellFormed, toWellFormed, if_neg halone]
  | case6 => rfl

theorem isSurrogate_digit (h : isDigit c = true) : ¬IsSurrogate c := by
  obtain ⟨hlower, hupper⟩ := isDigit_iff.1 h
  simp only [IsSurrogate, isHighSurrogate, isLowSurrogate, decide_eq_true_eq,
    UInt16.le_iff_toNat_le, UInt16.toNat_ofNat, Nat.reducePow, Nat.reduceMod] at *
  omega

theorem natText_isDigit (n : Nat) : ∀ c ∈ natText n, isDigit c = true := by
  by_cases hn : n = 0
  · intro c hc
    obtain rfl : c = 48 := by simpa [hn, natText] using hc
    rfl
  · exact (natText_start hn).2.2

theorem natText_isWellFormed (n : Nat) : IsWellFormed (natText n) :=
  isWellFormed_of_units fun c hc => isSurrogate_digit (natText_isDigit n c hc)

end

/-! ## Phone numbers -/

def IsDialable (phone : JsString) : Prop := ∀ c ∈ phone, c = 43 ∨ isDigit c = true

-- another instance would run through all units
instance (phone : JsString) : Decidable (IsDialable phone) :=
  List.decidableBAll (fun c => c = 43 ∨ isDigit c = true) phone

section

variable {phone : JsString}

theorem IsDialable.isWellFormed (h : IsDialable phone) : IsWellFormed phone := by
  apply isWellFormed_of_units
  intro c hc
  cases h c hc with
  | inl hplus =>
      rw [hplus, IsSurrogate]
      decide
  | inr hdigit => exact isSurrogate_digit hdigit

theorem IsDialable.no_brace (h : IsDialable phone) : ∀ c ∈ phone, (c != 125) = true := by
  intro c hc
  cases h c hc with
  | inl hplus =>
      rw [hplus]
      decide
  | inr hdigit =>
      rw [bne_iff_ne]
      rintro rfl
      exact absurd hdigit (by decide)

end

/-! ## Keys -/

def loginFailureKey (phone : JsString) : JsString := js "auth:login:failures:" ++ phone

def loginThrottleKey (phone : JsString) : JsString := js "auth:login:throttle:" ++ phone

def otpChallengeKey (phone challengeId : JsString) : JsString :=
  js "auth:otp:\x7b" ++ phone ++ js "\x7d:challenge:" ++ challengeId

def otpActiveChallengeKey (phone : JsString) : JsString :=
  js "auth:otp:\x7b" ++ phone ++ js "\x7d:active"

def otpResendKey (phone : JsString) : JsString :=
  js "auth:otp:\x7b" ++ phone ++ js "\x7d:resend"

def otpFailureKey (phone : JsString) : JsString :=
  js "auth:otp:\x7b" ++ phone ++ js "\x7d:failures"

def registrationAuthorizationKey (phone : JsString) : JsString :=
  js "auth:registration:\x7b" ++ phone ++ js "\x7d:authorization"

def deviceEnrollmentAuthorizationKey (phone : JsString) : JsString :=
  js "auth:device-enrollment:\x7b" ++ phone ++ js "\x7d:authorization"

namespace RedisKey

def text : RedisKey → JsString
  | idempotency header => js "idempotency:trx:" ++ header
  | loginFailure phone => loginFailureKey phone
  | loginThrottle phone => loginThrottleKey phone
  | otpChallenge phone challengeId => otpChallengeKey phone challengeId
  | otpActiveChallenge phone => otpActiveChallengeKey phone
  | otpResend phone => otpResendKey phone
  | otpFailure phone => otpFailureKey phone
  | registrationAuthorization phone => registrationAuthorizationKey phone
  | deviceEnrollmentAuthorization phone => deviceEnrollmentAuthorizationKey phone

/-- The parts of the key are phone numbers and strings that can be sent. -/
def Proper : RedisKey → Prop
  | idempotency header => IsWellFormed header
  | otpChallenge phone challengeId => IsDialable phone ∧ IsWellFormed challengeId
  | loginFailure phone | loginThrottle phone | otpActiveChallenge phone | otpResend phone
  | otpFailure phone | registrationAuthorization phone
  | deviceEnrollmentAuthorization phone => IsDialable phone

instance : (k : RedisKey) → Decidable k.Proper
  | idempotency header => inferInstanceAs (Decidable (IsWellFormed header))
  | otpChallenge _ _ => inferInstanceAs (Decidable (_ ∧ _))
  | loginFailure phone | loginThrottle phone | otpActiveChallenge phone | otpResend phone
  | otpFailure phone | registrationAuthorization phone
  | deviceEnrollmentAuthorization phone => inferInstanceAs (Decidable (IsDialable phone))

end RedisKey

/-! ## Reading keys -/

def after (start s : JsString) : Option JsString :=
  if start <+: s then some (s.drop start.length) else none

section

variable {start other s : JsString}

@[simp] theorem after_append : after start (start ++ s) = some s := by
  simp [after]

theorem after_other (h : ¬start <+: other ∧ ¬other <+: start) :
    after start (other ++ s) = none := by
  rw [after, if_neg]
  intro hstart
  cases List.prefix_or_prefix_of_prefix hstart (List.prefix_append other s) with
  | inl h₁ => exact h.1 h₁
  | inr h₂ => exact h.2 h₂

end

def readBraced (s : JsString) : JsString × JsString :=
  (s.takeWhile (· != 125), s.dropWhile (· != 125))

theorem readBraced_append {phone rest : JsString} (h : IsDialable phone)
    (hrest : rest.head? = some 125) : readBraced (phone ++ rest) = (phone, rest) := by
  have hbrace := h.no_brace
  obtain ⟨rest, rfl⟩ : ∃ s, rest = 125 :: s := by
    cases rest with
    | nil => simp at hrest
    | cons c s => exact ⟨s, by rw [Option.some.inj hrest]⟩
  rw [readBraced, List.takeWhile_append_of_pos hbrace, List.dropWhile_append_of_pos hbrace]
  simp

namespace RedisKey

def readOtp (s : JsString) : Option RedisKey :=
  let (phone, rest) := readBraced s
  if rest = js "\x7d:active" then some (otpActiveChallenge phone)
  else if rest = js "\x7d:resend" then some (otpResend phone)
  else if rest = js "\x7d:failures" then some (otpFailure phone)
  else (after (js "\x7d:challenge:") rest).map (otpChallenge phone)

def read (s : JsString) : Option RedisKey :=
  match after (js "idempotency:trx:") s, after (js "auth:login:failures:") s,
    after (js "auth:login:throttle:") s, after (js "auth:otp:\x7b") s,
    after (js "auth:registration:\x7b") s, after (js "auth:device-enrollment:\x7b") s with
  | some header, _, _, _, _, _ => some (idempotency header)
  | none, some phone, _, _, _, _ => some (loginFailure phone)
  | none, none, some phone, _, _, _ => some (loginThrottle phone)
  | none, none, none, some s, _, _ => readOtp s
  | none, none, none, none, some s, _ => some (registrationAuthorization (readBraced s).1)
  | none, none, none, none, none, some s => some (deviceEnrollmentAuthorization (readBraced s).1)
  | none, none, none, none, none, none => none

theorem read_otp (s : JsString) : read (js "auth:otp:\x7b" ++ s) = readOtp s := by
  simp only [read, after_append]
  rw [after_other (by decide), after_other (by decide), after_other (by decide)]

theorem readOtp_braced {phone rest : JsString} (h : IsDialable phone)
    (hrest : rest.head? = some 125) : readOtp (phone ++ rest) =
      if rest = js "\x7d:active" then some (otpActiveChallenge phone)
      else if rest = js "\x7d:resend" then some (otpResend phone)
      else if rest = js "\x7d:failures" then some (otpFailure phone)
      else (after (js "\x7d:challenge:") rest).map (otpChallenge phone) := by
  rw [readOtp, readBraced_append h hrest]

/-- A key is read back from its text. -/
theorem read_text {k : RedisKey} (h : k.Proper) : read k.text = some k := by
  cases k with
  | idempotency header => simp only [read, text, after_append]
  | loginFailure phone =>
      simp only [read, text, loginFailureKey, after_append]
      rw [after_other (by decide)]
  | loginThrottle phone =>
      simp only [read, text, loginThrottleKey, after_append]
      rw [after_other (by decide), after_other (by decide)]
  | otpChallenge phone challengeId =>
      have hbrace : (js "\x7d:challenge:" ++ challengeId).head? = some 125 := by
        rw [List.head?_append]
        rfl
      have hother : ∀ tail, ¬js "\x7d:challenge:" <+: tail →
          js "\x7d:challenge:" ++ challengeId ≠ tail := by
        rintro tail htail rfl
        exact htail (List.prefix_append _ _)
      rw [text, otpChallengeKey, List.append_assoc, List.append_assoc, read_otp,
        readOtp_braced h.1 hbrace, if_neg (hother _ (by decide)), if_neg (hother _ (by decide)),
        if_neg (hother _ (by decide)), after_append]
      rfl
  | otpActiveChallenge phone =>
      rw [text, otpActiveChallengeKey, List.append_assoc, read_otp, readOtp_braced h (by decide)]
      rfl
  | otpResend phone =>
      rw [text, otpResendKey, List.append_assoc, read_otp, readOtp_braced h (by decide)]
      rfl
  | otpFailure phone =>
      rw [text, otpFailureKey, List.append_assoc, read_otp, readOtp_braced h (by decide)]
      rfl
  | registrationAuthorization phone =>
      rw [text, registrationAuthorizationKey, List.append_assoc]
      simp only [read, after_append]
      rw [after_other (by decide), after_other (by decide), after_other (by decide),
        after_other (by decide)]
      have hphone : readBraced (phone ++ js "\x7d:authorization") =
          (phone, js "\x7d:authorization") := readBraced_append h (by decide)
      exact congrArg (fun read => some (registrationAuthorization read.1)) hphone
  | deviceEnrollmentAuthorization phone =>
      rw [text, deviceEnrollmentAuthorizationKey, List.append_assoc]
      simp only [read, after_append]
      rw [after_other (by decide), after_other (by decide), after_other (by decide),
        after_other (by decide), after_other (by decide)]
      have hphone : readBraced (phone ++ js "\x7d:authorization") =
          (phone, js "\x7d:authorization") := readBraced_append h (by decide)
      exact congrArg (fun read => some (deviceEnrollmentAuthorization read.1)) hphone

theorem text_injective {k k' : RedisKey} (h : k.Proper) (h' : k'.Proper)
    (heq : k.text = k'.text) : k = k' :=
  Option.some.inj ((read_text h).symm.trans (heq ▸ read_text h'))

theorem text_isWellFormed {k : RedisKey} (h : k.Proper) : IsWellFormed k.text := by
  have hfixed : ∀ text, IsWellFormed text → ∀ phone tail, IsDialable phone →
      IsWellFormed tail → IsWellFormed (text ++ phone ++ tail) :=
    fun _ htext _ _ hphone htail => (htext.append hphone.isWellFormed).append htail
  cases k with
  | idempotency header => exact IsWellFormed.append (by decide) h
  | loginFailure phone | loginThrottle phone =>
      exact IsWellFormed.append (by decide) (IsDialable.isWellFormed h)
  | otpChallenge phone challengeId =>
      exact (hfixed _ (by decide) _ _ h.1 (by decide)).append h.2
  | _ => exact hfixed _ (by decide) _ _ h (by decide)

end RedisKey

end Kori
