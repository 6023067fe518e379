import Mathlib.Data.List.DropRight
import Kori.Foundation.JsValue
import Kori.Auth.Sessions

/-!
# The claims of a refresh token

`getTokens` writes them and `parseRefreshTokenClaims` reads them back, when the cookie is
presented for a refresh or a logout.
-/

namespace Kori

open Foundation

/-! ## Reading -/

/-- A refresh token's claims as strings, without `tokenUse`, which is always `refresh`. -/
structure RefreshTokenClaims where
  sub : JsString
  deviceId : JsString
  sid : JsString
  jti : JsString
  deriving DecidableEq, Repr

def isHexDigit (c : UInt16) : Bool :=
  (48 ≤ c ∧ c ≤ 57) ∨ (97 ≤ c ∧ c ≤ 102) ∨ (65 ≤ c ∧ c ≤ 70)

def isVariantDigit (c : UInt16) : Bool := c ∈ [56, 57, 97, 98, 65, 66]

/-- `UUID_V4_REGEX`, one test for each code unit. -/
def uuidV4Regex : List (UInt16 → Bool) :=
  List.replicate 8 isHexDigit ++ [(· == 45)] ++ List.replicate 4 isHexDigit ++ [(· == 45)] ++
    [(· == 52)] ++ List.replicate 3 isHexDigit ++ [(· == 45)] ++
    [isVariantDigit] ++ List.replicate 3 isHexDigit ++ [(· == 45)] ++ List.replicate 12 isHexDigit

def isUuidV4 (value : JsString) : Bool :=
  value.length = uuidV4Regex.length ∧ (uuidV4Regex.zip value).all fun t => t.1 t.2

def isNonEmptyString (value : JsString) : Bool := 0 < (trim value).length

section Parsing

variable {Num Date : Type}

def stringThat (test : JsString → Bool) (value : JsValue Num Date) : Option JsString :=
  match value with
  | .string s => if test s then some s else none
  | _ => none

def readClaims (value : JsValue Num Date) : Option RefreshTokenClaims := do
  let _ ← stringThat (· = js "refresh") (value.get (js "tokenUse"))
  let deviceId ← stringThat (fun s => isNonEmptyString s ∧ ¬s.length > 128)
    (value.get (js "deviceId"))
  let sub ← stringThat isUuidV4 (value.get (js "sub"))
  let sid ← stringThat isUuidV4 (value.get (js "sid"))
  let jti ← stringThat isUuidV4 (value.get (js "jti"))
  pure ⟨sub, deviceId, sid, jti⟩

/-- Only what is an object, and not an array, has claims. -/
def parseRefreshTokenClaims (payload : JsValue Num Date) : Option RefreshTokenClaims :=
  match payload with
  | .object _ | .date _ => readClaims payload
  | _ => none

/-! ## Writing -/

/-- The claims that `getTokens` signs, with the times that the library adds. -/
def signedClaims (payload : RefreshTokenPayload) (iat exp : JsValue Num Date) :
    JsValue Num Date :=
  .object [(js "sub", .string (uuidText payload.sub)), (js "deviceId", .string payload.deviceId),
    (js "sid", .string (uuidText payload.sid)), (js "jti", .string (uuidText payload.jti)),
    (js "tokenUse", .string (js "refresh")), (js "iat", iat), (js "exp", exp)]

end Parsing

/-! ## Admission -/

/-- The rules of `AuthCredentialsDto.deviceId`, which `RegisterDto` inherits: `IsNotEmpty`,
`MaxLength(128)`, which the library decides, and `Matches(/\S/)`. -/
def validatesDeviceId (maxLength : Nat → JsString → Bool) (deviceId : JsString) : Bool :=
  deviceId ≠ [] ∧ maxLength 128 deviceId ∧ deviceId.any (! isWhitespace ·)

/-! ## Reading what was written -/

def IsV4 (u : Uuid) : Prop :=
  u.toNat / 16 ^ 19 % 16 = 4 ∧ 8 ≤ u.toNat / 16 ^ 15 % 16 ∧ u.toNat / 16 ^ 15 % 16 < 12
  deriving Decidable

theorem isHexDigit_hexDigit (n : Nat) : isHexDigit (hexDigit (n % 16)) = true := by
  have hall : ∀ d : Fin 16, isHexDigit (hexDigit d) = true := by decide
  exact hall ⟨n % 16, Nat.mod_lt n (by decide)⟩

theorem isVariantDigit_hexDigit {d : Nat} (hlow : 8 ≤ d) (hhigh : d < 12) :
    isVariantDigit (hexDigit d) = true := by
  have hall : ∀ d : Fin 12, 8 ≤ (d : Nat) → isVariantDigit (hexDigit d) = true := by decide
  exact hall ⟨d, hhigh⟩ hlow

theorem isUuidV4_uuidText {u : Uuid} (h : IsV4 u) : isUuidV4 (uuidText u) = true := by
  obtain ⟨hversion, hlow, hhigh⟩ := h
  have hfour : hexDigit (u.toNat / 16 ^ 19 % 16) = 52 := by
    rw [hversion]
    rfl
  have hvariant := isVariantDigit_hexDigit hlow hhigh
  norm_num at hfour hvariant
  simp [isUuidV4, uuidV4Regex, uuidText, hexText, List.range, List.range.loop,
    isHexDigit_hexDigit, hfour, hvariant]

theorem trim_eq_nil {s : JsString} : trim s = [] ↔ ∀ c ∈ s, isWhitespace c = true := by
  rw [trim, List.reverse_eq_nil_iff, List.dropWhile_eq_nil_iff]
  simp only [List.mem_reverse]
  rw [← List.dropWhile_eq_nil_iff, List.dropWhile_idempotent, List.dropWhile_eq_nil_iff]

theorem isNonEmptyString_iff {s : JsString} :
    isNonEmptyString s = true ↔ s.any (! isWhitespace ·) = true := by
  rw [isNonEmptyString, decide_eq_true_eq, List.length_pos_iff, Ne, trim_eq_nil]
  simp

section Reading

variable {Num Date : Type} {payload : RefreshTokenPayload} {iat exp : JsValue Num Date}

theorem signedClaims_get (payload : RefreshTokenPayload) (iat exp : JsValue Num Date) :
    (signedClaims payload iat exp).get (js "tokenUse") = .string (js "refresh") ∧
    (signedClaims payload iat exp).get (js "deviceId") = .string payload.deviceId ∧
    (signedClaims payload iat exp).get (js "sub") = .string (uuidText payload.sub) ∧
    (signedClaims payload iat exp).get (js "sid") = .string (uuidText payload.sid) ∧
    (signedClaims payload iat exp).get (js "jti") = .string (uuidText payload.jti) :=
  ⟨rfl, rfl, rfl, rfl, rfl⟩

/-- Of the claims that were written, only the device is questioned. -/
theorem parse_signedClaims (hsub : IsV4 payload.sub) (hsid : IsV4 payload.sid)
    (hjti : IsV4 payload.jti) : parseRefreshTokenClaims (signedClaims payload iat exp) =
      if isNonEmptyString payload.deviceId ∧ ¬payload.deviceId.length > 128 then
        some ⟨uuidText payload.sub, payload.deviceId, uuidText payload.sid,
          uuidText payload.jti⟩
      else none := by
  obtain ⟨htokenUse, hdeviceId, hgetSub, hgetSid, hgetJti⟩ := signedClaims_get payload iat exp
  change readClaims (signedClaims payload iat exp) = _
  rw [readClaims, htokenUse, hdeviceId, hgetSub, hgetSid, hgetJti]
  by_cases hdevice : isNonEmptyString payload.deviceId ∧ payload.deviceId.length ≤ 128
  · simp [stringThat, isUuidV4_uuidText, hsub, hsid, hjti, hdevice]
  · simp [stringThat, hdevice]

/-- Of a device that may sign in, the claims are read back exactly when its identifier has
at most 128 code units, whatever `MaxLength` counts. -/
theorem claims_read_back {maxLength : Nat → JsString → Bool} {userId sid jti : Uuid}
    {role : Role} {deviceId : JsString} (hdevice : validatesDeviceId maxLength deviceId = true)
    (huser : IsV4 userId) (hsid : IsV4 sid) (hjti : IsV4 jti) :
    parseRefreshTokenClaims
        (signedClaims (getTokens userId role deviceId sid jti).refreshToken iat exp) =
      some ⟨uuidText userId, deviceId, uuidText sid, uuidText jti⟩ ↔ deviceId.length ≤ 128 := by
  have hnonempty : isNonEmptyString deviceId = true := by
    rw [isNonEmptyString_iff]
    simp only [validatesDeviceId, decide_eq_true_eq] at hdevice
    exact hdevice.2.2
  rw [parse_signedClaims huser hsid hjti]
  by_cases hlength : deviceId.length ≤ 128
  · simp [getTokens, hnonempty, hlength]
  · simp [getTokens, hlength]

end Reading

namespace Sample

def uuidV4 : Uuid := 0x0f8fad5bd9cb469fa1657086728950e1

def surrogatePairs : JsString → Nat
  | c :: d :: rest =>
      if 0xD800 ≤ c ∧ c ≤ 0xDBFF ∧ 0xDC00 ≤ d ∧ d ≤ 0xDFFF then surrogatePairs rest + 1
      else surrogatePairs (d :: rest)
  | _ => 0

/-- `MaxLength` of a string without variation selectors. -/
def maxLength (max : Nat) (s : JsString) : Bool := s.length - surrogatePairs s ≤ max

def emoji (n : Nat) : JsString := (List.replicate n (utf16 '😀')).flatten

end Sample

theorem claims_read_back_of_device :
    parseRefreshTokenClaims (signedClaims (getTokens Sample.uuidV4 .customer (js "d")
        Sample.uuidV4 Sample.uuidV4).refreshToken (.number 0) (.number 900) : JsValue Nat Nat) =
      some ⟨uuidText Sample.uuidV4, js "d", uuidText Sample.uuidV4, uuidText Sample.uuidV4⟩ :=
  (claims_read_back (show validatesDeviceId Sample.maxLength (js "d") = true by decide)
    (by decide) (by decide) (by decide)).2 (by decide)

/-- A device that is named by 65 emoji may sign in, and its tokens cannot be read. -/
theorem claims_not_read_back : validatesDeviceId Sample.maxLength (Sample.emoji 65) = true ∧
    IsV4 Sample.uuidV4 ∧
    parseRefreshTokenClaims (signedClaims (getTokens Sample.uuidV4 .customer (Sample.emoji 65)
        Sample.uuidV4 Sample.uuidV4).refreshToken (.number 0) (.number 900) : JsValue Nat Nat) =
      none := by
  refine ⟨by decide +kernel, by decide, ?_⟩
  rw [parse_signedClaims (by decide) (by decide) (by decide)]
  decide +kernel

end Kori
