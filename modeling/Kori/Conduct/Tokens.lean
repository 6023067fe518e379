import Kori.Conduct.Ending

/-!
# What a request knows when it hands out tokens

A login has compared the PIN of an ACTIVE account, a refresh has read the account of
its token, and a registration has consumed its proof and inserted its account.
-/

namespace Kori

open Foundation Code

variable {env : Env} {past past' : History} {α β : Type}

structure TokensResponse.For (tokens : TokensResponse) (id : Uuid) (role : Role)
    (deviceId : JsString) : Prop where
  access : tokens.accessToken = ⟨id, role⟩
  sub : tokens.refreshToken.sub = id
  device : tokens.refreshToken.deviceId = deviceId

/-- A registration has consumed its proof and inserted the account. -/
def EarnsRegistration (env : Env) (dto : RegisterDto) (past : History)
    (tokens : TokensResponse) : Prop :=
  ∃ phone id user, ProofConsumed env dto phone past ∧ user.phone = phone ∧
    user.status = .active ∧ ⟨.hashPin dto.pin, user.pin⟩ ∈ past ∧
    ⟨.sql (.insert (.user id) user), .ok ()⟩ ∈ past ∧ tokens.For id user.role dto.deviceId

def Call.Grants : Call → Role → Prop
  | .register _, role => role = .customer
  | .registerBusiness _, role => role = .agent ∨ role = .merchant
  | _, _ => True

section Blocks

variable {r : Rules Op Op.Ans Reply} {Q : α → History → Prop}

variable (hasks : ∀ past op, r.asks past op)

include hasks

end Blocks

/-! ## Logins and refreshes -/

section Sessions

variable {call : Call}

end Sessions

/-! ## Registrations -/

section Registrations

variable {call : Call} {dto : RegisterDto}

structure Prepared (env : Env) (dto : RegisterDto) (phone hash : JsString) (past : History) :
    Prop where
  consumed : ProofConsumed env dto phone past
  hashed : ⟨.hashPin dto.pin, hash⟩ ∈ past

theorem Prepared.mono {phone hash : JsString} (h : Prepared env dto phone hash past)
    (hsub : past ⊆ past') : Prepared env dto phone hash past' :=
  ⟨⟨h.consumed.1, hsub h.consumed.2⟩, hsub h.hashed⟩

theorem EarnsRegistration.mono {tokens : TokensResponse}
    (h : EarnsRegistration env dto past tokens) (hsub : past ⊆ past') :
    EarnsRegistration env dto past' tokens := by
  obtain ⟨phone, id, user, hconsumed, hphone, hstatus, hhashed, hinsert, hfor⟩ := h
  exact ⟨phone, id, user, ⟨hconsumed.1, hsub hconsumed.2⟩, hphone, hstatus, hsub hhashed,
    hsub hinsert, hfor⟩

end Registrations

/-! ## Every request -/

end Kori
