import Kori.Conduct.Tokens
import Kori.Sessions.Frames
import Kori.Verification.Accounts

/-!
# Tokens are earned

Whoever is handed an access token and a refresh token has shown that the account is
theirs: by the PIN, by the refresh token before it, or by a proof that the phone is theirs.
-/

namespace Kori

open Foundation

section Tokens

variable {env : Env} {shared : Shared} {past before : List KoriMoment} {w w' : KoriWorld}
variable {x y : KoriMoment} {p : Pid} {choice : Choice} {tokens : TokensResponse}

/-! ## When a reply is made -/

/-- The moment in which `p` is handed the tokens. -/
structure Handed (env : Env) (x : KoriMoment) (w' : KoriWorld) (p : Pid)
    (tokens : TokensResponse) : Prop where
  move : x.1.move (kori env) x.2 = some w'
  fresh : (p, .tokens tokens) ∉ x.1.conf.out
  said : (p, .tokens tokens) ∈ w'.conf.out

theorem SessionStep.only_tokens {c : State} {t : Data} {replies : List Reply}
    (h : SessionStep p c t replies) (hmem : .tokens tokens ∈ replies) :
    replies = [.tokens tokens] := by
  cases h with
  | quiet hnone _ => exact absurd hmem (hnone tokens)
  | opened _ _ _ _ _ _ _ _ _ _ => rw [List.mem_singleton.1 hmem]
  | rotated _ _ _ _ _ _ => rw [List.mem_singleton.1 hmem]

theorem Handed.session (hopening : Opening env shared)
    (hr : Reachable (kori env) (World.idle shared) x.1) (h : Handed env x w' p tokens) :
    SessionStep p x.1.conf (State.data w'.conf) [.tokens tokens] := by
  have hlink := (contract env).sound_move ((contract env).sound hopening.sound hr) h.move
  rcases link_cases hlink.1 with ⟨q, hmover, hguar⟩ | hstill
  · obtain ⟨replies, hout, heffect⟩ := hguar.effect
    have hsaid := h.said
    rw [hout, List.mem_append] at hsaid
    obtain ⟨reply, hmem, heq⟩ := List.mem_map.1 (hsaid.resolve_left h.fresh)
    obtain ⟨rfl, rfl⟩ := Prod.mk.inj heq
    have hstep := heffect.session
    rw [hstep.only_tokens hmem] at hstep
    exact hstep
  · exact absurd (hstill.out ▸ h.said) h.fresh

end Tokens

namespace Sample

end Sample

end Kori
