import Kori.Conduct.Footprint
import Kori.Sessions.Ended

/-!
# Session operations leave other sessions alone

Which device row a refresh, a logout, a revocation or a login changes, whatever
the others do meanwhile.
-/

namespace Kori

open Foundation

section Frames

variable {env : Env} {shared : Shared} {w w' : KoriWorld} {q : Pid} {choice : Choice}
variable {u : Uuid} {d : JsString} {past : List KoriMoment}

def Presents (c : State) (q : Pid) (payload : RefreshTokenPayload) : Prop :=
  c.calls q = some (.refresh (some payload)) ∨ c.calls q = some (.logout (some payload))

theorem single_session {token : Option RefreshTokenPayload} :
    (Call.refresh token).Single env ∧ (Call.logout token).Single env := by
  constructor
  · rintro before ⟨payload, -, hasks⟩
    cases hasks
    contradiction
  · rintro before ⟨payload, -, hasks⟩
    cases hasks
    contradiction

theorem single_revoke {actor : Option Uuid} {id : Uuid} :
    (Call.revokeTrustedDevice actor id).Single env := by
  rintro before ⟨userId, -, hasks⟩
  cases hasks
  contradiction

theorem single_login {dto : AuthCredentialsDto} : (Call.login dto).Single env := by
  rintro before ⟨-, phone, -, hasks⟩
  cases hasks with
  | establish _ _ hasks => cases hasks

theorem presents_frame (hopening : Opening env shared)
    (hr : Reachable (kori env) (World.idle shared) w)
    (hm : w.move (kori env) (.step q choice) = some w') {payload : RefreshTokenPayload}
    (hcall : Presents w.conf q payload)
    (hchanged : (State.data w'.conf).row (.device u d) ≠ (State.data w.conf).row (.device u d)) :
    u = payload.sub ∧ d = payload.deviceId ∧ ∃ device,
      (State.data w.conf).row (.device u d) = some device ∧
      device.refreshSessionId = some payload.sid := by
  obtain ⟨past, hrun⟩ := Reachable.run hr
  obtain ⟨v, hrow, hnew⟩ := run_row hopening hr hm hchanged
  obtain ⟨call, hcall, hsingle, hasks⟩ : ∃ call, w.conf.calls q = some call ∧
      call.Single env ∧ ∀ before op, Asks env call before op → SessionAsks payload op := by
    obtain hcall | hcall := hcall
    · refine ⟨_, hcall, single_session.1, ?_⟩
      rintro before op ⟨payload', heq, hasks⟩
      exact Option.some.inj heq ▸ hasks
    · refine ⟨_, hcall, single_session.2, ?_⟩
      rintro before op ⟨payload', heq, hasks⟩
      exact Option.some.inj heq ▸ hasks
  rcases run_written hopening.idle hrun hm hrow hnew hcall hsingle with
    ⟨change, v₀, hupdate, hv₀, hchange⟩ | hinsert
  · cases hasks _ _ hupdate with
    | free hfree => exact hfree.elim
    | update hsid => exact ⟨rfl, rfl, v₀, hv₀, (hsid _ _ hchange).1⟩
  · cases hasks _ _ hinsert with
    | free hfree => exact hfree.elim

theorem revoke_frame (hopening : Opening env shared)
    (hr : Reachable (kori env) (World.idle shared) w)
    (hm : w.move (kori env) (.step q choice) = some w') {actor : Option Uuid} {id : Uuid}
    (hcall : w.conf.calls q = some (.revokeTrustedDevice actor id))
    (hchanged : (State.data w'.conf).row (.device u d) ≠ (State.data w.conf).row (.device u d)) :
    actor = some u ∧ (State.data w.conf).row (.deviceById id) = some (u, d) := by
  obtain ⟨past, hrun⟩ := Reachable.run hr
  obtain ⟨v, hrow, hnew⟩ := run_row hopening hr hm hchanged
  rcases run_written hopening.idle hrun hm hrow hnew hcall single_revoke with
    ⟨change, v₀, ⟨userId, hactor, hupdate⟩, -, -⟩ | ⟨userId, -, hinsert⟩
  · cases hupdate with
    | free hfree => exact hfree.elim
    | update hread hlisted =>
        obtain ⟨row, hlater, hsame⟩ :=
          run_read hopening hrun hcall (by simp [Call.Touches]) hread hlisted
        obtain rfl : row = _ := hsame
        exact ⟨hactor, hlater⟩
  · cases hinsert with
    | free hfree => exact hfree.elim

theorem login_frame (hopening : Opening env shared)
    (hr : Reachable (kori env) (World.idle shared) w)
    (hm : w.move (kori env) (.step q choice) = some w') {dto : AuthCredentialsDto}
    (hcall : w.conf.calls q = some (.login dto))
    (hchanged : (State.data w'.conf).row (.device u d) ≠ (State.data w.conf).row (.device u d)) :
    d = dto.deviceId ∧ ∃ phone, phoneOf env dto.phone = some phone ∧
      (State.data w.conf).row (.userByPhone phone) = some u := by
  obtain ⟨past, hrun⟩ := Reachable.run hr
  obtain ⟨v, hrow, hnew⟩ := run_row hopening hr hm hchanged
  rcases run_written hopening.idle hrun hm hrow hnew hcall single_login with
    ⟨change, v₀, ⟨-, phone, hphone, hupdate⟩, -, -⟩ | ⟨-, phone, -, hinsert⟩
  · cases hupdate with
    | establish hverified _ hasks =>
        cases hasks with
        | update _ =>
            obtain ⟨t, haccount, hsuffix⟩ := hverified.compared
            have hread := hsuffix.subset (show ⟨.sql (.select (.userByPhone phone)), .ok t⟩ ∈
              comparison phone u t _ from .tail _ (.head _))
            obtain ⟨id, hid, hsame⟩ := run_read hopening hrun hcall (by simp [Call.Touches])
              hread (accountByPhone_row haccount).1
            obtain rfl : id = u := hsame
            exact ⟨rfl, phone, hphone, hid⟩
  · cases hinsert with
    | establish _ _ hasks => cases hasks

theorem signIn_unused (hopening : Opening env shared)
    (hr : Reachable (kori env) (World.idle shared) w)
    (hm : w.move (kori env) (.step q choice) = some w') {call : Call} {tokens : TokensResponse}
    (hcall : w.conf.calls q = some call) (hsign : call.SignIn)
    (hsaid : (q, .tokens tokens) ∈ w'.conf.out) (hnew : (q, .tokens tokens) ∉ w.conf.out) :
    ¬Used tokens.refreshToken.sid w.conf := by
  obtain ⟨replies, hout, heffect⟩ :=
    (guar_of_step ((contract env).sound hopening.sound hr) hm).effect
  rw [hout, List.mem_append] at hsaid
  obtain ⟨e, he, heq⟩ := List.mem_map.1 (hsaid.resolve_left hnew)
  obtain rfl := (Prod.mk.inj heq).2
  intro hused
  cases heffect.session with
  | quiet hnone _ => exact hnone _ he
  | opened _ _ hsid _ _ _ _ _ _ _ =>
      obtain rfl : tokens = _ := by simpa using he
      exact hused.not_drawn hsid
  | rotated hrefresh _ _ _ _ _ =>
      obtain rfl := Option.some.inj (hrefresh.symm.trans hcall)
      exact hsign

/-- Refresh and logout write the row of their token while it holds the token's
session, so they leave every other session alone, and in particular one that a later
sign-in has opened.  A revocation writes the row it names and a login the row of its
account and device. -/
theorem sessions_apart (hopening : Opening env shared)
    (hr : Reachable (kori env) (World.idle shared) w)
    (hm : w.move (kori env) (.step q choice) = some w') :
    (∀ payload, Presents w.conf q payload → ∀ u d,
      (State.data w'.conf).row (.device u d) ≠ (State.data w.conf).row (.device u d) →
      u = payload.sub ∧ d = payload.deviceId ∧ ∃ device,
        (State.data w.conf).row (.device u d) = some device ∧
        device.refreshSessionId = some payload.sid) ∧
    (∀ payload p choice' call tokens w₀ w₁, Presents w.conf q payload →
      Reachable (kori env) (World.idle shared) w₀ → Used payload.sid w₀.conf →
      w₀.move (kori env) (.step p choice') = some w₁ → w₀.conf.calls p = some call →
      call.SignIn → (p, .tokens tokens) ∈ w₁.conf.out → (p, .tokens tokens) ∉ w₀.conf.out →
      tokens.refreshToken.session.Live (State.data w.conf) →
      (State.data w'.conf).row (.device tokens.refreshToken.sub tokens.refreshToken.deviceId) =
        (State.data w.conf).row
          (.device tokens.refreshToken.sub tokens.refreshToken.deviceId)) ∧
    (∀ actor id, w.conf.calls q = some (.revokeTrustedDevice actor id) → ∀ u d,
      (State.data w'.conf).row (.device u d) ≠ (State.data w.conf).row (.device u d) →
      actor = some u ∧ (State.data w.conf).row (.deviceById id) = some (u, d)) ∧
    ∀ dto, w.conf.calls q = some (.login dto) → ∀ u d,
      (State.data w'.conf).row (.device u d) ≠ (State.data w.conf).row (.device u d) →
      d = dto.deviceId ∧ ∃ phone, phoneOf env dto.phone = some phone ∧
        (State.data w.conf).row (.userByPhone phone) = some u := by
  refine ⟨?_, ?_, ?_, ?_⟩
  · exact fun payload hcall u d => presents_frame hopening hr hm hcall
  · intro payload p choice' call tokens w₀ w₁ hpresents hr₀ hused hm₀ hcall hsign hsaid hnew hlive
    by_contra hchanged
    obtain ⟨-, -, device, hrow, hsid⟩ := presents_frame hopening hr hm hpresents hchanged
    obtain ⟨device', hrow', hsid'⟩ := hlive
    obtain rfl := Option.some.inj (hrow.symm.trans hrow')
    have heq : payload.sid = tokens.refreshToken.sid := Option.some.inj (hsid.symm.trans hsid')
    exact signIn_unused hopening hr₀ hm₀ hcall hsign hsaid hnew (heq ▸ hused)
  · exact fun actor id hcall u d => revoke_frame hopening hr hm hcall
  · exact fun dto hcall u d => login_frame hopening hr hm hcall

end Frames

theorem sessions_apart_of_refresh : ∃ w w',
    Reachable (kori Sample.env) (World.idle Sample.shared) w ∧
      w.move (kori Sample.env) (.step 0 .go) = some w' ∧
      (State.data w'.conf).row (.device 1 (js "d")) ≠
        (State.data w.conf).row (.device 1 (js "d")) ∧
      ∃ device, (State.data w.conf).row (.device 1 (js "d")) = some device ∧
        device.refreshSessionId = some (Sample.payload 32).sid := by
  obtain ⟨w, w', hr, hm, hw⟩ := Sample.next_of
    (Sample.refreshMoves 0 (Sample.payload 32) 77).dropLast (.step 0 .go)
    (fun w w' => w.conf.calls 0 = some (.refresh (some (Sample.payload 32))) ∧
      (State.data w'.conf).row (.device 1 (js "d")) ≠
        (State.data w.conf).row (.device 1 (js "d"))) (by decide +kernel)
  obtain ⟨hcall, hchanged⟩ := of_decide_eq_true hw
  exact ⟨w, w', hr, hm, hchanged,
    ((sessions_apart Sample.opening hr hm).1 _ (.inl hcall) _ _ hchanged).2.2⟩

end Kori
