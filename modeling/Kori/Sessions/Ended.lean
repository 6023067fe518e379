import Kori.Sessions.Chain

/-!
# An ended session stays dead

A sign-in never draws an identifier that has been in use, so a device row that has
let go of a session does not get it back.
-/

namespace Kori

open Foundation

variable {env : Env} {shared : Shared} {p q : Pid} {c c' : State} {s s' : Session}
variable {t : Data} {replies : List Reply}

/-- The UUID was in use before the first request, or a token that has been issued
carries it. -/
def Used (u : Uuid) (c : State) : Prop :=
  c.shared.minted u = some .opening ∨ ∃ q tokens, (q, Reply.tokens tokens) ∈ c.out ∧
    (tokens.refreshToken.sid = u ∨ tokens.refreshToken.jti = u)

theorem Used.not_drawn {u : Uuid} (h : Used u c) : ¬Drawn p u c := by
  intro hdrawn
  obtain hopening | ⟨q, tokens, hmem, hcarries⟩ := h
  · simp [hdrawn.minted] at hopening
  · obtain ⟨hsid, hjti⟩ := hdrawn.unused.tokens q tokens hmem
    exact hcarries.elim hsid hjti

theorem Used.guar {u : Uuid} (h : Used u c) (hg : Guar env p c c') : Used u c' := by
  obtain hopening | ⟨q, tokens, hmem, hcarries⟩ := h
  · exact .inl (hg.minted _ _ hopening)
  · exact .inr ⟨q, tokens, hg.said hmem, hcarries⟩

theorem Used.still {u : Uuid} (h : Used u c) (hsame : Still c c') : Used u c' := by
  unfold Used
  rw [hsame.minted, hsame.out]
  exact h

theorem SessionStep.live (h : SessionStep p c t replies) (hlive : s.Live t) :
    s.Live c.data ∨ (Drawn p s.sid c ∧
      ∃ tokens, replies = [.tokens tokens] ∧ tokens.refreshToken.session = s) := by
  obtain ⟨device', hrow', hsid'⟩ := hlive
  cases h with
  | quiet hnone hrows =>
      obtain hrow | ⟨hnosid, -⟩ := hrows _ _ _ hrow'
      · exact .inl ⟨device', hrow, hsid'⟩
      · simp [hnosid] at hsid'
  | @opened s₀ jti call role device hcall hsign hsid hjti hne hrow hauthorized hrowSid
      hrowJti hothers =>
      by_cases hk : Key.device s.userId s.deviceId = .device s₀.userId s₀.deviceId
      · obtain ⟨hu, hd⟩ := Key.device.inj hk
        obtain ⟨userId, deviceId, sid⟩ := s
        subst hu hd
        obtain rfl := Option.some.inj (hrow.symm.trans hrow')
        obtain rfl := Option.some.inj (hrowSid.symm.trans hsid')
        exact .inr ⟨hsid, _, rfl, rfl⟩
      · exact .inl ⟨device', hothers _ _ hk ▸ hrow', hsid'⟩
  | @rotated payload jti role device now hcall hrow hholds hdrawn hrowAfter hothers =>
      by_cases hk : Key.device s.userId s.deviceId = .device payload.sub payload.deviceId
      · obtain ⟨hu, hd⟩ := Key.device.inj hk
        obtain ⟨userId, deviceId, sid⟩ := s
        subst hu hd
        obtain rfl := Option.some.inj (hrowAfter.symm.trans hrow')
        exact .inl ⟨device, hrow, hsid'⟩
      · exact .inl ⟨device', hothers _ _ hk ▸ hrow', hsid'⟩

def Distinct (t : Data) : Prop :=
  ∀ s s' : Session, s.Live t → s'.Live t → s.sid = s'.sid → s = s'

/-- Sessions are told apart by their identifiers, all of which have been in use. -/
structure Identified (c : State) : Prop where
  used : ∀ s : Session, s.Live c.data → Used s.sid c
  distinct : Distinct c.data

/-- No device row holds a session with the identifier `sid`, and none ever will. -/
structure Dead (sid : Uuid) (c : State) : Prop where
  used : Used sid c
  gone : ∀ s : Session, s.sid = sid → ¬s.Live c.data

theorem Identified.guar (h : Identified c) (hg : Guar env p c c') : Identified c' := by
  obtain ⟨replies, hout, heffect⟩ := hg.effect
  refine ⟨fun s hlive => ?_, fun s s' hlive hlive' hsid => ?_⟩
  · obtain hbefore | ⟨-, tokens, rfl, rfl⟩ := heffect.session.live hlive
    · exact (h.used s hbefore).guar hg
    · exact .inr ⟨p, tokens, by simp [hout], .inl rfl⟩
  obtain hbefore | ⟨hdrawn, tokens, hreplies, rfl⟩ := heffect.session.live hlive <;>
    obtain hbefore' | ⟨hdrawn', tokens', hreplies', rfl⟩ := heffect.session.live hlive'
  · exact h.distinct s s' hbefore hbefore' hsid
  · exact absurd (hsid ▸ hdrawn') (h.used s hbefore).not_drawn
  · exact absurd (hsid ▸ hdrawn) (h.used s' hbefore').not_drawn
  · rw [hreplies'] at hreplies
    obtain rfl : tokens' = tokens := by simpa using hreplies
    rfl

theorem Identified.still (h : Identified c) (hsame : Still c c') : Identified c' := by
  refine ⟨fun s hlive => ?_, ?_⟩
  · exact (h.used s (hsame.data ▸ hlive)).still hsame
  · rw [hsame.data]
    exact h.distinct

theorem Dead.guar {sid : Uuid} (h : Dead sid c) (hg : Guar env p c c') : Dead sid c' := by
  obtain ⟨replies, hout, heffect⟩ := hg.effect
  refine ⟨h.used.guar hg, fun s hsid hlive => ?_⟩
  obtain hbefore | ⟨hdrawn, -⟩ := heffect.session.live hlive
  · exact h.gone s hsid hbefore
  · exact absurd (hsid ▸ hdrawn) h.used.not_drawn

theorem Dead.still {sid : Uuid} (h : Dead sid c) (hsame : Still c c') : Dead sid c' :=
  ⟨h.used.still hsame, hsame.data ▸ h.gone⟩

variable {w₀ w₁ w : KoriWorld} {allowed : KoriWorld → KoriMove → KoriWorld → Prop}

theorem run_identified (hopening : Opening env shared)
    (hdistinct : Distinct shared.db.committed)
    (hr : Reach (kori env) allowed (World.idle shared) w) : Identified w.conf := by
  refine run_preserves hopening.sound ⟨?_, hdistinct⟩ (fun p c c' _ hg h => h.guar hg)
    (fun c c' hsame h => h.still hsame) hr
  rintro s ⟨device, hrow, hsid⟩
  exact .inl (hopening.devices _ _ _ _ hrow (.inl hsid))

/-- Once a device row has let go of a session, no refresh of the session succeeds. -/
theorem session_stays_ended (hopening : Opening env shared)
    (hdistinct : Distinct shared.db.committed)
    (h₀ : Reach (kori env) allowed (World.idle shared) w₀) (hlive : s.Live (State.data w₀.conf))
    (h₁ : Reach (kori env) allowed w₀ w₁) (hended : ¬s.Live (State.data w₁.conf))
    (hr : Reach (kori env) allowed w₁ w) {payload : RefreshTokenPayload}
    {tokens : TokensResponse} (hcall : w.conf.calls q = some (.refresh (some payload)))
    (hsid : payload.sid = s.sid) (hsaid : (q, .tokens tokens) ∈ w.conf.out) :
    (q, .tokens tokens) ∈ w₁.conf.out := by
  have hidentified := run_identified hopening hdistinct h₀
  have hs₀ := (contract env).sound hopening.sound h₀
  -- until the session has ended, its identifier is in no other row
  have hsole : Used s.sid w₁.conf ∧ ∀ s', s'.sid = s.sid → s'.Live (State.data w₁.conf) →
      s' = s := by
    refine run_preserves (P := fun c => Used s.sid c ∧
      ∀ s' : Session, s'.sid = s.sid → s'.Live c.data → s' = s) hs₀
      ⟨hidentified.used s hlive, fun s' heq h => hidentified.distinct s' s h hlive heq⟩ ?_ ?_ h₁
    · rintro p c c' hi hg ⟨hused, hsole⟩
      obtain ⟨replies, hout, heffect⟩ := hg.effect
      refine ⟨hused.guar hg, fun s' heq h => ?_⟩
      obtain hbefore | ⟨hdrawn, -⟩ := heffect.session.live h
      · exact hsole s' heq hbefore
      · exact absurd (heq ▸ hdrawn) hused.not_drawn
    · rintro c c' hsame ⟨hused, hsole⟩
      exact ⟨hused.still hsame, hsame.data ▸ hsole⟩
  have hdead : Dead s.sid w₁.conf := by
    refine ⟨hsole.1, fun s' heq h => hended ?_⟩
    obtain rfl := hsole.2 s' heq h
    exact h
  have hlater := run_preserves (P := fun c => Dead s.sid c ∧ (∀ x ∈ c.out, c.calls x.1 ≠ none) ∧
    ∀ q payload tokens, c.calls q = some (.refresh (some payload)) → payload.sid = s.sid →
      (q, .tokens tokens) ∈ c.out → (q, .tokens tokens) ∈ w₁.conf.out)
    ((contract env).sound hs₀ h₁) ⟨hdead, (run_rotating hopening (h₀.trans h₁)).spoken,
      fun _ _ _ _ _ h => h⟩ ?_ ?_ hr
  · exact hlater.2.2 q payload tokens hcall hsid hsaid
  · rintro p c c' hi hg ⟨hdead, hspoken, hold⟩
    refine ⟨hdead.guar hg, hg.spoken hspoken, fun q payload tokens hcall hsid hsaid => ?_⟩
    obtain ⟨replies, hout, heffect⟩ := hg.effect
    rw [hout, List.mem_append] at hsaid
    rcases hsaid with hbefore | hnew
    · cases hcalls : c.calls q with
      | none => exact absurd hcalls (hspoken _ hbefore)
      | some call =>
          have hsame := hg.calls _ _ hcalls
          rw [hcall] at hsame
          exact hold q payload tokens (hcalls.trans hsame.symm) hsid hbefore
    · obtain ⟨e, he, heq⟩ := List.mem_map.1 hnew
      obtain ⟨rfl, rfl⟩ := Prod.mk.inj heq
      obtain ⟨device, hrow, hholds⟩ := heffect.session.exchange
        (fun call h => Option.some.inj ((hg.calls _ _ h).symm.trans hcall)) he
      exact absurd ⟨device, hrow, (holdsToken_iff.1 hholds).1⟩
        (hdead.gone payload.session hsid)
  · rintro c c' hsame ⟨hdead, hspoken, hold⟩
    rw [hsame.calls, hsame.out]
    exact ⟨hdead.still hsame, hspoken, hold⟩

namespace Sample

def session : Session := ⟨1, js "d", 31⟩

def otherSession : Session := ⟨2, js "d", 41⟩

def Signed : Sigma Row → Bool
  | ⟨.device userId deviceId, device⟩ => device.refreshSessionId.all fun sid =>
      (⟨userId, deviceId, sid⟩ : Session) ∈ [session, otherSession]
  | _ => true

theorem distinct : Distinct data := by
  have hall : ∀ e ∈ data.rows.entries, Signed e = true := by decide +kernel
  have hone : ∀ s : Session, s.Live data → s = session ∨ s = otherSession := by
    rintro s ⟨device, hrow, hsid⟩
    have hsigned : Signed ⟨.device s.userId s.deviceId, device⟩ = true :=
      hall _ (AList.mem_lookup_iff.1 hrow)
    simpa [Signed, hsid] using hsigned
  intro s s' hlive hlive' hsid
  rcases hone s hlive with rfl | rfl <;> rcases hone s' hlive' with rfl | rfl <;>
    first | rfl | exact absurd hsid (by decide)

def logoutMoves (p : Pid) (payload : RefreshTokenPayload) : List KoriMove :=
  .arrive p (.logout (some payload)) :: [.go, .go].map (.step p)

def lateMoves (p : Pid) (payload : RefreshTokenPayload) : List KoriMove :=
  .arrive p (.refresh (some payload)) ::
    [.go, .uuid 78, .instant time, .go, .go].map (.step p)

end Sample

theorem session_stays_ended_of_logout : ∃ w₁ w,
    Reachable (kori Sample.env) (World.idle Sample.shared) w₁ ∧
      Reachable (kori Sample.env) w₁ w ∧ ¬Sample.session.Live (State.data w₁.conf) ∧
      w.conf.calls 2 = some (.refresh (some (Sample.payload 77))) ∧
      ∀ tokens, (2, .tokens tokens) ∈ w.conf.out → (2, .tokens tokens) ∈ w₁.conf.out := by
  obtain ⟨w₁, w, h₁, hr, hw⟩ := Sample.stages
    (Sample.refreshMoves 0 (Sample.payload 32) 77 ++ Sample.logoutMoves 1 (Sample.payload 77))
    (Sample.lateMoves 2 (Sample.payload 77))
    (fun w₁ w => ¬Sample.session.Live (State.data w₁.conf) ∧
      w.conf.calls 2 = some (.refresh (some (Sample.payload 77)))) (by decide +kernel)
  obtain ⟨hended, hcall⟩ := of_decide_eq_true hw
  refine ⟨w₁, w, h₁, hr, hended, hcall, fun tokens hsaid => ?_⟩
  exact session_stays_ended (s := Sample.session) Sample.opening Sample.distinct .refl
    (by decide +kernel) h₁ hended hr hcall rfl hsaid

end Kori
