import Kori.Sessions.Ended

/-!
# Replay of a rotated refresh token

A token that has been exchanged is never the current one of its session again, so
the second look of a refused refresh tells a replay from a lost race.
-/

namespace Kori

open Foundation

variable {env : Env} {shared : Shared} {p q : Pid} {c c' : State} {s : Session}
variable {payload : RefreshTokenPayload}

/-- As long as the device row holds the session of `payload`, the token is a replay. -/
structure Stale (payload : RefreshTokenPayload) (c : State) : Prop where
  sid : Used payload.sid c
  jti : Used payload.jti c
  replay : ∀ device, c.data.row (.device payload.sub payload.deviceId) = some device →
    device.refreshSessionId = some payload.sid →
    isReplayWithinCurrentSession payload device = true

theorem Rotating.used (h : Rotating shared c) (hopening : Opening env shared) {jti : Uuid}
    (hnow : s.Current jti c.data) : Used s.sid c ∧ Used jti c := by
  obtain ⟨first, hopens, htrail, -⟩ := h.current s jti hnow
  have hfirst : Used s.sid c ∧ Used first c := by
    obtain ⟨device, hrow, hsid, hjti⟩ | ⟨q, call, tokens, -, -, hmem, htoken⟩ := hopens
    · exact ⟨.inl (h.minted _ _ (hopening.devices _ _ _ _ hrow (.inl hsid))),
        .inl (h.minted _ _ (hopening.devices _ _ _ _ hrow (.inr hjti)))⟩
    · exact ⟨.inr ⟨q, tokens, hmem, .inl (by rw [htoken]; rfl)⟩,
        .inr ⟨q, tokens, hmem, .inr (by rw [htoken]; rfl)⟩⟩
  refine ⟨hfirst.1, ?_⟩
  rcases List.mem_cons.1 (htrail.end_mem fun _ _ _ h => h.2) with hlast | hissued
  · obtain rfl : jti = first := congrArg RefreshTokenPayload.jti hlast
    exact hfirst.2
  · obtain ⟨e, he, htoken⟩ := List.mem_map.1 hissued
    obtain ⟨-, q, tokens, -, hmem, hissued⟩ := mem_exchanges he
    exact .inr ⟨q, tokens, hmem, .inr (by rw [hissued, htoken]; rfl)⟩

theorem Stale.guar (h : Stale payload c) (hg : Guar env p c c') : Stale payload c' := by
  refine ⟨h.sid.guar hg, h.jti.guar hg, fun device' hrow' hsid' => ?_⟩
  obtain ⟨replies, -, heffect⟩ := hg.effect
  cases heffect.session with
  | quiet _ hrows =>
      obtain hrow | ⟨hnosid, -⟩ := hrows _ _ _ hrow'
      · exact h.replay device' hrow hsid'
      · simp [hnosid] at hsid'
  | @opened s jti call role device hcall hsign hsid hjti hne hrow hauthorized hrowSid
      hrowJti hothers =>
      by_cases hk : Key.device payload.sub payload.deviceId = .device s.userId s.deviceId
      · obtain ⟨hu, hd⟩ := Key.device.inj hk
        obtain ⟨userId, deviceId, sid⟩ := s
        subst hu hd
        obtain rfl := Option.some.inj (hrow.symm.trans hrow')
        obtain rfl : payload.sid = sid := Option.some.inj (hsid'.symm.trans hrowSid)
        exact absurd hsid h.sid.not_drawn
      · exact h.replay device' (hothers _ _ hk ▸ hrow') hsid'
  | @rotated payload' jti role device now hcall hrow hholds hdrawn hrowAfter hothers =>
      by_cases hk : Key.device payload.sub payload.deviceId =
          .device payload'.sub payload'.deviceId
      · obtain ⟨sub, deviceId, sid', jti'⟩ := payload'
        obtain ⟨rfl, rfl⟩ := Key.device.inj hk
        obtain rfl := Option.some.inj (hrowAfter.symm.trans hrow')
        refine isReplay_iff.2 ⟨(holdsToken_iff.1 hholds).2.2, hsid', by simp, ?_⟩
        rintro hjti
        obtain rfl : jti = payload.jti := Option.some.inj hjti
        exact h.jti.not_drawn hdrawn
      · exact h.replay device' (hothers _ _ hk ▸ hrow') hsid'

theorem Stale.still (h : Stale payload c) (hsame : Still c c') : Stale payload c' :=
  ⟨h.sid.still hsame, h.jti.still hsame, hsame.data ▸ h.replay⟩

theorem SessionStep.stale {t : Data} {replies : List Reply} {tokens : TokensResponse}
    (h : SessionStep p c t replies)
    (hcall : ∀ call, c.calls p = some call → call = .refresh (some payload))
    (he : Reply.tokens tokens ∈ replies) :
    payload.session.Current payload.jti c.data ∧ (Used payload.jti c → ∀ device,
      t.row (.device payload.sub payload.deviceId) = some device →
        device.refreshSessionId = some payload.sid →
        isReplayWithinCurrentSession payload device = true) := by
  cases h with
  | quiet hnone _ => exact absurd he (hnone _)
  | opened hcall' hsign =>
      obtain rfl := hcall _ hcall'
      exact hsign.elim
  | @rotated payload' jti role device now hcall' hrow hholds hdrawn hrow' hothers =>
      obtain rfl : payload' = payload := by simpa using hcall _ hcall'
      obtain ⟨hsid, hjti, hauthorized⟩ := holdsToken_iff.1 hholds
      refine ⟨⟨device, hrow, hsid, hjti⟩, fun hused device' hdevice hsid' => ?_⟩
      obtain rfl := Option.some.inj (hrow'.symm.trans hdevice)
      refine isReplay_iff.2 ⟨hauthorized, hsid', by simp, ?_⟩
      rintro heq
      obtain rfl : jti = payload'.jti := Option.some.inj heq
      exact hused.not_drawn hdrawn

variable {w : KoriWorld} {allowed : KoriWorld → KoriMove → KoriWorld → Prop}

theorem run_stale (hopening : Opening env shared)
    (hr : Reach (kori env) allowed (World.idle shared) w) {tokens : TokensResponse}
    (hcall : w.conf.calls q = some (.refresh (some payload)))
    (hsaid : (q, .tokens tokens) ∈ w.conf.out) : Stale payload w.conf := by
  have hall := run_preserves (P := fun c => Rotating shared c ∧ ∀ q payload tokens,
    c.calls q = some (.refresh (some payload)) → (q, .tokens tokens) ∈ c.out →
      Stale payload c) hopening.sound ⟨rotating_idle, by simp [World.idle]⟩
    ?_ ?_ hr
  · exact hall.2 q payload tokens hcall hsaid
  · rintro p c c' hi hg ⟨hrotating, hstale⟩
    refine ⟨hrotating.guar hopening hg, fun q payload tokens hcall hsaid => ?_⟩
    have hold : (q, .tokens tokens) ∈ c.out → Stale payload c' := by
      intro hbefore
      cases hcalls : c.calls q with
      | none => exact absurd hcalls (hrotating.spoken _ hbefore)
      | some call =>
          have hsame := (hg.calls _ _ hcalls).symm.trans hcall
          exact (hstale q payload tokens (hcalls.trans hsame) hbefore).guar hg
    obtain ⟨replies, hout, heffect⟩ := hg.effect
    rw [hout, List.mem_append] at hsaid
    refine hsaid.elim hold fun hnew => ?_
    obtain ⟨e, he, heq⟩ := List.mem_map.1 hnew
    obtain ⟨rfl, rfl⟩ := Prod.mk.inj heq
    obtain ⟨hcurrent, hreplay⟩ := heffect.session.stale
      (fun call h => Option.some.inj ((hg.calls _ _ h).symm.trans hcall)) he
    obtain ⟨hsid, hjti⟩ := hrotating.used hopening hcurrent
    exact ⟨hsid.guar hg, hjti.guar hg, hreplay hjti⟩
  · rintro c c' hsame ⟨hrotating, hstale⟩
    refine ⟨hrotating.still hsame, fun q payload tokens hcall hsaid => ?_⟩
    rw [hsame.calls] at hcall
    rw [hsame.out] at hsaid
    exact (hstale q payload tokens hcall hsaid).still hsame

def replayScope (p : Pid) (payload : RefreshTokenPayload) : Scope where
  holds := Stale payload
  meets q op choice c := q = p → choice ≠ .fail ∧
    (op = .sql (.select (.user payload.sub)) → choice = .go →
      c.data.accountActive payload.sub = true)
  permits q e c := q = p → e = .failed sessionInvalid ∧ ¬payload.session.Live c.data

theorem replay_answers (hs : (terms env (replayScope p payload)).Silent p c c')
    (hidle : Idle p c') (hcall : c'.calls p = some (.refresh (some payload))) :
    Answers env (replayScope p payload) p (handle env (.refresh (some payload)))
      (fun _ => (terms env (replayScope p payload)).Guar p)
      (fun _ => (terms env (replayScope p payload)).Guar p) c c' := by
  refine settles_respond (settles_bind.2 ((refreshTokens_settles hs hidle hcall).imp ?_ ?_))
  · -- the row does not hold a stale token
    intro tokens s s' hexchanged
    obtain ⟨device, hrow, hholds⟩ := hexchanged.token
    obtain ⟨hsid, hjti, -⟩ := holdsToken_iff.1 hholds
    have hstale : Stale payload s := hexchanged.holds
    exact absurd hjti (isReplay_iff.1 (hstale.replay device hrow hsid)).2.2.2
  · rintro e s s' ⟨hs', hrefused⟩
    refine silent_plain hs' trivial fun _ => ?_
    cases hrefused with
    | restricted hmeets hinactive => simp [(hmeets rfl).2 rfl rfl] at hinactive
    | ended hholds hnone =>
        refine ⟨rfl, ?_⟩
        rintro ⟨device, hrow, hsid⟩
        have hstale : Stale payload s' := hholds
        have hreplay := hstale.replay device hrow hsid
        simp [hnone device hrow] at hreplay
    | revoked hrow hnosid =>
        refine ⟨rfl, ?_⟩
        rintro ⟨device', hrow', hsid⟩
        obtain rfl := Option.some.inj (hrow.symm.trans hrow')
        simp [hnosid] at hsid
    | fault hfails =>
        obtain ⟨op, s, hmeets⟩ := hfails
        exact absurd rfl (hmeets rfl).1

/-- No statement of `p` breaks down, and when it reads the account, that is ACTIVE. -/
def Served (p : Pid) (payload : RefreshTokenPayload) (w : KoriWorld) (m : KoriMove) : Prop :=
  m ≠ .step p .fail ∧ (m = .step p .go →
    w.pending p = some (.sql (.select (.user payload.sub))) →
      (State.data w.conf).accountActive payload.sub = true)

/-- A session that is not in its row can only come back under a new identifier. -/
theorem run_not_live {start : KoriWorld} (hs : (contract env).Sound start)
    (hused : Used s.sid start.conf) (hgone : ¬s.Live (State.data start.conf))
    (hr : Reach (kori env) allowed start w) : ¬s.Live (State.data w.conf) := by
  refine (run_preserves (P := fun c => Used s.sid c ∧ ¬s.Live c.data) hs ⟨hused, hgone⟩
    ?_ ?_ hr).2
  · rintro p c c' hi hg ⟨hused, hgone⟩
    obtain ⟨replies, -, heffect⟩ := hg.effect
    refine ⟨hused.guar hg, fun hlive => ?_⟩
    obtain hbefore | ⟨hdrawn, -⟩ := heffect.session.live hlive
    · exact hgone hbefore
    · exact hused.not_drawn hdrawn
  · rintro c c' hsame ⟨hused, hgone⟩
    exact ⟨hused.still hsame, hsame.data ▸ hgone⟩

/-- A refresh with a token that was exchanged before is refused, and by then the
device row no longer holds the session. -/
theorem replay_ends_session {before after : KoriWorld} {tokens : TokensResponse} {e : Reply}
    (hopening : Opening env shared)
    (hbefore : Reachable (kori env) (World.idle shared) before)
    (hcall : before.conf.calls q = some (.refresh (some payload)))
    (hrotated : (q, .tokens tokens) ∈ before.conf.out)
    (hmove : before.move (kori env) (.arrive p (.refresh (some payload))) = some after)
    (hr : Reach (kori env) (fun w m _ => Served p payload w m) after w)
    (he : (p, e) ∈ w.conf.out) :
    e = .failed sessionInvalid ∧ ¬payload.session.Live (State.data w.conf) := by
  have hs := (contract env).sound hopening.sound hbefore
  have hnew : before.conf.calls p = none := by
    cases hcalls : before.conf.calls p with
    | none => rfl
    | some old => simp [World.move, hcalls] at hmove
  have hafter : Reachable (kori env) (World.idle shared) after := .move hbefore hmove trivial
  have hstep : Reachable (kori env) before after := .move .refl hmove trivial
  obtain ⟨hout, hcalls⟩ := run_keeps hs hstep
  have hsound := (contract env).sound hopening.sound hafter
  have hstale : ∀ w, Reachable (kori env) after w → Stale payload w.conf := by
    intro w hw
    obtain ⟨hout', hcalls'⟩ := run_keeps hsound hw
    exact run_stale hopening (hafter.trans hw) (hcalls' _ _ (hcalls _ _ hcall))
      (hout' _ (hout _ hrotated))
  have hmeets : ∀ w choice op next,
      Reach (kori env) (fun w m _ => Served p payload w m) after w →
      Served p payload w (.step p choice) → w.procs p = some (.request op next) →
      (replayScope p payload).meets p op choice w.conf := by
    rintro w choice op next hw ⟨hworks, hactive⟩ hproc -
    refine ⟨fun hfail => hworks (by rw [hfail]), ?_⟩
    rintro rfl rfl
    refine hactive rfl ?_
    rw [World.pending, hproc]
    rfl
  obtain ⟨w', hw', hlater, hpermits⟩ := arrival_answers (σ := replayScope p payload) hs hmove
    (replay_answers (silent_arrive hs.inv.1 hnew _) (idle_arrive hs.inv.1 hnew _)
      (Function.update_self ..)) (run_spoken hopening hbefore hnew)
    (fun w hw => hstale w hw.reachable)
    (fun w choice _ op next hw ha hproc => hmeets w choice op next hw ha hproc) hr he
  obtain ⟨hinvalid, hgone⟩ := hpermits rfl
  exact ⟨hinvalid, run_not_live ((contract env).sound hsound hw')
    (hstale w' hw'.reachable).sid hgone hlater⟩

namespace Sample

def served (p : Pid) (w : KoriWorld) (m : KoriMove) (_ : KoriWorld) : Bool :=
  (match m with
    | .step q .fail => q ≠ p
    | _ => true) &&
  (State.data w.conf).accountActive 1

theorem served_of (p : Pid) (jti : Uuid) (w : KoriWorld) (m : KoriMove) (w' : KoriWorld)
    (h : served p w m w' = true) : Served p (Sample.payload jti) w m := by
  simp only [served, Bool.and_eq_true] at h
  refine ⟨?_, fun _ _ => h.2⟩
  rintro rfl
  simp at h

def twoExchanged (w : KoriWorld) : Bool :=
  w.conf.calls 0 = some (.refresh (some (Sample.payload 32))) &&
    (match w.conf.out with
      | [(0, .tokens _), (1, .tokens _)] => true
      | _ => false)

def thirdAnswered (w : KoriWorld) : Bool :=
  match w.conf.out with
  | [_, _, (2, _)] => true
  | _ => false

end Sample

/-- The first token is presented again, after two rotations. -/
theorem replay_ends_session_of_third : ∃ w,
    Reachable (kori Sample.env) (World.idle Sample.shared) w ∧
      ∃ e, (2, e) ∈ w.conf.out ∧ e = .failed sessionInvalid ∧
        ¬(Sample.payload 32).session.Live (State.data w.conf) := by
  obtain ⟨before, after, w, hbefore, hmove, hfirst, hr, hw⟩ := Sample.arrives
    (Sample.refreshMoves 0 (Sample.payload 32) 77 ++
      Sample.refreshMoves 1 (Sample.payload 77) 78) 2 (.refresh (some (Sample.payload 32)))
    [.go, .uuid 79, .instant Sample.time, .go, .go, .go, .go]
    (fun before _ => Sample.twoExchanged before)
    Sample.thirdAnswered (Sample.served 2) (Sample.served_of 2 32) (by decide +kernel)
  simp only [Sample.twoExchanged, Bool.and_eq_true, decide_eq_true_eq] at hfirst
  obtain ⟨hcall, hout⟩ := hfirst
  have hafter : Reachable (kori Sample.env) before after := .move .refl hmove trivial
  split at hout
  · rename_i tokens tokens' hrotated
    unfold Sample.thirdAnswered at hw
    split at hw
    · rename_i x y e hsaid
      have he : (2, e) ∈ w.conf.out := by simp [hsaid]
      have hfirst : (0, .tokens tokens) ∈ before.conf.out := by simp [hrotated]
      exact ⟨w, (hbefore.trans hafter).trans hr.reachable, e, he, replay_ends_session
        Sample.opening hbefore hcall hfirst hmove hr he⟩
    · simp at hw
  · simp at hout

end Kori
