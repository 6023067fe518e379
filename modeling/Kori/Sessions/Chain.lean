import Kori.Foundation.Trail
import Kori.Sessions.Steps

/-!
# Refresh tokens are single use

The exchanges of a session form one chain from the token with which it was
opened, and the token in the device row is the last one issued.
-/

namespace Kori

open Foundation

variable {env : Env} {shared : Shared} {p : Pid} {c c' : State}

structure Exchange where
  presented : RefreshTokenPayload
  issued : RefreshTokenPayload
  deriving DecidableEq, Repr

def Exchange.Links (token : RefreshTokenPayload) (e : Exchange)
    (token' : RefreshTokenPayload) : Prop :=
  token = e.presented ∧ token' = e.issued

def exchangeOf (call : Option Call) (reply : Reply) : Option Exchange :=
  match call, reply with
  | some (.refresh (some payload)), .tokens tokens => some ⟨payload, tokens.refreshToken⟩
  | _, _ => none

def State.exchanged (c : State) : List Exchange :=
  c.out.filterMap fun x => exchangeOf (c.calls x.1) x.2

def State.exchanges (c : State) (s : Session) : List Exchange :=
  (State.exchanged c).filter fun e => e.presented.session = s

/-- `jti` belongs to the refresh token with which the session was opened. -/
def Opens (shared : Shared) (c : State) (s : Session) (jti : Uuid) : Prop :=
  s.Current jti shared.db.committed ∨ ∃ q call tokens, c.calls q = some call ∧
    call.SignIn ∧ (q, .tokens tokens) ∈ c.out ∧ tokens.refreshToken = s.token jti

/-- The exchanges lead from the first token to `last`, never through one token twice. -/
def Chain (shared : Shared) (c : State) (s : Session) (last : RefreshTokenPayload) : Prop :=
  ∃ first, Opens shared c s first ∧
    Trail Exchange.Links (s.token first) (State.exchanges c s) last ∧
    (s.token first :: (State.exchanges c s).map Exchange.issued).Nodup

structure Rotating (shared : Shared) (c : State) : Prop where
  spoken : ∀ x ∈ c.out, c.calls x.1 ≠ none
  minted : ∀ u o, shared.minted u = some o → c.shared.minted u = some o
  chained : ∀ s, State.exchanges c s ≠ [] → ∃ last, Chain shared c s last
  current : ∀ s jti, s.Current jti c.data → Chain shared c s (s.token jti)

theorem mem_exchanges {s : Session} {e : Exchange} (h : e ∈ State.exchanges c s) :
    e.presented.session = s ∧ ∃ q tokens, c.calls q = some (.refresh (some e.presented)) ∧
      (q, .tokens tokens) ∈ c.out ∧ tokens.refreshToken = e.issued := by
  obtain ⟨hmem, hs⟩ := List.mem_filter.1 h
  obtain ⟨⟨q, reply⟩, hout, he⟩ := List.mem_filterMap.1 hmem
  refine ⟨of_decide_eq_true hs, ?_⟩
  unfold exchangeOf at he
  split at he
  · rename_i payload tokens hcall hreply
    cases he
    obtain rfl : reply = .tokens tokens := hreply
    exact ⟨q, tokens, hcall, hout, rfl⟩
  · simp at he

theorem Guar.spoken (hg : Guar env p c c') (h : ∀ x ∈ c.out, c.calls x.1 ≠ none) :
    ∀ x ∈ c'.out, c'.calls x.1 ≠ none := by
  obtain ⟨replies, hout, -⟩ := hg.effect
  intro x hx
  rw [hout, List.mem_append] at hx
  rcases hx with hx | hx
  · cases hcall : c.calls x.1 with
    | none => exact absurd hcall (h x hx)
    | some call => simp [hg.calls _ _ hcall]
  · obtain ⟨e, -, rfl⟩ := List.mem_map.1 hx
    obtain ⟨call, hcall⟩ := hg.called
    simp [hcall]

theorem exchanged_step (hspoken : ∀ x ∈ c.out, c.calls x.1 ≠ none) (hg : Guar env p c c')
    {replies : List Reply} (hout : c'.out = c.out ++ replies.map fun e => (p, e)) :
    State.exchanged c' =
      State.exchanged c ++ replies.filterMap (exchangeOf (c'.calls p)) := by
  unfold State.exchanged
  rw [hout, List.filterMap_append, List.filterMap_map]
  refine congrArg (· ++ _) (List.filterMap_congr fun x hx => ?_)
  cases hcall : c.calls x.1 with
  | none => exact absurd hcall (hspoken x hx)
  | some call => rw [hg.calls _ _ hcall]

theorem Opens.later {s : Session} {jti : Uuid} (h : Opens shared c s jti)
    (hcalls : ∀ q call, c.calls q = some call → c'.calls q = some call)
    (hout : ∀ x, x ∈ c.out → x ∈ c'.out) : Opens shared c' s jti := by
  obtain h | ⟨q, call, tokens, hcall, hsign, hmem, htoken⟩ := h
  · exact .inl h
  · exact .inr ⟨q, call, tokens, hcalls _ _ hcall, hsign, hout _ hmem, htoken⟩

theorem Opens.not_drawn {s : Session} {jti v : Uuid} (hopening : Opening env shared)
    (hminted : ∀ u o, shared.minted u = some o → c.shared.minted u = some o)
    (h : Opens shared c s jti) (hv : Drawn p v c) : s.sid ≠ v ∧ jti ≠ v := by
  obtain ⟨device, hrow, hsid, hjti⟩ | ⟨q, call, tokens, -, -, hmem, htoken⟩ := h
  · have hold : ∀ u, device.refreshSessionId = some u ∨ device.currentRefreshJti = some u →
        u ≠ v := by
      rintro u hu rfl
      have hopen := hminted _ _ (hopening.devices _ _ _ _ hrow hu)
      simp [hv.minted] at hopen
    exact ⟨hold _ (.inl hsid), hold _ (.inr hjti)⟩
  · simpa [htoken, Session.token] using hv.unused.tokens q tokens hmem

theorem Chain.later {s : Session} {last : RefreshTokenPayload} (h : Chain shared c s last)
    (hcalls : ∀ q call, c.calls q = some call → c'.calls q = some call)
    (hout : ∀ x, x ∈ c.out → x ∈ c'.out)
    (hsame : State.exchanges c' s = State.exchanges c s) : Chain shared c' s last := by
  obtain ⟨first, hopens, htrail, hnodup⟩ := h
  exact ⟨first, hopens.later hcalls hout, hsame ▸ htrail, hsame ▸ hnodup⟩

theorem Rotating.exchanges_of_drawn (h : Rotating shared c) (hopening : Opening env shared)
    {s : Session} (hsid : Drawn p s.sid c) : State.exchanges c s = [] := by
  by_contra hne
  obtain ⟨last, first, hopens, -⟩ := h.chained s hne
  exact (hopens.not_drawn hopening h.minted hsid).1 rfl

theorem Rotating.unexchanged (h : Rotating shared c) (hg : Guar env p c c')
    (hspoken : ∀ x ∈ c'.out, c'.calls x.1 ≠ none)
    (hout : ∀ x, x ∈ c.out → x ∈ c'.out)
    (hsame : ∀ s, State.exchanges c' s = State.exchanges c s)
    (hcurrent : ∀ s jti, s.Current jti c'.data → s.Current jti c.data ∨
      Chain shared c' s (s.token jti)) : Rotating shared c' where
  spoken := hspoken
  minted := fun u o hu => hg.minted u o (h.minted u o hu)
  chained := by
    intro s hne
    rw [hsame] at hne
    obtain ⟨last, hchain⟩ := h.chained s hne
    exact ⟨last, hchain.later hg.calls hout (hsame s)⟩
  current := by
    intro s jti hnow
    obtain hbefore | hchain := hcurrent s jti hnow
    · exact (h.current s jti hbefore).later hg.calls hout (hsame s)
    · exact hchain

theorem Session.Current.other {s : Session} {jti : Uuid} {userId : Uuid}
    {deviceId : JsString} {t t' : Data} (h : s.Current jti t')
    (hothers : OnlyDevice userId deviceId t t')
    (hne : Key.device s.userId s.deviceId ≠ .device userId deviceId) : s.Current jti t := by
  obtain ⟨device, hrow, hsession⟩ := h
  exact ⟨device, hothers _ _ hne ▸ hrow, hsession⟩

/-- The exchange of the last token extends the chain. -/
theorem Chain.exchange {s : Session} {last : RefreshTokenPayload} {jti : Uuid}
    (h : Chain shared c s last) (hopening : Opening env shared)
    (hminted : ∀ u o, shared.minted u = some o → c.shared.minted u = some o)
    (hcalls : ∀ q call, c.calls q = some call → c'.calls q = some call)
    (hout : ∀ x, x ∈ c.out → x ∈ c'.out) (hdrawn : Drawn p jti c)
    (hadds : State.exchanges c' s = State.exchanges c s ++ [⟨last, s.token jti⟩]) :
    Chain shared c' s (s.token jti) := by
  obtain ⟨first, hopens, htrail, hnodup⟩ := h
  refine ⟨first, hopens.later hcalls hout, ?_, ?_⟩
  · rw [hadds]
    exact htrail.concat ⟨rfl, rfl⟩
  · rw [hadds, List.map_append, ← List.cons_append]
    refine List.nodup_append.2 ⟨hnodup, by simp, ?_⟩
    rintro token htoken _ hlast rfl
    obtain rfl : token = s.token jti := by simpa using hlast
    rcases List.mem_cons.1 htoken with hfirst | hissued
    · exact (hopens.not_drawn hopening hminted hdrawn).2 (congrArg (·.jti) hfirst).symm
    · obtain ⟨e, he, htoken⟩ := List.mem_map.1 hissued
      obtain ⟨-, q, tokens, -, hmem, hissued⟩ := mem_exchanges he
      exact (hdrawn.unused.tokens q tokens hmem).2 (by rw [hissued, htoken]; rfl)

theorem Rotating.guar (h : Rotating shared c) (hopening : Opening env shared)
    (hg : Guar env p c c') : Rotating shared c' := by
  obtain ⟨replies, hout, heffect⟩ := hg.effect
  have hspoken := hg.spoken h.spoken
  have hkeeps : ∀ x, x ∈ c.out → x ∈ c'.out := fun _ => hg.said
  have hadds := exchanged_step h.spoken hg hout
  cases heffect.session with
  | quiet hnone hrows =>
      refine h.unexchanged hg hspoken hkeeps (fun s => ?_) fun s jti hnow => .inl ?_
      · unfold State.exchanges
        have hnil : replies.filterMap (exchangeOf (c'.calls p)) = [] := by
          refine List.filterMap_eq_nil_iff.2 fun e he => ?_
          unfold exchangeOf
          split
          · exact absurd he (hnone _)
          · rfl
        rw [hadds, hnil, List.append_nil]
      · obtain ⟨device, hrow, hsid, hjti⟩ := hnow
        obtain hrow | ⟨hnosid, -⟩ := hrows _ _ _ hrow
        · exact ⟨device, hrow, hsid, hjti⟩
        · simp [hnosid] at hsid
  | @opened s₀ jti₀ call role device hcall hsign hsid hjti hne hrow _ hrowSid hrowJti
      hothers =>
      have hsame : ∀ s, State.exchanges c' s = State.exchanges c s := by
        intro s
        unfold State.exchanges
        rw [hadds, hg.calls _ _ hcall]
        cases call <;> simp_all [exchangeOf, Call.SignIn]
      refine h.unexchanged hg hspoken hkeeps hsame fun s jti hnow => ?_
      by_cases hk : Key.device s.userId s.deviceId = .device s₀.userId s₀.deviceId
      · -- the session just opened
        obtain ⟨device', hrow', hsid', hjti'⟩ := hnow
        obtain ⟨hu, hd⟩ := Key.device.inj hk
        obtain ⟨userId, deviceId, sid⟩ := s
        subst hu hd
        obtain rfl := Option.some.inj (hrow.symm.trans hrow')
        obtain rfl := Option.some.inj (hrowSid.symm.trans hsid')
        obtain rfl := Option.some.inj (hrowJti.symm.trans hjti')
        have hnil : State.exchanges c' s₀ = [] :=
          (hsame s₀).trans (h.exchanges_of_drawn hopening hsid)
        refine .inr ⟨jti₀, .inr ⟨p, call, getTokens s₀.userId role s₀.deviceId s₀.sid jti₀,
          hg.calls _ _ hcall, hsign, ?_, rfl⟩, ?_⟩
        · rw [hout]
          exact List.mem_append_right _ (List.mem_map_of_mem (List.mem_singleton_self _))
        · rw [hnil]
          exact ⟨rfl, by simp⟩
      · exact .inl (hnow.other hothers hk)
  | @rotated payload jti₀ role device now hcall hrow hholds hdrawn hrow' hothers =>
      obtain ⟨hsid, hjti, -⟩ := holdsToken_iff.1 hholds
      have hcall' := hg.calls _ _ hcall
      have hexchanges : ∀ s, State.exchanges c' s = State.exchanges c s ++
          if payload.session = s then [⟨payload, payload.session.token jti₀⟩] else [] := by
        intro s
        have hreported : [Reply.tokens (getTokens payload.sub role payload.deviceId payload.sid
            jti₀)].filterMap (exchangeOf (some (.refresh (some payload)))) =
              [⟨payload, payload.session.token jti₀⟩] := rfl
        unfold State.exchanges
        rw [hadds, hcall', hreported, List.filter_append]
        by_cases hs : payload.session = s <;> simp [hs]
      have hlast := h.current payload.session payload.jti ⟨device, hrow, hsid, hjti⟩
      have hnew := hlast.exchange hopening h.minted hg.calls hkeeps hdrawn
        (by rw [hexchanges, if_pos rfl, payload.session_token])
      refine ⟨hspoken, fun u o hu => hg.minted u o (h.minted u o hu), ?_, ?_⟩
      · intro s hne
        by_cases hs : payload.session = s
        · exact hs ▸ ⟨_, hnew⟩
        · have hsame := (hexchanges s).trans (by rw [if_neg hs, List.append_nil])
          obtain ⟨last, hchain⟩ := h.chained s (hsame ▸ hne)
          exact ⟨last, hchain.later hg.calls hkeeps hsame⟩
      · intro s jti hnow
        by_cases hk : Key.device s.userId s.deviceId = .device payload.sub payload.deviceId
        · obtain ⟨device', hdevice', hsid', hjti'⟩ := hnow
          obtain ⟨hu, hd⟩ := Key.device.inj hk
          obtain ⟨userId, deviceId, sid⟩ := s
          subst hu hd
          obtain rfl := Option.some.inj (hrow'.symm.trans hdevice')
          obtain rfl : sid = payload.sid := Option.some.inj (hsid'.symm.trans hsid)
          obtain rfl := Option.some.inj hjti'
          exact hnew
        · have hs : payload.session ≠ s := by
            rintro rfl
            exact hk rfl
          exact (h.current s jti (hnow.other hothers hk)).later hg.calls hkeeps
            ((hexchanges s).trans (by rw [if_neg hs, List.append_nil]))

theorem Rotating.still {c c' : State} (h : Rotating shared c) (hsame : Still c c') :
    Rotating shared c' := by
  have hexchanges : ∀ s, State.exchanges c' s = State.exchanges c s := by
    intro s
    unfold State.exchanges State.exchanged
    rw [hsame.out, hsame.calls]
  have hlater : ∀ s last, Chain shared c s last → Chain shared c' s last := fun s last h =>
    h.later (fun _ _ h => hsame.calls ▸ h) (fun _ h => hsame.out ▸ h) (hexchanges s)
  refine ⟨?_, fun u o hu => hsame.minted ▸ h.minted u o hu, ?_, ?_⟩
  · rw [hsame.out, hsame.calls]
    exact h.spoken
  · intro s hne
    obtain ⟨last, hchain⟩ := h.chained s (hexchanges s ▸ hne)
    exact ⟨last, hlater s last hchain⟩
  · intro s jti hnow
    rw [hsame.data] at hnow
    exact hlater s _ (h.current s jti hnow)

variable {w : KoriWorld} {allowed : KoriWorld → KoriMove → KoriWorld → Prop}

theorem rotating_idle : Rotating shared (World.idle shared : KoriWorld).conf where
  spoken := by simp [World.idle]
  minted := fun _ _ h => h
  chained := fun s hne => absurd rfl hne
  current := fun s jti hnow =>
    ⟨jti, .inl hnow, rfl, by simp [State.exchanges, State.exchanged, World.idle]⟩

theorem run_rotating (hopening : Opening env shared)
    (hr : Reach (kori env) allowed (World.idle shared) w) : Rotating shared w.conf :=
  run_preserves hopening.sound rotating_idle (fun _ _ _ _ hg h => h.guar hopening hg)
    (fun _ _ hsame h => h.still hsame) hr

theorem presented_nodup {es : List Exchange}
    (h : ∀ s, ((es.filter fun e => e.presented.session = s).map Exchange.presented).Nodup) :
    (es.map Exchange.presented).Nodup := by
  induction es with
  | nil => simp
  | cons e es ih =>
      refine List.nodup_cons.2 ⟨?_, ih fun s => ?_⟩
      · intro hmem
        obtain ⟨e', he', heq⟩ := List.mem_map.1 hmem
        have hown := h e.presented.session
        rw [List.filter_cons_of_pos (by simp), List.map_cons, List.nodup_cons] at hown
        exact hown.1 (List.mem_map.2 ⟨e', List.mem_filter.2 ⟨he', by simp [heq]⟩, heq⟩)
      · exact (h s).sublist (((List.sublist_cons_self e es).filter _).map _)

theorem SessionStep.exchange {t : Data} {replies : List Reply} {payload : RefreshTokenPayload}
    {tokens : TokensResponse} (h : SessionStep p c t replies)
    (hcall : ∀ call, c.calls p = some call → call = .refresh (some payload))
    (he : Reply.tokens tokens ∈ replies) :
    ∃ device, c.data.row (.device payload.sub payload.deviceId) = some device ∧
      holdsToken payload device = true := by
  cases h with
  | quiet hnone _ => exact absurd he (hnone _)
  | opened hcall' hsign =>
      obtain rfl := hcall _ hcall'
      exact hsign.elim
  | @rotated payload' _ _ device _ hcall' hrow hholds =>
      obtain rfl : payload' = payload := by simpa using hcall _ hcall'
      exact ⟨device, hrow, hholds⟩

/-- `payload` can be exchanged in the next step. -/
def Exchangeable (env : Env) (payload : RefreshTokenPayload) (w : KoriWorld) : Prop :=
  ∃ p choice w' tokens, w.conf.calls p = some (.refresh (some payload)) ∧
    w.move (kori env) (.step p choice) = some w' ∧ (p, .tokens tokens) ∈ w'.conf.out ∧
    (p, .tokens tokens) ∉ w.conf.out

theorem Exchangeable.current {payload : RefreshTokenPayload}
    (hs : (contract env).Sound w) (h : Exchangeable env payload w) :
    payload.session.Current payload.jti (State.data w.conf) := by
  obtain ⟨p, choice, w', tokens, hcall, hmove, hsaid, hnew⟩ := h
  obtain ⟨replies, hout, heffect⟩ := (guar_of_step hs hmove).effect
  rw [hout, List.mem_append, or_iff_right hnew] at hsaid
  obtain ⟨e, he, heq⟩ := List.mem_map.1 hsaid
  obtain rfl := (Prod.mk.inj heq).2
  obtain ⟨device, hrow, hholds⟩ := heffect.session.exchange
    (fun call hcall' => Option.some.inj (hcall'.symm.trans hcall)) he
  obtain ⟨hsid, hjti, -⟩ := holdsToken_iff.1 hholds
  exact ⟨device, hrow, hsid, hjti⟩

/-- The successful refreshes of a session form one chain from the token that opened
it, no token is exchanged twice, and a device row never accepts two tokens. -/
structure SingleUse (env : Env) (shared : Shared) (w : KoriWorld) : Prop where
  chained : ∀ s, State.exchanges w.conf s ≠ [] → ∃ first last,
    Opens shared w.conf s first ∧
      Trail Exchange.Links (s.token first) (State.exchanges w.conf s) last
  once : ((State.exchanged w.conf).map Exchange.presented).Nodup
  unique : ∀ payload payload', Exchangeable env payload w → Exchangeable env payload' w →
    payload.sub = payload'.sub → payload.deviceId = payload'.deviceId → payload = payload'

theorem refresh_single_use (hopening : Opening env shared)
    (hr : Reach (kori env) allowed (World.idle shared) w) : SingleUse env shared w := by
  have hrotating := run_rotating hopening hr
  refine ⟨?_, presented_nodup fun s => ?_, ?_⟩
  · intro s hne
    obtain ⟨last, first, hopens, htrail, -⟩ := hrotating.chained s hne
    exact ⟨first, last, hopens, htrail⟩
  · by_cases hne : State.exchanges w.conf s = []
    · change ((State.exchanges w.conf s).map _).Nodup
      simp [hne]
    · obtain ⟨last, first, -, htrail, hnodup⟩ := hrotating.chained s hne
      exact hnodup.sublist (htrail.starts_sublist fun _ _ _ h => h)
  · intro payload payload' h h' hsub hdevice
    have hs := (contract env).sound hopening.sound hr
    obtain ⟨device, hrow, hsid, hjti⟩ := h.current hs
    obtain ⟨device', hrow', hsid', hjti'⟩ := h'.current hs
    obtain ⟨sub, deviceId, sid, jti⟩ := payload
    subst hsub hdevice
    obtain rfl := Option.some.inj (hrow.symm.trans hrow')
    obtain rfl := Option.some.inj (hsid.symm.trans hsid')
    obtain rfl := Option.some.inj (hjti.symm.trans hjti')
    rfl

namespace Sample

def payload (jti : Uuid) : RefreshTokenPayload := ⟨1, js "d", 31, jti⟩

def refreshMoves (p : Pid) (payload : RefreshTokenPayload) (newJti : Uuid) : List KoriMove :=
  .arrive p (.refresh (some payload)) ::
    [.go, .uuid newJti, .instant time, .go, .go].map (.step p)

end Sample

theorem refresh_single_use_of_two : ∃ w,
    Reachable (kori Sample.env) (World.idle Sample.shared) w ∧
      (State.exchanged w.conf).map Exchange.presented =
        [Sample.payload 32, Sample.payload 77] ∧
      SingleUse Sample.env Sample.shared w := by
  obtain ⟨w, hr, hw⟩ := Sample.reaches
    (Sample.refreshMoves 0 (Sample.payload 32) 77 ++
      Sample.refreshMoves 1 (Sample.payload 77) 78)
    (fun w => (State.exchanged w.conf).map Exchange.presented =
      [Sample.payload 32, Sample.payload 77]) (by decide +kernel)
  exact ⟨w, hr, of_decide_eq_true hw, refresh_single_use Sample.opening hr⟩

end Kori
