import Kori.Conduct.Suspensions
import Kori.Foundation.Interpret
import Kori.Sessions.Steps

/-!
# Which sessions are listed

A device row holds a session identifier exactly if it holds a token identifier, and only
while the device is authorised.  The list of an account's devices shows a session as
active exactly if its refresh token would be exchanged.
-/

namespace Kori

open Foundation

/-! ## Device rows -/

/-- The session of a device and its token are there together, and only on an authorised
device. -/
structure TrustDevice.Coherent (device : TrustDevice) : Prop where
  together : device.refreshSessionId = none ↔ device.currentRefreshJti = none
  authorized : device.isAuthorized = false →
    device.refreshSessionId = none ∧ device.currentRefreshJti = none

theorem TrustDevice.coherent_cleared {device : TrustDevice}
    (hsid : device.refreshSessionId = none) (hjti : device.currentRefreshJti = none) :
    device.Coherent := by
  constructor
  · simp [hsid, hjti]
  · exact fun _ => ⟨hsid, hjti⟩

theorem TrustDevice.coherent_open {device : TrustDevice} {sid jti : Uuid}
    (hsid : device.refreshSessionId = some sid) (hjti : device.currentRefreshJti = some jti)
    (hauthorized : device.isAuthorized = true) : device.Coherent := by
  constructor
  · simp [hsid, hjti]
  · simp [hauthorized]

def DevicesCoherent (t : Data) : Prop :=
  ∀ u d device, t.row (.device u d) = some device → device.Coherent

section Rows

variable {env : Env} {shared : Shared} {w : KoriWorld} {p : Pid} {c : State} {t : Data}
variable {replies : List Reply}

theorem DevicesCoherent.put {t' : Data} {userId : Uuid} {deviceId : JsString}
    {device : TrustDevice} (h : DevicesCoherent t) (hothers : OnlyDevice userId deviceId t t')
    (hrow : t'.row (.device userId deviceId) = some device) (hdevice : device.Coherent) :
    DevicesCoherent t' := by
  intro u d device' hrow'
  by_cases hk : Key.device u d = .device userId deviceId
  · obtain ⟨rfl, rfl⟩ := Key.device.inj hk
    obtain rfl := Option.some.inj (hrow.symm.trans hrow')
    exact hdevice
  · rw [hothers u d hk] at hrow'
    exact h u d device' hrow'

theorem SessionStep.coherent (hstep : SessionStep p c t replies)
    (h : DevicesCoherent c.data) : DevicesCoherent t := by
  cases hstep with
  | quiet _ hrows =>
      intro u d device hrow
      obtain hold | ⟨hsid, hjti⟩ := hrows u d device hrow
      · exact h u d device hold
      · exact TrustDevice.coherent_cleared hsid hjti
  | opened _ _ _ _ _ hrow hauthorized hsid hjti hothers =>
      exact h.put hothers hrow (TrustDevice.coherent_open hsid hjti hauthorized)
  | rotated _ _ hholds _ hrow hothers =>
      obtain ⟨hsid, -, hauthorized⟩ := of_decide_eq_true hholds
      exact h.put hothers hrow (TrustDevice.coherent_open hsid rfl hauthorized)

theorem run_coherent (hopening : Opening env shared)
    (hdevices : DevicesCoherent shared.db.committed)
    (hr : Reachable (kori env) (World.idle shared) w) :
    DevicesCoherent (State.data w.conf) := by
  apply run_preserves (P := fun c => DevicesCoherent c.data) hopening.sound hdevices _ _ hr
  · intro p c c' _ hguar h
    obtain ⟨replies, -, heffect⟩ := hguar.effect
    exact heffect.session.coherent h
  · intro c c' hstill h
    rw [hstill.data]
    exact h

end Rows

/-! ## Requests that run alone -/

def Readings.choice (now : Instant) (fresh : Uuid) : Op → Choice
  | .now => .instant now
  | .randomUUID => .uuid fresh
  | _ => .go

section Alone

variable {env : Env} {p : Pid} {now : Instant} {fresh : Uuid} {s : Shared} {t : Data}

def answerAlone (env : Env) (p : Pid) (now : Instant) (fresh : Uuid) (op : Op) (s : Shared) :
    Option (op.Ans × Shared) :=
  Shared.exec env p op (Readings.choice now fresh op) s

theorem interpret_select_alone {query : Query} (hs : s.db = .quiet t) :
    Code.interpret (answerAlone env p now fresh) (select query) s = some ⟨.ok t, [], s⟩ := by
  have hview : s.db.view p = t := by rw [hs]; rfl
  rw [← hview]
  rfl

variable (env p now fresh) in
theorem interpret_updateRow_alone (query : Query) (k : Key) (conditions : Row k → Bool)
    (relations : Data → Bool) (data : Row k → Row k) (hs : s.db = .quiet t) :
    ∃ s', Code.interpret (answerAlone env p now fresh)
        (updateRow query k conditions relations data) s =
      some ⟨.ok (if (t.row k).any fun v => conditions v ∧ relations t then 1 else 0),
        [], s'⟩ := by
  have hview : s.db.view p = t := by rw [hs]; rfl
  have hfree : s.db.Free p k := by
    rw [hs]
    exact .inl rfl
  unfold updateRow
  rw [Code.interpret_bind_silent (interpret_select_alone hs)]
  cases hrow : t.row k with
  | none => exact ⟨s, rfl⟩
  | some v =>
      by_cases hcond : conditions v ∧ relations t
      · have hupdate : Code.interpret (answerAlone env p now fresh)
            (sql (.update k fun row => .ok (if conditions row then some (data row) else none)))
            s = some ⟨.ok (some (data v)), [], { s with db := s.db.write p k (data v) hfree }⟩ := by
          refine (Code.interpret_bind_silent (a := .ok (some (data v))) ?_).trans rfl
          simp [execute, answerAlone, Readings.choice, Shared.exec, Store.exec, hfree, hview, hrow,
            hcond.1]
        refine ⟨{ s with db := s.db.write p k (data v) hfree }, ?_⟩
        simp only [hcond, and_self, if_true]
        exact (Code.interpret_bind_silent hupdate).trans (by simp [hcond])
      · refine ⟨s, ?_⟩
        simp only [hcond, if_false]
        simp [hcond]

/-- The request to exchange the token is answered with new tokens. -/
def RefreshAccepted (env : Env) (p : Pid) (now : Instant) (fresh : Uuid)
    (payload : RefreshTokenPayload) (s : Shared) : Prop :=
  ∃ tokens events s', Code.interpret (answerAlone env p now fresh) (refreshTokens payload) s =
    some ⟨.ok tokens, events, s'⟩

theorem accountActive_eq (t : Data) (id : Uuid) : t.accountActive id =
    ((t.row (.user id)).filter fun user => user.status = .active).isSome := by
  unfold Data.accountActive
  cases t.row (.user id) with
  | none => rfl
  | some user => by_cases h : user.status = .active <;> simp [Option.filter, h]

theorem interpret_randomUUID (hfresh : s.minted fresh = none) :
    Code.interpret (answerAlone env p now fresh) (Code.ask Op.randomUUID : Action Uuid) s =
      some ⟨.ok fresh, [], { s with
        minted := Function.update s.minted fresh (some (.request p)) }⟩ := by
  simp [answerAlone, Readings.choice, Shared.exec, hfresh]

theorem not_ok_of_throw {α β : Type} {m : Action α} {e : Exn} {b : β} {events : List Reply}
    {s s' : Shared} {answer : (op : Op) → Shared → Option (op.Ans × Shared)} :
    Code.interpret answer (m >>= fun _ => (throw e : Action β)) s ≠
      some ⟨.ok b, events, s'⟩ := by
  intro h
  have hends : Code.Ends answer (m >>= fun _ => (throw e : Action β)) s (fun _ _ => False)
      fun _ _ => True := by
    apply Code.Ends.bind (Q := fun _ _ => True)
    · intro o _
      unfold Code.Meets
      split <;> trivial
    · exact fun a s' _ => Code.ends_throw trivial
  exact hends _ h

theorem refreshAccepted_iff {payload : RefreshTokenPayload} (hs : s.db = .quiet t)
    (hfresh : s.minted fresh = none) : RefreshAccepted env p now fresh payload s ↔
      t.accountActive payload.sub = true ∧
        ∃ device, t.row (.device payload.sub payload.deviceId) = some device ∧
          holdsToken payload device = true := by
  unfold RefreshAccepted refreshTokens
  rw [Code.interpret_bind_silent (interpret_select_alone hs)]
  have hactive := accountActive_eq t payload.sub
  cases hfound : (t.row (.user payload.sub)).filter fun user => user.status = .active with
  | none => simp [hactive, hfound]
  | some user =>
      rw [hfound, Option.isSome_some] at hactive
      simp only
      rw [Code.interpret_bind_silent (interpret_randomUUID hfresh),
        Code.interpret_bind_silent (a := now) rfl]
      obtain ⟨s', hrotate⟩ := interpret_updateRow_alone env p now fresh
        (.device payload.sub payload.deviceId) (.device payload.sub payload.deviceId)
        (holdsToken payload) (fun t => t.accountActive payload.sub)
        (fun device => { device with currentRefreshJti := some fresh, lastUsedAt := now })
        (s := { s with minted := Function.update s.minted fresh (some (.request p)) }) hs
      rw [rotateRefreshToken, Code.interpret_bind_silent hrotate]
      by_cases hheld : ((t.row (.device payload.sub payload.deviceId)).any fun device =>
          holdsToken payload device ∧ t.accountActive payload.sub) = true
      · obtain ⟨device, hrow, hholds⟩ := (Option.any_eq_true _ _).1 hheld
        obtain ⟨hholds, -⟩ := of_decide_eq_true hholds
        rw [if_pos hheld, if_pos rfl]
        constructor
        · intro _
          exact ⟨hactive, device, hrow, hholds⟩
        · intro _
          exact ⟨_, [], s', rfl⟩
      · rw [if_neg hheld, if_neg (by simp)]
        constructor
        · rintro ⟨tokens, events, s'', hok⟩
          exact absurd hok not_ok_of_throw
        · rintro ⟨-, device, hrow, hholds⟩
          exact absurd (by simp [hrow, hholds, hactive]) hheld

/-! ## The list -/

def Data.listed (t : Data) (createdAt : Uuid → Instant) (u : Uuid) :
    List TrustedDeviceResponse :=
  (t.devicesOf u).filterMap fun d =>
    (t.row (.device u d)).map fun device => device.response d (createdAt device.id)

theorem Data.mem_listed {createdAt : Uuid → Instant} {u : Uuid}
    {entry : TrustedDeviceResponse} : entry ∈ t.listed createdAt u ↔
      ∃ d device, t.row (.device u d) = some device ∧
        entry = device.response d (createdAt device.id) := by
  simp only [Data.listed, List.mem_filterMap, Option.map_eq_some_iff]
  constructor
  · rintro ⟨d, -, device, hrow, rfl⟩
    exact ⟨d, device, hrow, rfl⟩
  · rintro ⟨d, device, hrow, rfl⟩
    exact ⟨d, mem_devicesOf.2 (by simp [hrow]), device, hrow, rfl⟩

variable (env p now fresh) in
theorem interpret_listTrustedDevice (createdAt : Uuid → Instant) (u : Uuid)
    (hs : s.db = .quiet t) :
    Code.interpret (answerAlone env p now fresh) (listTrustedDevice createdAt u) s =
      some ⟨if t.listed createdAt u = [] then
          .error (.http 404 (some "DEVICES_NOT_FOUND") "Device not found.")
        else .ok ((t.listed createdAt u).mergeSort fun a b => b.createdAt.ms ≤ a.createdAt.ms),
        [], s⟩ := by
  unfold listTrustedDevice
  rw [Code.interpret_bind_silent (interpret_select_alone hs)]
  by_cases hempty : t.listed createdAt u = []
  · rw [if_pos hempty]
    apply Code.interpret_bind_error
    rw [Code.interpret_throwIf, if_pos (by exact hempty)]
  · rw [if_neg hempty]
    apply (Code.interpret_bind_silent (a := ()) _).trans rfl
    rw [Code.interpret_throwIf, if_neg (by exact hempty)]

/-- The token names the session that the device row holds, and its current identifier. -/
structure Names (payload : RefreshTokenPayload) (u : Uuid) (d : JsString)
    (device : TrustDevice) : Prop where
  sub : payload.sub = u
  deviceId : payload.deviceId = d
  sid : device.refreshSessionId = some payload.sid
  jti : device.currentRefreshJti = some payload.jti

theorem hasActiveSession_iff {u : Uuid} {d : JsString} {device : TrustDevice}
    {createdAt : Instant} (hs : s.db = .quiet t) (hfresh : s.minted fresh = none)
    (hactive : t.accountActive u = true) (hrow : t.row (.device u d) = some device) :
    (device.response d createdAt).hasActiveSession = true ↔
      ∃ payload, Names payload u d device ∧ RefreshAccepted env p now fresh payload s := by
  constructor
  · intro h
    obtain ⟨hauthorized, hjti, hsid⟩ := of_decide_eq_true h
    obtain ⟨sid, hsid⟩ := Option.ne_none_iff_exists'.1 hsid
    obtain ⟨jti, hjti⟩ := Option.ne_none_iff_exists'.1 hjti
    refine ⟨⟨u, d, sid, jti⟩, ⟨rfl, rfl, hsid, hjti⟩, ?_⟩
    rw [refreshAccepted_iff hs hfresh]
    exact ⟨hactive, device, hrow, decide_eq_true ⟨hsid, hjti, hauthorized⟩⟩
  · rintro ⟨payload, hnames, haccepted⟩
    obtain ⟨-, device', hrow', hholds⟩ := (refreshAccepted_iff hs hfresh).1 haccepted
    rw [hnames.sub, hnames.deviceId] at hrow'
    obtain rfl := Option.some.inj (hrow.symm.trans hrow')
    obtain ⟨-, -, hauthorized⟩ := of_decide_eq_true hholds
    simp [TrustDevice.response, hauthorized, hnames.sid, hnames.jti]

end Alone

section Runs

variable {env : Env} {shared : Shared} {w : KoriWorld}

/-- In every reachable state the device rows are coherent, and the list of the devices of an
ACTIVE account says of each whether a token for it would be exchanged. -/
theorem sessions_listed (hopening : Opening env shared)
    (hdevices : DevicesCoherent shared.db.committed)
    (hr : Reachable (kori env) (World.idle shared) w) :
    DevicesCoherent (State.data w.conf) ∧
    ∀ s p now fresh createdAt u, s.db = .quiet (State.data w.conf) → s.minted fresh = none →
      (State.data w.conf).accountActive u = true →
      (∀ d, ((State.data w.conf).row (.device u d)).isSome → ∃ entries,
        Code.interpret (answerAlone env p now fresh) (listTrustedDevice createdAt u) s =
          some ⟨.ok entries, [], s⟩ ∧ ∃ entry ∈ entries, entry.deviceId = d) ∧
      ∀ entries, Code.interpret (answerAlone env p now fresh) (listTrustedDevice createdAt u) s =
          some ⟨.ok entries, [], s⟩ → ∀ entry ∈ entries, ∃ device,
        (State.data w.conf).row (.device u entry.deviceId) = some device ∧
        entry.id = device.id ∧
        (entry.hasActiveSession = true ↔ ∃ payload, Names payload u entry.deviceId device ∧
          RefreshAccepted env p now fresh payload s) := by
  refine ⟨run_coherent hopening hdevices hr, ?_⟩
  intro s p now fresh createdAt u hs hfresh hactive
  constructor
  · intro d hsome
    obtain ⟨device, hrow⟩ := Option.isSome_iff_exists.1 hsome
    have hmem : device.response d (createdAt device.id) ∈
        (State.data w.conf).listed createdAt u := Data.mem_listed.2 ⟨d, device, hrow, rfl⟩
    have hlist := interpret_listTrustedDevice env p now fresh createdAt u hs
    rw [if_neg (List.ne_nil_of_mem hmem)] at hlist
    exact ⟨_, hlist, device.response d (createdAt device.id), List.mem_mergeSort.2 hmem, rfl⟩
  · intro entries hlist entry hentry
    rw [interpret_listTrustedDevice env p now fresh createdAt u hs] at hlist
    split at hlist
    · simp at hlist
    · simp only [Option.some.injEq, Outcome.mk.injEq, Except.ok.injEq, and_true] at hlist
      rw [← hlist, List.mem_mergeSort] at hentry
      obtain ⟨d, device, hrow, rfl⟩ := Data.mem_listed.1 hentry
      exact ⟨device, hrow, rfl, hasActiveSession_iff hs hfresh hactive hrow⟩

end Runs

namespace Sample

def Open : Sigma Row → Bool
  | ⟨.device _ _, device⟩ =>
      device.isAuthorized && device.refreshSessionId.isSome && device.currentRefreshJti.isSome
  | _ => true

theorem coherent : DevicesCoherent shared.db.committed := by
  have hall : ∀ e ∈ data.rows.entries, Open e = true := by decide +kernel
  intro u d device hrow
  have hopen : Open ⟨.device u d, device⟩ = true := hall _ (AList.mem_lookup_iff.1 hrow)
  simp only [Open, Bool.and_eq_true, Option.isSome_iff_exists] at hopen
  obtain ⟨⟨hauthorized, sid, hsid⟩, jti, hjti⟩ := hopen
  exact TrustDevice.coherent_open hsid hjti hauthorized

end Sample

/-- The session of the first customer is shown as active, and its token is exchanged. -/
theorem sessions_listed_of_opening : ∃ entries entry payload,
    Code.interpret (answerAlone Sample.env 0 Sample.time 50)
        (listTrustedDevice (fun _ => Sample.time) 1) Sample.shared =
      some ⟨.ok entries, [], Sample.shared⟩ ∧ entry ∈ entries ∧
      entry.hasActiveSession = true ∧
      RefreshAccepted Sample.env 0 Sample.time 50 payload Sample.shared := by
  obtain ⟨-, hlisted⟩ := sessions_listed Sample.opening Sample.coherent .refl
  have hactive : Data.accountActive Sample.data 1 = true := by decide +kernel
  have hrow : Sample.data.row (.device 1 (js "d")) = some (Sample.device 21 31 32) := by
    decide +kernel
  obtain ⟨hevery, honly⟩ := hlisted Sample.shared 0 Sample.time 50 (fun _ => Sample.time) 1 rfl
    rfl hactive
  obtain ⟨entries, hentries, entry, hentry, hd⟩ := hevery (js "d") (Option.isSome_of_eq_some hrow)
  obtain ⟨device, hrow', -, hiff⟩ := honly entries hentries entry hentry
  rw [hd] at hrow' hiff
  obtain rfl := Option.some.inj (hrow.symm.trans hrow')
  have haccepted : RefreshAccepted Sample.env 0 Sample.time 50 ⟨1, js "d", 31, 32⟩ Sample.shared :=
    (refreshAccepted_iff rfl rfl).2 ⟨hactive, _, hrow, rfl⟩
  exact ⟨entries, entry, _, hentries, hentry,
    hiff.2 ⟨_, ⟨rfl, rfl, rfl, rfl⟩, haccepted⟩, haccepted⟩

end Kori
