import Kori.Contract.Runs

/-!
# Steps on sessions

What one step of a request can do to the sessions in the device rows: end them,
open one, or exchange the refresh token of one.
-/

namespace Kori

open Foundation

structure Session where
  userId : Uuid
  deviceId : JsString
  sid : Uuid
  deriving DecidableEq, Repr

namespace Session

def token (s : Session) (jti : Uuid) : RefreshTokenPayload :=
  ⟨s.userId, s.deviceId, s.sid, jti⟩

def Live (s : Session) (t : Data) : Prop :=
  ∃ device, t.row (.device s.userId s.deviceId) = some device ∧
    device.refreshSessionId = some s.sid

instance (s : Session) (t : Data) : Decidable (s.Live t) :=
  decidable_of_iff (((t.row (.device s.userId s.deviceId)).any fun device =>
    device.refreshSessionId = some s.sid) = true) (by simp [Live, Option.any_eq_true])

def Current (s : Session) (jti : Uuid) (t : Data) : Prop :=
  ∃ device, t.row (.device s.userId s.deviceId) = some device ∧
    device.refreshSessionId = some s.sid ∧ device.currentRefreshJti = some jti

end Session

def RefreshTokenPayload.session (payload : RefreshTokenPayload) : Session :=
  ⟨payload.sub, payload.deviceId, payload.sid⟩

theorem RefreshTokenPayload.session_token (payload : RefreshTokenPayload) :
    payload.session.token payload.jti = payload := rfl

def OnlyDevice (userId : Uuid) (deviceId : JsString) (t t' : Data) : Prop :=
  ∀ u d, Key.device u d ≠ .device userId deviceId →
    t'.row (.device u d) = t.row (.device u d)

inductive SessionStep (p : Pid) (c : State) (t : Data) : List Reply → Prop
  | quiet {replies} : (∀ tokens, Reply.tokens tokens ∉ replies) →
      (∀ u d device, t.row (.device u d) = some device →
        c.data.row (.device u d) = some device ∨
          (device.refreshSessionId = none ∧ device.currentRefreshJti = none)) →
      SessionStep p c t replies
  | opened {s : Session} {jti call role device} : c.calls p = some call → call.SignIn →
      Drawn p s.sid c → Drawn p jti c → s.sid ≠ jti →
      t.row (.device s.userId s.deviceId) = some device → device.isAuthorized = true →
      device.refreshSessionId = some s.sid → device.currentRefreshJti = some jti →
      OnlyDevice s.userId s.deviceId c.data t →
      SessionStep p c t [.tokens (getTokens s.userId role s.deviceId s.sid jti)]
  | rotated {payload jti role device now} : c.calls p = some (.refresh (some payload)) →
      c.data.row (.device payload.sub payload.deviceId) = some device →
      holdsToken payload device = true → Drawn p jti c →
      t.row (.device payload.sub payload.deviceId) =
        some { device with currentRefreshJti := some jti, lastUsedAt := now } →
      OnlyDevice payload.sub payload.deviceId c.data t →
      SessionStep p c t
        [.tokens (getTokens payload.sub role payload.deviceId payload.sid jti)]

variable {env : Env} {p : Pid} {c : State} {t : Data} {replies : List Reply}

theorem SessionStep.of_rows (hes : ∀ e ∈ replies, e.Plain)
    (hrows : ∀ u d, t.row (.device u d) = c.data.row (.device u d)) :
    SessionStep p c t replies :=
  .quiet (fun _ htokens => hes _ htokens) fun u d _ hrow => .inl (hrows u d ▸ hrow)

theorem SessionStep.of_cleared (userId : Uuid) (deviceId : JsString) {device : TrustDevice}
    (hes : ∀ e ∈ replies, e.Plain) (hrow : t.row (.device userId deviceId) = some device)
    (hsid : device.refreshSessionId = none) (hjti : device.currentRefreshJti = none)
    (hothers : OnlyDevice userId deviceId c.data t) : SessionStep p c t replies := by
  refine .quiet (fun _ htokens => hes _ htokens) ?_
  intro u d device' hrow'
  by_cases hk : Key.device u d = .device userId deviceId
  · obtain ⟨rfl, rfl⟩ := Key.device.inj hk
    obtain rfl := Option.some.inj (hrow.symm.trans hrow')
    exact .inr ⟨hsid, hjti⟩
  · exact .inl (hothers u d hk ▸ hrow')

theorem onlyDevice_put (userId : Uuid) (deviceId : JsString) (device : TrustDevice)
    (t : Data) : OnlyDevice userId deviceId t (t.put (.device userId deviceId) device) :=
  fun _ _ hk => Tables.row_put_of_ne hk ..

theorem DeviceStep.session {userId : Uuid} {deviceId : JsString}
    {device device' : TrustDevice} (hrow : c.data.row (.device userId deviceId) = some device)
    (h : DeviceStep c p userId deviceId device device' replies) :
    SessionStep p c (c.data.put (.device userId deviceId) device') replies := by
  have hput := Tables.row_put_self c.data (.device userId deviceId) device'
  have hothers := onlyDevice_put userId deviceId device' c.data
  cases h with
  | @signedIn call role sid jti now hcall hsign hauthorized hsid hjti hne =>
      exact .opened (s := ⟨userId, deviceId, sid⟩) hcall hsign hsid hjti hne hput
        hauthorized rfl rfl hothers
  | rotated hcall hsub hdevice hholds hdrawn =>
      subst hsub hdevice
      exact .rotated hcall hrow hholds hdrawn hput hothers
  | replayed _ _ _ _ hes => exact .of_cleared _ _ hes hput rfl rfl hothers
  | loggedOut _ _ _ _ hes => exact .of_cleared _ _ hes hput rfl rfl hothers
  | revoked _ hes => exact .of_cleared _ _ hes hput rfl rfl hothers
  | enrolled _ hes => exact .of_cleared _ _ hes hput rfl rfl hothers

theorem Effect.session (h : Effect env p c t replies) : SessionStep p c t replies := by
  cases h with
  | none hes => exact .of_rows hes fun _ _ => rfl
  | replayed _ _ => exact .quiet (by simp) fun _ _ _ hrow => .inl hrow
  | transferred hpost =>
      refine .quiet (by simp) fun u d device hrow => .inl ?_
      rwa [TransferOrder.post_row (by simp) (by simp) (by simp) (by simp)] at hrow
  | froze _ _ hes => exact .of_rows hes fun _ _ => by simp
  | activated _ _ _ _ hes => exact .of_rows hes fun _ _ => by simp
  | suspended _ _ _ _ _ _ _ _ hes =>
      refine .quiet (fun _ htokens => hes _ htokens) fun u d device hrow => ?_
      obtain hrow | hcleared := clearDevices_device hrow
      · exact .inl (by simpa using hrow)
      · exact .inr hcleared
  | reactivated _ _ _ hes => exact .of_rows hes fun _ _ => by simp
  | device hrow hstep => exact hstep.session hrow
  | @enrolledNew userId deviceId device _ _ _ hsid hjti hes =>
      refine .of_cleared userId deviceId hes ?_ hsid hjti fun u d hk => ?_
      · rw [Tables.row_put_of_ne (by simp), Tables.row_put_self]
      · rw [Tables.row_put_of_ne (by simp), Tables.row_put_of_ne hk]
  | @registered id user walletId type deviceId device sid jti t hnew hclaim =>
      obtain ⟨call, hcall, hsign⟩ := hnew.call
      refine .opened (s := ⟨id, deviceId, sid⟩) hcall hsign hnew.drawnSid hnew.drawnJti
        hnew.distinct ?_ hnew.authorized hnew.session.1 hnew.session.2 fun u d hk => ?_
      · simp [Data.addAccount]
      · rw [← hclaim.row (show ∀ id, Key.device u d ≠ .approval id by simp)]
        simp [Data.addAccount, Tables.row_put_of_ne hk]
  | approved _ _ hes => exact .of_rows hes fun _ _ => by simp
  | renewed _ _ hes => exact .of_rows hes fun _ _ => by simp

end Kori
