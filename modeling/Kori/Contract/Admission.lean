import Kori.Contract.Accounts
import Kori.Contract.Idempotency
import Kori.Contract.Registration
import Kori.Contract.Sessions

/-!
# Every request keeps the contract

The arrival of a call changes nothing that the others rely on, and from then on
its handler keeps the contract, whichever call it is.
-/

namespace Kori

open Foundation Code

variable {env : Env} {σ : Scope} {p : Pid} {c c' : State} {α : Type}

/-! ## Arrivals -/

theorem guar_arrive (hi : Inv env c) (hnew : c.calls p = none) (call : Call) :
    Guar env p c (c.arrive p call) where
  frame := .refl ..
  called := ⟨call, Function.update_self ..⟩
  calls := by
    intro q old hq
    have hne : q ≠ p := by
      rintro rfl
      simp [hnew] at hq
    exact (Function.update_of_ne hne ..).trans hq
  others := fun q hq => Function.update_of_ne hq ..
  minted := fun _ _ h => h
  leases := fun _ _ => rfl
  cache := ⟨fun _ => .inl rfl, fun _ h => .inl h⟩
  pending := by
    intro own hown
    have htx := (hi.idle p hnew).1
    rw [show c.shared.db.tx p = some own from hown] at htx
    simp at htx
  effect := ⟨[], by simp, .none (by simp)⟩

theorem silent_arrive (hi : Inv env c) (hnew : c.calls p = none) (call : Call) :
    (terms env σ).Silent p c (c.arrive p call) :=
  ⟨⟨guar_arrive hi hnew call, fun _ he => .inl he⟩, rfl⟩

theorem idle_arrive (hi : Inv env c) (hnew : c.calls p = none) (call : Call) :
    Idle p (c.arrive p call) :=
  ⟨⟨call, Function.update_self ..⟩, (hi.idle p hnew).1⟩

/-! ## Controllers -/

abbrev Handles (env : Env) (p : Pid) (m : Action Reply) (c c' : State) : Prop :=
  Answers env .open p m
    (fun reply c₁ c₂ => (terms env .open).Guar p c₁ (c₂.tell p [reply]))
    (fun _ => (terms env .open).Silent p) c c'

theorem handles_respond {m : Action Reply} (h : Handles env p m c c') :
    Answers env .open p (respond m) (fun _ => (terms env .open).Guar p)
      (fun _ => (terms env .open).Guar p) c c' :=
  settles_respond (h.imp (fun _ _ _ hguar => hguar)
    fun _ _ _ hs => silent_plain hs trivial trivial)

theorem handles_behind {guard : Action α} {next : α → Action Reply}
    (hguard : guard.Only Op.Quiet) (hs : (terms env .open).Silent p c c') (hidle : Idle p c')
    (hnext : ∀ a c₁ c₂, (terms env .open).Silent p c₁ c₂ → Idle p c₂ → Rely p c' c₂ →
      Handles env p (next a) c₁ c₂) :
    Handles env p (guard >>= next) c c' :=
  settles_only_bind hguard hs hidle.called
    (fun a c₁ c₂ hs₂ hr₂ => hnext a c₁ c₂ hs₂ (hidle.rely hr₂) hr₂) fun _ _ _ hs _ => hs

theorem handles_success {m : Action α}
    (h : Answers env .open p m (fun _ => (terms env .open).Silent p)
      (fun _ => (terms env .open).Silent p) c c') :
    Handles env p (do
      let _ ← m
      pure .success) c c' :=
  settles_bind.2 (h.imp (fun _ _ _ hs => silent_plain hs trivial trivial) fun _ _ _ hs => hs)

theorem handles_plain {m : Action Reply}
    (h : Answers env .open p m
      (fun reply c₁ c₂ => (terms env .open).Silent p c₁ c₂ ∧ reply.Plain)
      (fun _ => (terms env .open).Silent p) c c') :
    Handles env p m c c' :=
  h.imp (fun _ _ _ hs => silent_plain hs.1 hs.2 trivial) fun _ _ _ hs => hs

theorem handles_tokens {m : Action TokensResponse}
    (h : Answers env .open p m
      (fun tokens c₁ c₂ => (terms env .open).Guar p c₁ (c₂.tell p [.tokens tokens]))
      (fun _ => (terms env .open).Silent p) c c') :
    Handles env p (do
      let tokens ← m
      pure (.tokens tokens)) c c' :=
  settles_bind.2 (h.imp (fun _ _ _ hguar => hguar) fun _ _ _ hs => hs)

theorem handles_auth (hs : (terms env .open).Silent p c c') (hidle : Idle p c') :
    (∀ dto, Handles env p (AuthController.sendOtp env dto) c c') ∧
    (∀ dto, c'.calls p = some (.verifyOtp dto) →
      Handles env p (AuthController.verifyOtp env dto) c c') ∧
    (∀ dto call, c'.calls p = some call → call.SignIn →
      Handles env p (AuthController.register env dto) c c') ∧
    (∀ dto call, c'.calls p = some call → call.SignIn →
      Handles env p (AuthController.registerBusiness env dto) c c') ∧
    ∀ dto call, c'.calls p = some call → call.SignIn →
      Handles env p (AuthController.login env dto) c c' := by
  refine ⟨fun dto => ?_, fun dto hcall => ?_, fun dto call hcall hsign => ?_,
    fun dto call hcall hsign => ?_, fun dto call hcall hsign => ?_⟩ <;>
    refine handles_behind (validationPipe_only _) hs hidle fun _ c₁ c₂ hs₂ hidle₂ hr₂ => ?_
  · exact handles_plain (sendOtp_settles hs₂ hidle₂)
  · exact handles_plain (verifyOtp_settles hs₂ hidle₂ (hr₂.calls _ _ hcall))
  · exact handles_tokens (register_settles hs₂ hidle₂ (hr₂.calls _ _ hcall) hsign)
  · exact handles_tokens (registerBusiness_settles hs₂ hidle₂ (hr₂.calls _ _ hcall) hsign)
  · exact handles_tokens (login_settles hs₂ hidle₂ (hr₂.calls _ _ hcall) hsign)

theorem handles_refresh {token : Option RefreshTokenPayload}
    (hs : (terms env .open).Silent p c c') (hidle : Idle p c')
    (hcall : c'.calls p = some (.refresh token)) :
    Handles env p (AuthController.refresh token) c c' := by
  cases token with
  | none => exact hs
  | some payload =>
      refine handles_tokens ((refreshTokens_settles hs hidle hcall).imp ?_
        fun _ _ _ h => h.1)
      intro tokens s s' hexchanged
      obtain ⟨shared, rfl⟩ := hexchanged.step
      exact hexchanged.guar.told fun _ _ => trivial

theorem handles_logout {token : Option RefreshTokenPayload}
    (hs : (terms env .open).Silent p c c') (hidle : Idle p c')
    (hcall : c'.calls p = some (.logout token)) :
    Handles env p (AuthController.logout token) c c' := by
  cases token with
  | none => exact silent_plain hs trivial trivial
  | some payload => exact handles_success (logoutCurrentSession_settles hs hidle hcall)

theorem handles_revoke {actor : Option Uuid} {deviceRecordId : Uuid}
    (hs : (terms env .open).Silent p c c') (hidle : Idle p c')
    (hcall : c'.calls p = some (.revokeTrustedDevice actor deviceRecordId)) :
    Handles env p (AuthController.revokeDevice actor deviceRecordId) c c' := by
  cases actor with
  | none => exact hs
  | some sub =>
      change Handles env p (activeAccountGuard sub >>= _) c c'
      refine handles_behind (activeAccountGuard_only sub) hs hidle
        fun _ c₁ c₂ hs₂ hidle₂ hr₂ => ?_
      exact handles_success (revokeTrustedDevice_settles hs₂ hidle₂ (hr₂.calls _ _ hcall))

theorem open_grants (request : TransferRequest) : Scope.open.Grants env p request :=
  ⟨fun _ _ _ => trivial, fun _ _ _ _ _ => trivial,
    fun _ _ _ _ _ _ _ _ _ _ _ => trivial⟩

/-- Every call keeps the contract from its arrival on. -/
theorem handle_settles (hi : Inv env c) (hnew : c.calls p = none) (call : Call) :
    Answers env .open p (handle env call) (fun _ => (terms env .open).Guar p)
      (fun _ => (terms env .open).Guar p) c (c.arrive p call) := by
  have hs : (terms env .open).Silent p c (c.arrive p call) := silent_arrive hi hnew call
  have hidle := idle_arrive hi hnew call
  have hcall : (c.arrive p call).calls p = some call := Function.update_self ..
  cases call with
  | transfer request => exact transfer_settles hs hidle hcall (open_grants request)
  | deactiveWallet actor walletId =>
      exact handles_respond (handles_behind (roleGuards_only _ _) hs hidle
        fun _ _ _ hs₂ hidle₂ _ => handles_success (deactiveWallet_settles hs₂ hidle₂))
  | activeWallet actor walletId =>
      exact handles_respond (handles_behind (roleGuards_only _ _) hs hidle
        fun _ _ _ hs₂ hidle₂ _ => handles_success (activeWallet_settles hs₂ hidle₂))
  | suspend actor targetUserId =>
      exact handles_respond (handles_behind (roleGuards_only _ _) hs hidle
        fun _ _ _ hs₂ hidle₂ _ => handles_success (suspend_settles hs₂ hidle₂))
  | reactivate actor targetUserId =>
      exact handles_respond (handles_behind (roleGuards_only _ _) hs hidle
        fun _ _ _ hs₂ hidle₂ _ => handles_success (reactivate_settles hs₂ hidle₂))
  | sendOtp dto => exact handles_respond ((handles_auth hs hidle).1 dto)
  | verifyOtp dto => exact handles_respond ((handles_auth hs hidle).2.1 dto hcall)
  | register dto =>
      exact handles_respond ((handles_auth hs hidle).2.2.1 dto _ hcall trivial)
  | registerBusiness dto =>
      exact handles_respond ((handles_auth hs hidle).2.2.2.1 dto _ hcall trivial)
  | login dto => exact handles_respond ((handles_auth hs hidle).2.2.2.2 dto _ hcall trivial)
  | refresh token => exact handles_respond (handles_refresh hs hidle hcall)
  | logout token => exact handles_respond (handles_logout hs hidle hcall)
  | revokeTrustedDevice actor deviceRecordId =>
      exact handles_respond (handles_revoke hs hidle hcall)
  | approveBusinessAccount actor dto =>
      exact handles_respond (handles_behind (roleGuards_only _ _) hs hidle
        fun _ _ _ hs₂ hidle₂ _ => handles_behind (validationPipe_only _) hs₂ hidle₂
          fun _ _ _ hs₃ hidle₃ _ => handles_success (approveBusinessAccount_settles hs₃ hidle₃))

/-- The contract that all requests keep. -/
def contract (env : Env) : Contract (kori env) where
  toTerms := terms env .open
  meets := fun _ _ _ _ => trivial
  inv_guar := fun hi hg => ⟨hi.1.guar hg.1, trivial⟩
  guar_rely := fun hi hg hq => hg.1.rely hi.1 hq
  inv_abort := fun hi => ⟨hi.1.abort, trivial⟩
  abort_rely := fun _ hq => abort_rely hq
  inv_tick := fun hi => ⟨hi.1.expire, trivial⟩
  tick_rely := fun _ => expire_rely
  arrival := fun _ call _ hi hnew => handle_settles hi.1 hnew call

end Kori
