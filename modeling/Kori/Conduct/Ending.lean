import Kori.Conduct.Approvals
import Kori.Foundation.Answering
import Kori.Foundation.Waiting

/-!
# How requests end

Every handler answers once, and it has closed its database transaction by then.
-/

namespace Kori

open Foundation Code

variable {env : Env} {past past' : History} {α β : Type} {P : Op → Prop}

def Op.Steady (op : Op) : Prop := op ≠ .sql .start ∧ ∀ k, op ≠ .sql (.lock k)

def Op.Ends (op : Op) : Prop := op = .sql .commit ∨ op = .sql .rollback

def Closed : History → Prop
  | [] => True
  | e :: past => e.op.Ends ∨
      (Closed past ∧ (e.op.Steady ∨ ∃ error, e = ⟨.sql .start, .error error⟩))

/-- Answers are given, and requests end, with everything closed. -/
def closedRules : Rules Op Op.Ans Reply where
  asks := fun _ _ => True
  tells := fun past _ => Closed past
  ends := Closed

/-- The code says nothing, and closes what it opens. -/
structure Tidy (m : Action α) : Prop where
  silent : m.Only fun _ => True
  closed : ∀ past, Closed past → Heeds closedRules m (fun _ => Closed) (fun _ => Closed) past

/-! ## Building blocks -/

instance : Harmless fun _ : Op => True := ⟨fun _ _ => trivial⟩

instance : Harmless Op.Steady where
  free := by
    intro op h
    constructor
    · rintro rfl
      exact h
    · rintro k rfl
      exact h

theorem Op.Quiet.steady {op : Op} (h : op.Quiet) : op.Steady := by
  constructor
  · rintro rfl
    exact h
  · rintro k rfl
    exact h

theorem steady_update {k : Key} {change : Row k → Except SqlError (Option (Row k))} :
    Op.Steady (.sql (.update k change)) :=
  ⟨by simp, by simp⟩

theorem Closed.extends (h : Closed past) (he : Extends Op.Steady past past') :
    Closed past' := by
  obtain ⟨recent, rfl, hrecent⟩ := he
  induction recent with
  | nil => exact h
  | cons e recent ih =>
      have hclosed := ih fun e' he' => hrecent e' (List.mem_cons_of_mem _ he')
      exact .inr ⟨hclosed, .inl (hrecent e List.mem_cons_self)⟩

theorem only_silent {m : Action α} (h : m.Only P) : m.Only fun _ => True :=
  h.mono fun _ _ => trivial

theorem tidy_only {m : Action α} (h : m.Only Op.Steady) : Tidy m where
  silent := only_silent h
  closed past hclosed := by
    apply heeds_only h (fun _ _ _ _ => trivial)
    · exact fun _ _ he => hclosed.extends he
    · exact fun _ _ he => hclosed.extends he

theorem tidy_quiet {m : Action α} (h : m.Only Op.Quiet) : Tidy m :=
  tidy_only (h.mono fun _ => Op.Quiet.steady)

theorem tidy_pure (a : α) : Tidy (pure a : Action α) := tidy_only (only_pure a)

theorem tidy_throw (e : Exn) : Tidy (throw e : Action α) := tidy_only (only_throw e)

theorem tidy_throwIf (condition : Prop) [Decidable condition] (e : Exn) :
    Tidy (throwIf condition e : Action Unit) := tidy_only (only_throwIf condition e)

theorem Tidy.bind {m : Action β} {next : β → Action α} (h : Tidy m)
    (hnext : ∀ b, Tidy (next b)) : Tidy (m >>= next) where
  silent := h.silent.bind fun b => (hnext b).silent
  closed past hclosed := (h.closed past hclosed).bind fun b past' => (hnext b).closed past'

theorem Tidy.tryCatch {m : Action α} {handler : Exn → Action α} (h : Tidy m)
    (hhandler : ∀ e, Tidy (handler e)) : Tidy (MonadExcept.tryCatch m handler) where
  silent := h.silent.tryCatch fun e => (hhandler e).silent
  closed past hclosed := (h.closed past hclosed).tryCatch fun e past' => (hhandler e).closed past'

theorem tidy_transaction {body : Action α} (h : body.Only fun _ => True) :
    Tidy (transaction body) where
  silent := by
    have hend : ∀ statement, (sql statement).Only fun _ => True := fun _ => sql_only trivial
    apply (hend .start).bind
    intro _
    apply Only.bind
    · apply h.tryCatch
      exact fun e => (ask_only trivial).bind fun _ => only_throw e
    · exact fun a => (hend .commit).bind fun _ => only_pure a
  closed past hclosed := by
    apply heeds_transaction (R := fun _ _ => True) (X := fun _ _ => True) trivial
    · exact fun error => .inr ⟨hclosed, .inr ⟨error, rfl⟩⟩
    · apply heeds_only h (fun _ _ _ _ => trivial) <;> intros <;> trivial
    · exact fun e past' _ => ⟨trivial, fun answer => .inl (.inr rfl)⟩
    · exact fun a past' _ => ⟨trivial, .inl (.inl rfl), fun error => .inl (.inl rfl)⟩

theorem tidy_select (query : Query) : Tidy (select query) := tidy_only (select_only query)

theorem tidy_updateRow {query : Query} {k : Key} {conditions : Row k → Bool}
    {relations : Data → Bool} {data : Row k → Row k} :
    Tidy (updateRow query k conditions relations data) :=
  tidy_only (updateRow_only (Harmless.free _ (by trivial)) steady_update)

/-! ## Handlers -/

theorem roleGuards_tidy (required : Role) (actor : Option Uuid) :
    Tidy (roleGuards required actor) := tidy_only (roleGuards_only _ _)

theorem phoneNumberFrom_tidy (value : JsString) : Tidy (phoneNumberFrom env value) :=
  tidy_only (phoneNumberFrom_only _)

theorem validationPipe_tidy (payload : Payload) : Tidy (validationPipe env payload) :=
  tidy_only (validationPipe_only _)

theorem transferBetween_tidy (type : TransactionType) (senderType receiverType : WalletType)
    (reference : TransferBody → Option JsString) (actor : Uuid) (dto : TransferBody)
    (key : JsString) :
    Tidy (transferBetween env type senderType receiverType reference actor dto key) := by
  have hfree : ∀ op : Op, op.Free → op.Steady := Harmless.free
  apply (phoneNumberFrom_tidy _).bind
  intro phone
  apply Tidy.bind
  · unfold liftAmounts
    split <;> first | exact tidy_pure _ | exact tidy_throw _
  intro amounts
  apply (tidy_only (Only.both (hfree _ (by trivial)) (getOwnWalletId_only _)
    (resolveWalletIdByPhone_only _))).bind
  intro ids
  apply (tidy_only (assertTransferEligibility_only _ _ _ _ _)).bind
  intro _
  apply (tidy_transaction (only_silent (acidBlock_only _))).tryCatch
  intro e
  split <;> exact tidy_throw _

theorem endpointHandler_tidy (endpoint : TransactionType) (actor : Uuid) (dto : TransferBody)
    (key : JsString) : Tidy (endpointHandler env endpoint actor dto key) := by
  cases endpoint with
  | addMoney => exact tidy_throw _
  | sendMoney | cashIn | cashOut | payment => exact transferBetween_tidy _ _ _ _ _ _ _

theorem deactiveWallet_tidy (actor : Option Uuid) (id : Uuid) :
    Tidy (WalletsController.deactiveWallet actor id) := by
  apply (roleGuards_tidy _ _).bind
  intro _
  apply Tidy.bind
  · exact (tidy_only (assertManageableWallet_only _)).bind fun _ => tidy_updateRow.bind fun _ =>
      (tidy_throwIf _ _).bind fun _ => tidy_only (getWalletById_only _)
  · exact fun _ => tidy_pure _

theorem activeWallet_tidy (actor : Option Uuid) (id : Uuid) :
    Tidy (WalletsController.activeWallet actor id) := by
  have hbody : (activateFrozen id).Only fun _ => True :=
    (updateRow_only trivial trivial).bind fun _ => (only_throwIf _ _).bind fun _ =>
      (select_only _).bind fun _ => only_throwIf _ _
  apply (roleGuards_tidy _ _).bind
  intro _
  apply Tidy.bind
  · exact (tidy_only (assertManageableWallet_only _)).bind fun _ =>
      (tidy_transaction hbody).bind fun _ => tidy_only (getWalletById_only _)
  · exact fun _ => tidy_pure _

theorem clearSessions_silent (userId : Uuid) : (clearSessions userId).Only fun _ => True := by
  apply (select_only _).bind
  intro snapshot
  apply (ask_only trivial).bind
  intro keys
  apply Only.forEach
  intro k _
  cases k with
  | device owner deviceId => exact (sql_only trivial).bind fun _ => only_pure _
  | _ => exact only_pure _

theorem suspend_tidy (actor : Option Uuid) (target : Uuid) :
    Tidy (AccountsController.suspend actor target) := by
  have hbody : (restrictAccount target).Only fun _ => True :=
    (findSuspendable_only trivial trivial).bind fun _ =>
      (updateRow_only trivial trivial).bind fun _ => (only_throwIf _ _).bind fun _ =>
      (updateRow_only trivial trivial).bind fun _ => (only_throwIf _ _).bind fun _ =>
      clearSessions_silent target
  exact (roleGuards_tidy _ _).bind fun _ => (tidy_transaction hbody).bind fun _ => tidy_pure _

theorem reactivate_tidy (actor : Option Uuid) (target : Uuid) :
    Tidy (AccountsController.reactivate actor target) := by
  apply (roleGuards_tidy _ _).bind
  intro _
  apply Tidy.bind
  · apply tidy_only
    apply (reactivate_only target).mono
    intro op h
    cases h with
    | free hfree => exact Harmless.free op hfree
    | update _ => exact steady_update
  · exact fun _ => tidy_pure _

/-! ## Verification and registration -/

theorem sendOtp_tidy (dto : SendOtpDto) : Tidy (AuthController.sendOtp env dto) := by
  have hask : ∀ op : Op, op.Free → Tidy (Code.ask op : Action op.Ans) :=
    fun op h => tidy_only (ask_only (Harmless.free op h))
  apply (validationPipe_tidy _).bind
  intro _
  apply (phoneNumberFrom_tidy _).bind
  intro phone
  apply (tidy_only (getOtpSecurityValue_only _)).bind
  intro count
  apply (tidy_throwIf _ _).bind
  intro _
  exact (tidy_quiet (acquireResendLock_only _)).bind fun _ => (hask _ (by trivial)).bind
    fun _ => (hask _ (by trivial)).bind fun _ =>
    (tidy_quiet (storeChallenge_only _ _ _ _)).bind fun _ => tidy_pure _

theorem upsertTrustDevice_tidy (userId : Uuid) (deviceId : JsString) :
    Tidy (upsertTrustDevice userId deviceId) := by
  have hask : ∀ op : Op, op.Free → Tidy (Code.ask op : Action op.Ans) :=
    fun op h => tidy_only (ask_only (Harmless.free op h))
  have hsql : ∀ statement, (sql statement).Only fun _ => True := fun _ => sql_only trivial
  apply (hask .now (by trivial)).bind
  intro now
  apply (hask .generatedId (by trivial)).bind
  intro id
  apply tidy_transaction
  apply (hsql _).bind
  intro _
  apply (select_only _).bind
  intro snapshot
  split
  · exact (hsql _).bind fun _ => only_pure _
  · exact (hsql _).bind fun _ => hsql _

theorem verifyOtp_tidy (dto : VerifyOtpDto) : Tidy (AuthController.verifyOtp env dto) := by
  apply (validationPipe_tidy _).bind
  intro _
  apply (phoneNumberFrom_tidy _).bind
  intro phone
  apply (tidy_quiet (verifyOtpAtomically_only _ _ _ _)).bind
  intro status
  split
  · exact tidy_throw _
  · apply (tidy_select _).bind
    intro users
    split
    · unfold enrollDevice
      split
      · exact tidy_throw _
      · exact tidy_throw _
      · exact (tidy_throwIf _ _).bind fun _ =>
          (tidy_quiet (consumeDeviceEnrollmentAuthorization_only _ _ _ _)).bind fun _ =>
          (tidy_throwIf _ _).bind fun _ => (upsertTrustDevice_tidy _ _).bind fun _ =>
          tidy_pure _
    · exact (tidy_quiet (issueRegistrationAuthorization_only _ _)).bind fun _ => tidy_pure _

theorem claimApproval_silent (phone : JsString) : (claimApproval phone).Only fun _ => True := by
  apply (ask_only trivial).bind
  intro now
  apply (select_only _).bind
  intro snapshot
  split
  · exact only_throw _
  · exact (only_throwIf _ _).bind fun _ => (ask_only trivial).bind fun _ =>
      (ask_only trivial).bind fun _ => (updateRow_only trivial trivial).bind fun _ =>
      (only_throwIf _ _).bind fun _ => only_pure _

theorem provisionBusiness_silent (phone hashedPin deviceId : JsString) :
    (provisionBusiness phone hashedPin deviceId).Only fun _ => True :=
  (claimApproval_silent phone).bind fun role =>
    only_silent (provisionRest_spares phone hashedPin deviceId role)

theorem register_tidy (dto : RegisterDto) : Tidy (AuthController.register env dto) := by
  apply (validationPipe_tidy _).bind
  intro _
  apply Tidy.bind
  · apply (phoneNumberFrom_tidy _).bind
    intro phone
    apply (tidy_quiet (consumeRegistrationAuthorization_only _ _ _)).bind
    intro status
    apply (tidy_throwIf _ _).bind
    intro _
    apply (tidy_select _).bind
    intro existing
    apply (tidy_throwIf _ _).bind
    intro _
    apply (tidy_only (ask_only (Harmless.free (.hashPin dto.pin) (by trivial)))).bind
    intro hashPin
    apply (tidy_transaction (only_silent (provisionPersonal_spares _ _ _))).tryCatch
    exact fun e => tidy_throw _
  · exact fun _ => tidy_pure _

theorem registerBusiness_tidy (dto : RegisterDto) :
    Tidy (AuthController.registerBusiness env dto) := by
  apply (validationPipe_tidy _).bind
  intro _
  apply Tidy.bind
  · apply (phoneNumberFrom_tidy _).bind
    intro phone
    apply (tidy_quiet (consumeRegistrationAuthorization_only _ _ _)).bind
    intro status
    apply (tidy_throwIf _ _).bind
    intro _
    apply (tidy_only (ask_only (Harmless.free (.hashPin dto.pin) (by trivial)))).bind
    intro hashedPin
    apply (tidy_transaction (provisionBusiness_silent _ _ _)).tryCatch
    intro e
    split <;> exact tidy_throw _
  · exact fun _ => tidy_pure _

theorem approveBusiness_tidy (actor : Option Uuid) (dto : ApproveBusinessDto) :
    Tidy (AuthController.approveBusiness env actor dto) := by
  have hask : ∀ op : Op, op.Free → Tidy (Code.ask op : Action op.Ans) :=
    fun op h => tidy_only (ask_only (Harmless.free op h))
  apply (roleGuards_tidy _ _).bind
  intro sub
  apply (validationPipe_tidy _).bind
  intro _
  apply Tidy.bind _ fun _ => tidy_pure _
  apply (phoneNumberFrom_tidy _).bind
  intro phone
  apply (tidy_throwIf _ _).bind
  intro _
  apply (tidy_select _).bind
  intro users
  apply (tidy_throwIf _ _).bind
  intro _
  apply (hask .now (by trivial)).bind
  intro now
  apply (hask .now (by trivial)).bind
  intro later
  apply (tidy_select _).bind
  intro snapshot
  split
  · exact (tidy_throwIf _ _).bind fun _ => tidy_updateRow.bind fun _ =>
      (tidy_throwIf _ _).bind fun _ => (tidy_select _).bind fun _ => tidy_throwIf _ _
  · apply (hask .generatedId (by trivial)).bind
    intro id
    have hbody : ∀ approval, (insertApproval id approval).Only fun _ => True :=
      fun approval => (sql_only trivial).bind fun _ => sql_only trivial
    apply (tidy_transaction (hbody _)).tryCatch
    intro e
    split <;> exact tidy_throw _

/-! ## Sessions -/

theorem recordLoginFailure_tidy (phone : JsString) : Tidy (recordLoginFailure env phone) :=
  tidy_quiet (recordLoginFailure_only (by trivial) (by trivial))

theorem establishSession_tidy (userId : Uuid) (role : Role) (deviceId : JsString) :
    Tidy (establishSession userId role deviceId) := by
  apply tidy_only
  apply (establishSession_only userId role deviceId).mono
  intro op h
  cases h with
  | uuid | now | select => exact Harmless.free _ (by trivial)
  | update _ => exact steady_update

theorem login_tidy (dto : AuthCredentialsDto) : Tidy (AuthController.login env dto) := by
  apply (validationPipe_tidy _).bind
  intro _
  apply Tidy.bind _ fun _ => tidy_pure _
  apply (phoneNumberFrom_tidy _).bind
  intro phone
  apply (tidy_only (assertLoginNotThrottled_only (Harmless.free _ (by trivial)))).bind
  intro _
  apply (tidy_select _).bind
  intro users
  split
  · exact (recordLoginFailure_tidy _).bind fun _ => tidy_throw _
  · apply (tidy_select _).bind
    intro devices
    split
    · apply (tidy_quiet (clearLoginFailureState_only _)).bind
      intro _
      apply (tidy_throwIf _ _).bind
      intro _
      split
      · exact (tidy_quiet (issueDeviceEnrollmentAuthorization_only _ _ _)).bind fun _ =>
          tidy_throw _
      · exact establishSession_tidy _ _ _
    · exact (recordLoginFailure_tidy _).bind fun _ => tidy_throw _

theorem SessionAsks.steady {payload : RefreshTokenPayload} {op : Op}
    (h : SessionAsks payload op) : op.Steady := by
  cases h with
  | free hfree => exact Harmless.free op hfree
  | update _ => exact steady_update

theorem refresh_tidy (token : Option RefreshTokenPayload) :
    Tidy (AuthController.refresh token) := by
  cases token with
  | none => exact tidy_throw _
  | some payload =>
      have htokens := (refreshTokens_only payload).mono fun _ => SessionAsks.steady
      exact (tidy_only htokens).bind fun _ => tidy_pure _

theorem logout_tidy (token : Option RefreshTokenPayload) :
    Tidy (AuthController.logout token) := by
  cases token with
  | none => exact tidy_pure _
  | some payload =>
      have hlogout := (logoutCurrentSession_only payload).mono fun _ => SessionAsks.steady
      exact (tidy_only hlogout).bind fun _ => tidy_pure _

theorem revokeDevice_tidy (actor : Option Uuid) (id : Uuid) :
    Tidy (AuthController.revokeDevice actor id) := by
  apply (tidy_only (accessTokenGuard_only _)).bind
  intro sub
  apply (tidy_only (activeAccountGuard_only _)).bind
  intro role
  apply Tidy.bind _ fun _ => tidy_pure _
  apply (tidy_select _).bind
  intro snapshot
  split
  · exact tidy_throw _
  · split
    · exact (tidy_only (sql_only steady_update)).bind fun _ => tidy_throwIf _ _
    · exact tidy_throw _

/-! ## Answers -/

theorem set_mute {k : RedisKey} {value : RedisValue k} {nx : Bool} :
    (RedisService.set k value nx).Mute := by
  intro reply
  cases reply <;> trivial

theorem del_mute {k : RedisKey} : (RedisService.del k).Mute := by
  intro reply
  cases reply <;> trivial

theorem Tidy.respond_replies {m : Action Reply} (h : Tidy m) :
    (respond m).Replies False :=
  Mute.replies_bind (h.silent.tryCatch_mute fun _ => trivial) fun reply => replies_tell reply

theorem Tidy.respond_closed {m : Action Reply} (h : Tidy m) :
    Heeds closedRules (respond m) (fun _ => Closed) (fun _ => Closed) [] := by
  have hcaught : Tidy (MonadExcept.tryCatch m fun e => pure (Reply.failed e)) :=
    h.tryCatch fun e => tidy_pure _
  exact (hcaught.closed [] trivial).bind fun reply past hclosed => ⟨hclosed, hclosed⟩

theorem intercept_replies (key : JsString) {handler : Action TransactionResultResponse}
    (h : Tidy handler) : (intercept key handler).Replies True := by
  apply (RedisService.get_only (P := fun _ => True) _).replies_bind trivial
  intro cached
  split
  · trivial
  · trivial
  · apply (RedisService.set_only (P := fun _ => True) trivial).replies_bind trivial
    intro locked
    apply (only_throwIf (P := fun _ => True) _ _).replies_bind trivial
    intro _
    apply Mute.replies_bind
    · have houtcome := h.silent.bind fun response => only_pure (Except.ok (ε := Exn) response)
      exact houtcome.tryCatch_mute fun _ => trivial
    · intro outcome
      cases outcome with
      | ok response => exact set_mute.bind fun _ => trivial
      | error e => exact del_mute.bind fun _ => trivial

theorem intercept_closed (key : JsString) {handler : Action TransactionResultResponse}
    (h : Tidy handler) (hclosed : Closed past) :
    Heeds closedRules (intercept key handler) (fun _ => Closed) (fun _ => Closed) past := by
  have hset : ∀ {k : RedisKey} {value : RedisValue k} {nx : Bool},
      Tidy (RedisService.set k value nx) :=
    tidy_only (RedisService.set_only ⟨by simp, by simp⟩)
  have hdel : ∀ {k : RedisKey}, Tidy (RedisService.del k) :=
    tidy_only (RedisService.del_only ⟨by simp, by simp⟩)
  apply ((tidy_only (RedisService.get_only _)).closed past hclosed).bind
  intro cached past₁ h₁
  split
  · exact h₁
  · exact ⟨h₁, h₁⟩
  · apply (hset.closed past₁ h₁).bind
    intro locked past₂ h₂
    apply ((tidy_throwIf _ _).closed past₂ h₂).bind
    intro _ past₃ h₃
    have houtcome : Tidy (MonadExcept.tryCatch
        (do
          let response ← handler
          pure (Except.ok response)) fun e => pure (Except.error e)) :=
      (h.bind fun response => tidy_pure _).tryCatch fun e => tidy_pure _
    apply (houtcome.closed past₃ h₃).bind
    intro outcome past₄ h₄
    cases outcome with
    | ok response => exact ⟨h₄, (hset.bind fun _ => tidy_pure _).closed past₄ h₄⟩
    | error e => exact ⟨h₄, (hdel.bind fun _ => tidy_pure _).closed past₄ h₄⟩

theorem transfer_replies (request : TransferRequest) :
    (transfer env request).Replies False := by
  apply Replies.tryCatch (X := True) _ fun e => replies_tell _
  split
  · trivial
  · apply (roleGuards_only (P := fun _ => True) _ _).replies_bind trivial
    intro sub
    split
    · trivial
    · trivial
    · apply intercept_replies
      exact (validationPipe_tidy _).bind fun _ => endpointHandler_tidy _ _ _ _

theorem transfer_closed (request : TransferRequest) :
    Heeds closedRules (transfer env request) (fun _ => Closed) (fun _ => Closed) [] := by
  refine Heeds.tryCatch (E := fun _ => Closed) ?_ fun e past hclosed => ?_
  · split
    · trivial
    · apply ((roleGuards_tidy _ _).closed [] trivial).bind
      intro sub past hclosed
      split
      · exact hclosed
      · exact hclosed
      · apply intercept_closed _ _ hclosed
        exact (validationPipe_tidy _).bind fun _ => endpointHandler_tidy _ _ _ _
  · exact ⟨hclosed, hclosed⟩

theorem handle_tidy (env : Env) {call : Call} (h : ∀ request, call ≠ .transfer request) :
    ∃ m, Tidy m ∧ handle env call = respond m := by
  cases call with
  | transfer request => exact absurd rfl (h request)
  | deactiveWallet actor id => exact ⟨_, deactiveWallet_tidy actor id, rfl⟩
  | activeWallet actor id => exact ⟨_, activeWallet_tidy actor id, rfl⟩
  | suspend actor target => exact ⟨_, suspend_tidy actor target, rfl⟩
  | reactivate actor target => exact ⟨_, reactivate_tidy actor target, rfl⟩
  | sendOtp dto => exact ⟨_, sendOtp_tidy dto, rfl⟩
  | verifyOtp dto => exact ⟨_, verifyOtp_tidy dto, rfl⟩
  | register dto => exact ⟨_, register_tidy dto, rfl⟩
  | registerBusiness dto => exact ⟨_, registerBusiness_tidy dto, rfl⟩
  | login dto => exact ⟨_, login_tidy dto, rfl⟩
  | refresh token => exact ⟨_, refresh_tidy token, rfl⟩
  | logout token => exact ⟨_, logout_tidy token, rfl⟩
  | revokeTrustedDevice actor id => exact ⟨_, revokeDevice_tidy actor id, rfl⟩
  | approveBusinessAccount actor dto => exact ⟨_, approveBusiness_tidy actor dto, rfl⟩

theorem handle_replies (call : Call) : (handle env call).Replies False := by
  by_cases htransfer : ∃ request, call = .transfer request
  · obtain ⟨request, rfl⟩ := htransfer
    exact transfer_replies request
  · obtain ⟨m, hm, heq⟩ := handle_tidy env fun request h => htransfer ⟨request, h⟩
    rw [heq]
    exact hm.respond_replies

theorem closed_obeyed : Obeyed (kori env) fun _ => closedRules := by
  intro call
  change Heeds closedRules (handle env call) _ _ []
  by_cases htransfer : ∃ request, call = .transfer request
  · obtain ⟨request, rfl⟩ := htransfer
    exact transfer_closed request
  · obtain ⟨m, hm, heq⟩ := handle_tidy env fun request h => htransfer ⟨request, h⟩
    rw [heq]
    exact hm.respond_closed

end Kori
