import Kori.Contract.Proofs

/-!
# Registration and approvals keep the contract

A registration writes the account, its wallet and its first device in one
transaction, and with a business approval also the claim on it.
-/

namespace Kori

open Foundation Code

variable {env : Env} {p : Pid} {c c' : State} {own : Data}

/-! ## The rows of a new account -/

theorem createUser_works {user : User} (hcall : Called p c)
    (htx : c.shared.db.tx p = some own) :
    Works env .open p (createUser user)
      (fun id c₁ => c₁.shared.db.tx p =
          some ((own.put (.user id) user).put (.userByPhone user.phone) id) ∧
        Holds p (.user id) none c₁ ∧ Holds p (.userByPhone user.phone) none c₁)
      (fun _ => True) c := by
  refine Leads.bind (works_only (ask_only (by trivial)) hcall htx) fun id c₁ hw₁ htx₁ => ?_
  have hcall₁ := hcall.within hw₁
  refine Leads.bind (works_insert hcall₁ htx₁ (fun _ => trivial) trivial
    fun _ _ hp _ _ => hp.put_other (by simp) (by simp)) fun _ c₂ hw₂ ⟨htx₂, huser⟩ => ?_
  refine Leads.bind (works_insert (hcall₁.within hw₂) htx₂ (fun _ => trivial) trivial
    fun _ _ hp _ _ => hp.put_other (by simp) (by simp)) fun _ c₃ hw₃ ⟨htx₃, hphone⟩ => ?_
  exact leads_pure ⟨htx₃, huser.within hw₃, hphone⟩

def newWallet (userId : Uuid) (type : WalletType) : Wallet where
  userId := some userId
  type := type
  isActive := true
  balance := 0
  currency := .bdt

theorem createWallet_works {userId : Uuid} {type : WalletType} (hcall : Called p c)
    (htx : c.shared.db.tx p = some own) :
    Works env .open p (createWallet userId type)
      (fun _ c₁ => ∃ id, c₁.shared.db.tx p =
          some ((own.put (.wallet id) (newWallet userId type)).put (.walletByUser userId) id) ∧
        Holds p (.wallet id) none c₁ ∧ Holds p (.walletByUser userId) none c₁)
      (fun _ => True) c := by
  refine Leads.bind (works_only (ask_only (by trivial)) hcall htx) fun id c₁ hw₁ htx₁ => ?_
  have hcall₁ := hcall.within hw₁
  refine Leads.bind (works_insert (v := newWallet userId type) hcall₁ htx₁
    (fun _ => trivial) trivial fun _ _ hp _ hrow => hp.put_wallet (by simp [hrow]))
    fun _ c₂ hw₂ ⟨htx₂, hwallet⟩ => ?_
  refine (works_insert (hcall₁.within hw₂) htx₂ (fun _ => trivial) trivial
    fun _ _ hp _ _ => hp.put_other (by simp) (by simp)).imp ?_ fun _ _ _ h => h
  rintro _ c₃ hw₃ ⟨htx₃, hindex⟩
  exact ⟨id, htx₃, hwallet.within hw₃, hindex⟩

theorem createTrustedDevice_works {userId : Uuid} {deviceId : JsString} {sid jti : Uuid}
    (hcall : Called p c) (htx : c.shared.db.tx p = some own) :
    Works env .open p (createTrustedDevice userId deviceId sid jti)
      (fun _ c₁ => ∃ device : TrustDevice, c₁.shared.db.tx p =
          some ((own.put (.device userId deviceId) device).put (.deviceById device.id)
            (userId, deviceId)) ∧
        Holds p (.device userId deviceId) none c₁ ∧ Holds p (.deviceById device.id) none c₁ ∧
        device.isAuthorized = true ∧ device.refreshSessionId = some sid ∧
        device.currentRefreshJti = some jti)
      (fun _ => True) c := by
  refine Leads.bind (works_only (ask_only (by trivial)) hcall htx) fun id c₁ hw₁ htx₁ => ?_
  have hcall₁ := hcall.within hw₁
  refine Leads.bind (works_only (ask_only (by trivial)) hcall₁ htx₁)
    fun now c₂ hw₂ htx₂ => ?_
  have hcall₂ := hcall₁.within hw₂
  refine Leads.bind (works_insert hcall₂ htx₂ (fun _ => trivial) trivial
    fun _ _ hp _ _ => hp.put_other (by simp) (by simp)) fun _ c₃ hw₃ ⟨htx₃, hdevice⟩ => ?_
  refine (works_insert (hcall₂.within hw₃) htx₃ (fun _ => trivial) trivial
    fun _ _ hp _ _ => hp.put_other (by simp) (by simp)).imp ?_ fun _ _ _ h => h
  rintro _ c₄ hw₄ ⟨htx₄, hindex⟩
  exact ⟨_, htx₄, hdevice.within hw₄, hindex, rfl, rfl, rfl⟩

theorem drawSession_works {α : Type} {next : Uuid → Uuid → Action α}
    {Q : α → State → Prop} (hcall : Called p c) (htx : c.shared.db.tx p = some own)
    (hnext : ∀ sid jti c₁, Within p c c₁ → c₁.shared.db.tx p = some own →
      Drawn p sid c₁ → Drawn p jti c₁ → sid ≠ jti →
      Works env .open p (next sid jti) Q (fun _ => True) c₁) :
    Works env .open p (do
      let sid ← Code.ask Op.randomUUID
      let jti ← Code.ask Op.randomUUID
      next sid jti) Q (fun _ => True) c := by
  refine Leads.bind ((reads_randomUUID hcall).inside htx)
    fun sid c₁ hw₁ ⟨⟨hsid, _⟩, htx₁⟩ => ?_
  refine Leads.bind ((reads_randomUUID (hcall.within hw₁)).inside htx₁)
    fun jti c₂ hw₂ ⟨⟨hjti, hfresh⟩, htx₂⟩ => ?_
  exact hnext sid jti c₂ (hw₁.trans hw₂) htx₂ (hw₂.drawn _ hsid) hjti
    (hfresh sid _ hsid.minted).symm

/-- Everything a registration has written on top of `own`, ready to be committed. -/
structure Provisioned (p : Pid) (own : Data) (user : User) (type : WalletType)
    (deviceId : JsString) (tokens : TokensResponse) (c : State) : Prop where
  rows : ∃ id walletId device sid jti,
    tokens = getTokens id user.role deviceId sid jti ∧
    c.shared.db.tx p = some (own.addAccount id user walletId type deviceId device) ∧
    Holds p (.user id) none c ∧ Holds p (.userByPhone user.phone) none c ∧
    Holds p (.wallet walletId) none c ∧ Holds p (.walletByUser id) none c ∧
    Holds p (.device id deviceId) none c ∧ Holds p (.deviceById device.id) none c ∧
    device.isAuthorized = true ∧ device.refreshSessionId = some sid ∧
    device.currentRefreshJti = some jti ∧ Drawn p sid c ∧ Drawn p jti c ∧ sid ≠ jti

theorem provisionPersonal_works {phone hashPin deviceId : JsString} (hcall : Called p c)
    (htx : c.shared.db.tx p = some own) :
    Works env .open p (provisionPersonal phone hashPin deviceId)
      (Provisioned p own ⟨phone, hashPin, .customer, .active⟩ .personal deviceId)
      (fun _ => True) c := by
  refine Leads.bind (createUser_works hcall htx)
    fun id c₁ hw₁ ⟨htx₁, huser, hphone⟩ => ?_
  refine drawSession_works (hcall.within hw₁) htx₁
    fun sid jti c₂ hw₂ htx₂ hsid hjti hne => ?_
  have hcall₂ := (hcall.within hw₁).within hw₂
  refine Leads.bind (createWallet_works hcall₂ htx₂)
    fun _ c₃ hw₃ ⟨walletId, htx₃, hwallet, howner⟩ => ?_
  refine Leads.bind (createTrustedDevice_works (hcall₂.within hw₃) htx₃)
    fun _ c₄ hw₄ ⟨device, htx₄, hdevice, hindex, hauth, hsession⟩ => leads_pure ?_
  have hw := hw₃.trans hw₄
  exact ⟨id, walletId, device, sid, jti, rfl, htx₄, (huser.within hw₂).within hw,
    (hphone.within hw₂).within hw, hwallet.within hw₄, howner.within hw₄, hdevice, hindex,
    hauth, hsession.1, hsession.2, hw.drawn _ hsid, hw.drawn _ hjti, hne⟩

/-! ## The approval of a business account -/

theorem claimApproval_works {phone : JsString} (hcall : Called p c)
    (htx : c.shared.db.tx p = some .empty) :
    Works env .open p (claimApproval phone)
      (fun role c₁ => ∃ id approval activatedAt,
        Holds p (.approval id) (some approval) c₁ ∧ approval.phone = phone ∧
        approval.role = role ∧ approval.activatedAt = none ∧
        (role = .agent ∨ role = .merchant) ∧
        c₁.shared.db.tx p = some (Tables.put .empty (.approval id)
          { approval with activatedAt := some activatedAt }))
      (fun _ => True) c := by
  refine Leads.bind (works_only (ask_only (by trivial)) hcall htx) fun now c₁ hw₁ htx₁ => ?_
  have hcall₁ := hcall.within hw₁
  refine Leads.bind (R := fun snapshot c₂ => (Inv env c₂ ∧ snapshot = State.data c₂) ∧
    c₂.shared.db.tx p = some .empty) ((reads_select hcall₁ (fun _ => trivial) ?_).inside htx₁)
    fun snapshot c₂ hw₂ ⟨⟨hi, hsnapshot⟩, htx₂⟩ => ?_
  · intro c₂ hr₂ hi _ _
    refine ⟨hi, ?_⟩
    rw [Store.view_of_open (hr₂.tx.trans htx₁), Tables.empty_overlay]
  have hcall₂ := hcall₁.within hw₂
  split
  · exact leads_throw trivial
  · rename_i key found hfound
    simp only [Option.bind_eq_some_iff, Option.map_eq_some_iff, Option.filter_eq_some_iff,
      Prod.mk.injEq, hsnapshot] at hfound
    obtain ⟨id, hindex, approval, ⟨hrow, -⟩, rfl, rfl⟩ := hfound
    refine leads_throwIf_bind (fun _ => trivial) fun hrole => ?_
    refine Leads.bind (works_only (ask_only (by trivial)) hcall₂ htx₂)
      fun claimedAt c₃ hw₃ htx₃ => ?_
    have hcall₃ := hcall₂.within hw₃
    refine Leads.bind (works_only (ask_only (by trivial)) hcall₃ htx₃)
      fun activatedAt c₄ hw₄ htx₄ => ?_
    have hcall₄ := hcall₃.within hw₄
    have hphone : approval.phone = phone := by
      obtain ⟨found, hfound, hphone⟩ := hi.integrity.approvals.target _ _ hindex
      rw [hrow, Option.some.injEq] at hfound
      subst found
      simpa using hphone
    refine Leads.bind (R := fun n c₅ => n = 1 → ∃ current,
      Holds p (.approval id) (some current) c₅ ∧ current.phone = phone ∧
      (current.role = approval.role ∧ current.activatedAt = none) ∧
      c₅.shared.db.tx p = some (Tables.put .empty (.approval id)
        { current with activatedAt := some activatedAt }))
      (works_updateRow hcall₄ htx₄ (by simp) (fun _ => trivial) ?_ ?_ ?_) ?_
    · exact fun _ _ _ _ hp _ _ => hp.put_other (by simp) (by simp)
    · exact fun _ _ _ h => absurd h (by decide)
    · intro c₅ current hw₅ htx₅ hholds hcond _
      obtain ⟨found, hfound, hlasts⟩ :=
        ((hw₃.trans hw₄).trans hw₅).grows _ _ hrow
      rw [hholds.row, Option.some.injEq] at hfound
      subst found
      have hsame : current.phone = approval.phone := hlasts
      simp only [decide_eq_true_eq] at hcond
      exact ⟨current, hholds, hsame.trans hphone, ⟨hcond.1, hcond.2.1⟩, htx₅⟩
    · intro claimed c₅ hw₅ hclaimed
      refine leads_throwIf_bind (fun _ => trivial) fun hone => leads_pure ?_
      obtain ⟨current, hholds, hphone', ⟨hrole', hunused⟩, htx₅⟩ :=
        hclaimed (by simpa using hone)
      refine ⟨id, current, activatedAt, hholds, hphone', hrole', hunused, ?_, htx₅⟩
      by_contra hneither
      exact hrole ⟨fun h => hneither (.inl h), fun h => hneither (.inr h)⟩

def Claimed (p : Pid) (user : User) (own : Data) (c : State) : Prop :=
  ∃ id approval activatedAt, Holds p (.approval id) (some approval) c ∧
    approval.phone = user.phone ∧ approval.role = user.role ∧ approval.activatedAt = none ∧
    (user.role = .agent ∨ user.role = .merchant) ∧
    own = Tables.put .empty (.approval id) { approval with activatedAt := some activatedAt }

theorem provisionBusiness_works {phone hashPin deviceId : JsString} (hcall : Called p c)
    (htx : c.shared.db.tx p = some .empty) :
    Works env .open p (provisionBusiness phone hashPin deviceId)
      (fun tokens c₁ => ∃ role own, Claimed p ⟨phone, hashPin, role, .active⟩ own c₁ ∧
        Provisioned p own ⟨phone, hashPin, role, .active⟩
          (if role = .agent then .agent else .merchant) deviceId tokens c₁)
      (fun _ => True) c := by
  refine Leads.bind (claimApproval_works hcall htx) fun role c₁ hw₁ hclaim => ?_
  obtain ⟨aid, approval, activatedAt, hholds, hphone', hrole, hunused, hbusiness, htx₁⟩ := hclaim
  have hcall₁ := hcall.within hw₁
  refine Leads.bind (createUser_works hcall₁ htx₁)
    fun id c₂ hw₂ ⟨htx₂, huser, hphone⟩ => ?_
  have hcall₂ := hcall₁.within hw₂
  refine Leads.bind (leads_throwIf_bind (fun _ => trivial)
    fun _ => createWallet_works hcall₂ htx₂)
    fun _ c₃ hw₃ ⟨walletId, htx₃, hwallet, howner⟩ => ?_
  refine drawSession_works (hcall₂.within hw₃) htx₃
    fun sid jti c₄ hw₄ htx₄ hsid hjti hne => ?_
  have hcall₄ := (hcall₂.within hw₃).within hw₄
  refine Leads.bind (createTrustedDevice_works hcall₄ htx₄)
    fun _ c₅ hw₅ ⟨device, htx₅, hdevice, hindex, hauth, hsession⟩ => leads_pure ?_
  have hw := hw₄.trans hw₅
  refine ⟨role, _, ⟨aid, approval, activatedAt, (hholds.within hw₂).within (hw₃.trans hw),
    hphone', hrole, hunused, hbusiness, rfl⟩, ?_⟩
  exact ⟨id, walletId, device, sid, jti, rfl, htx₅, huser.within (hw₃.trans hw),
    hphone.within (hw₃.trans hw), hwallet.within hw, howner.within hw, hdevice, hindex,
    hauth, hsession.1, hsession.2, hw₅.drawn _ hsid, hw₅.drawn _ hjti, hne⟩

/-! ## The commit -/

theorem Data.addAccount_overlay {own base : Data} {id : Uuid} {user : User} {walletId : Uuid}
    {type : WalletType} {deviceId : JsString} {device : TrustDevice} :
    (own.addAccount id user walletId type deviceId device).overlay base =
      Data.addAccount (own.overlay base) id user walletId type deviceId device := by
  simp [Data.addAccount]

theorem Claimed.claim {user : User} (h : Claimed p user own c) :
    Claim c user (own.overlay c.data) := by
  obtain ⟨id, approval, activatedAt, hholds, hphone, hrole, hunused, hbusiness, rfl⟩ := h
  rw [Tables.put_overlay, Tables.empty_overlay]
  exact .business hholds.row hphone hrole hunused hbusiness

theorem Claimed.within {user : User} (h : Claimed p user own c) (hw : Within p c c') :
    Claimed p user own c' := by
  obtain ⟨id, approval, activatedAt, hholds, hrest⟩ := h
  exact ⟨id, approval, activatedAt, hholds.within hw, hrest⟩

theorem Provisioned.guar {user : User} {type : WalletType} {deviceId : JsString}
    {tokens : TokensResponse} {call : Call}
    (h : Provisioned p own user type deviceId tokens c) (hr : Rely p c c')
    (hcall : c'.calls p = some call) (hsign : call.SignIn)
    (hclaim : Claim c' user (own.overlay c'.data))
    (hstatus : user.status = .active) (hrole : user.role ≠ .admin)
    (htype : type = match user.role with
      | .agent => .agent
      | .merchant => .merchant
      | _ => .personal) :
    (terms env .open).Guar p c'
      (Conf.tell (State.setDb c' (c'.shared.db.commit p)) p [.tokens tokens]) := by
  obtain ⟨id, walletId, device, sid, jti, rfl, htx, huser, hphone, hwallet, howner, hdevice,
    hindex, hauth, hsid, hjti, hdrawn, hdrawn', hne⟩ := h.rows
  have hw := hr.within
  refine (guar_publish ⟨call, hcall⟩ (Store.commit_frame _ _) ?_ ?_).told fun _ _ => trivial
  · simp [Store.commit, Store.finish]
  · change Effect env p c' (c'.shared.db.view p) _
    rw [Store.view_of_open (hr.tx.trans htx), Data.addAccount_overlay]
    refine .registered ?_ hclaim
    exact {
      call := ⟨call, hcall, hsign⟩
      newUser := (huser.within hw).row
      newPhone := (hphone.within hw).row
      newWallet := (hwallet.within hw).row
      newIndex := (howner.within hw).row
      newDevice := (hdevice.within hw).row
      newDeviceId := (hindex.within hw).row
      status := hstatus
      type := htype
      role := hrole
      authorized := hauth
      session := ⟨hsid, hjti⟩
      drawnSid := hw.drawn _ hdrawn
      drawnJti := hw.drawn _ hdrawn'
      distinct := hne }

theorem register_settles {dto : RegisterDto} {call : Call}
    (hs : (terms env .open).Silent p c c') (hidle : Idle p c')
    (hcall : c'.calls p = some call) (hsign : call.SignIn) :
    Answers env .open p (register env dto)
      (fun tokens c₁ c₂ => (terms env .open).Guar p c₁ (c₂.tell p [.tokens tokens]))
      (fun _ => (terms env .open).Silent p) c c' := by
  refine settles_only_bind (phoneNumberFrom_only _) hs hidle.called ?_ fun _ _ _ hs _ => hs
  intro phone c₁ c₂ hs₂ hr₂
  refine settles_only_bind (consumeRegistrationAuthorization_only _ _ _) hs₂
    (hidle.rely hr₂).called ?_ fun _ _ _ hs _ => hs
  intro status c₃ c₄ hs₄ hr₄
  refine settles_throwIf_bind (fun _ => hs₄) fun _ => ?_
  have hr := hr₂.trans hr₄
  refine settles_only_bind (select_only _) hs₄ (hidle.rely hr).called ?_ fun _ _ _ hs _ => hs
  intro existing c₅ c₆ hs₆ hr₆
  refine settles_throwIf_bind (fun _ => hs₆) fun _ => ?_
  have hr' := hr.trans hr₆
  refine settles_only_bind (ask_only (by trivial)) hs₆ (hidle.rely hr').called ?_
    fun _ _ _ hs _ => hs
  intro hashPin c₇ c₈ hs₈ hr₈
  have hidle₈ := (hidle.rely hr').rely hr₈
  refine settles_tryCatch.2 (settles_transaction (X := fun _ => True) hs₈ hidle₈
    (fun _ => trivial)
    (fun c₉ hw₉ htx₉ => provisionPersonal_works (hidle₈.called.within hw₉) htx₉) ?_
    fun _ _ _ hs _ _ => hs)
  intro tokens c₉ d hw₉ hprovisioned hr₉ _ _ hended
  refine hprovisioned.guar hr₉ (hended.calls _ _ (hr₈.calls _ _ (hr'.calls _ _ hcall)))
    hsign ?_ rfl (by simp) rfl
  rw [Tables.empty_overlay]
  exact .personal rfl

theorem registerBusiness_settles {dto : RegisterDto} {call : Call}
    (hs : (terms env .open).Silent p c c') (hidle : Idle p c')
    (hcall : c'.calls p = some call) (hsign : call.SignIn) :
    Answers env .open p (registerBusiness env dto)
      (fun tokens c₁ c₂ => (terms env .open).Guar p c₁ (c₂.tell p [.tokens tokens]))
      (fun _ => (terms env .open).Silent p) c c' := by
  refine settles_only_bind (phoneNumberFrom_only _) hs hidle.called ?_ fun _ _ _ hs _ => hs
  intro phone c₁ c₂ hs₂ hr₂
  refine settles_only_bind (consumeRegistrationAuthorization_only _ _ _) hs₂
    (hidle.rely hr₂).called ?_ fun _ _ _ hs _ => hs
  intro status c₃ c₄ hs₄ hr₄
  refine settles_throwIf_bind (fun _ => hs₄) fun _ => ?_
  have hr := hr₂.trans hr₄
  refine settles_only_bind (ask_only (by trivial)) hs₄ (hidle.rely hr).called ?_
    fun _ _ _ hs _ => hs
  intro hashPin c₅ c₆ hs₆ hr₆
  have hidle₆ := (hidle.rely hr).rely hr₆
  refine settles_tryCatch.2 (settles_transaction (X := fun _ => True) hs₆ hidle₆
    (fun _ => trivial)
    (fun c₇ hw₇ htx₇ => provisionBusiness_works (hidle₆.called.within hw₇) htx₇) ?_ ?_)
  · rintro tokens c₇ c₈ hw₇ ⟨role, own, hclaimed, hprovisioned⟩ hr₈ _ _ hended
    have hrole : role = .agent ∨ role = .merchant := by
      obtain ⟨-, -, -, -, -, -, -, hbusiness, -⟩ := hclaimed
      exact hbusiness
    refine hprovisioned.guar hr₈ (hended.calls _ _ (hr₆.calls _ _ (hr.calls _ _ hcall)))
      hsign (hclaimed.within hr₈.within).claim rfl ?_ ?_
    · rintro rfl
      simp at hrole
    · obtain rfl | rfl := hrole <;> rfl
  · intro e c₇ c₈ hs₈ _ _
    split
    · exact hs₈
    · exact hs₈

/-! ## Business approvals -/

theorem renewApproval_settles {adminUserId : Uuid} {role : Role} {now expiresAt : Instant}
    {id : Uuid} (hs : (terms env .open).Silent p c c') (hidle : Idle p c') :
    Answers env .open p (renewApproval adminUserId role now expiresAt id)
      (fun _ => (terms env .open).Silent p) (fun _ => (terms env .open).Silent p) c c' := by
  refine settles_bind.2 (Settles.imp (settles_updateRow (X := fun _ => True)
    (P := fun _ c₁ c₂ => (terms env .open).Silent p c₁ c₂ ∧ Called p c₂)
    (T := fun _ => (terms env .open).Silent p) hs hidle (fun _ => trivial) ?_ ?_
    fun _ _ _ _ hs _ => hs) ?_ fun _ _ _ h => h)
  · exact fun c₁ c₂ hr₂ hs₂ _ _ => ⟨hs₂, hidle.called.rely hr₂⟩
  · intro c₁ approval hfree hr₁ _ _ hrow hcond
    simp only [decide_eq_true_eq] at hcond
    have hidle₁ := hidle.rely hr₁
    exact ⟨(guar_write hidle₁ hfree (.renewed hrow hcond.1 (by simp))).silently,
      hidle₁.called⟩
  · intro updated c₁ c₂ h
    refine settles_throwIf_bind (fun _ => h.1) fun _ => ?_
    exact settles_only_bind (select_only _) h.1 h.2
      (fun _ _ _ hs _ => settles_throwIf (fun _ => hs) fun _ => hs) fun _ _ _ hs _ => hs

theorem createApproval_settles {approval : BusinessApproval}
    (hs : (terms env .open).Silent p c c') (hidle : Idle p c') :
    Answers env .open p (createApproval approval)
      (fun _ => (terms env .open).Silent p) (fun _ => (terms env .open).Silent p) c c' := by
  refine settles_only_bind (ask_only (by trivial)) hs hidle.called ?_ fun _ _ _ hs _ => hs
  intro id c₁ c₂ hs₂ hr₂
  have hidle₂ := hidle.rely hr₂
  refine settles_tryCatch.2 (settles_transaction (X := fun _ => True)
    (R := fun _ c₃ => c₃.shared.db.tx p = some ((Tables.put .empty (.approval id)
      approval).put (.approvalByPhone approval.phone) id) ∧
      Holds p (.approval id) none c₃ ∧ Holds p (.approvalByPhone approval.phone) none c₃)
    hs₂ hidle₂ (fun _ => trivial) ?_ ?_ ?_)
  · intro c₃ hw₃ htx₃
    have hcall₃ := hidle₂.called.within hw₃
    refine Leads.bind (works_insert hcall₃ htx₃ (fun _ => trivial) trivial
      fun _ _ hp _ _ => hp.put_other (by simp) (by simp)) fun _ c₄ hw₄ ⟨htx₄, hrow⟩ => ?_
    refine (works_insert (hcall₃.within hw₄) htx₄ (fun _ => trivial) trivial
      fun _ _ hp _ _ => hp.put_other (by simp) (by simp)).imp ?_ fun _ _ _ h => h
    rintro _ c₅ hw₅ ⟨htx₅, hindex⟩
    exact ⟨htx₅, hrow.within hw₅, hindex⟩
  · rintro _ c₃ c₄ hw₃ ⟨htx₃, hrow, hindex⟩ hr₄ _ _ hended
    refine Guar.silently (guar_publish ((hidle₂.called.within hw₃).rely hr₄)
      (Store.commit_frame _ _) hended.tx ?_)
    change Effect env p c₄ (c₄.shared.db.view p) []
    rw [Store.view_of_open (hr₄.tx.trans htx₃)]
    simp only [Tables.put_overlay, Tables.empty_overlay]
    exact .approved (hrow.within hr₄.within).row (hindex.within hr₄.within).row (by simp)
  · intro e c₃ c₄ hs₄ _ _
    split
    · exact hs₄
    · exact hs₄

theorem approveBusinessAccount_settles {adminUserId : Uuid} {dto : ApproveBusinessDto}
    (hs : (terms env .open).Silent p c c') (hidle : Idle p c') :
    Answers env .open p (approveBusinessAccount env adminUserId dto)
      (fun _ => (terms env .open).Silent p) (fun _ => (terms env .open).Silent p) c c' := by
  refine settles_only_bind (phoneNumberFrom_only _) hs hidle.called ?_ fun _ _ _ hs _ => hs
  intro phone c₁ c₂ hs₂ hr₂
  refine settles_throwIf_bind (fun _ => hs₂) fun _ => ?_
  refine settles_only_bind (select_only _) hs₂ (hidle.rely hr₂).called ?_
    fun _ _ _ hs _ => hs
  intro users c₃ c₄ hs₄ hr₄
  refine settles_throwIf_bind (fun _ => hs₄) fun _ => ?_
  have hr := hr₂.trans hr₄
  refine settles_only_bind (ask_only (by trivial)) hs₄ (hidle.rely hr).called ?_
    fun _ _ _ hs _ => hs
  intro now c₅ c₆ hs₆ hr₆
  refine settles_only_bind (ask_only (by trivial)) hs₆ ((hidle.rely hr).rely hr₆).called ?_
    fun _ _ _ hs _ => hs
  intro later c₇ c₈ hs₈ hr₈
  have hidle₈ := ((hidle.rely hr).rely hr₆).rely hr₈
  refine settles_only_bind (select_only _) hs₈ hidle₈.called ?_ fun _ _ _ hs _ => hs
  intro snapshot c₉ d hs₉ hr₉
  split
  · exact settles_throwIf_bind (fun _ => hs₉) fun _ =>
      renewApproval_settles hs₉ (hidle₈.rely hr₉)
  · exact createApproval_settles hs₉ (hidle₈.rely hr₉)

end Kori
