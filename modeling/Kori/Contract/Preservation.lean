import Kori.Contract.Effects

/-!
# What every effect preserves

Rows grow, the tables keep their integrity, random UUIDs of others stay unused,
and an account stays ACTIVE while another request holds the lock of its wallet.
-/

namespace Kori

open Foundation

/-! ## Clearing the sessions of all devices -/

theorem clearDevices_induct {P : Data → Prop} {userId : Uuid}
    {devices : List (JsString × TrustDevice)} {t : Data}
    (hrows : ∀ entry ∈ devices, ∃ v, t.row (.device userId entry.1) = some v ∧
      v.id = entry.2.id) (hP : P t)
    (hput : ∀ t d v dev, t.row (.device userId d) = some v → v.id = dev.id → P t →
      P (t.put (.device userId d) (TrustDevice.clearSession dev))) :
    P (clearDevices userId devices t) := by
  induction devices generalizing t with
  | nil => exact hP
  | cons entry rest ih =>
      obtain ⟨v, hv, hid⟩ := hrows entry (List.mem_cons_self ..)
      refine ih ?_ (hput t entry.1 v entry.2 hv hid hP)
      intro other hother
      obtain ⟨v', hv', hid'⟩ := hrows other (List.mem_cons_of_mem _ hother)
      by_cases hd : other.1 = entry.1
      · rw [hd] at hv' ⊢
        refine ⟨entry.2.clearSession, Tables.row_put_self .., ?_⟩
        rw [hv, Option.some.injEq] at hv'
        subst v'
        exact hid.symm.trans hid'
      · exact ⟨v', by rw [Tables.row_put_of_ne (by simpa using hd)]; exact hv', hid'⟩

theorem clearDevices_row_of_notMem {userId : Uuid}
    {devices : List (JsString × TrustDevice)} {t : Data} {k : Key}
    (hk : ∀ entry ∈ devices, k ≠ .device userId entry.1) :
    (clearDevices userId devices t).row k = t.row k := by
  induction devices generalizing t with
  | nil => rfl
  | cons entry rest ih =>
      exact (ih (fun e he => hk e (List.mem_cons_of_mem _ he)) (t := t.put _ _)).trans
        (Tables.row_put_of_ne (hk entry (List.mem_cons_self ..)) ..)

theorem clearDevices_row {userId : Uuid} {devices : List (JsString × TrustDevice)}
    {t : Data} {k : Key} (hk : ∀ d, k ≠ .device userId d) :
    (clearDevices userId devices t).row k = t.row k :=
  clearDevices_row_of_notMem fun entry _ => hk entry.1

theorem clearDevices_overlay (userId : Uuid) (devices : List (JsString × TrustDevice))
    (own base : Data) :
    (clearDevices userId devices own).overlay base =
      clearDevices userId devices (own.overlay base) := by
  induction devices generalizing own with
  | nil => rfl
  | cons entry rest ih =>
      exact (ih (own.put _ _)).trans (congrArg _ (Tables.put_overlay ..))

theorem clearDevices_device {userId : Uuid} {devices : List (JsString × TrustDevice)}
    {t : Data} {u : Uuid} {d : JsString} {device : TrustDevice}
    (h : (clearDevices userId devices t).row (.device u d) = some device) :
    t.row (.device u d) = some device ∨
      (device.refreshSessionId = none ∧ device.currentRefreshJti = none) := by
  induction devices generalizing t with
  | nil => exact .inl h
  | cons entry rest ih =>
      obtain h | h := ih h
      · by_cases hk : Key.device u d = .device userId entry.1
        · simp only [Key.device.injEq] at hk
          obtain ⟨rfl, rfl⟩ := hk
          rw [Tables.row_put_self, Option.some.injEq] at h
          subst device
          exact .inr ⟨rfl, rfl⟩
        · exact .inl ((Tables.row_put_of_ne hk ..).symm.trans h)
      · exact .inr h

@[simp] theorem clearDevices_log (userId : Uuid)
    (devices : List (JsString × TrustDevice)) (t : Data) :
    (clearDevices userId devices t).log = t.log := by
  induction devices generalizing t with
  | nil => rfl
  | cons entry rest ih => exact ih (t := t.put _ _)

/-! ## Device rows -/

theorem DeviceStep.lasts {c : State} {p : Pid} {u : Uuid} {d : JsString}
    {device device' : TrustDevice} {replies : List Reply}
    (h : DeviceStep c p u d device device' replies) : device'.id = device.id := by
  cases h <;> rfl

theorem DeviceStep.unused {c : State} {p : Pid} {u v : Uuid} {d : JsString}
    {device device' : TrustDevice} {replies : List Reply}
    (h : DeviceStep c p u d device device' replies)
    (hrow : c.data.row (.device u d) = some device)
    (hv : c.shared.minted v ≠ some (.request p)) (hunused : Unused v c) :
    (device'.refreshSessionId ≠ some v ∧ device'.currentRefreshJti ≠ some v) ∧
      ∀ tokens, Reply.tokens tokens ∈ replies →
        tokens.refreshToken.sid ≠ v ∧ tokens.refreshToken.jti ≠ v := by
  have hold := hunused.rows u d device hrow
  have hdrawn : ∀ {x}, Drawn p x c → x ≠ v := by
    rintro x hx rfl
    exact hv hx.minted
  have hplain : ∀ {es : List Reply}, (∀ e ∈ es, e.Plain) →
      ∀ tokens, Reply.tokens tokens ∈ es →
        tokens.refreshToken.sid ≠ v ∧ tokens.refreshToken.jti ≠ v :=
    fun hes tokens htokens => (hes _ htokens).elim
  cases h with
  | signedIn hcall hsign hauth hsid hjti hne =>
      have h₁ := hdrawn hsid
      have h₂ := hdrawn hjti
      exact ⟨⟨by simpa using h₁, by simpa using h₂⟩, by simp [getTokens, h₁, h₂]⟩
  | rotated hcall hsub hdev hholds hjti =>
      have h₂ := hdrawn hjti
      simp only [holdsToken, decide_eq_true_eq] at hholds
      have hsid := hold.1
      rw [hholds.1] at hsid
      exact ⟨⟨hold.1, by simpa using h₂⟩, by simp [getTokens, h₂, by simpa using hsid]⟩
  | replayed hcall hsub hdev hreplay hes =>
      exact ⟨⟨by simp [TrustDevice.clearSession], by simp [TrustDevice.clearSession]⟩,
        hplain hes⟩
  | loggedOut hcall hsub hdev hsid hes =>
      exact ⟨⟨by simp [TrustDevice.clearSession], by simp [TrustDevice.clearSession]⟩,
        hplain hes⟩
  | revoked hcall hes =>
      exact ⟨⟨by simp [TrustDevice.clearSession], by simp [TrustDevice.clearSession]⟩,
        hplain hes⟩
  | enrolled hcall hes =>
      exact ⟨⟨by simp [TrustDevice.clearSession], by simp [TrustDevice.clearSession]⟩,
        hplain hes⟩

/-! ## Growth -/

theorem Data.addAccount_grows {t : Data} {id : Uuid} {user : User} {walletId : Uuid}
    {type : WalletType} {deviceId : JsString} {device : TrustDevice}
    (h₁ : t.row (.user id) = none) (h₂ : t.row (.userByPhone user.phone) = none)
    (h₃ : t.row (.wallet walletId) = none) (h₄ : t.row (.walletByUser id) = none)
    (h₅ : t.row (.device id deviceId) = none) (h₆ : t.row (.deviceById device.id) = none) :
    Grows t (t.addAccount id user walletId type deviceId device) := by
  unfold Data.addAccount
  refine .insert ?_ (by simpa using h₆)
  refine .insert ?_ (by simpa using h₅)
  refine .insert ?_ (by simpa using h₄)
  refine .insert ?_ (by simpa using h₃)
  exact ((Grows.refl t).insert h₁).insert (by simpa using h₂)

theorem Claim.grows {c : State} {user : User} {t : Data} (h : Claim c user t) :
    Grows c.data t := by
  cases h with
  | personal _ => exact .refl _
  | business hrow hphone hrole hunused hbusiness => exact (Grows.refl _).update hrow rfl

theorem Claim.row {c : State} {user : User} {t : Data} (h : Claim c user t) {k : Key}
    (hk : ∀ id, k ≠ .approval id) : t.row k = c.data.row k := by
  cases h with
  | personal _ => rfl
  | business hrow hphone hrole hunused hbusiness => exact Tables.row_put_of_ne (hk _) ..

section Posted

variable {env : Env} {c : State} {p : Pid} {order : TransferOrder} {id : Uuid}
variable {r : Transaction} {sender receiver system : Wallet}

theorem Posting.systemDistinct {env : Env} (h : Posting env c p order id r sender receiver system)
    (hi : Integrity env.cachedSystemWalletId c.data) :
    order.senderWalletId ≠ order.systemWalletId ∧
      order.receiverWalletId ≠ order.systemWalletId := by
  obtain ⟨request, -, ho⟩ := h.request
  obtain ⟨s, hs, -, hst, -⟩ := hi.system
  rw [← ho.system] at hs
  constructor
  · intro heq
    obtain ⟨w, hw, hwt⟩ := ho.senderType
    rw [heq, hs, Option.some.injEq] at hw
    subst w
    exact senderType_ne_system order.type (hwt.symm.trans hst)
  · intro heq
    obtain ⟨w, hw, hwt⟩ := ho.receiverType
    rw [heq, hs, Option.some.injEq] at hw
    subst w
    exact receiverType_ne_system order.type (hwt.symm.trans hst)

theorem TransferOrder.postRecord_grows {t : Data} (h₁ : t.row (.transaction id) = none)
    (h₂ : t.row (.transactionByTrxId r.trxId) = none)
    (h₃ : t.row (.transactionByKey r.idempotencyKey) = none) :
    Grows t (TransferOrder.postRecord id r t) := by
  unfold TransferOrder.postRecord
  exact (((Grows.refl t).insert h₁).insert (by simpa using h₂)).insert (by simpa using h₃)

theorem TransferOrder.postDebit_grows (order : TransferOrder) (id : Uuid) {t : Data}
    (h : t.row (.wallet order.senderWalletId) = some sender) :
    Grows t (order.postDebit id sender t) := by
  refine Grows.append (Grows.update (.refl t) h ?_) _
  exact ⟨rfl, rfl, rfl⟩

theorem TransferOrder.postCredit_grows (order : TransferOrder) (id : Uuid) {t : Data}
    (h : t.row (.wallet order.receiverWalletId) = some receiver) :
    Grows t (order.postCredit id receiver t) := by
  refine Grows.append (Grows.update (.refl t) h ?_) _
  exact ⟨rfl, rfl, rfl⟩

theorem TransferOrder.postFee_grows (order : TransferOrder) (id : Uuid)
    (r : Transaction) {t : Data}
    (h : t.row (.wallet order.systemWalletId) = some system) :
    Grows t (order.postFee id r system t) := by
  unfold TransferOrder.postFee
  split
  · exact .refl t
  · refine Grows.append (Grows.update (.refl t) h ?_) _
    exact ⟨rfl, rfl, rfl⟩

theorem Posting.rows {env : Env} (h : Posting env c p order id r sender receiver system)
    (hi : Integrity env.cachedSystemWalletId c.data) :
    (TransferOrder.postRecord id r c.data).row (.wallet order.senderWalletId) = some sender ∧
      (order.postDebit id sender (TransferOrder.postRecord id r c.data)).row
        (.wallet order.receiverWalletId) = some receiver ∧
      (order.postCredit id receiver (order.postDebit id sender
        (TransferOrder.postRecord id r c.data))).row (.wallet order.systemWalletId) =
          some system := by
  obtain ⟨request, -, ho⟩ := h.request
  obtain ⟨hs, hr⟩ := h.systemDistinct hi
  refine ⟨?_, ?_, ?_⟩
  · simpa [TransferOrder.postRecord] using h.senderRow
  · simpa [TransferOrder.postRecord, TransferOrder.postDebit, Ne.symm ho.distinct,
      Tables.row_put_of_ne] using h.receiverRow
  · simpa [TransferOrder.postRecord, TransferOrder.postDebit, TransferOrder.postCredit,
      Ne.symm hs, Ne.symm hr, Tables.row_put_of_ne] using h.systemRow

theorem Posting.grows {env : Env} (h : Posting env c p order id r sender receiver system)
    (hi : Integrity env.cachedSystemWalletId c.data) :
    Grows c.data (order.post id r sender receiver system c.data) := by
  obtain ⟨hs, hr, hsys⟩ := h.rows hi
  have hrecord := TransferOrder.postRecord_grows h.newId h.newTrxId h.newKey
  have hdebit := order.postDebit_grows id hs
  have hcredit := order.postCredit_grows id hr
  exact ((hrecord.trans hdebit).trans hcredit).trans (order.postFee_grows id r hsys)

end Posted

theorem Effect.grows {env : Env} {p : Pid} {c : State} {t : Data} {replies : List Reply}
    (h : Effect env p c t replies) (hi : Integrity env.cachedSystemWalletId c.data) :
    Grows c.data t := by
  cases h with
  | none _ => exact .refl _
  | replayed _ _ => exact .refl _
  | transferred hpost => exact hpost.grows hi
  | froze hrow _ _ =>
      refine (Grows.refl _).update hrow ?_
      exact ⟨rfl, rfl, rfl⟩
  | activated hrow _ _ _ _ =>
      refine (Grows.refl _).update hrow ?_
      exact ⟨rfl, rfl, rfl⟩
  | suspended huser _ _ hwallet _ _ _ hdevices _ =>
      refine clearDevices_induct (P := Grows _) ?_ ?_ ?_
      · intro entry hentry
        exact ⟨entry.2, by simpa using hdevices entry hentry, rfl⟩
      · refine Grows.update (Grows.update (.refl _) hwallet ?_) (by simpa using huser) ?_
        · exact ⟨rfl, rfl, rfl⟩
        · exact ⟨rfl, rfl⟩
      · intro t d v dev hv hid hg
        exact hg.update hv hid.symm
  | reactivated huser _ _ _ =>
      refine (Grows.refl _).update huser ?_
      exact ⟨rfl, rfl⟩
  | device hrow hstep => exact (Grows.refl _).update hrow hstep.lasts
  | enrolledNew hrow hindex _ _ _ =>
      exact ((Grows.refl _).insert hrow).insert (by simpa using hindex)
  | registered hnew hclaim =>
      refine hclaim.grows.trans (Data.addAccount_grows ?_ ?_ ?_ ?_ ?_ ?_)
      · exact (hclaim.row (by simp)).trans hnew.newUser
      · exact (hclaim.row (by simp)).trans hnew.newPhone
      · exact (hclaim.row (by simp)).trans hnew.newWallet
      · exact (hclaim.row (by simp)).trans hnew.newIndex
      · exact (hclaim.row (by simp)).trans hnew.newDevice
      · exact (hclaim.row (by simp)).trans hnew.newDeviceId
  | approved hrow hindex _ =>
      exact ((Grows.refl _).insert hrow).insert (by simpa using hindex)
  | renewed hrow _ _ => exact (Grows.refl _).update hrow rfl

/-! ## Integrity -/

theorem Posting.integrity {env : Env} {c : State} {p : Pid} {order : TransferOrder}
    {id : Uuid} {r : Transaction} {sender receiver system : Wallet}
    (h : Posting env c p order id r sender receiver system)
    (hi : Integrity env.cachedSystemWalletId c.data) :
    Integrity env.cachedSystemWalletId (order.post id r sender receiver system c.data) := by
  obtain ⟨hs, hr, hsys⟩ := h.rows hi
  have hrecord : Integrity env.cachedSystemWalletId (TransferOrder.postRecord id r c.data) :=
    hi.insert_transaction h.newId h.newTrxId h.newKey
  have hrow : (TransferOrder.postRecord id r c.data).row (.transaction id) = some r := by
    simp [TransferOrder.postRecord]
  have hdebit : Integrity env.cachedSystemWalletId
      (order.postDebit id sender (TransferOrder.postRecord id r c.data)) := by
    refine Integrity.append (hrecord.put_wallet hs ?_ ?_) ?_
    · exact ⟨rfl, rfl, rfl⟩
    · exact fun _ => h.senderActive
    · simp [TransferOrder.debit, hrow]
  have hcredit : Integrity env.cachedSystemWalletId
      (order.postCredit id receiver (order.postDebit id sender
        (TransferOrder.postRecord id r c.data))) := by
    refine Integrity.append (hdebit.put_wallet hr ?_ ?_) ?_
    · exact ⟨rfl, rfl, rfl⟩
    · exact fun _ => h.receiverActive
    · simp [TransferOrder.credit, TransferOrder.postDebit, hrow]
  unfold TransferOrder.post TransferOrder.postFee
  split
  · exact hcredit
  · refine Integrity.append (hcredit.put_wallet hsys ?_ ?_) ?_
    · exact ⟨rfl, rfl, rfl⟩
    · exact fun _ => h.systemActive
    · simp [TransferOrder.feeCredit, TransferOrder.postCredit, TransferOrder.postDebit, hrow]

theorem Data.addAccount_integrity {systemId : Uuid} {t : Data} (hi : Integrity systemId t)
    {id : Uuid} {user : User} {walletId : Uuid} {type : WalletType} {deviceId : JsString}
    {device : TrustDevice} (h₁ : t.row (.user id) = none)
    (h₂ : t.row (.userByPhone user.phone) = none) (h₃ : t.row (.wallet walletId) = none)
    (h₄ : t.row (.walletByUser id) = none) (h₅ : t.row (.device id deviceId) = none)
    (h₆ : t.row (.deviceById device.id) = none) (htype : type ≠ .system) :
    Integrity systemId (t.addAccount id user walletId type deviceId device) := by
  have huser := hi.insert_user h₁ h₂
  refine Integrity.insert_device (huser.insert_wallet ?_ ?_ rfl (by simp) htype) ?_ ?_
  · simpa using h₃
  · simpa using h₄
  · simpa using h₅
  · simpa using h₆

theorem Claim.integrity {systemId : Uuid} {c : State} {user : User} {t : Data}
    (h : Claim c user t) (hi : Integrity systemId c.data) : Integrity systemId t := by
  cases h with
  | personal _ => exact hi
  | business hrow hphone hrole hunused hbusiness => exact hi.put_approval hrow rfl

theorem NewAccount.type_ne_system {c : State} {p : Pid} {id : Uuid} {user : User}
    {walletId : Uuid} {type : WalletType} {deviceId : JsString} {device : TrustDevice}
    {sid jti : Uuid} (h : NewAccount c p id user walletId type deviceId device sid jti) :
    type ≠ .system := by
  rw [h.type]
  cases user.role <;> simp

theorem Effect.integrity {env : Env} {p : Pid} {c : State} {t : Data}
    {replies : List Reply} (h : Effect env p c t replies)
    (hi : Integrity env.cachedSystemWalletId c.data) :
    Integrity env.cachedSystemWalletId t := by
  cases h with
  | none _ => exact hi
  | replayed _ _ => exact hi
  | transferred hpost => exact hpost.integrity hi
  | froze hrow htype _ =>
      exact hi.put_wallet hrow ⟨rfl, rfl, rfl⟩ (fun h => absurd h htype)
  | activated hrow htype _ _ _ =>
      exact hi.put_wallet hrow ⟨rfl, rfl, rfl⟩ (fun h => absurd h htype)
  | suspended huser _ _ hwallet _ htype _ hdevices _ =>
      refine clearDevices_induct (P := Integrity _) ?_ ?_ ?_
      · intro entry hentry
        exact ⟨entry.2, by simpa using hdevices entry hentry, rfl⟩
      · refine Integrity.put_user (hi.put_wallet hwallet ?_ (fun h => absurd h htype))
          (by simpa using huser) ?_
        · exact ⟨rfl, rfl, rfl⟩
        · exact ⟨rfl, rfl⟩
      · intro t d v dev hv hid hg
        exact hg.put_device hv hid.symm
  | reactivated huser _ _ _ => exact hi.put_user huser ⟨rfl, rfl⟩
  | device hrow hstep => exact hi.put_device hrow hstep.lasts
  | enrolledNew hrow hindex _ _ _ => exact hi.insert_device hrow hindex
  | registered hnew hclaim =>
      refine Data.addAccount_integrity (hclaim.integrity hi) ?_ ?_ ?_ ?_ ?_ ?_
        hnew.type_ne_system
      · exact (hclaim.row (by simp)).trans hnew.newUser
      · exact (hclaim.row (by simp)).trans hnew.newPhone
      · exact (hclaim.row (by simp)).trans hnew.newWallet
      · exact (hclaim.row (by simp)).trans hnew.newIndex
      · exact (hclaim.row (by simp)).trans hnew.newDevice
      · exact (hclaim.row (by simp)).trans hnew.newDeviceId
  | approved hrow hindex _ => exact hi.insert_approval hrow hindex
  | renewed hrow _ _ => exact hi.put_approval hrow rfl

/-! ## Accounts of locked wallets -/

theorem TransferOrder.post_row {order : TransferOrder} {id : Uuid} {r : Transaction}
    {sender receiver system : Wallet} {t : Data} {k : Key}
    (hwallet : ∀ id, k ≠ .wallet id) (htransaction : ∀ id, k ≠ .transaction id)
    (htrxId : ∀ trxId, k ≠ .transactionByTrxId trxId)
    (hkey : ∀ key, k ≠ .transactionByKey key) :
    (order.post id r sender receiver system t).row k = t.row k := by
  unfold TransferOrder.post TransferOrder.postFee TransferOrder.postCredit
    TransferOrder.postDebit TransferOrder.postRecord
  split <;> simp [Tables.row_put_of_ne, hwallet, htransaction, htrxId, hkey]

theorem Data.addAccount_row {t : Data} {id : Uuid} {user : User} {walletId : Uuid}
    {type : WalletType} {deviceId : JsString} {device : TrustDevice} {k : Key}
    (h₁ : k ≠ .user id) (h₂ : k ≠ .userByPhone user.phone) (h₃ : k ≠ .wallet walletId)
    (h₄ : k ≠ .walletByUser id) (h₅ : k ≠ .device id deviceId)
    (h₆ : k ≠ .deviceById device.id) :
    (t.addAccount id user walletId type deviceId device).row k = t.row k := by
  unfold Data.addAccount
  simp [Tables.row_put_of_ne, h₁, h₂, h₃, h₄, h₅, h₆]

theorem Data.accountActive_iff {t : Data} {u : Uuid} :
    t.accountActive u = true ↔ ∃ user, t.row (.user u) = some user ∧ user.status = .active := by
  unfold Data.accountActive
  cases t.row (.user u) <;> simp

theorem Effect.accountActive {env : Env} {p : Pid} {c : State} {t : Data}
    {replies : List Reply} (h : Effect env p c t replies)
    (hi : Integrity env.cachedSystemWalletId c.data) {u : Uuid}
    (hu : c.data.accountActive u = true)
    (hlock : ∀ id, c.data.row (.walletByUser u) = some id →
      c.shared.db.lock (.wallet id) ≠ some p) : t.accountActive u = true := by
  obtain ⟨user, huser, hstatus⟩ := Data.accountActive_iff.1 hu
  rw [Data.accountActive_iff]
  cases h with
  | none _ => exact ⟨user, huser, hstatus⟩
  | replayed _ _ => exact ⟨user, huser, hstatus⟩
  | transferred hpost =>
      exact ⟨user, (TransferOrder.post_row (by simp) (by simp) (by simp) (by simp)).trans
        huser, hstatus⟩
  | froze hrow htype _ => exact ⟨user, by simpa using huser, hstatus⟩
  | activated hrow htype _ _ _ => exact ⟨user, by simpa using huser, hstatus⟩
  | @suspended userId user' walletId w devices _ huser' _ _ hwallet howner htype hmine _ _ =>
      have hne : u ≠ userId := by
        rintro rfl
        exact hlock walletId (hi.walletByUser hwallet howner) hmine
      refine ⟨user, ?_, hstatus⟩
      rw [clearDevices_row (by simp), Tables.row_put_of_ne (by simpa using hne)]
      simpa using huser
  | @reactivated userId user' _ huser' _ _ _ =>
      by_cases hne : u = userId
      · subst userId
        exact ⟨_, Tables.row_put_self .., rfl⟩
      · exact ⟨user, by rw [Tables.row_put_of_ne (by simpa using hne)]; exact huser, hstatus⟩
  | device hrow hstep => exact ⟨user, by simpa using huser, hstatus⟩
  | enrolledNew hrow hindex _ _ _ => exact ⟨user, by simpa using huser, hstatus⟩
  | @registered id _ _ _ _ _ _ _ _ hnew hclaim =>
      have hne : Key.user u ≠ .user id := by
        intro heq
        simp only [Key.user.injEq] at heq
        subst u
        simp [hnew.newUser] at huser
      refine ⟨user, ?_, hstatus⟩
      rw [Data.addAccount_row hne (by simp) (by simp) (by simp) (by simp) (by simp),
        hclaim.row (by simp)]
      exact huser
  | approved hrow hindex _ => exact ⟨user, by simpa using huser, hstatus⟩
  | renewed hrow _ _ => exact ⟨user, by simpa using huser, hstatus⟩

/-! ## Random UUIDs -/

theorem Effect.unused {env : Env} {p : Pid} {c : State} {t : Data} {replies : List Reply}
    (h : Effect env p c t replies) {v : Uuid} (hv : c.shared.minted v ≠ some (.request p))
    (hunused : Unused v c) :
    (∀ u d device, t.row (.device u d) = some device →
      device.refreshSessionId ≠ some v ∧ device.currentRefreshJti ≠ some v) ∧
    ∀ tokens, Reply.tokens tokens ∈ replies →
      tokens.refreshToken.sid ≠ v ∧ tokens.refreshToken.jti ≠ v := by
  have hplain : (∀ e ∈ replies, e.Plain) → ∀ tokens, Reply.tokens tokens ∈ replies →
      tokens.refreshToken.sid ≠ v ∧ tokens.refreshToken.jti ≠ v :=
    fun hes tokens htokens => (hes _ htokens).elim
  have hold := hunused.rows
  cases h with
  | none hes => exact ⟨hold, hplain hes⟩
  | replayed _ _ => exact ⟨hold, by simp⟩
  | transferred hpost =>
      refine ⟨?_, by simp⟩
      intro u d device hrow
      rw [TransferOrder.post_row (by simp) (by simp) (by simp) (by simp)] at hrow
      exact hold u d device hrow
  | froze hrow htype hes => exact ⟨by simpa using hold, hplain hes⟩
  | activated hrow htype _ _ hes => exact ⟨by simpa using hold, hplain hes⟩
  | suspended _ _ _ _ _ _ _ _ hes =>
      refine ⟨?_, hplain hes⟩
      intro u d device hrow
      obtain hrow | ⟨hsid, hjti⟩ := clearDevices_device hrow
      · exact hold u d device (by simpa using hrow)
      · simp [hsid, hjti]
  | reactivated huser _ _ hes => exact ⟨by simpa using hold, hplain hes⟩
  | @device userId deviceId dev dev' _ hrow hstep =>
      have hstep' := hstep.unused hrow hv hunused
      refine ⟨?_, hstep'.2⟩
      intro u d device hdevice
      by_cases hk : Key.device u d = .device userId deviceId
      · simp only [Key.device.injEq] at hk
        obtain ⟨rfl, rfl⟩ := hk
        rw [Tables.row_put_self, Option.some.injEq] at hdevice
        exact hdevice ▸ hstep'.1
      · rw [Tables.row_put_of_ne hk] at hdevice
        exact hold u d device hdevice
  | @enrolledNew userId deviceId dev _ hrow hindex hsid hjti hes =>
      refine ⟨?_, hplain hes⟩
      intro u d device hdevice
      simp only [ne_eq, reduceCtorEq, not_false_eq_true, Tables.row_put_of_ne] at hdevice
      by_cases hk : Key.device u d = .device userId deviceId
      · simp only [Key.device.injEq] at hk
        obtain ⟨rfl, rfl⟩ := hk
        rw [Tables.row_put_self, Option.some.injEq] at hdevice
        subst device
        simp [hsid, hjti]
      · rw [Tables.row_put_of_ne hk] at hdevice
        exact hold u d device hdevice
  | @registered id user walletId type deviceId dev sid jti t hnew hclaim =>
      have hsid : sid ≠ v := by
        rintro rfl
        exact hv hnew.drawnSid.minted
      have hjti : jti ≠ v := by
        rintro rfl
        exact hv hnew.drawnJti.minted
      refine ⟨?_, by simp [getTokens, hsid, hjti]⟩
      intro u d device hdevice
      simp only [Data.addAccount, ne_eq, reduceCtorEq, not_false_eq_true,
        Tables.row_put_of_ne] at hdevice
      by_cases hk : Key.device u d = .device id deviceId
      · simp only [Key.device.injEq] at hk
        obtain ⟨rfl, rfl⟩ := hk
        rw [Tables.row_put_self, Option.some.injEq] at hdevice
        subst device
        simp [hnew.session.1, hnew.session.2, hsid, hjti]
      · rw [Tables.row_put_of_ne hk] at hdevice
        simp only [ne_eq, reduceCtorEq, not_false_eq_true, Tables.row_put_of_ne] at hdevice
        rw [hclaim.row (by simp)] at hdevice
        exact hold u d device hdevice
  | approved hrow hindex hes => exact ⟨by simpa using hold, hplain hes⟩
  | renewed hrow _ hes => exact ⟨by simpa using hold, hplain hes⟩

end Kori
