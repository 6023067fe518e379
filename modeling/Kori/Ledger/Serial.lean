import Kori.Conduct.Ending
import Kori.Conduct.Suspensions
import Kori.Ledger.Bank
import Kori.Ledger.Entries
import Kori.Restrictions.Authority

/-!
# The service is a bank

However the requests interleave, what they leave of accounts, wallets and books, and what
they answer to transfers, is what the bank would have made of whole actions taken one after
the other.
-/

namespace Kori

open Foundation

section Views

variable {t : Data} {c : State} {p : Pid} {env : Env} {order : TransferOrder} {id : Uuid}
variable {r : Transaction} {sender receiver system : Wallet}

@[simp] theorem bank_put_user (t : Data) (id : Uuid) (user : User) :
    Data.bank (t.put (.user id) user) = (Data.bank t).setAccount id user := by
  have hrows := Tables.rows_put (fun _ _ => Key.user.inj : Function.Injective Key.user) t id user
  simp [Data.bank, Bank.setAccount, hrows]

@[simp] theorem bank_put_wallet (t : Data) (id : Uuid) (w : Wallet) :
    Data.bank (t.put (.wallet id) w) = (Data.bank t).setWallet id w := by
  have hrows := Tables.rows_put (fun _ _ => Key.wallet.inj : Function.Injective Key.wallet) t id w
  simp [Data.bank, Bank.setWallet, hrows]

@[simp] theorem bank_append (t : Data) (entry : LedgerEntry) :
    Data.bank (t.append entry) = (Data.bank t).enter entry := rfl

theorem bank_postRecord (t : Data) (id : Uuid) (r : Transaction) :
    Data.bank (TransferOrder.postRecord id r t) = (Data.bank t).record id r := by
  have hids := Tables.rows_put
    (fun _ _ => Key.transaction.inj : Function.Injective Key.transaction) t id r
  have hnumbers := Tables.rows_put
    (fun _ _ => Key.transactionByTrxId.inj : Function.Injective Key.transactionByTrxId)
    (t.put (.transaction id) r) r.trxId id
  have hkeys := Tables.rows_put
    (fun _ _ => Key.transactionByKey.inj : Function.Injective Key.transactionByKey)
    ((t.put (.transaction id) r).put (.transactionByTrxId r.trxId) id) r.idempotencyKey id
  simp [TransferOrder.postRecord, Data.bank, Bank.record, hids, hnumbers, hkeys]

def Key.Hidden : Key → Prop
  | .device _ _ | .deviceById _ | .approval _ | .approvalByPhone _ => True
  | _ => False

theorem bank_put_hidden {k : Key} (h : k.Hidden) (t : Data) (v : Row k) :
    Data.bank (t.put k v) = Data.bank t := by
  cases k <;> first | exact h.elim | simp [Data.bank]

theorem bank_clearDevices (userId : Uuid) (devices : List (JsString × TrustDevice)) (t : Data) :
    Data.bank (clearDevices userId devices t) = Data.bank t := by
  unfold clearDevices
  induction devices generalizing t with
  | nil => rfl
  | cons entry devices ih =>
      rw [List.foldl_cons, ih]
      exact bank_put_hidden (k := .device userId entry.1) trivial t _

theorem bank_ownerActive (t : Data) (w : Wallet) :
    (Data.bank t).ownerActive w = Data.ownerActive t w := by
  unfold Bank.ownerActive Data.ownerActive Data.accountActive Data.bank
  cases w.userId with
  | none => rfl
  | some u =>
      cases hrow : t.row (.user u) with
      | none => simp [hrow]
      | some user => simp [hrow, Option.isSome_filter]

theorem bank_post (t : Data) :
    Data.bank (order.post id r sender receiver system t) =
      (Data.bank t).post order id r sender receiver system := by
  unfold TransferOrder.post TransferOrder.postFee TransferOrder.postCredit
    TransferOrder.postDebit Bank.post
  split <;> simp [bank_postRecord, *]

/-! ## Transfers -/

theorem Ordered.bank_order {request : TransferRequest} (h : Ordered env request order t) :
    (Data.bank t).order env request = some order := by
  obtain ⟨actor, user, hactor, huser, hrole, hsender⟩ := h.sender
  obtain ⟨phone, payee, htrim, hparse, hpayee, hreceiver⟩ := h.receiver
  have hphone : phoneOf env request.body.phone = some phone := by simp [phoneOf, htrim, hparse]
  unfold Bank.order
  simp only [hactor, Option.bind_eq_bind, Option.bind_some, h.key, hphone]
  simp [Data.bank, huser, hrole, h.valid, hpayee, h.amounts, Except.toOption, hsender, hreceiver,
    h.distinct]
  rw [← h.system, ← h.reference, ← h.type]

theorem participant_of_row {id : Uuid} {w : Wallet} {type : WalletType}
    (hrow : t.row (.wallet id) = some w) (htype : w.type = type) (hactive : w.isActive = true)
    (howner : t.ownerActive w = true) : (Data.bank t).participant id type = some w := by
  have hwallet : (Data.bank t).wallet id = some w := hrow
  simp [Bank.participant, hwallet, bank_ownerActive, htype, hactive, howner]

/-- What a transfer commits is the action of its request. -/
theorem Posting.bank_transfer (h : Posting env c p order id r sender receiver system)
    {request : TransferRequest} (hcall : c.calls p = some (.transfer request)) :
    (Data.bank c.data).transfer env request id r.trxId r.createdAt =
      some (Data.bank (order.post id r sender receiver system c.data),
        some (order.response r (sender.plus (-order.total)) (receiver.plus order.amount))) := by
  obtain ⟨request', hcall', ho⟩ := h.request
  obtain rfl := Call.transfer.inj (Option.some.inj (hcall'.symm.trans hcall))
  obtain ⟨w, hw, hsenderType⟩ := ho.senderType
  obtain rfl := Option.some.inj (hw.symm.trans h.senderRow)
  obtain ⟨w', hw', hreceiverType⟩ := ho.receiverType
  obtain rfl := Option.some.inj (hw'.symm.trans h.receiverRow)
  have hsender := participant_of_row h.senderRow hsenderType h.senderActive h.senderOwner
  have hreceiver :=
    participant_of_row h.receiverRow hreceiverType h.receiverActive h.receiverOwner
  have hsystem : ((Data.bank c.data).wallet order.systemWalletId).filter Wallet.isActive =
      some system := by
    simp [Data.bank, h.systemRow, h.systemActive]
  have hfresh : (Data.bank c.data).transaction id = none ∧
      (Data.bank c.data).numbered r.trxId = none ∧
      (Data.bank c.data).performed r.idempotencyKey = none := ⟨h.newId, h.newTrxId, h.newKey⟩
  obtain ⟨trxId, createdAt, hrecord⟩ := h.record
  have hrecord' : order.record r.trxId r.idempotencyKey r.createdAt = r := by
    conv_rhs => rw [hrecord]
    rw [hrecord]
    rfl
  unfold Bank.transfer
  simp only [ho.bank_order, Option.bind_eq_bind, Option.bind_some, hsender, hreceiver, hsystem]
  have hfunds : order.total ≤ w.balance := h.funds
  simp [hfunds, h.key, hfresh, hrecord', bank_post]

/-! ## Accounts -/

theorem bank_put_userByPhone (t : Data) (phone : JsString) (id : Uuid) :
    Data.bank (t.put (.userByPhone phone) id) =
      { Data.bank t with
        accountOf := Function.update (Data.bank t).accountOf phone (some id) } := by
  have hrows := Tables.rows_put
    (fun _ _ => Key.userByPhone.inj : Function.Injective Key.userByPhone) t phone id
  simp [Data.bank, hrows]

theorem bank_put_walletByUser (t : Data) (userId id : Uuid) :
    Data.bank (t.put (.walletByUser userId) id) =
      { Data.bank t with
        walletOf := Function.update (Data.bank t).walletOf userId (some id) } := by
  have hrows := Tables.rows_put
    (fun _ _ => Key.walletByUser.inj : Function.Injective Key.walletByUser) t userId id
  simp [Data.bank, hrows]

theorem Claim.bank {user : User} (h : Claim c user t) : Data.bank t = Data.bank c.data := by
  cases h with
  | personal _ => rfl
  | @business approvalId _ _ _ _ _ _ _ =>
      exact bank_put_hidden (k := .approval approvalId) trivial _ _

theorem NewAccount.bank_openAccount {user : User} {walletId sid jti : Uuid} {type : WalletType}
    {deviceId : JsString} {device : TrustDevice}
    (h : NewAccount c p id user walletId type deviceId device sid jti) (hclaim : Claim c user t) :
    (Data.bank c.data).openAccount id user walletId =
      some (Data.bank (t.addAccount id user walletId type deviceId device)) := by
  have htype : type = Bank.walletType user.role := by
    rw [h.type]
    cases user.role <;> rfl
  have haccount : (Data.bank c.data).account id = none ∧
      (Data.bank c.data).accountOf user.phone = none := ⟨h.newUser, h.newPhone⟩
  have hwallet : (Data.bank c.data).wallet walletId = none ∧
      (Data.bank c.data).walletOf id = none := ⟨h.newWallet, h.newIndex⟩
  unfold Bank.openAccount Data.addAccount
  rw [bank_put_hidden (k := .deviceById device.id) trivial,
    bank_put_hidden (k := .device id deviceId) trivial, bank_put_walletByUser, bank_put_wallet,
    bank_put_userByPhone, bank_put_user, hclaim.bank]
  simp [h.role, h.status, haccount, hwallet, htype, Bank.setAccount, Bank.setWallet]

end Views

section Steps

variable {env : Env} {shared : Shared} {past : List KoriMoment} {w w' : KoriWorld} {p : Pid}
variable {choice : Choice} {m : KoriMove}

theorem suspension_restricts (hidle : ∀ p, shared.db.tx p = none)
    (hr : Run (kori env) (World.idle shared) past w)
    (hm : w.move (kori env) (.step p choice) = some w') {actor : Option Uuid} {target : Uuid}
    (hcall : w.conf.calls p = some (.suspend actor target)) {id : Uuid} {wallet' : Wallet}
    (hrow : (State.data w'.conf).row (.wallet id) = some wallet')
    (hnew : (State.data w.conf).row (.wallet id) ≠ some wallet') :
    ∃ user', (State.data w'.conf).row (.user target) = some user' ∧ user'.role ≠ .admin ∧
      user'.status = .suspended := by
  obtain ⟨e, hans, hpublishes⟩ := run_published hidle hr hm hrow hnew
  have hinside : ∀ k, e.op.WritesRow k → InTransaction (heard (kori env) p past) := by
    obtain ⟨called, hcalled, hasks⟩ := hr.asks inside_obeyed hans
    obtain rfl := Option.some.inj (hcalled.symm.trans hcall)
    exact hasks actor target rfl
  cases hpublishes with
  | update hout _ _ => exact absurd (hinside _ rfl) hout
  | insert hout => exact absurd (hinside _ rfl) hout
  | commit hown _ =>
      -- the commit comes after the listing of the devices, which comes after the account
      obtain ⟨called, hcalled, hasks⟩ := hr.asks obeyed hans
      obtain rfl := Option.some.inj (hcalled.symm.trans hcall)
      have hlisted : ∃ t, Listed target (heard (kori env) p past) t := by
        cases hasks with
        | free hfree _ => exact hfree.elim
        | commit harranged _ =>
            obtain ⟨t, hlisted, -⟩ := harranged
            exact ⟨t, hlisted⟩
      obtain ⟨t, hlisted⟩ := hlisted
      have hsome := SuspendAsks.restricting (suspend_asked hr hcall) hlisted hown
      obtain ⟨user', huser'⟩ := Option.isSome_iff_exists.1 hsome
      obtain ⟨e', he', hwrites⟩ := writes_of_uncommitted hown huser'
      have hfree : ¬e'.op.Free := fun hfree => hfree.not_writes hwrites.writesRow
      have hpermits := (run_permitted hr hcall he' hfree).2
      obtain ⟨later, before, heq⟩ := List.append_of_mem he'
      have hrestricts := hpermits.resolve_left
        (Op.not_spares hwrites.writesRow (.inr ⟨target, rfl⟩))
      have hset : (Call.suspend actor target).SetsAccount target user' := by
        obtain ⟨id', hsets⟩ | ⟨id', hsets⟩ := hrestricts
        · exact absurd (hsets.key hwrites.writesRow) (by simp)
        · obtain rfl := Key.user.inj (hsets.key hwrites.writesRow)
          exact hwrites.sets hsets (heq ▸ List.suffix_append later _)
      exact ⟨user', run_committed hidle hr hm hans hown huser', hset.2⟩

/-! ## The effects as actions -/

theorem Bank.setWallet_self {b : Bank} {id : Uuid} {wallet : Wallet}
    (h : b.wallet id = some wallet) : b.setWallet id wallet = b := by
  simp [Bank.setWallet, ← h]

theorem Bank.setAccount_self {b : Bank} {id : Uuid} {user : User}
    (h : b.account id = some user) : b.setAccount id user = b := by
  simp [Bank.setAccount, ← h]

theorem Bank.setWallet_setAccount_self {b : Bank} {id userId : Uuid} {wallet : Wallet}
    {user : User} (h : b.account userId = some user) :
    (b.setWallet id wallet).setAccount userId user = b.setWallet id wallet :=
  Bank.setAccount_self h

theorem results_of_silent {replies : List Reply}
    (hout : w'.conf.out = w.conf.out ++ replies.map fun e => (p, e))
    (hsilent : ∀ response, .transferred response ∉ replies) :
    (bankService env).results w'.conf = (bankService env).results w.conf := by
  unfold Service.results
  rw [hout, List.filterMap_append, List.filterMap_map]
  apply List.append_right_eq_self.2
  apply List.filterMap_eq_nil_iff.2
  intro e he
  cases e with
  | transferred response => exact absurd he (hsilent response)
  | _ => rfl

abbrev Serving (env : Env) (w w' : KoriWorld) (m : KoriMove) : Prop :=
  (bankService env).Serves (Bank.object env) w w' m

section Restricting

variable (hopening : Opening env shared) (hr : Reachable (kori env) (World.idle shared) w)
variable (hm : w.move (kori env) m = some w')
variable (hresults : (bankService env).results w'.conf = (bankService env).results w.conf)

include hresults in
theorem serving_of_act {call : Call} {b : Bank} (hcall : w.conf.calls p = some call)
    (act : Bank.Act) (hfits : Bank.Fits env call act)
    (happly : Bank.apply env (Data.bank (State.data w.conf)) act = some (b, none))
    (hview : Data.bank (State.data w'.conf) = b) : Serving env w w' (.step p choice) := by
  subst b
  apply Service.Serves.acts hcall hfits happly
  simpa using hresults

include hopening hr hm hresults

theorem froze_serving {id : Uuid} {wallet : Wallet}
    (hrow : (State.data w.conf).row (.wallet id) = some wallet) (htype : wallet.type ≠ .system)
    (hview : Data.bank (State.data w'.conf) =
      (Data.bank (State.data w.conf)).setWallet id { wallet with isActive := false }) :
    Serving env w w' m := by
  have hwallet : (Data.bank (State.data w.conf)).wallet id = some wallet := hrow
  cases hactive : wallet.isActive with
  | false =>
      apply Service.Serves.quiet _ hresults
      have hsame : { wallet with isActive := false } = wallet := by rw [← hactive]
      rw [hsame] at hview
      exact hview.trans (Bank.setWallet_self hwallet)
  | true =>
      have hrow' : (State.data w'.conf).row (.wallet id) =
          some { wallet with isActive := false } := by
        change (Data.bank (State.data w'.conf)).wallet id = _
        rw [hview]
        exact Function.update_self ..
      obtain ⟨p, choice, call, actor, rfl, hcall, -, -, hset⟩ :=
        wallet_by_admin hopening hr hm hrow hrow' (by simp [hactive])
      cases call with
      | deactiveWallet actor target =>
          obtain ⟨rfl, -⟩ := hset
          apply serving_of_act hresults hcall (.freeze target) rfl _ hview
          rw [Bank.apply, Bank.freeze_eq hwallet htype hactive, Option.map_some]
      | activeWallet actor target => exact Bool.noConfusion hset.2.2
      | suspend actor target =>
          -- the account was suspended before, as the step writes it too
          obtain ⟨past, hrun⟩ := Reachable.run hr
          have hnew : (State.data w.conf).row (.wallet id) ≠
              some { wallet with isActive := false } := by
            rw [hrow]
            intro heq
            have hfield := congrArg Wallet.isActive (Option.some.inj heq)
            simp [hactive] at hfield
          obtain ⟨user, huser, hrole, hstatus⟩ :=
            suspension_restricts hopening.idle hrun hm hcall hrow' hnew
          have haccount : (Data.bank (State.data w.conf)).account target = some user := by
            change (Data.bank (State.data w'.conf)).account target = some user at huser
            rw [hview] at huser
            exact huser
          apply serving_of_act hresults hcall (.suspend target id) rfl _ hview
          have hsuspend := Bank.suspend_eq haccount hrole (.inr hstatus) hwallet hset.1 htype
          have hsame : { user with status := .suspended } = user := by rw [← hstatus]
          rw [hsame, Bank.setWallet_setAccount_self haccount] at hsuspend
          rw [Bank.apply, hsuspend, Option.map_some]
      | _ => exact hset.elim

theorem activated_serving {id : Uuid} {wallet : Wallet}
    (hrow : (State.data w.conf).row (.wallet id) = some wallet) (htype : wallet.type ≠ .system)
    (hinactive : wallet.isActive = false)
    (howner : (State.data w.conf).ownerActive wallet = true)
    (hdata : State.data w'.conf =
      (State.data w.conf).put (.wallet id) { wallet with isActive := true }) :
    Serving env w w' m := by
  have hwallet : (Data.bank (State.data w.conf)).wallet id = some wallet := hrow
  have hview : Data.bank (State.data w'.conf) =
      (Data.bank (State.data w.conf)).setWallet id { wallet with isActive := true } := by
    rw [hdata, bank_put_wallet]
  have hrow' : (State.data w'.conf).row (.wallet id) =
      some { wallet with isActive := true } := by
    rw [hdata, Tables.row_put_self]
  obtain ⟨p, choice, call, actor, rfl, hcall, -, -, hset⟩ :=
    wallet_by_admin hopening hr hm hrow hrow' (by simp [hinactive])
  cases call with
  | activeWallet actor target =>
      obtain ⟨rfl, -⟩ := hset
      apply serving_of_act hresults hcall (.unfreeze target) rfl _ hview
      rw [← bank_ownerActive] at howner
      rw [Bank.apply, Bank.unfreeze_eq hwallet htype hinactive howner, Option.map_some]
  | deactiveWallet actor target => exact Bool.noConfusion hset.2.2
  | suspend actor target => exact Bool.noConfusion hset.2.2
  | _ => exact hset.elim

theorem suspended_serving {userId walletId : Uuid} {user : User} {wallet : Wallet}
    {devices : List (JsString × TrustDevice)}
    (huser : (State.data w.conf).row (.user userId) = some user) (hrole : user.role ≠ .admin)
    (hstatus : user.status = .active ∨ user.status = .suspended)
    (hrow : (State.data w.conf).row (.wallet walletId) = some wallet)
    (howner : wallet.userId = some userId) (htype : wallet.type ≠ .system)
    (hdata : State.data w'.conf = clearDevices userId devices
      (((State.data w.conf).put (.wallet walletId) { wallet with isActive := false }).put
        (.user userId) { user with status := .suspended })) :
    Serving env w w' m := by
  have haccount : (Data.bank (State.data w.conf)).account userId = some user := huser
  have hwallet : (Data.bank (State.data w.conf)).wallet walletId = some wallet := hrow
  have hview : Data.bank (State.data w'.conf) =
      ((Data.bank (State.data w.conf)).setWallet walletId
        { wallet with isActive := false }).setAccount userId
          { user with status := .suspended } := by
    rw [hdata, bank_clearDevices, bank_put_user, bank_put_wallet]
  have huser' : (State.data w'.conf).row (.user userId) =
      some { user with status := .suspended } := by
    rw [hdata, clearDevices_row (by simp), Tables.row_put_self]
  have hrow' : (State.data w'.conf).row (.wallet walletId) =
      some { wallet with isActive := false } := by
    rw [hdata, clearDevices_row (by simp), Tables.row_put_of_ne (by simp), Tables.row_put_self]
  have hsuspend := Bank.suspend_eq haccount hrole hstatus hwallet howner htype
  rcases hstatus with hactive | hsuspended
  · obtain ⟨p, choice, call, actor, rfl, hcall, -, -, hset⟩ :=
      account_by_admin hopening hr hm huser huser' (by simp [hactive])
    cases call with
    | suspend actor target =>
        obtain ⟨rfl, -⟩ := hset
        apply serving_of_act hresults hcall (.suspend target walletId) rfl _ hview
        rw [Bank.apply, hsuspend, Option.map_some]
    | reactivate actor target => exact AccountStatus.noConfusion hset.2.2
    | _ => exact hset.elim
  · -- the account was suspended already, so at most the wallet changes
    have hsame : { user with status := .suspended } = user := by rw [← hsuspended]
    rw [hsame, Bank.setWallet_setAccount_self haccount] at hview
    exact froze_serving hopening hr hm hresults hrow htype hview

theorem reinstated_serving {userId : Uuid} {user : User}
    (huser : (State.data w.conf).row (.user userId) = some user) (hrole : user.role ≠ .admin)
    (hstatus : user.status = .suspended)
    (hdata : State.data w'.conf =
      (State.data w.conf).put (.user userId) { user with status := .active }) :
    Serving env w w' m := by
  have haccount : (Data.bank (State.data w.conf)).account userId = some user := huser
  have hview : Data.bank (State.data w'.conf) =
      (Data.bank (State.data w.conf)).setAccount userId { user with status := .active } := by
    rw [hdata, bank_put_user]
  have huser' : (State.data w'.conf).row (.user userId) =
      some { user with status := .active } := by
    rw [hdata, Tables.row_put_self]
  obtain ⟨p, choice, call, actor, rfl, hcall, -, -, hset⟩ :=
    account_by_admin hopening hr hm huser huser' (by simp [hstatus])
  cases call with
  | reactivate actor target =>
      obtain ⟨rfl, -⟩ := hset
      apply serving_of_act hresults hcall (.reinstate target) rfl _ hview
      rw [Bank.apply, Bank.reinstate_eq haccount hrole hstatus, Option.map_some]
  | suspend actor target => exact AccountStatus.noConfusion hset.2.2
  | _ => exact hset.elim

end Restricting

theorem registered_fits (hidle : ∀ p, shared.db.tx p = none)
    (hr : Run (kori env) (World.idle shared) past w)
    (hm : w.move (kori env) (.step p choice) = some w') {call : Call}
    (hcall : w.conf.calls p = some call) (hsign : call.SignIn) {id walletId : Uuid} {user : User}
    (hrow : (State.data w'.conf).row (.user id) = some user)
    (hnew : (State.data w.conf).row (.user id) = none) :
    Bank.Fits env call (.openAccount id user walletId) := by
  obtain ⟨e, before, hwrites, hasks, hsuffix⟩ :=
    run_changed hidle hr hm hrow (by simp [hnew]) hcall
  have hphone : ∀ dto, RegisterAsks env dto before e.op →
      phoneOf env dto.phone = some user.phone := by
    intro dto hregister
    generalize hop : e.op = op at hregister
    cases hwrites with
    | update =>
        subst op
        cases hregister with
        | free hfree => exact hfree.elim
        | provision _ hprovision => cases hprovision
    | insert =>
        subst op
        cases hregister with
        | free hfree => exact hfree.elim
        | provision hconsumed hprovision =>
            cases hprovision with
            | user _ hphone _ _ => exact hphone ▸ hconsumed.1
            | other _ huser _ => exact absurd rfl (huser id)
  cases call with
  | register dto => exact hphone dto hasks
  | registerBusiness dto => exact hphone dto hasks
  | login dto => simpa [Call.Touches] using asks_touches hasks hwrites.writesRow
  | _ => exact hsign.elim

theorem transferred_serving {order : TransferOrder} {id : Uuid} {r : Transaction}
    {sender receiver system : Wallet}
    (hpost : Posting env w.conf p order id r sender receiver system)
    (hdata : State.data w'.conf = order.post id r sender receiver system (State.data w.conf))
    (hout : w'.conf.out = w.conf.out ++ [(p, .transferred (order.response r
      (sender.plus (-order.total)) (receiver.plus order.amount)))]) :
    Serving env w w' (.step p choice) := by
  obtain ⟨request, hcall, -⟩ := hpost.request
  have hfits : Bank.Fits env (.transfer request) (.transfer request id r.trxId r.createdAt) := rfl
  have happly : (Bank.object env).apply (.transfer request id r.trxId r.createdAt)
      ((bankService env).view w.conf.shared) = some ((bankService env).view w'.conf.shared,
        some (order.response r (sender.plus (-order.total)) (receiver.plus order.amount))) := by
    change (Data.bank (State.data w.conf)).transfer env request id r.trxId r.createdAt =
      some (Data.bank (State.data w'.conf), _)
    rw [hpost.bank_transfer hcall, hdata]
  apply Service.Serves.acts hcall hfits happly
  simp [Service.results, hout, bankService]

theorem silent_serving (hopening : Opening env shared)
    (hr : Reachable (kori env) (World.idle shared) w)
    (hm : w.move (kori env) (.step p choice) = some w') {replies : List Reply}
    (heffect : Effect env p w.conf (State.data w'.conf) replies)
    (hsilent : ∀ response, .transferred response ∉ replies)
    (hresults : (bankService env).results w'.conf = (bankService env).results w.conf) :
    Serving env w w' (.step p choice) := by
  have hquiet : Data.bank (State.data w'.conf) = Data.bank (State.data w.conf) →
      Serving env w w' (.step p choice) := fun hview => .quiet hview hresults
  generalize hdata : State.data w'.conf = t at heffect
  cases heffect with
  | none _ => exact hquiet (congrArg Data.bank hdata)
  | replayed _ _ => exact hquiet (congrArg Data.bank hdata)
  | transferred _ => exact absurd (List.mem_singleton_self _) (hsilent _)
  | froze hrow htype _ =>
      apply froze_serving hopening hr hm hresults hrow htype
      rw [hdata, bank_put_wallet]
  | activated hrow htype hinactive howner _ =>
      exact activated_serving hopening hr hm hresults hrow htype hinactive howner hdata
  | suspended huser hrole hstatus hrow howner htype _ _ _ =>
      exact suspended_serving hopening hr hm hresults huser hrole hstatus hrow howner htype hdata
  | reactivated huser hrole hstatus _ =>
      exact reinstated_serving hopening hr hm hresults huser hrole hstatus hdata
  | @device userId deviceId _ _ _ _ _ =>
      apply hquiet
      rw [hdata, bank_put_hidden (k := .device userId deviceId) trivial]
  | @enrolledNew userId deviceId device _ _ _ _ _ _ =>
      apply hquiet
      rw [hdata, bank_put_hidden (k := .deviceById device.id) trivial,
        bank_put_hidden (k := .device userId deviceId) trivial]
  | @registered id user walletId _ _ _ _ _ _ hnew hclaim =>
      obtain ⟨past, hrun⟩ := Reachable.run hr
      obtain ⟨call, hcall, hsign⟩ := hnew.call
      have hrow : (State.data w'.conf).row (.user id) = some user := by
        rw [hdata]
        simp [Data.addAccount]
      have hfits : Bank.Fits env call (.openAccount id user walletId) :=
        registered_fits hopening.idle hrun hm hcall hsign hrow hnew.newUser
      apply serving_of_act hresults hcall _ hfits _ (congrArg Data.bank hdata)
      rw [Bank.apply, hnew.bank_openAccount hclaim, Option.map_some]
  | @approved id approval _ _ _ _ =>
      apply hquiet
      rw [hdata, bank_put_hidden (k := .approvalByPhone approval.phone) trivial,
        bank_put_hidden (k := .approval id) trivial]
  | @renewed id _ _ _ _ _ _ _ _ =>
      apply hquiet
      rw [hdata, bank_put_hidden (k := .approval id) trivial]

/-- Every move leaves the bank as it is, or is one action of the bank. -/
theorem bank_served (hopening : Opening env shared)
    (hr : Reachable (kori env) (World.idle shared) w) (hm : w.move (kori env) m = some w') :
    Serving env w w' m := by
  have hlink := ((contract env).sound_move ((contract env).sound hopening.sound hr) hm).1
  rcases link_cases hlink with ⟨p, hmover, hguar⟩ | hstill
  · obtain ⟨replies, hout, heffect⟩ := hguar.effect
    by_cases hstep : ∃ q choice, m = .step q choice
    · obtain ⟨q, choice, rfl⟩ := hstep
      obtain rfl : q = p := Option.some.inj hmover
      obtain ⟨order, id, r, sender, receiver, system, hpost, hdata, rfl⟩ | ⟨-, hsilent⟩ :=
        heffect.transfer_or
      · exact transferred_serving hpost hdata hout
      · exact silent_serving hopening hr hm heffect hsilent (results_of_silent hout hsilent)
    · have hdata := data_of_other hm fun q choice heq => hstep ⟨q, choice, heq⟩
      apply Service.Serves.quiet (congrArg Data.bank hdata)
      obtain ⟨order, id, r, sender, receiver, system, hpost, hposted, rfl⟩ | ⟨-, hsilent⟩ :=
        heffect.transfer_or
      · -- a transfer would have left a new row
        have hrow := order.post_transaction id id r sender receiver system (State.data w.conf)
        rw [← hposted, hdata, hpost.newId] at hrow
        simp at hrow
      · exact results_of_silent hout hsilent
  · apply Service.Serves.quiet (congrArg Data.bank hstill.data)
    simp [Service.results, hstill.out]

end Steps

theorem mem_results {env : Env} {c : State} {p : Pid} {response : TransactionResultResponse} :
    (p, response) ∈ (bankService env).results c ↔ (p, .transferred response) ∈ c.out := by
  unfold Service.results
  rw [List.mem_filterMap]
  constructor
  · rintro ⟨⟨q, reply⟩, hmem, heq⟩
    cases reply with
    | transferred response' =>
        obtain ⟨rfl, rfl⟩ := Prod.mk.inj (Option.some.inj heq)
        exact hmem
    | _ => simp [bankService] at heq
  · exact fun hmem => ⟨_, hmem, rfl⟩

/-- However the requests interleave, the bank goes from any state of a run to any later one
by whole actions, one after the other.  Each of them is what a request stands for that was
not over at the beginning, and the reports of the transfers are the answers of the server.
So a transfer that is answered in another way has done nothing, as a `COMMIT` that takes
effect is acknowledged. -/
theorem service_serial {env : Env} {shared : Shared} {w w' : KoriWorld}
    (hopening : Opening env shared) (hr : Reachable (kori env) (World.idle shared) w)
    (hr' : Reachable (kori env) w w') :
    ∃ acts : List (Pid × Bank.Act),
      (∃ reports, (Bank.object env).run acts (Data.bank (State.data w.conf)) =
          some (Data.bank (State.data w'.conf), reports) ∧
        (bankService env).results w'.conf = (bankService env).results w.conf ++ reports) ∧
      (∀ p act, (p, act) ∈ acts → ∃ call, w'.conf.calls p = some call ∧
        Bank.Fits env call act ∧ ¬w.Over p) ∧
      ∀ p request id trxId createdAt, (p, .transfer request id trxId createdAt) ∈ acts →
        ∃ response, w'.conf.said p = [.transferred response] := by
  have hserves : ∀ w m w', Reachable (kori env) (World.idle shared) w →
      w.move (kori env) m = some w' → (bankService env).Serves (Bank.object env) w w' m :=
    fun _ _ _ hr hm => bank_served hopening hr hm
  obtain ⟨acts, hserial⟩ := Service.serial_of_serves hserves hr hr'
  refine ⟨acts, hserial.outcome, hserial.called, ?_⟩
  intro p request id trxId createdAt hmem
  obtain ⟨reports, hrun, hresults⟩ := hserial.outcome
  obtain ⟨response, hreported⟩ := SerialObject.reported_of_mem hrun hmem
    fun _ _ _ happly => Bank.transfer_reports happly
  have hsaid : Reply.transferred response ∈ w'.conf.said p := by
    have hmem : (p, response) ∈ (bankService env).results w'.conf := by
      rw [hresults]
      exact List.mem_append_right _ hreported
    exact Conf.mem_said.2 (mem_results.1 hmem)
  -- every request is answered once
  obtain ⟨honce, -⟩ := (hr.trans hr').answered handle_replies p
  refine ⟨response, ?_⟩
  cases hwhole : w'.conf.said p with
  | nil => simp [hwhole] at hsaid
  | cons reply rest =>
      rw [hwhole, List.length_cons] at honce
      obtain rfl : rest = [] := List.length_eq_zero_iff.1 (by omega)
      rw [hwhole, List.mem_singleton] at hsaid
      rw [hsaid]

theorem service_serial_of_transfer : ∃ (w : KoriWorld) (acts : List (Pid × Bank.Act))
    (reports : List (Pid × TransactionResultResponse)),
    Reachable (kori Sample.env) (World.idle Sample.shared) w ∧
      (Bank.object Sample.env).run acts (Data.bank Sample.shared.db.committed) =
        some (Data.bank (State.data w.conf), reports) ∧ reports ≠ [] := by
  obtain ⟨w, hr, hdone⟩ := Sample.reaches
    (Sample.transferMoves 0 (Sample.transferRequest 1 "2" "600")
      (Sample.transferChoices 55 11 12))
    (fun w => (bankService Sample.env).results w.conf ≠ []) (by decide +kernel)
  obtain ⟨acts, ⟨reports, hrun, hresults⟩, -⟩ := service_serial Sample.opening .refl hr
  refine ⟨w, acts, reports, hr, hrun, ?_⟩
  have hsome := of_decide_eq_true hdone
  rw [hresults] at hsome
  simpa [Service.results, World.idle] using hsome

end Kori
