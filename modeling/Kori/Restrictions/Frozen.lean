import Kori.Conduct.Footprint

/-!
# Suspended accounts have frozen wallets

The status of an account and the activity of its wallet are in two tables.  Every
effect of a request keeps them in step, whatever the order in which suspensions,
activations and transfers commit.
-/

namespace Kori

open Foundation

section Effects

variable {env : Env} {shared : Shared} {p q : Pid} {c : State} {t : Data}
variable {replies : List Reply} {u : Uuid}

def Data.Suspended (t : Data) (u : Uuid) : Prop :=
  ∃ user, t.row (.user u) = some user ∧ user.status = .suspended

def Data.OwnsFrozen (t : Data) (u : Uuid) : Prop :=
  ∃ id w, t.row (.wallet id) = some w ∧ w.userId = some u ∧ w.isActive = false

/-- Every suspended account owns a frozen wallet. -/
def Frozen (t : Data) : Prop := ∀ u, t.Suspended u → t.OwnsFrozen u

theorem Data.Suspended.not_active (h : t.Suspended u) : t.accountActive u = false := by
  obtain ⟨user, hrow, hstatus⟩ := h
  unfold Data.accountActive
  simp [hrow, hstatus]

theorem Data.Suspended.of_row {t' : Data} (h : t'.Suspended u)
    (hrow : t'.row (.user u) = t.row (.user u)) : t.Suspended u := by
  obtain ⟨user, huser, hstatus⟩ := h
  exact ⟨user, hrow ▸ huser, hstatus⟩

theorem Effect.suspended_cases (h : Effect env p c t replies) (hu : t.Suspended u) :
    c.data.Suspended u ∨ t.OwnsFrozen u := by
  cases h with
  | none _ => exact .inl hu
  | replayed _ _ => exact .inl hu
  | transferred hpost =>
      exact .inl (hu.of_row (TransferOrder.post_row (by simp) (by simp) (by simp) (by simp)))
  | froze _ _ _ => exact .inl (hu.of_row (by simp))
  | activated _ _ _ _ _ => exact .inl (hu.of_row (by simp))
  | @suspended userId user walletId w devices _ huser _ _ hwallet howner _ _ _ _ =>
      by_cases hne : u = userId
      · subst userId
        refine .inr ⟨walletId, { w with isActive := false }, ?_, howner, rfl⟩
        rw [clearDevices_row (by simp), Tables.row_put_of_ne (by simp), Tables.row_put_self]
      · refine .inl (hu.of_row ?_)
        rw [clearDevices_row (by simp), Tables.row_put_of_ne (by simpa using hne),
          Tables.row_put_of_ne (by simp)]
  | @reactivated userId user _ huser _ _ _ =>
      by_cases hne : u = userId
      · subst userId
        obtain ⟨user', hrow, hstatus⟩ := hu
        rw [Tables.row_put_self, Option.some.injEq] at hrow
        subst user'
        simp at hstatus
      · exact .inl (hu.of_row (Tables.row_put_of_ne (by simpa using hne) ..))
  | device _ _ => exact .inl (hu.of_row (by simp))
  | enrolledNew _ _ _ _ _ => exact .inl (hu.of_row (by simp))
  | @registered id user walletId type deviceId device sid jti t hnew hclaim =>
      by_cases hne : u = id
      · subst id
        obtain ⟨user', hrow, hstatus⟩ := hu
        obtain rfl : user = user' := by simpa [Data.addAccount] using hrow
        simp [hnew.status] at hstatus
      · refine .inl (hu.of_row ?_)
        rw [Data.addAccount_row (by simpa using hne) (by simp) (by simp) (by simp) (by simp)
          (by simp), hclaim.row (by simp)]
  | approved _ _ _ => exact .inl (hu.of_row (by simp))
  | renewed _ _ _ => exact .inl (hu.of_row (by simp))

theorem TransferOrder.post_wallet {order : TransferOrder} {id id' : Uuid} {r : Transaction}
    {sender receiver system : Wallet} (hs : id' ≠ order.senderWalletId)
    (hr : id' ≠ order.receiverWalletId) (hsys : id' ≠ order.systemWalletId) :
    (order.post id r sender receiver system t).row (.wallet id') = t.row (.wallet id') := by
  unfold TransferOrder.post TransferOrder.postFee TransferOrder.postCredit
    TransferOrder.postDebit TransferOrder.postRecord
  split <;> simp [Tables.row_put_of_ne, hs, hr, hsys]

theorem Posting.frozen {order : TransferOrder} {id id' : Uuid} {r : Transaction}
    {sender receiver system w : Wallet}
    (h : Posting env c p order id r sender receiver system)
    (hrow : c.data.row (.wallet id') = some w) (hfrozen : w.isActive = false) :
    (order.post id r sender receiver system c.data).row (.wallet id') = some w := by
  have hne : ∀ {id₀ : Uuid} {w₀ : Wallet}, c.data.row (.wallet id₀) = some w₀ →
      w₀.isActive = true → id' ≠ id₀ := by
    rintro id₀ w₀ hrow₀ hactive rfl
    obtain rfl := Option.some.inj (hrow.symm.trans hrow₀)
    simp [hfrozen] at hactive
  rw [TransferOrder.post_wallet (hne h.senderRow h.senderActive)
    (hne h.receiverRow h.receiverActive) (hne h.systemRow h.systemActive)]
  exact hrow

theorem Effect.owns_frozen (h : Effect env p c t replies) (hu : c.data.Suspended u)
    (hfrozen : c.data.OwnsFrozen u) : t.OwnsFrozen u := by
  obtain ⟨id, w, hrow, howner, hinactive⟩ := hfrozen
  cases h with
  | none _ => exact ⟨id, w, hrow, howner, hinactive⟩
  | replayed _ _ => exact ⟨id, w, hrow, howner, hinactive⟩
  | transferred hpost => exact ⟨id, w, hpost.frozen hrow hinactive, howner, hinactive⟩
  | @froze id' w' _ hrow' _ _ =>
      by_cases hid : id = id'
      · subst id'
        obtain rfl := Option.some.inj (hrow.symm.trans hrow')
        exact ⟨id, _, Tables.row_put_self .., howner, rfl⟩
      · exact ⟨id, w, (Tables.row_put_of_ne (by simpa using hid) ..).trans hrow, howner, hinactive⟩
  | @activated id' w' _ hrow' _ _ hactive _ =>
      by_cases hid : id = id'
      · -- an activation needs an owner who is ACTIVE
        subst id'
        obtain rfl := Option.some.inj (hrow.symm.trans hrow')
        obtain ⟨u', hu', hactive'⟩ := Data.ownerActive_iff.1 hactive
        obtain rfl := Option.some.inj (howner.symm.trans hu')
        simp [hu.not_active] at hactive'
      · exact ⟨id, w, (Tables.row_put_of_ne (by simpa using hid) ..).trans hrow, howner, hinactive⟩
  | @suspended userId user walletId w' devices _ _ _ _ hwallet _ _ _ _ _ =>
      by_cases hid : id = walletId
      · subst walletId
        obtain rfl := Option.some.inj (hrow.symm.trans hwallet)
        refine ⟨id, { w with isActive := false }, ?_, howner, rfl⟩
        rw [clearDevices_row (by simp), Tables.row_put_of_ne (by simp), Tables.row_put_self]
      · refine ⟨id, w, ?_, howner, hinactive⟩
        rw [clearDevices_row (by simp), Tables.row_put_of_ne (by simp),
          Tables.row_put_of_ne (by simpa using hid)]
        exact hrow
  | reactivated _ _ _ _ => exact ⟨id, w, by simpa using hrow, howner, hinactive⟩
  | device _ _ => exact ⟨id, w, by simpa using hrow, howner, hinactive⟩
  | enrolledNew _ _ _ _ _ => exact ⟨id, w, by simpa using hrow, howner, hinactive⟩
  | @registered id' user walletId type deviceId device sid jti t hnew hclaim =>
      have hne : Key.wallet id ≠ .wallet walletId := by
        intro heq
        obtain rfl := Key.wallet.inj heq
        exact absurd (hrow.symm.trans hnew.newWallet) (by simp)
      refine ⟨id, w, ?_, howner, hinactive⟩
      rw [Data.addAccount_row (by simp) (by simp) hne (by simp) (by simp) (by simp),
        hclaim.row (by simp)]
      exact hrow
  | approved _ _ _ => exact ⟨id, w, by simpa using hrow, howner, hinactive⟩
  | renewed _ _ _ => exact ⟨id, w, by simpa using hrow, howner, hinactive⟩

theorem Effect.frozen (h : Effect env p c t replies) (hfrozen : Frozen c.data) : Frozen t := by
  intro u hu
  rcases h.suspended_cases hu with hbefore | hnow
  · exact h.owns_frozen hbefore (hfrozen u hbefore)
  · exact hnow

variable {w w' : KoriWorld} {choice : Choice}

theorem reactivate_wallet (hopening : Opening env shared)
    (hr : Reachable (kori env) (World.idle shared) w)
    (hm : w.move (kori env) (.step q choice) = some w') {actor : Option Uuid} {target id : Uuid}
    (hcall : w.conf.calls q = some (.reactivate actor target)) {wallet : Wallet}
    (hrow : (State.data w'.conf).row (.wallet id) = some wallet) :
    (State.data w.conf).row (.wallet id) = some wallet := by
  by_contra hnew
  obtain ⟨past, hrun⟩ := Reachable.run hr
  simpa [Call.Touches] using run_touches hopening.idle hrun hm hrow hnew hcall

/-- Every suspended account has a frozen wallet and no active one, and a reactivation
makes no wallet active. -/
theorem suspended_frozen (hopening : Opening env shared)
    (hfrozen : Frozen shared.db.committed) (hr : Reachable (kori env) (World.idle shared) w) :
    Frozen (State.data w.conf) ∧
      (∀ u id wallet, (State.data w.conf).Suspended u →
        (State.data w.conf).row (.wallet id) = some wallet → wallet.userId = some u →
        wallet.isActive = false) ∧
      ∀ q choice w' actor target id wallet, w.move (kori env) (.step q choice) = some w' →
        w.conf.calls q = some (.reactivate actor target) →
        (State.data w'.conf).row (.wallet id) = some wallet → wallet.isActive = true →
        (State.data w.conf).row (.wallet id) = some wallet := by
  have hnow : Frozen (State.data w.conf) := by
    refine run_preserves (P := fun c => Frozen c.data) hopening.sound hfrozen ?_ ?_ hr
    · intro p c c' hi hg h
      obtain ⟨replies, -, heffect⟩ := hg.effect
      exact heffect.frozen h
    · intro c c' hsame h
      rw [hsame.data]
      exact h
  refine ⟨hnow, ?_, ?_⟩
  · intro u id wallet hu hrow howner
    have hi := (run_inv hopening.sound hr).integrity
    obtain ⟨id', wallet', hrow', howner', hinactive⟩ := hnow u hu
    -- an account owns one wallet
    have hid := (hi.walletByUser hrow howner).symm.trans (hi.walletByUser hrow' howner')
    obtain rfl := Option.some.inj hid
    obtain rfl := Option.some.inj (hrow.symm.trans hrow')
    exact hinactive
  · intro q choice w' actor target id wallet hm hcall hrow _
    exact reactivate_wallet hopening hr hm hcall hrow

end Effects

namespace Sample

def admin : User := ⟨js "9", js "1234", .admin, .active⟩

def staffed : Shared :=
  { shared with db := .quiet ((data.put (.user 9) admin).put (.userByPhone admin.phone) 9) }

theorem staffed_opening : Opening env staffed where
  integrity := by
    refine integrity.insert_user ?_ ?_
    · decide +kernel
    · decide +kernel
  idle := opening.idle
  leases := opening.leases
  minted := opening.minted
  devices := by
    intro userId deviceId device u hrow hused
    have hold : data.row (.device userId deviceId) = some device := by
      simpa [staffed, Store.quiet] using hrow
    exact opening.devices userId deviceId device u hold hused

def suspendMoves (p : Pid) (target : Uuid) (keys : List Key) : List KoriMove :=
  .arrive p (.suspend (some 9) target) :: (List.replicate 9 Choice.go ++ .order keys ::
    List.replicate (keys.length + 1) Choice.go).map (.step p)

def Restricted : Sigma Row → Bool
  | ⟨.user _, user⟩ => user.status ≠ .active
  | _ => false

theorem staffed_frozen : Frozen staffed.db.committed := by
  have hactive : ∀ e ∈ staffed.db.committed.rows.entries, Restricted e = false := by
    decide +kernel
  rintro u ⟨user, hrow, hstatus⟩
  have hnot := hactive _ (AList.mem_lookup_iff.1 hrow)
  simp [Restricted, hstatus] at hnot

end Sample

theorem suspended_frozen_of_suspension : ∃ w,
    Reachable (kori Sample.env) (World.idle Sample.staffed) w ∧
      (State.data w.conf).Suspended 1 ∧ Frozen (State.data w.conf) := by
  have hrun : (((World.idle Sample.staffed).run (kori Sample.env)
      (Sample.suspendMoves 0 1 [.device 1 (js "d")])).any fun w =>
        ((State.data w.conf).row (.user 1)).map User.status = some .suspended) = true := by
    decide +kernel
  obtain ⟨w, hr, hw⟩ := exists_of_run hrun
  obtain ⟨user, hrow, hstatus⟩ := Option.map_eq_some_iff.1 (of_decide_eq_true hw)
  exact ⟨w, hr, ⟨user, hrow, hstatus⟩,
    (suspended_frozen Sample.staffed_opening Sample.staffed_frozen hr).1⟩

end Kori
