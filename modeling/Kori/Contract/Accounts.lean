import Kori.Contract.Requests

/-!
# Wallets and accounts keep the contract

Freezing and activating wallets, suspending and reactivating accounts.
-/

namespace Kori

open Foundation Code

variable {env : Env} {p : Pid} {c c' : State}

theorem getWalletById_only {P : Op → Prop} [Harmless P] (walletId : Uuid) :
    (getWalletById walletId).Only P := by
  refine ((select_only _).tryCatch fun _ => only_throw _).bind fun snapshot => ?_
  split <;> trivial

theorem assertManageableWallet_only {P : Op → Prop} [Harmless P] (walletId : Uuid) :
    (assertManageableWallet walletId).Only P := by
  refine (select_only _).bind fun snapshot => ?_
  split
  · trivial
  · split
    · trivial
    · split <;> trivial

/-! ## Wallets -/

theorem deactiveWallet_settles {walletId : Uuid} (hs : (terms env .open).Silent p c c')
    (hidle : Idle p c') :
    Answers env .open p (deactiveWallet walletId) (fun _ => (terms env .open).Silent p)
      (fun _ => (terms env .open).Silent p) c c' := by
  refine settles_only_bind (assertManageableWallet_only _) hs hidle.called ?_
    fun _ _ _ hs _ => hs
  intro _ c₁ c₂ hs₂ hr₂
  have hidle₂ := hidle.rely hr₂
  refine settles_bind.2 (Settles.imp (settles_updateRow (X := fun _ => True)
    (P := fun _ c₁ c₂ => (terms env .open).Silent p c₁ c₂ ∧ Called p c₂)
    (T := fun _ => (terms env .open).Silent p) hs₂ hidle₂ (fun _ => trivial) ?_ ?_
    fun _ _ _ _ hs _ => hs) ?_ fun _ _ _ h => h)
  · exact fun c₃ c₄ hr₄ hs₄ _ _ => ⟨hs₄, hidle₂.called.rely hr₄⟩
  · intro c₃ w hfree hr₃ _ _ hrow hmanageable
    simp only [manageable, decide_eq_true_eq] at hmanageable
    have hidle₃ := hidle₂.rely hr₃
    exact ⟨(guar_write hidle₃ hfree (.froze hrow hmanageable.2.2 (by simp))).silently,
      hidle₃.called⟩
  · intro count c₃ c₄ h
    refine settles_only_bind (only_throwIf _ _) h.1 h.2 ?_ fun _ _ _ hs _ => hs
    intro _ c₅ c₆ hs₆ hr₆
    exact (settles_only (getWalletById_only _) hs₆ (h.2.rely hr₆)).imp
      (fun _ _ _ h => h.1) fun _ _ _ h => h.1

theorem Data.ownerActive_overlay {own base : Data} {w : Wallet}
    (h : ∀ u, own.row (.user u) = none) :
    Data.ownerActive (own.overlay base) w = base.ownerActive w := by
  unfold Data.ownerActive Data.accountActive
  cases w.userId with
  | none => rfl
  | some u => simp [Tables.row_overlay_of_none (h u)]

theorem activateFrozen_works {walletId : Uuid} (hcall : Called p c)
    (htx : c.shared.db.tx p = some .empty) :
    Works env .open p (activateFrozen walletId)
      (fun _ c₁ => ∃ w, Holds p (.wallet walletId) (some w) c₁ ∧ manageable false w = true ∧
        c₁.data.ownerActive w = true ∧ c₁.shared.db.tx p =
          some (Tables.put .empty (.wallet walletId) { w with isActive := true }))
      (fun _ => True) c := by
  refine Leads.bind (R := fun n c₁ => n = 1 → ∃ w, Holds p (.wallet walletId) (some w) c₁ ∧
    manageable false w = true ∧ c₁.shared.db.tx p =
      some (Tables.put .empty (.wallet walletId) { w with isActive := true }))
    (works_updateRow hcall htx (by simp) (fun _ => trivial) ?_ ?_ ?_) ?_
  · intro c₁ w _ _ hp hrow _
    refine hp.put_wallet ?_
    intro w' hw' hlt
    rw [hrow, Option.some.injEq] at hw'
    subst w'
    exact absurd hlt (lt_irrefl _)
  · exact fun _ _ _ h => absurd h (by decide)
  · exact fun c₁ w _ htx₁ hholds hcond _ => ⟨w, hholds, hcond, htx₁⟩
  · intro count c₁ hw₁ hcount
    refine leads_throwIf_bind (fun _ => trivial) fun hone => ?_
    obtain ⟨w, hholds, hmanageable, htx₁⟩ := hcount (by simpa using hone)
    refine Leads.bind (R := fun snapshot c₂ =>
      c₂.shared.db.tx p =
        some (Tables.put .empty (.wallet walletId) { w with isActive := true }) ∧
      Holds p (.wallet walletId) (some w) c₂ ∧
      snapshot = (Tables.put .empty (.wallet walletId)
        { w with isActive := true }).overlay (State.data c₂))
      (Reads.works (reads_select (hcall.within hw₁) (fun _ => trivial) ?_)) ?_
    · intro c₂ hr₂ _ _ _
      have htx₂ := hr₂.tx.trans htx₁
      exact ⟨htx₂, hholds.within hr₂.within, Store.view_of_open htx₂⟩
    · rintro snapshot c₂ hw₂ ⟨htx₂, hholds₂, rfl⟩
      refine leads_throwIf (fun _ => trivial) fun h => ⟨w, hholds₂, hmanageable, ?_, htx₂⟩
      rw [Tables.row_overlay_of_some (Tables.row_put_self ..), Option.filter_some] at h
      split at h
      · rename_i howner
        rw [Data.ownerActive_overlay (by simp)] at howner
        exact howner
      · exact absurd rfl h

theorem activeWallet_settles {walletId : Uuid} (hs : (terms env .open).Silent p c c')
    (hidle : Idle p c') :
    Answers env .open p (activeWallet walletId) (fun _ => (terms env .open).Silent p)
      (fun _ => (terms env .open).Silent p) c c' := by
  refine settles_only_bind (assertManageableWallet_only _) hs hidle.called ?_
    fun _ _ _ hs _ => hs
  intro _ c₁ c₂ hs₂ hr₂
  have hidle₂ := hidle.rely hr₂
  refine settles_bind.2 (Settles.imp (settles_transaction (X := fun _ => True)
    (P := fun _ c₁ c₂ => (terms env .open).Silent p c₁ c₂ ∧ Called p c₂)
    (T := fun _ => (terms env .open).Silent p) hs₂ hidle₂ (fun _ => trivial)
    (fun c₃ hw₃ htx₃ => activateFrozen_works (hidle₂.called.within hw₃) htx₃) ?_
    fun _ _ _ hs _ _ => hs) ?_ fun _ _ _ h => h)
  · rintro _ c₃ c₄ hw₃ ⟨w, hholds, hmanageable, howner, htx₃⟩ hr₄ _ _ hended
    simp only [manageable, decide_eq_true_eq] at hmanageable
    have hcall₄ := (hidle₂.called.within hw₃).rely hr₄
    refine ⟨Guar.silently (guar_publish hcall₄ (Store.commit_frame _ _) hended.tx ?_), hcall₄⟩
    have hview : (c₄.shared.db.commit p).committed =
        c₄.data.put (.wallet walletId) { w with isActive := true } := by
      change c₄.shared.db.view p = _
      rw [Store.view_of_open (hr₄.tx.trans htx₃)]
      simp [State.data]
    rw [hview]
    exact .activated (hholds.within hr₄.within).row hmanageable.2.2 hmanageable.1
      (hr₄.within.ownerActive hholds.lock hholds.row howner) (by simp)
  · intro _ c₃ c₄ h
    exact (settles_only (getWalletById_only _) h.1 h.2).imp (fun _ _ _ h => h.1)
      fun _ _ _ h => h.1

/-! ## Accounts -/

theorem devicesOf_nodup (t : Data) (userId : Uuid) : (Data.devicesOf t userId).Nodup := by
  refine t.rows.keys_nodup.filterMap ?_
  rintro (_ | _ | _ | _ | _ | _ | _ | ⟨u₁, d₁⟩ | _ | _ | _)
    (_ | _ | _ | _ | _ | _ | _ | ⟨u₂, d₂⟩ | _ | _ | _) d h₁ h₂ <;> simp_all

theorem clearSession_works {userId : Uuid} {d : JsString} {own : Data}
    (hcall : Called p c) (htx : c.shared.db.tx p = some own)
    (hfresh : own.row (.device userId d) = none) :
    Works env .open p (do
      let _ ← sql (.update (.device userId d) fun device => .ok (some device.clearSession)))
      (fun _ c₁ => c₁.shared.db.tx p = some own ∨
        ∃ device, Holds p (.device userId d) (some device) c₁ ∧
          c₁.shared.db.tx p = some (own.put (.device userId d) device.clearSession))
      (fun _ => True) c := by
  refine Leads.bind (R := fun _ c₁ => c₁.shared.db.tx p = some own ∨
    ∃ device, Holds p (.device userId d) (some device) c₁ ∧
      c₁.shared.db.tx p = some (own.put (.device userId d) device.clearSession))
    (works_update hcall htx hfresh (fun _ => trivial) (by simp) ?_ ?_ ?_)
    fun _ _ _ h => leads_pure h
  · exact fun _ _ htx₁ _ => .inl htx₁
  · exact fun _ _ _ _ _ hp _ _ => hp.put_other (by simp) (by simp)
  · intro c₁ device _ _ htx₁ hholds hchange
    simp only [Except.ok.injEq, Option.some.injEq] at hchange
    subst hchange
    exact .inr ⟨device, hholds, htx₁⟩

theorem clearSessions_works {userId : Uuid} {own : Data} (hcall : Called p c)
    (htx : c.shared.db.tx p = some own)
    (hfresh : ∀ d, own.row (.device userId d) = none) :
    Works env .open p (clearSessions userId)
      (fun _ c₁ => ∃ devices, c₁.shared.db.tx p = some (clearDevices userId devices own) ∧
        ∀ entry ∈ devices, Holds p (.device userId entry.1) (some entry.2) c₁)
      (fun _ => True) c := by
  refine Leads.bind (works_only (select_only _) hcall htx) fun snapshot c₁ hw₁ htx₁ => ?_
  have hcall₁ := hcall.within hw₁
  have hq : (Op.arrange ((Data.devicesOf snapshot userId).map (.device userId))).Quiet :=
    trivial
  refine Leads.bind (R := fun keys c₂ => (keys.Nodup ∧
      ∀ k ∈ keys, ∃ d, k = .device userId d) ∧ c₂.shared.db.tx p = some own)
    ((reads_ask hq hcall₁ ?_).inside htx₁) ?_
  · intro c₂ _ _ _ choice keys s _ hexec
    cases choice <;> simp only [Shared.exec, reduceCtorEq] at hexec
    split at hexec
    · rename_i hperm
      simp only [Option.some.injEq, Prod.mk.injEq] at hexec
      obtain ⟨rfl, -⟩ := hexec
      refine ⟨hperm.nodup_iff.2 ((devicesOf_nodup _ _).map fun _ _ h => by simpa using h), ?_⟩
      intro k hk
      obtain ⟨d, -, rfl⟩ := List.mem_map.1 (hperm.mem_iff.1 hk)
      exact ⟨d, rfl⟩
    · simp at hexec
  · rintro keys c₂ hw₂ ⟨⟨hnodup, hkeys⟩, htx₂⟩
    have hcall₂ := hcall₁.within hw₂
    -- the devices done so far, and the ones still to do
    refine (leads_forEach (K := fun rest c₃ => ∃ devices,
      c₃.shared.db.tx p = some (clearDevices userId devices own) ∧
      (∀ entry ∈ devices, Holds p (.device userId entry.1) (some entry.2) c₃) ∧
      rest.Nodup ∧ ∀ k ∈ rest, ∃ d, k = .device userId d ∧ d ∉ devices.map Prod.fst)
      ?_ ⟨[], htx₂, by simp, hnodup, by simpa using hkeys⟩).imp ?_ fun _ _ _ h => h
    · rintro k rest c₃ hw₃ ⟨devices, htx₃, hholds, hnodup, hrest⟩
      obtain ⟨d, rfl, hd⟩ := hrest k (List.mem_cons_self ..)
      obtain ⟨hnotMem, hnodup'⟩ := List.nodup_cons.1 hnodup
      have hfresh' : (clearDevices userId devices own).row (.device userId d) = none := by
        rw [clearDevices_row_of_notMem]
        · exact hfresh d
        · intro entry hentry hk
          simp only [Key.device.injEq, true_and] at hk
          exact hd (List.mem_map.2 ⟨entry, hentry, hk.symm⟩)
      refine (clearSession_works (hcall₂.within hw₃) htx₃ hfresh').imp ?_ fun _ _ _ h => h
      rintro _ c₄ hw₄ (htx₄ | ⟨device, hdevice, htx₄⟩)
      · exact ⟨devices, htx₄, fun e he => (hholds e he).within hw₄, hnodup',
          fun k' hk' => hrest k' (List.mem_cons_of_mem _ hk')⟩
      · refine ⟨devices ++ [(d, device)], ?_, ?_, hnodup', ?_⟩
        · simpa [clearDevices, List.foldl_append] using htx₄
        · intro entry hentry
          obtain hentry | hentry := List.mem_append.1 hentry
          · exact (hholds entry hentry).within hw₄
          · obtain rfl := List.mem_singleton.1 hentry
            exact hdevice
        · intro k' hk'
          obtain ⟨d', rfl, hd'⟩ := hrest k' (List.mem_cons_of_mem _ hk')
          refine ⟨d', rfl, ?_⟩
          have hne : d' ≠ d := by
            rintro rfl
            exact hnotMem hk'
          simpa [hne] using hd'
    · rintro _ c₃ _ ⟨devices, htx₃, hholds, -⟩
      exact ⟨devices, htx₃, hholds⟩

theorem findSuspendable_only {P : Op → Prop} {userId : Uuid}
    (huser : P (.sql (.select (.user userId))))
    (hwallet : P (.sql (.select (.walletByUser userId)))) : (findSuspendable userId).Only P := by
  refine Only.bind (sql_only huser) fun accounts => ?_
  dsimp only
  split
  · trivial
  · refine Only.bind (sql_only hwallet) fun wallets => ?_
    split <;> trivial

def Data.restricted (userId walletId : Uuid) (user : User) (w : Wallet) (t : Data) : Data :=
  (t.put (.wallet walletId) { w with isActive := false }).put (.user userId)
    { user with status := .suspended }

theorem restrictAccount_works {userId : Uuid} (hcall : Called p c)
    (htx : c.shared.db.tx p = some .empty) :
    Works env .open p (restrictAccount userId)
      (fun _ c₁ => ∃ walletId w user devices,
        Holds p (.wallet walletId) (some w) c₁ ∧ Holds p (.user userId) (some user) c₁ ∧
        (∀ entry ∈ devices, Holds p (.device userId entry.1) (some entry.2) c₁) ∧
        (w.userId = some userId ∧ w.type ≠ .system) ∧
        (user.role ≠ .admin ∧ (user.status = .active ∨ user.status = .suspended)) ∧
        c₁.shared.db.tx p = some (clearDevices userId devices
          (Data.restricted userId walletId user w .empty)))
      (fun _ => True) c := by
  refine Leads.bind (works_only (findSuspendable_only (by trivial) (by trivial)) hcall htx)
    fun walletId c₁ hw₁ htx₁ => ?_
  have hcall₁ := hcall.within hw₁
  refine Leads.bind (R := fun n c₂ => n = 1 → ∃ w, Holds p (.wallet walletId) (some w) c₂ ∧
    (w.userId = some userId ∧ w.type ≠ .system) ∧ c₂.shared.db.tx p =
      some (Tables.put .empty (.wallet walletId) { w with isActive := false }))
    (works_updateRow hcall₁ htx₁ (by simp) (fun _ => trivial) ?_ ?_ ?_) ?_
  · intro c₂ w _ _ hp hrow _
    refine hp.put_wallet ?_
    intro w' hw' hlt
    rw [hrow, Option.some.injEq] at hw'
    subst w'
    exact absurd hlt (lt_irrefl _)
  · exact fun _ _ _ h => absurd h (by decide)
  · exact fun c₂ w _ htx₂ hholds hcond _ => ⟨w, hholds, by simpa using hcond, htx₂⟩
  intro frozen c₂ hw₂ hfrozen
  refine leads_throwIf_bind (fun _ => trivial) fun hone => ?_
  obtain ⟨w, hwallet, howner, htx₂⟩ := hfrozen (by simpa using hone)
  have hcall₂ := hcall₁.within hw₂
  refine Leads.bind (R := fun n c₃ => n = 1 → ∃ user, Holds p (.user userId) (some user) c₃ ∧
    (user.role ≠ .admin ∧ (user.status = .active ∨ user.status = .suspended)) ∧
    c₃.shared.db.tx p = some (Data.restricted userId walletId user w .empty))
    (works_updateRow hcall₂ htx₂ (by simp) (fun _ => trivial) ?_ ?_ ?_) ?_
  · exact fun _ _ _ _ hp _ _ => hp.put_other (by simp) (by simp)
  · exact fun _ _ _ h => absurd h (by decide)
  · exact fun c₃ user _ htx₃ hholds hcond _ => ⟨user, hholds, by simpa using hcond, htx₃⟩
  intro restricted c₃ hw₃ hrestricted
  refine leads_throwIf_bind (fun _ => trivial) fun hone => ?_
  obtain ⟨user, huser, hstatus, htx₃⟩ := hrestricted (by simpa using hone)
  refine (clearSessions_works (hcall₂.within hw₃) htx₃
    (by simp [Data.restricted])).imp ?_ fun _ _ _ h => h
  rintro _ c₄ hw₄ ⟨devices, htx₄, hdevices⟩
  exact ⟨walletId, w, user, devices, (hwallet.within hw₃).within hw₄, huser.within hw₄,
    hdevices, howner, hstatus, htx₄⟩

theorem suspend_settles {userId : Uuid} (hs : (terms env .open).Silent p c c')
    (hidle : Idle p c') :
    Answers env .open p (suspend userId) (fun _ => (terms env .open).Silent p)
      (fun _ => (terms env .open).Silent p) c c' := by
  refine settles_transaction (X := fun _ => True) hs hidle (fun _ => trivial)
    (fun c₁ hw₁ htx₁ => restrictAccount_works (hidle.called.within hw₁) htx₁) ?_
    fun _ _ _ hs _ _ => hs
  rintro _ c₁ c₂ hw₁ ⟨walletId, w, user, devices, hwallet, huser, hdevices, howner, hstatus,
    htx₁⟩ hr₂ _ _ hended
  have hw₂ := hr₂.within
  refine Guar.silently (guar_publish ((hidle.called.within hw₁).rely hr₂)
    (Store.commit_frame _ _) hended.tx ?_)
  have hview : (c₂.shared.db.commit p).committed =
      clearDevices userId devices (Data.restricted userId walletId user w c₂.data) := by
    change c₂.shared.db.view p = _
    rw [Store.view_of_open (hr₂.tx.trans htx₁), clearDevices_overlay]
    simp [Data.restricted, State.data]
  rw [hview]
  exact .suspended (huser.within hw₂).row hstatus.1 hstatus.2 (hwallet.within hw₂).row
    howner.1 howner.2 (hwallet.within hw₂).lock
    (fun entry hentry => ((hdevices entry hentry).within hw₂).row) (by simp)

theorem reactivate_settles {targetUserId : Uuid} (hs : (terms env .open).Silent p c c')
    (hidle : Idle p c') :
    Answers env .open p (reactivate targetUserId) (fun _ => (terms env .open).Silent p)
      (fun _ => (terms env .open).Silent p) c c' := by
  refine settles_bind.2 (Settles.imp (settles_updateRow (X := fun _ => True)
    (P := fun _ c₁ c₂ => (terms env .open).Silent p c₁ c₂ ∧ Called p c₂)
    (T := fun _ => (terms env .open).Silent p) hs hidle (fun _ => trivial) ?_ ?_
    fun _ _ _ _ hs _ => hs) ?_ fun _ _ _ h => h)
  · exact fun c₃ c₄ hr₄ hs₄ _ _ => ⟨hs₄, hidle.called.rely hr₄⟩
  · intro c₃ user hfree hr₃ _ _ hrow hcond
    simp only [decide_eq_true_eq] at hcond
    have hidle₃ := hidle.rely hr₃
    exact ⟨(guar_write hidle₃ hfree (.reactivated hrow hcond.1 hcond.2 (by simp))).silently,
      hidle₃.called⟩
  · intro updated c₃ c₄ h
    split
    · exact h.1
    · refine (settles_only ?_ h.1 h.2).imp (fun _ _ _ h => h.1) fun _ _ _ h => h.1
      refine (select_only _).bind fun accounts => ?_
      split <;> trivial

end Kori
