import Kori.Verification.Accounts

/-!
# Roles and wallets

A transfer trusts the type and the owner of a wallet and the role of an account
without locking them.  Accounts appear only through a registration, which creates the
wallet in the same database transaction, and none of these columns is ever written again.
-/

namespace Kori

open Foundation

def Role.walletType : Role → Option WalletType
  | .customer => some .personal
  | .agent => some .agent
  | .merchant => some .merchant
  | .admin => none

section Roles

variable {env : Env} {p : Pid} {c c' : State} {t t' : Data} {replies : List Reply}
variable {u : Uuid} {user : User}

/-- The wallet of the account has the currency and the type that go with its role. -/
structure Matched (t : Data) (u : Uuid) (user : User) (walletId : Uuid) : Prop where
  index : t.row (.walletByUser u) = some walletId
  wallet : ∃ w, t.row (.wallet walletId) = some w ∧ w.currency = .bdt ∧
    user.role.walletType = some w.type

theorem Matched.grows {user' : User} {walletId : Uuid} (h : Matched t u user walletId)
    (hg : Grows t t') (hrole : user'.role = user.role) : Matched t' u user' walletId := by
  obtain ⟨w, hrow, hcurrency, htype⟩ := h.wallet
  obtain ⟨w', hrow', -, htype', hcurrency'⟩ := hg.wallet hrow
  constructor
  · exact hg.walletByUser h.index
  · exact ⟨w', hrow', hcurrency'.trans hcurrency, by rw [hrole, htype, htype']⟩

theorem Data.addAccount_matched {walletId : Uuid} {type : WalletType} {deviceId : JsString}
    {device : TrustDevice} (htype : user.role.walletType = some type) :
    Matched (t.addAccount u user walletId type deviceId device) u user walletId := by
  constructor
  · simp [Data.addAccount]
  · exact ⟨⟨some u, type, true, 0, .bdt⟩, by simp [Data.addAccount], rfl, htype⟩

theorem NewAccount.walletType {walletId sid jti : Uuid} {type : WalletType}
    {deviceId : JsString} {device : TrustDevice}
    (h : NewAccount c p u user walletId type deviceId device sid jti) :
    user.role.walletType = some type := by
  have hrole := h.role
  rw [h.type]
  cases hcase : user.role <;> simp_all [Role.walletType]

theorem Effect.new_user (h : Effect env p c t replies) (hold : c.data.row (.user u) = Option.none)
    (hnew : t.row (.user u) = some user) : ∃ walletId, Matched t u user walletId := by
  have hnone : t.row (.user u) = c.data.row (.user u) →
      ∃ walletId, Matched t u user walletId := by
    intro hsame
    rw [hsame, hold] at hnew
    contradiction
  cases h with
  | none _ => exact hnone rfl
  | replayed _ _ => exact hnone rfl
  | transferred hpost =>
      exact hnone (TransferOrder.post_row (by simp) (by simp) (by simp) (by simp))
  | @suspended userId user' walletId w devices _ huser _ _ _ _ _ _ _ _ =>
      apply hnone
      have hne : u ≠ userId := by
        rintro rfl
        simp [hold] at huser
      rw [clearDevices_row (by simp), Tables.row_put_of_ne (by simpa using hne),
        Tables.row_put_of_ne (by simp)]
  | @reactivated userId user' _ huser _ _ _ =>
      apply hnone
      have hne : u ≠ userId := by
        rintro rfl
        simp [hold] at huser
      exact Tables.row_put_of_ne (by simpa using hne) ..
  | @registered id user' walletId type deviceId device sid jti t hregistered hclaim =>
      by_cases hid : u = id
      · subst id
        obtain rfl : user' = user := by simpa [Data.addAccount] using hnew
        exact ⟨walletId, Data.addAccount_matched hregistered.walletType⟩
      · apply hnone
        rw [Data.addAccount_row (by simpa using hid) (by simp) (by simp) (by simp) (by simp)
          (by simp), hclaim.row (by simp)]
  | froze _ _ _ | activated _ _ _ _ _ | device _ _ | enrolledNew _ _ _ _ _ | approved _ _ _
  | renewed _ _ _ => exact hnone (by simp)

/-- Every account that was not seeded has its wallet. -/
def Provided (seed t : Data) : Prop :=
  ∀ u user, t.row (.user u) = some user → seed.row (.user u) = none →
    ∃ walletId, Matched t u user walletId

theorem Provided.guar {seed : Data} (hi : Inv env c) (hg : Guar env p c c')
    (h : Provided seed c.data) : Provided seed c'.data := by
  intro u user hrow hseed
  obtain ⟨replies, -, heffect⟩ := hg.effect
  cases hold : c.data.row (.user u) with
  | none => exact heffect.new_user hold hrow
  | some old =>
      obtain ⟨walletId, hmatched⟩ := h u old hold hseed
      have hgrows := hg.data_grows hi
      obtain ⟨user', hrow', -, hrole⟩ := hgrows.user hold
      obtain rfl : user' = user := Option.some.inj (hrow'.symm.trans hrow)
      exact ⟨walletId, hmatched.grows hgrows hrole⟩

variable {shared : Shared} {w : KoriWorld}

theorem run_provided (hopening : Opening env shared)
    (hr : Reachable (kori env) (World.idle shared) w) :
    Provided shared.db.committed (State.data w.conf) := by
  refine run_preserves (P := fun c => Provided shared.db.committed c.data) hopening.sound
    ?_ (fun p c c' hi hg h => h.guar hi hg) (fun c c' hstill h => hstill.data ▸ h) hr
  intro u user hrow hseed
  exact absurd (hseed.symm.trans hrow) (by simp)

structure OwnsOne (t : Data) (u walletId : Uuid) (v : Wallet) : Prop where
  row : t.row (.wallet walletId) = some v
  owner : v.userId = some u
  only : ∀ other v', t.row (.wallet other) = some v' → v'.userId = some u → other = walletId

theorem OwnsOne.grows {systemId walletId : Uuid} {v : Wallet} (hi : Integrity systemId t)
    (hi' : Integrity systemId t') (h : OwnsOne t u walletId v) (hg : Grows t t') :
    ∃ v', OwnsOne t' u walletId v' ∧ v'.type = v.type := by
  obtain ⟨v', hrow, howner, htype, -⟩ := hg.wallet h.row
  have hindex := hg.walletByUser (hi.walletByUser h.row h.owner)
  refine ⟨v', ⟨hrow, howner.trans h.owner, ?_⟩, htype⟩
  intro other w hother howner'
  exact Option.some.inj ((hi'.walletByUser hother howner').symm.trans hindex)

theorem Matched.ownsOne {systemId walletId : Uuid} (hi : Integrity systemId t)
    (h : Matched t u user walletId) :
    ∃ v, OwnsOne t u walletId v ∧ v.currency = .bdt ∧ user.role.walletType = some v.type := by
  obtain ⟨v, hrow, hcurrency, htype⟩ := h.wallet
  obtain ⟨v', hrow', howner⟩ := hi.wallets.target u walletId h.index
  obtain rfl : v = v' := Option.some.inj (hrow.symm.trans hrow')
  refine ⟨v, ⟨hrow, howner, ?_⟩, hcurrency, htype⟩
  intro other v' hother howner'
  exact Option.some.inj ((hi.walletByUser hother howner').symm.trans h.index)

/-- Every account that was not seeded owns one wallet of the type of its role, there is
one SYSTEM wallet, and what is trusted about accounts and wallets never changes. -/
theorem roles_agree (hopening : Opening env shared)
    (hr : Reachable (kori env) (World.idle shared) w) :
    (∀ u user, (State.data w.conf).row (.user u) = some user →
      shared.db.committed.row (.user u) = none →
      user.role ≠ .admin ∧ ∃ walletId v, OwnsOne (State.data w.conf) u walletId v ∧
        v.currency = .bdt ∧ user.role.walletType = some v.type) ∧
    (∃ id v, (State.data w.conf).row (.wallet id) = some v ∧ v.type = .system ∧
      v.userId = none ∧ v.isActive = true ∧
      ∀ other v', (State.data w.conf).row (.wallet other) = some v' → v'.type = .system →
        other = id) ∧
    ∀ w', Reachable (kori env) w w' →
      (∀ id v, (State.data w.conf).row (.wallet id) = some v →
        ∃ v', (State.data w'.conf).row (.wallet id) = some v' ∧ v'.userId = v.userId ∧
          v'.type = v.type ∧ v'.currency = v.currency) ∧
      ∀ u user, (State.data w.conf).row (.user u) = some user →
        ∃ user', (State.data w'.conf).row (.user u) = some user' ∧
          user'.phone = user.phone ∧ user'.role = user.role := by
  have hi := (run_inv hopening.sound hr).integrity
  refine ⟨?_, ?_, ?_⟩
  · intro u user hrow hseed
    obtain ⟨walletId, hmatched⟩ := run_provided hopening hr u user hrow hseed
    obtain ⟨v, hone, hcurrency, htype⟩ := hmatched.ownsOne hi
    refine ⟨?_, walletId, v, hone, hcurrency, htype⟩
    intro hadmin
    simp [hadmin, Role.walletType] at htype
  · obtain ⟨v, hrow, howner, htype, hactive⟩ := hi.system
    exact ⟨env.cachedSystemWalletId, v, hrow, htype, howner, hactive, hi.systemOnly⟩
  · intro w' hlater
    have hgrows := run_grows ((contract env).sound hopening.sound hr) hlater
    exact ⟨fun id v hrow => hgrows.wallet hrow, fun u user hrow => hgrows.user hrow⟩

end Roles

/-- A phone is verified, and a customer registers. -/
theorem roles_agree_of_registration : ∃ w user walletId v,
    Reachable (kori Sample.env) (World.idle Sample.shared) w ∧
      (State.data w.conf).row (.user 3) = some user ∧ user.role = .customer ∧
      OwnsOne (State.data w.conf) 3 walletId v ∧ v.type = .personal := by
  obtain ⟨w, hr, hw⟩ := Sample.reaches
    (Sample.sendOtpMoves 0 Sample.sendOtpDto 77 123456 ++
      Sample.verifyOtpMoves 1 ⟨Sample.sendOtpDto, js "123456", uuidText 77, none⟩ ++
      Sample.registerMoves 2 Sample.registerDto 3 ++ [.step 2 .go])
    (fun w => ((State.data w.conf).row (.user 3)).any fun user => user.role = .customer)
    (by decide +kernel)
  obtain ⟨user, hrow, hrole⟩ := (Option.any_eq_true _ _).1 hw
  have hcustomer : user.role = .customer := of_decide_eq_true hrole
  obtain ⟨-, walletId, v, hone, -, htype⟩ :=
    (roles_agree Sample.opening hr).1 3 user hrow (by decide +kernel)
  refine ⟨w, user, walletId, v, hr, hrow, hcustomer, hone, ?_⟩
  rw [hcustomer] at htype
  exact (Option.some.inj htype).symm

end Kori
