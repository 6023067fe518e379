import Kori.Foundation.UniqueIndex
import Kori.Schema

/-!
# Integrity of the tables

What the unique indexes and the foreign keys of the schema, the check of the
SYSTEM wallet at start-up and the absence of deletions promise about the
committed tables, and how it survives each kind of write.
-/

namespace Kori

open Foundation

/-! ## Rows only grow -/

def Lasts : (k : Key) → Row k → Row k → Prop
  | .user _, a, b => b.phone = a.phone ∧ b.role = a.role
  | .wallet _, a, b => b.userId = a.userId ∧ b.type = a.type ∧ b.currency = a.currency
  | .device _ _, a, b => b.id = a.id
  | .approval _, a, b => b.phone = a.phone
  | .transaction _, a, b => b = a
  | .deviceById _, a, b => b = a
  | .userByPhone _, a, b => b = a
  | .walletByUser _, a, b => b = a
  | .transactionByTrxId _, a, b => b = a
  | .transactionByKey _, a, b => b = a
  | .approvalByPhone _, a, b => b = a

theorem Lasts.refl (k : Key) (v : Row k) : Lasts k v v := by
  cases k <;> simp [Lasts]

theorem Lasts.trans {k : Key} {a b c : Row k} (h₁ : Lasts k a b) (h₂ : Lasts k b c) :
    Lasts k a c := by
  cases k <;> simp_all [Lasts]

/-- No row disappears, and none changes what lasts. -/
def Grows (t t' : Data) : Prop :=
  ∀ k v, t.row k = some v → ∃ v', t'.row k = some v' ∧ Lasts k v v'

namespace Grows

variable {t t' t'' : Data}

theorem refl (t : Data) : Grows t t := fun k v h => ⟨v, h, .refl k v⟩

theorem trans (h₁ : Grows t t') (h₂ : Grows t' t'') : Grows t t'' := by
  intro k v h
  obtain ⟨v', h', hl⟩ := h₁ k v h
  obtain ⟨v'', h'', hl'⟩ := h₂ k v' h'
  exact ⟨v'', h'', hl.trans hl'⟩

theorem insert (h : Grows t t') {k : Key} {v : Row k} (hk : t'.row k = none) :
    Grows t (t'.put k v) := by
  intro k' v₀ h₀
  obtain ⟨v', hv', hl⟩ := h k' v₀ h₀
  have hne : k' ≠ k := by
    rintro rfl
    simp [hk] at hv'
  exact ⟨v', (Tables.row_put_of_ne hne ..).trans hv', hl⟩

theorem update (h : Grows t t') {k : Key} {v v' : Row k} (hk : t'.row k = some v)
    (hl : Lasts k v v') : Grows t (t'.put k v') := by
  intro k' v₀ h₀
  obtain ⟨v₁, hv₁, hl₁⟩ := h k' v₀ h₀
  by_cases hne : k' = k
  · subst k'
    rw [hk, Option.some.injEq] at hv₁
    subst v₁
    exact ⟨v', Tables.row_put_self .., hl₁.trans hl⟩
  · exact ⟨v₁, (Tables.row_put_of_ne hne ..).trans hv₁, hl₁⟩

theorem append (h : Grows t t') (l : LedgerEntry) : Grows t (t'.append l) := h

theorem wallet (h : Grows t t') {id : Uuid} {w : Wallet} (hw : t.row (.wallet id) = some w) :
    ∃ w', t'.row (.wallet id) = some w' ∧ w'.userId = w.userId ∧ w'.type = w.type ∧
      w'.currency = w.currency := by
  simpa [Lasts] using h _ _ hw

theorem user (h : Grows t t') {id : Uuid} {u : User} (hu : t.row (.user id) = some u) :
    ∃ u', t'.row (.user id) = some u' ∧ u'.phone = u.phone ∧ u'.role = u.role := by
  simpa [Lasts] using h _ _ hu

theorem transaction (h : Grows t t') {id : Uuid} {r : Transaction}
    (hr : t.row (.transaction id) = some r) : t'.row (.transaction id) = some r := by
  simpa [Lasts] using h _ _ hr

theorem transactionByKey (h : Grows t t') {key id : Uuid}
    (hr : t.row (.transactionByKey key) = some id) :
    t'.row (.transactionByKey key) = some id := by
  simpa [Lasts] using h _ _ hr

theorem userByPhone (h : Grows t t') {phone : JsString} {id : Uuid}
    (hr : t.row (.userByPhone phone) = some id) :
    t'.row (.userByPhone phone) = some id := by
  simpa [Lasts] using h _ _ hr

theorem walletByUser (h : Grows t t') {u id : Uuid}
    (hr : t.row (.walletByUser u) = some id) : t'.row (.walletByUser u) = some id := by
  simpa [Lasts] using h _ _ hr

end Grows

/-! ## Indexes, foreign keys and the SYSTEM wallet -/

/-- The unique indexes agree with the rows, the foreign keys point at rows, and
`systemId` is the one SYSTEM wallet. -/
structure Integrity (systemId : Uuid) (t : Data) : Prop where
  users : Indexed (fun id => t.row (.user id)) (fun phone => t.row (.userByPhone phone))
    (fun user => some user.phone)
  wallets : Indexed (fun id => t.row (.wallet id)) (fun u => t.row (.walletByUser u))
    Wallet.userId
  idempotencyKeys : Indexed (fun id => t.row (.transaction id))
    (fun key => t.row (.transactionByKey key)) (fun r => some r.idempotencyKey)
  trxIds : Indexed (fun id => t.row (.transaction id))
    (fun trxId => t.row (.transactionByTrxId trxId)) (fun r => some r.trxId)
  devices : Indexed (fun key : Uuid × JsString => t.row (.device key.1 key.2))
    (fun id => t.row (.deviceById id)) (fun device => some device.id)
  approvals : Indexed (fun id => t.row (.approval id))
    (fun phone => t.row (.approvalByPhone phone)) (fun a => some a.phone)
  walletOwner : ∀ id w u, t.row (.wallet id) = some w → w.userId = some u →
    (t.row (.user u)).isSome
  entryTransaction : ∀ e ∈ t.log, (t.row (.transaction e.transactionId)).isSome
  system : ∃ w, t.row (.wallet systemId) = some w ∧ w.userId = none ∧
    w.type = .system ∧ w.isActive = true
  systemOnly : ∀ id w, t.row (.wallet id) = some w → w.type = .system → id = systemId

namespace Integrity

variable {systemId : Uuid} {t : Data}

private theorem user_injective : Function.Injective Key.user := fun _ _ h => by simpa using h
private theorem wallet_injective : Function.Injective Key.wallet := fun _ _ h => by simpa using h
private theorem transaction_injective : Function.Injective Key.transaction :=
  fun _ _ h => by simpa using h
private theorem approval_injective : Function.Injective Key.approval :=
  fun _ _ h => by simpa using h
private theorem device_injective :
    Function.Injective (fun key : Uuid × JsString => Key.device key.1 key.2) :=
  fun _ _ h => by simpa [Prod.ext_iff] using h
private theorem userByPhone_injective : Function.Injective Key.userByPhone :=
  fun _ _ h => by simpa using h
private theorem walletByUser_injective : Function.Injective Key.walletByUser :=
  fun _ _ h => by simpa using h
private theorem transactionByKey_injective : Function.Injective Key.transactionByKey :=
  fun _ _ h => by simpa using h
private theorem transactionByTrxId_injective : Function.Injective Key.transactionByTrxId :=
  fun _ _ h => by simpa using h
private theorem deviceById_injective : Function.Injective Key.deviceById :=
  fun _ _ h => by simpa using h
private theorem approvalByPhone_injective : Function.Injective Key.approvalByPhone :=
  fun _ _ h => by simpa using h

theorem walletByUser (h : Integrity systemId t) {id u : Uuid} {w : Wallet}
    (hw : t.row (.wallet id) = some w) (hu : w.userId = some u) :
    t.row (.walletByUser u) = some id :=
  h.wallets.entry id w u hw hu

theorem walletOf (h : Integrity systemId t) {id u : Uuid}
    (hu : t.row (.walletByUser u) = some id) :
    ∃ w, t.row (.wallet id) = some w ∧ w.userId = some u :=
  h.wallets.target u id hu

theorem put_wallet (h : Integrity systemId t) {id : Uuid} {w w' : Wallet}
    (hw : t.row (.wallet id) = some w) (hl : Lasts (.wallet id) w w')
    (hactive : w.type = .system → w'.isActive = true) :
    Integrity systemId (t.put (.wallet id) w') := by
  obtain ⟨huser, htype, -⟩ := hl
  -- every wallet row after the write stems from a row with the same owner and type
  have hrow : ∀ id' w₁, (t.put (.wallet id) w').row (.wallet id') = some w₁ →
      ∃ w₀, t.row (.wallet id') = some w₀ ∧ w₁.userId = w₀.userId ∧ w₁.type = w₀.type := by
    intro id' w₁ h₁
    by_cases hid : id' = id
    · subst id'
      rw [Tables.row_put_self, Option.some.injEq] at h₁
      subst w₁
      exact ⟨w, hw, huser, htype⟩
    · rw [Tables.row_put_of_ne (by simpa using hid)] at h₁
      exact ⟨w₁, h₁, rfl, rfl⟩
  constructor
  case wallets =>
    rw [Tables.rows_put wallet_injective]
    simpa using h.wallets.update hw huser
  case walletOwner =>
    intro id' w₁ u h₁ hu
    obtain ⟨w₀, h₀, hu₀, -⟩ := hrow id' w₁ h₁
    simpa using h.walletOwner id' w₀ u h₀ (hu₀ ▸ hu)
  case system =>
    obtain ⟨s, hs, hs₁, hs₂, hs₃⟩ := h.system
    by_cases hid : systemId = id
    · subst id
      rw [hw, Option.some.injEq] at hs
      subst s
      exact ⟨w', Tables.row_put_self .., huser.trans hs₁, htype.trans hs₂, hactive hs₂⟩
    · exact ⟨s, by rw [Tables.row_put_of_ne (by simpa using hid)]; exact hs, hs₁, hs₂, hs₃⟩
  case systemOnly =>
    intro id' w₁ h₁ ht
    obtain ⟨w₀, h₀, -, ht₀⟩ := hrow id' w₁ h₁
    exact h.systemOnly id' w₀ h₀ (ht₀ ▸ ht)
  case users => simpa using h.users
  case idempotencyKeys => simpa using h.idempotencyKeys
  case trxIds => simpa using h.trxIds
  case devices => simpa using h.devices
  case approvals => simpa using h.approvals
  case entryTransaction => simpa using h.entryTransaction

theorem put_user (h : Integrity systemId t) {id : Uuid} {u u' : User}
    (hu : t.row (.user id) = some u) (hl : Lasts (.user id) u u') :
    Integrity systemId (t.put (.user id) u') := by
  constructor
  case users =>
    rw [Tables.rows_put user_injective]
    simpa using h.users.update hu (congrArg some hl.1)
  case walletOwner =>
    intro id' w v hw hv
    by_cases hid : v = id
    · subst v
      simp
    · rw [Tables.row_put_of_ne (by simpa using hid)]
      exact h.walletOwner id' w v (by simpa using hw) hv
  case wallets => simpa using h.wallets
  case idempotencyKeys => simpa using h.idempotencyKeys
  case trxIds => simpa using h.trxIds
  case devices => simpa using h.devices
  case approvals => simpa using h.approvals
  case entryTransaction => simpa using h.entryTransaction
  case system => simpa using h.system
  case systemOnly => simpa using h.systemOnly

theorem put_device (h : Integrity systemId t) {u : Uuid} {d : JsString}
    {dev dev' : TrustDevice} (hdev : t.row (.device u d) = some dev)
    (hl : Lasts (.device u d) dev dev') :
    Integrity systemId (t.put (.device u d) dev') := by
  have hrows : (fun key : Uuid × JsString =>
      (t.put (.device u d) dev').row (.device key.1 key.2)) =
        Function.update (fun key => t.row (.device key.1 key.2)) (u, d) (some dev') :=
    Tables.rows_put device_injective t (u, d) dev'
  constructor
  case devices =>
    rw [hrows]
    have hid : dev'.id = dev.id := hl
    simpa using h.devices.update (i := (u, d)) hdev (congrArg some hid)
  case users => simpa using h.users
  case wallets => simpa using h.wallets
  case idempotencyKeys => simpa using h.idempotencyKeys
  case trxIds => simpa using h.trxIds
  case approvals => simpa using h.approvals
  case walletOwner => simpa using h.walletOwner
  case entryTransaction => simpa using h.entryTransaction
  case system => simpa using h.system
  case systemOnly => simpa using h.systemOnly

theorem put_approval (h : Integrity systemId t) {id : Uuid} {a a' : BusinessApproval}
    (ha : t.row (.approval id) = some a) (hl : Lasts (.approval id) a a') :
    Integrity systemId (t.put (.approval id) a') := by
  constructor
  case approvals =>
    rw [Tables.rows_put approval_injective]
    have hphone : a'.phone = a.phone := hl
    simpa using h.approvals.update ha (congrArg some hphone)
  case users => simpa using h.users
  case wallets => simpa using h.wallets
  case idempotencyKeys => simpa using h.idempotencyKeys
  case trxIds => simpa using h.trxIds
  case devices => simpa using h.devices
  case walletOwner => simpa using h.walletOwner
  case entryTransaction => simpa using h.entryTransaction
  case system => simpa using h.system
  case systemOnly => simpa using h.systemOnly

theorem append (h : Integrity systemId t) {e : LedgerEntry}
    (he : (t.row (.transaction e.transactionId)).isSome) :
    Integrity systemId (t.append e) := by
  refine { h with entryTransaction := ?_ }
  intro e' he'
  simp only [Tables.log_append, List.mem_append, List.mem_singleton] at he'
  cases he' with
  | inl he' => exact h.entryTransaction e' he'
  | inr he' => exact he' ▸ he

theorem insert_user (h : Integrity systemId t) {id : Uuid} {user : User}
    (hid : t.row (.user id) = none) (hphone : t.row (.userByPhone user.phone) = none) :
    Integrity systemId ((t.put (.user id) user).put (.userByPhone user.phone) id) := by
  constructor
  case users =>
    rw [Tables.rows_put userByPhone_injective]
    simpa [Tables.rows_put user_injective] using h.users.insert hid hphone rfl
  case walletOwner =>
    intro id' w v hw hv
    have hsome := h.walletOwner id' w v (by simpa using hw) hv
    have hne : v ≠ id := by
      rintro rfl
      simp [hid] at hsome
    simpa [Tables.row_put_of_ne (show Key.user v ≠ Key.user id by simpa using hne)] using hsome
  case wallets => simpa using h.wallets
  case idempotencyKeys => simpa using h.idempotencyKeys
  case trxIds => simpa using h.trxIds
  case devices => simpa using h.devices
  case approvals => simpa using h.approvals
  case entryTransaction => simpa using h.entryTransaction
  case system => simpa using h.system
  case systemOnly => simpa using h.systemOnly

theorem insert_wallet (h : Integrity systemId t) {id u : Uuid} {w : Wallet}
    (hid : t.row (.wallet id) = none) (hindex : t.row (.walletByUser u) = none)
    (hu : w.userId = some u) (howner : (t.row (.user u)).isSome)
    (htype : w.type ≠ .system) :
    Integrity systemId ((t.put (.wallet id) w).put (.walletByUser u) id) := by
  have hrow : ∀ id' w₁, (t.put (.wallet id) w).row (.wallet id') = some w₁ →
      (id' = id ∧ w₁ = w) ∨ t.row (.wallet id') = some w₁ := by
    intro id' w₁ h₁
    by_cases hid' : id' = id
    · subst id'
      rw [Tables.row_put_self, Option.some.injEq] at h₁
      exact .inl ⟨rfl, h₁.symm⟩
    · rw [Tables.row_put_of_ne (by simpa using hid')] at h₁
      exact .inr h₁
  constructor
  case wallets =>
    rw [Tables.rows_put walletByUser_injective]
    simpa [Tables.rows_put wallet_injective] using h.wallets.insert hid hindex hu
  case walletOwner =>
    intro id' w₁ v h₁ hv
    simp only [ne_eq, reduceCtorEq, not_false_eq_true, Tables.row_put_of_ne] at h₁ ⊢
    obtain ⟨rfl, rfl⟩ | h₀ := hrow id' w₁ h₁
    · rw [hu, Option.some.injEq] at hv
      exact hv ▸ howner
    · exact h.walletOwner id' w₁ v h₀ hv
  case system =>
    obtain ⟨s, hs, hs'⟩ := h.system
    have hne : systemId ≠ id := by
      rintro rfl
      simp [hid] at hs
    refine ⟨s, ?_, hs'⟩
    simpa [Tables.row_put_of_ne (show Key.wallet systemId ≠ Key.wallet id by simpa using hne)]
      using hs
  case systemOnly =>
    intro id' w₁ h₁ ht
    simp only [ne_eq, reduceCtorEq, not_false_eq_true, Tables.row_put_of_ne] at h₁
    obtain ⟨rfl, rfl⟩ | h₀ := hrow id' w₁ h₁
    · exact absurd ht htype
    · exact h.systemOnly id' w₁ h₀ ht
  case users => simpa using h.users
  case idempotencyKeys => simpa using h.idempotencyKeys
  case trxIds => simpa using h.trxIds
  case devices => simpa using h.devices
  case approvals => simpa using h.approvals
  case entryTransaction => simpa using h.entryTransaction

theorem insert_device (h : Integrity systemId t) {u : Uuid} {d : JsString}
    {dev : TrustDevice} (hrow : t.row (.device u d) = none)
    (hindex : t.row (.deviceById dev.id) = none) :
    Integrity systemId ((t.put (.device u d) dev).put (.deviceById dev.id) (u, d)) := by
  have hrows : (fun key : Uuid × JsString =>
      (t.put (.device u d) dev).row (.device key.1 key.2)) =
        Function.update (fun key => t.row (.device key.1 key.2)) (u, d) (some dev) :=
    Tables.rows_put device_injective t (u, d) dev
  constructor
  case devices =>
    rw [Tables.rows_put deviceById_injective]
    simpa [hrows] using h.devices.insert (i := (u, d)) hrow hindex rfl
  case users => simpa using h.users
  case wallets => simpa using h.wallets
  case idempotencyKeys => simpa using h.idempotencyKeys
  case trxIds => simpa using h.trxIds
  case approvals => simpa using h.approvals
  case walletOwner => simpa using h.walletOwner
  case entryTransaction => simpa using h.entryTransaction
  case system => simpa using h.system
  case systemOnly => simpa using h.systemOnly

theorem insert_approval (h : Integrity systemId t) {id : Uuid} {a : BusinessApproval}
    (hrow : t.row (.approval id) = none)
    (hindex : t.row (.approvalByPhone a.phone) = none) :
    Integrity systemId ((t.put (.approval id) a).put (.approvalByPhone a.phone) id) := by
  constructor
  case approvals =>
    rw [Tables.rows_put approvalByPhone_injective]
    simpa [Tables.rows_put approval_injective] using h.approvals.insert hrow hindex rfl
  case users => simpa using h.users
  case wallets => simpa using h.wallets
  case idempotencyKeys => simpa using h.idempotencyKeys
  case trxIds => simpa using h.trxIds
  case devices => simpa using h.devices
  case walletOwner => simpa using h.walletOwner
  case entryTransaction => simpa using h.entryTransaction
  case system => simpa using h.system
  case systemOnly => simpa using h.systemOnly

theorem insert_transaction (h : Integrity systemId t) {id : Uuid} {r : Transaction}
    (hrow : t.row (.transaction id) = none)
    (htrxId : t.row (.transactionByTrxId r.trxId) = none)
    (hkey : t.row (.transactionByKey r.idempotencyKey) = none) :
    Integrity systemId (((t.put (.transaction id) r).put (.transactionByTrxId r.trxId) id).put
      (.transactionByKey r.idempotencyKey) id) := by
  constructor
  case idempotencyKeys =>
    rw [Tables.rows_put transactionByKey_injective]
    simpa [Tables.rows_put transaction_injective] using h.idempotencyKeys.insert hrow hkey rfl
  case trxIds =>
    simp only [ne_eq, reduceCtorEq, not_false_eq_true, Tables.row_put_of_ne,
      Tables.rows_put transactionByTrxId_injective, Tables.rows_put transaction_injective]
    exact h.trxIds.insert hrow htrxId rfl
  case entryTransaction =>
    intro e he
    have hsome := h.entryTransaction e (by simpa using he)
    have hne : Key.transaction e.transactionId ≠ Key.transaction id := by
      intro heq
      rw [heq, hrow] at hsome
      simp at hsome
    simp only [ne_eq, reduceCtorEq, not_false_eq_true, Tables.row_put_of_ne,
      Tables.row_put_of_ne hne]
    exact hsome
  case users => simpa using h.users
  case wallets => simpa using h.wallets
  case devices => simpa using h.devices
  case approvals => simpa using h.approvals
  case walletOwner => simpa using h.walletOwner
  case system => simpa using h.system
  case systemOnly => simpa using h.systemOnly

theorem fresh {w : Wallet} (howner : w.userId = none) (htype : w.type = .system)
    (hactive : w.isActive = true) :
    Integrity systemId (Tables.put .empty (.wallet systemId) w) := by
  have hself : (Tables.put .empty (.wallet systemId) w : Data).row (.wallet systemId) = some w :=
    Tables.row_put_self ..
  have hnone : ∀ k, k ≠ .wallet systemId →
      (Tables.put .empty (.wallet systemId) w : Data).row k = none := by
    intro k hk
    exact (Tables.row_put_of_ne hk ..).trans rfl
  have honly : ∀ id w', (Tables.put .empty (.wallet systemId) w : Data).row (.wallet id) =
      some w' → id = systemId ∧ w' = w := by
    intro id w' h
    by_cases hid : id = systemId
    · subst id
      exact ⟨rfl, Option.some.inj (h.symm.trans hself)⟩
    · simp [hnone (.wallet id) (by simpa using hid)] at h
  have hindexed : ∀ {ι κ V : Type} {column : V → Option κ}, Indexed (fun _ : ι => none)
      (fun _ : κ => none) column := ⟨by simp, by simp⟩
  constructor
  case wallets =>
    refine ⟨fun id w' u h hu => ?_, fun u id h => ?_⟩
    · obtain ⟨-, rfl⟩ := honly id w' h
      simp [howner] at hu
    · simp [hnone] at h
  case walletOwner =>
    intro id w' u h hu
    obtain ⟨-, rfl⟩ := honly id w' h
    simp [howner] at hu
  case entryTransaction => exact fun e he => by simp [Tables.empty] at he
  case system => exact ⟨w, hself, howner, htype, hactive⟩
  case systemOnly => exact fun id w' h _ => (honly id w' h).1
  all_goals simpa [hnone] using hindexed

end Integrity

end Kori
