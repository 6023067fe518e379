import Kori.Data.Integrity
import Kori.Deployment.StartUp

/-!
# The constraints of the schema

What the database promises about its tables before the first server instance
has started, and what follows for a search for SYSTEM wallets.
-/

namespace Kori

open Foundation

/-- What the unique indexes, the foreign keys and the check constraint promise about
the committed tables, also before there is a SYSTEM wallet. -/
structure Constraints (t : Data) : Prop where
  users : Indexed (fun id => t.row (.user id)) (fun phone => t.row (.userByPhone phone))
    (fun user => some user.phone)
  wallets : Indexed (fun id => t.row (.wallet id)) (fun u => t.row (.walletByUser u))
    Wallet.userId
  idempotencyKeys : Indexed (fun id => t.row (.transaction id))
    (fun key => t.row (.transactionByKey key)) (fun r => some r.idempotencyKey)
  trxIds : Indexed (fun id => t.row (.transaction id))
    (fun trxId => t.row (.transactionByTrxId trxId)) (fun r => some r.trxId)
  devices : Indexed (fun key : Uuid × JsString => t.row (.device key.1 key.2))
    (fun id => t.row (.deviceById id)) (fun device => some device.id)
  approvals : Indexed (fun id => t.row (.approval id))
    (fun phone => t.row (.approvalByPhone phone)) (fun a => some a.phone)
  walletOwner : ∀ id w u, t.row (.wallet id) = some w → w.userId = some u →
    (t.row (.user u)).isSome
  entryTransaction : ∀ e ∈ t.log, (t.row (.transaction e.transactionId)).isSome
  systemState : ∀ id w, t.row (.wallet id) = some w → w.type = .system →
    w.userId = none ∧ w.isActive = true
  oneSystem : ∀ id w id' w', t.row (.wallet id) = some w → w.type = .system →
    t.row (.wallet id') = some w' → w'.type = .system → id = id'

def Data.SystemWallet (t : Data) (id : Uuid) : Prop :=
  ∃ w, Tables.row t (.wallet id) = some w ∧ w.type = .system

section Tables

variable {t : Data} {id id' : Uuid} {w : Wallet}

theorem systemWalletAt_eq_some {k : Key} :
    Data.systemWalletAt t k = some (id, w) ↔
      k = .wallet id ∧ Tables.row t (.wallet id) = some w ∧ w.type = .system := by
  cases k with
  | wallet id' =>
      simp only [Data.systemWalletAt]
      split
      · next w' hrow =>
          simp only [Option.ite_none_right_eq_some, Option.some.injEq, Prod.mk.injEq,
            Key.wallet.injEq]
          constructor
          · rintro ⟨htype, rfl, rfl⟩
            exact ⟨rfl, hrow, htype⟩
          · rintro ⟨rfl, hrow', htype⟩
            obtain rfl := Option.some.inj (hrow.symm.trans hrow')
            exact ⟨htype, rfl, rfl⟩
      · next hrow =>
          simp only [reduceCtorEq, Key.wallet.injEq, false_iff]
          rintro ⟨rfl, hrow', -⟩
          simp [hrow] at hrow'
  | _ => simp [Data.systemWalletAt]

theorem mem_systemWallets :
    (id, w) ∈ Data.systemWallets t ↔ Tables.row t (.wallet id) = some w ∧ w.type = .system := by
  simp only [Data.systemWallets, List.mem_filterMap, systemWalletAt_eq_some]
  constructor
  · rintro ⟨k, -, -, h⟩
    exact h
  · intro h
    exact ⟨.wallet id, Tables.row_isSome.1 (by simp [h.1]), rfl, h⟩

theorem systemWallets_nodup (t : Data) : (Data.systemWallets t).Nodup := by
  apply List.Nodup.filterMap _ (AList.keys_nodup t.rows)
  rintro k k' ⟨id, w⟩ hk hk'
  rw [(systemWalletAt_eq_some.1 hk).1, (systemWalletAt_eq_some.1 hk').1]

theorem systemWallets_eq_nil : Data.systemWallets t = [] ↔ ∀ id, ¬t.SystemWallet id := by
  rw [List.eq_nil_iff_forall_not_mem]
  constructor
  · rintro h id ⟨w, hw⟩
    exact h (id, w) (mem_systemWallets.2 hw)
  · rintro h ⟨id, w⟩ hmem
    exact h id ⟨w, mem_systemWallets.1 hmem⟩

theorem systemWallets_eq_singleton (hw : Tables.row t (.wallet id) = some w)
    (htype : w.type = .system) (hone : ∀ id', t.SystemWallet id' → id' = id) :
    Data.systemWallets t = [(id, w)] := by
  have hall : ∀ x ∈ Data.systemWallets t, x = (id, w) := by
    rintro ⟨id', w'⟩ hx
    have hrow := mem_systemWallets.1 hx
    obtain rfl := hone id' ⟨w', hrow⟩
    rw [hw, Option.some.injEq] at hrow
    rw [hrow.1]
  have hmem := mem_systemWallets.2 ⟨hw, htype⟩
  have hnodup := systemWallets_nodup t
  cases hlist : Data.systemWallets t with
  | nil => simp [hlist] at hmem
  | cons x rest =>
      rw [hlist] at hall hnodup
      obtain rfl := hall x (.head _)
      cases rest with
      | nil => rfl
      | cons y rest =>
          obtain rfl := hall y (.tail _ (.head _))
          simp at hnodup

end Tables

namespace Constraints

variable {t : Data} {id : Uuid} {w : Wallet}

theorem integrity (h : Constraints t) (hw : t.row (.wallet id) = some w)
    (htype : w.type = .system) : Integrity id t where
  users := h.users
  wallets := h.wallets
  idempotencyKeys := h.idempotencyKeys
  trxIds := h.trxIds
  devices := h.devices
  approvals := h.approvals
  walletOwner := h.walletOwner
  entryTransaction := h.entryTransaction
  system := by
    obtain ⟨howner, hactive⟩ := h.systemState id w hw htype
    exact ⟨w, hw, howner, htype, hactive⟩
  systemOnly := fun id' w' hw' htype' => h.oneSystem id' w' id w hw' htype' hw htype

theorem bootstrap (h : Constraints t) (hfree : t.row (.wallet id) = none)
    (hnone : ∀ id', ¬t.SystemWallet id') :
    Constraints (t.put (.wallet id) bootstrapWallet) := by
  have hrow : ∀ id' w', (t.put (.wallet id) bootstrapWallet).row (.wallet id') = some w' →
      w'.type = .system → id' = id ∧ w' = bootstrapWallet := by
    intro id' w' hw' htype
    by_cases hid : id' = id
    · subst id'
      rw [Tables.row_put_self, Option.some.injEq] at hw'
      exact ⟨rfl, hw'.symm⟩
    · rw [Tables.row_put_of_ne (by simpa using hid)] at hw'
      exact absurd ⟨w', hw', htype⟩ (hnone id')
  constructor
  case wallets =>
    have hinjective : Function.Injective Key.wallet := fun _ _ h => by simpa using h
    rw [Tables.rows_put hinjective]
    simpa using h.wallets.insert_null hfree rfl
  case walletOwner =>
    intro id' w' u hw' hu
    by_cases hid : id' = id
    · subst id'
      rw [Tables.row_put_self, Option.some.injEq] at hw'
      subst w'
      simp [bootstrapWallet] at hu
    · rw [Tables.row_put_of_ne (by simpa using hid)] at hw'
      simpa using h.walletOwner id' w' u hw' hu
  case systemState =>
    intro id' w' hw' htype
    rw [(hrow id' w' hw' htype).2]
    exact ⟨rfl, rfl⟩
  case oneSystem =>
    intro id₁ w₁ id₂ w₂ h₁ htype₁ h₂ htype₂
    rw [(hrow id₁ w₁ h₁ htype₁).1, (hrow id₂ w₂ h₂ htype₂).1]
  case users => simpa using h.users
  case idempotencyKeys => simpa using h.idempotencyKeys
  case trxIds => simpa using h.trxIds
  case devices => simpa using h.devices
  case approvals => simpa using h.approvals
  case entryTransaction => simpa using h.entryTransaction

end Constraints

end Kori
