import Kori.Contract.Preservation
import Kori.Foundation.RelyGuarantee

/-!
# The contract between concurrent requests

What every request guarantees with each of its steps, what it may rely on while
it waits, and the invariant that the steps keep.
-/

namespace Kori

open Foundation

/-- The uncommitted writes of `p`: a transaction row is backed by locked, active
wallets with sufficient funds, and only such a row lowers a balance. -/
structure Pending (env : Env) (c : State) (p : Pid) (own : Data) : Prop where
  covered : ∀ id r, own.row (.transaction id) = some r →
    ∃ request order sender receiver system, c.calls p = some (.transfer request) ∧
      Ordered env request order c.data ∧
      Participants c p order sender receiver system ∧
      ∃ trxId key createdAt, r = order.record trxId key createdAt
  debits : ∀ id w w', own.row (.wallet id) = some w' →
    c.data.row (.wallet id) = some w → w'.balance < w.balance →
    ∃ tid r, own.row (.transaction tid) = some r ∧ r.senderWalletId = id ∧
      w.balance - w'.balance = r.amount + r.fee

/-- How a step of `p` treats the idempotency keys in Redis. -/
structure CacheStep (p : Pid) (c c' : State) : Prop where
  entry : ∀ header,
    c'.shared.redis (.idempotency header) = c.shared.redis (.idempotency header) ∨
    (c'.shared.redis (.idempotency header) = none ∧
      c.shared.leases p = some header) ∨
    (c.shared.redis (.idempotency header) = none ∧ c.Requested p header ∧
      c'.shared.redis (.idempotency header) = some ⟨.processing, p⟩) ∨
    ∃ response, c'.shared.redis (.idempotency header) = some ⟨.response response, p⟩ ∧
      c.shared.leases p = some header ∧ c.Requested p header ∧
      (p, .transferred response) ∈ c.out ∧ c'.shared.leases p = none
  lease : ∀ header, c'.shared.leases p = some header →
    c.shared.leases p = some header ∨
    (c.shared.redis (.idempotency header) = none ∧
      c'.shared.redis (.idempotency header) = some ⟨.processing, p⟩)

/-- What `p` may rely on while the others run. -/
structure Rely (p : Pid) (c c' : State) : Prop where
  tx : c'.shared.db.tx p = c.shared.db.tx p
  lock : ∀ k, c'.shared.db.lock k = some p ↔ c.shared.db.lock k = some p
  kept : ∀ k, c.shared.db.lock k = some p → c'.data.row k = c.data.row k
  grows : Grows c.data c'.data
  account : ∀ id w u, c.shared.db.lock (.wallet id) = some p →
    c.data.row (.wallet id) = some w → w.userId = some u →
    c.data.accountActive u = true → c'.data.accountActive u = true
  lease : c'.shared.leases p = c.shared.leases p
  minted : ∀ u o, c.shared.minted u = some o → c'.shared.minted u = some o
  drawn : ∀ u, Drawn p u c → Drawn p u c'
  calls : ∀ q call, c.calls q = some call → c'.calls q = some call
  out : ∀ e, (p, e) ∈ c'.out → (p, e) ∈ c.out
  said : ∀ x, x ∈ c.out → x ∈ c'.out

/-- What every step of `p` satisfies. -/
structure Guar (env : Env) (p : Pid) (c c' : State) : Prop where
  frame : Store.Frame p c.shared.db c'.shared.db
  called : ∃ call, c'.calls p = some call
  calls : ∀ q call, c.calls q = some call → c'.calls q = some call
  others : ∀ q, q ≠ p → c'.calls q = c.calls q
  minted : ∀ u o, c.shared.minted u = some o → c'.shared.minted u = some o
  leases : ∀ q, q ≠ p → c'.shared.leases q = c.shared.leases q
  cache : CacheStep p c c'
  pending : ∀ own, c'.shared.db.tx p = some own → Pending env c' p own
  effect : ∃ replies, c'.out = c.out ++ replies.map (fun e => (p, e)) ∧
    Effect env p c c'.data replies

structure Inv (env : Env) (c : State) : Prop where
  integrity : Integrity env.cachedSystemWalletId c.data
  pending : ∀ p own, c.shared.db.tx p = some own → Pending env c p own
  idle : ∀ p, c.calls p = none → c.shared.db.tx p = none ∧ c.shared.leases p = none
  unminted : ∀ u, c.shared.minted u = none → Unused u c

theorem Rely.refl (p : Pid) (c : State) : Rely p c c where
  tx := rfl
  lock := fun _ => Iff.rfl
  kept := fun _ _ => rfl
  grows := .refl _
  account := fun _ _ _ _ _ _ h => h
  lease := rfl
  minted := fun _ _ h => h
  drawn := fun _ h => h
  calls := fun _ _ h => h
  out := fun _ h => h
  said := fun _ h => h

theorem Rely.trans {p : Pid} {c c' c'' : State} (h₁ : Rely p c c') (h₂ : Rely p c' c'') :
    Rely p c c'' where
  tx := h₂.tx.trans h₁.tx
  lock := fun k => (h₂.lock k).trans (h₁.lock k)
  kept := fun k h => (h₂.kept k ((h₁.lock k).2 h)).trans (h₁.kept k h)
  grows := h₁.grows.trans h₂.grows
  account := by
    intro id w u hlock hrow hu hactive
    exact h₂.account id w u ((h₁.lock _).2 hlock) ((h₁.kept _ hlock).trans hrow) hu
      (h₁.account id w u hlock hrow hu hactive)
  lease := h₂.lease.trans h₁.lease
  minted := fun u o h => h₂.minted u o (h₁.minted u o h)
  drawn := fun u h => h₂.drawn u (h₁.drawn u h)
  calls := fun q call h => h₂.calls q call (h₁.calls q call h)
  out := fun e h => h₁.out e (h₂.out e h)
  said := fun x h => h₂.said x (h₁.said x h)

/-- What a request keeps of its knowledge through its own steps inside a
transaction, and through the steps of the others. -/
structure Within (p : Pid) (c c' : State) : Prop where
  lock : ∀ k, c.shared.db.lock k = some p → c'.shared.db.lock k = some p
  kept : ∀ k, c.shared.db.lock k = some p → c'.data.row k = c.data.row k
  grows : Grows c.data c'.data
  account : ∀ id w u, c.shared.db.lock (.wallet id) = some p →
    c.data.row (.wallet id) = some w → w.userId = some u →
    c.data.accountActive u = true → c'.data.accountActive u = true
  lease : c'.shared.leases p = c.shared.leases p
  drawn : ∀ u, Drawn p u c → Drawn p u c'
  calls : ∀ q call, c.calls q = some call → c'.calls q = some call

theorem Rely.within {p : Pid} {c c' : State} (h : Rely p c c') : Within p c c' where
  lock k := (h.lock k).2
  kept := h.kept
  grows := h.grows
  account := h.account
  lease := h.lease
  drawn := h.drawn
  calls := h.calls

theorem Within.trans {p : Pid} {c c' c'' : State} (h₁ : Within p c c')
    (h₂ : Within p c' c'') : Within p c c'' where
  lock := fun k h => h₂.lock k (h₁.lock k h)
  kept := fun k h => (h₂.kept k (h₁.lock k h)).trans (h₁.kept k h)
  grows := h₁.grows.trans h₂.grows
  account := by
    intro id w u hlock hrow hu hactive
    exact h₂.account id w u (h₁.lock _ hlock) ((h₁.kept _ hlock).trans hrow) hu
      (h₁.account id w u hlock hrow hu hactive)
  lease := h₂.lease.trans h₁.lease
  drawn := fun u h => h₂.drawn u (h₁.drawn u h)
  calls := fun q call h => h₂.calls q call (h₁.calls q call h)

/-- What is known of a run beyond the contract, and what is asked of the answers. -/
structure Scope where
  /-- Holds of every state. -/
  holds : State → Prop
  /-- Holds of the moment and the outcome of every operation of a request. -/
  meets : Pid → Op → Choice → State → Prop
  /-- Is to hold of every answer, in the state in which it is given. -/
  permits : Pid → Reply → State → Prop

def Scope.open : Scope := ⟨fun _ => True, fun _ _ _ _ => True, fun _ _ _ => True⟩

def terms (env : Env) (σ : Scope) : Terms Pid Call Reply Shared Choice Op where
  Inv c := Inv env c ∧ σ.holds c
  Rely := Rely
  Guar p c c' := Guar env p c c' ∧
    ∀ e, (p, e) ∈ c'.out → (p, e) ∈ c.out ∨ σ.permits p e c'
  Meets := σ.meets
  rely_refl := Rely.refl
  rely_trans := Rely.trans

/-! ## What survives the steps of the others -/

variable {env : Env} {p : Pid} {c c' : State}

theorem Ordered.grows {request : TransferRequest} {order : TransferOrder} {t t' : Data}
    (h : Ordered env request order t) (hg : Grows t t') :
    Ordered env request order t' where
  key := h.key
  keyGiven := h.keyGiven
  valid := h.valid
  type := h.type
  amounts := h.amounts
  system := h.system
  reference := h.reference
  sender := by
    obtain ⟨actor, user, hactor, huser, hrole, hrow⟩ := h.sender
    obtain ⟨user', huser', -, hrole'⟩ := hg.user huser
    exact ⟨actor, user', hactor, huser', hrole' ▸ hrole, hg.walletByUser hrow⟩
  receiver := by
    obtain ⟨phone, userId, htrim, hphone, huser, hrow⟩ := h.receiver
    exact ⟨phone, userId, htrim, hphone, hg.userByPhone huser, hg.walletByUser hrow⟩
  distinct := h.distinct
  senderType := by
    obtain ⟨w, hw, ht⟩ := h.senderType
    obtain ⟨w', hw', -, ht', -⟩ := hg.wallet hw
    exact ⟨w', hw', ht'.trans ht⟩
  receiverType := by
    obtain ⟨w, hw, ht⟩ := h.receiverType
    obtain ⟨w', hw', -, ht', -⟩ := hg.wallet hw
    exact ⟨w', hw', ht'.trans ht⟩

theorem Data.ownerActive_iff {t : Data} {w : Wallet} :
    t.ownerActive w = true ↔ ∃ u, w.userId = some u ∧ t.accountActive u = true := by
  unfold Data.ownerActive
  cases w.userId <;> simp

theorem Within.ownerActive (h : Within p c c') {id : Uuid} {w : Wallet}
    (hlock : c.shared.db.lock (.wallet id) = some p)
    (hrow : c.data.row (.wallet id) = some w) (hactive : c.data.ownerActive w = true) :
    c'.data.ownerActive w = true := by
  obtain ⟨u, hu, hactive⟩ := Data.ownerActive_iff.1 hactive
  exact Data.ownerActive_iff.2 ⟨u, hu, h.account id w u hlock hrow hu hactive⟩

theorem Participants.within {order : TransferOrder} {sender receiver system : Wallet}
    (h : Participants c p order sender receiver system) (hw : Within p c c') :
    Participants c' p order sender receiver system where
  senderLock := hw.lock _ h.senderLock
  receiverLock := hw.lock _ h.receiverLock
  systemLock := hw.lock _ h.systemLock
  senderRow := (hw.kept _ h.senderLock).trans h.senderRow
  receiverRow := (hw.kept _ h.receiverLock).trans h.receiverRow
  systemRow := (hw.kept _ h.systemLock).trans h.systemRow
  senderActive := h.senderActive
  receiverActive := h.receiverActive
  systemActive := h.systemActive
  senderOwner := hw.ownerActive h.senderLock h.senderRow h.senderOwner
  receiverOwner := hw.ownerActive h.receiverLock h.receiverRow h.receiverOwner
  funds := h.funds

/-- Locked rows stay as they are, so what backs the uncommitted writes lasts. -/
theorem Pending.within {own : Data} (h : Pending env c p own) (hw : Within p c c')
    (hlocked : ∀ k, k ∈ own.rows → c'.data.row k = c.data.row k) :
    Pending env c' p own where
  covered := by
    intro id r hrow
    obtain ⟨request, order, sender, receiver, system, hcall, ho, hp, hrec⟩ :=
      h.covered id r hrow
    exact ⟨request, order, sender, receiver, system, hw.calls _ _ hcall,
      ho.grows hw.grows, hp.within hw, hrec⟩
  debits := by
    intro id w w' hw' hrow hlt
    have hkept := hlocked _ (Tables.row_isSome.1 (by simp [hw'] :
      (own.row (.wallet id)).isSome))
    exact h.debits id w w' hw' (hkept.symm.trans hrow) hlt

theorem Pending.rely {own : Data} (h : Pending env c p own)
    (hown : c.shared.db.tx p = some own) (hr : Rely p c c') : Pending env c' p own :=
  h.within hr.within fun k hk => hr.kept k (c.shared.db.owned hown hk)

/-! ## The steps keep the invariant -/

theorem Guar.data_grows (h : Guar env p c c') (hi : Inv env c) : Grows c.data c'.data := by
  obtain ⟨replies, -, heffect⟩ := h.effect
  exact heffect.grows hi.integrity

theorem Guar.unused (h : Guar env p c c') {u : Uuid}
    (hu : c.shared.minted u ≠ some (.request p)) (hunused : Unused u c) : Unused u c' := by
  obtain ⟨replies, hout, heffect⟩ := h.effect
  obtain ⟨hrows, htokens⟩ := heffect.unused hu hunused
  refine ⟨hrows, ?_⟩
  intro q tokens hq
  rw [hout, List.mem_append] at hq
  cases hq with
  | inl hq => exact hunused.tokens q tokens hq
  | inr hq =>
      simp only [List.mem_map, Prod.mk.injEq] at hq
      obtain ⟨e, he, -, rfl⟩ := hq
      exact htokens tokens he

theorem Guar.rely (hi : Inv env c) (h : Guar env p c c') {q : Pid} (hq : q ≠ p) :
    Rely q c c' where
  tx := h.frame.tx q hq
  lock := fun k => h.frame.lock k q hq
  kept := fun k hlock => h.frame.kept k q hq hlock
  grows := h.data_grows hi
  account := by
    intro id w u hlock hrow hu hactive
    obtain ⟨replies, -, heffect⟩ := h.effect
    refine heffect.accountActive hi.integrity hactive ?_
    intro id' hid' hlock'
    rw [hi.integrity.walletByUser hrow hu, Option.some.injEq] at hid'
    subst id'
    rw [hlock, Option.some.injEq] at hlock'
    exact hq hlock'
  lease := h.leases q hq
  minted := h.minted
  drawn := by
    intro u hu
    refine ⟨h.minted u _ hu.minted, h.unused ?_ hu.unused⟩
    rw [hu.minted]
    simpa using hq
  calls := h.calls
  out := by
    intro e he
    obtain ⟨replies, hout, -⟩ := h.effect
    rw [hout, List.mem_append] at he
    refine he.resolve_right ?_
    intro hmem
    simp only [List.mem_map, Prod.mk.injEq] at hmem
    obtain ⟨-, -, hpq, -⟩ := hmem
    exact hq hpq.symm
  said := by
    intro x hx
    obtain ⟨replies, hout, -⟩ := h.effect
    rw [hout]
    exact List.mem_append_left _ hx

theorem Inv.guar (hi : Inv env c) (h : Guar env p c c') : Inv env c' where
  integrity := by
    obtain ⟨replies, -, heffect⟩ := h.effect
    exact heffect.integrity hi.integrity
  pending := by
    intro q own hown
    by_cases hq : q = p
    · subst q
      exact h.pending own hown
    · have hr := h.rely hi hq
      rw [hr.tx] at hown
      exact (hi.pending q own hown).rely hown hr
  idle := by
    intro q hcall
    have hq : q ≠ p := by
      rintro rfl
      obtain ⟨call, hcalled⟩ := h.called
      simp [hcall] at hcalled
    obtain ⟨htx, hlease⟩ := hi.idle q ((h.others q hq).symm.trans hcall)
    exact ⟨(h.frame.tx q hq).trans htx, (h.leases q hq).trans hlease⟩
  unminted := by
    intro u hu
    have hu' : c.shared.minted u = none := by
      cases hm : c.shared.minted u with
      | none => rfl
      | some o => simp [h.minted u o hm] at hu
    exact h.unused (by simp [hu']) (hi.unminted u hu')

/-! ## Crashes and expiring keys -/

theorem abort_rely {q : Pid} (hq : q ≠ p) :
    Rely q c (c.withShared (Shared.abort p c.shared)) where
  tx := (Store.rollback_frame c.shared.db p).tx q hq
  lock := fun k => (Store.rollback_frame c.shared.db p).lock k q hq
  kept := fun _ _ => rfl
  grows := .refl _
  account := fun _ _ _ _ _ _ h => h
  lease := Function.update_of_ne hq _ _
  minted := fun _ _ h => h
  drawn := fun _ h => ⟨h.minted, h.unused.rows, h.unused.tokens⟩
  calls := fun _ _ h => h
  out := fun _ h => h
  said := fun _ h => h

theorem Inv.abort (hi : Inv env c) :
    Inv env (c.withShared (Shared.abort p c.shared)) where
  integrity := hi.integrity
  pending := by
    intro q own hown
    by_cases hq : q = p
    · subst q
      simp [Shared.abort, Store.rollback, Store.finish] at hown
    · have hr := abort_rely (c := c) hq
      rw [hr.tx] at hown
      exact (hi.pending q own hown).rely hown hr
  idle := by
    intro q hcall
    by_cases hq : q = p
    · subst q
      simp [Shared.abort, Store.rollback, Store.finish]
    · have hr := abort_rely (c := c) hq
      obtain ⟨htx, hlease⟩ := hi.idle q hcall
      exact ⟨hr.tx.trans htx, hr.lease.trans hlease⟩
  unminted := fun u hu => ⟨(hi.unminted u hu).rows, (hi.unminted u hu).tokens⟩

theorem expire_rely {q : Pid} {k : RedisKey} :
    Rely q c (c.withShared (Shared.expire k c.shared)) :=
  { Rely.refl q c with drawn := fun _ h => ⟨h.minted, h.unused.rows, h.unused.tokens⟩ }

theorem Inv.expire (hi : Inv env c) {k : RedisKey} :
    Inv env (c.withShared (Shared.expire k c.shared)) where
  integrity := hi.integrity
  pending := fun q own hown => (hi.pending q own hown).rely hown expire_rely
  idle := hi.idle
  unminted := fun u hu => ⟨(hi.unminted u hu).rows, (hi.unminted u hu).tokens⟩

end Kori
