import Kori.Ledger.Participants

/-!
# At most one effect for every idempotency key

The unique index on the key column and the atomicity of the transfer are enough:
whatever happens in Redis, one stored key stands for at most one transfer, and a
request that reports a transfer has committed its own.
-/

namespace Kori

open Foundation

variable {env : Env} {shared : Shared} {w : KoriWorld} {p q : Pid} {c c' : State}
variable {response response' : TransactionResultResponse}

def State.keyOf (env : Env) (c : State) (p : Pid) : Option Uuid :=
  match c.calls p with
  | some (.transfer request) => request.idempotencyKey.bind env.castUuid
  | _ => none

theorem State.keyOf_of_call {request : TransferRequest} {header : JsString}
    (hcall : c.calls p = some (.transfer request))
    (hheader : request.idempotencyKey = some header) :
    c.keyOf env p = env.castUuid header := by
  simp [keyOf, hcall, hheader]

theorem State.keyOf_of_calls (h : ∀ q call, c.calls q = some call → c'.calls q = some call)
    {key : Uuid} (hkey : c.keyOf env p = some key) : c'.keyOf env p = some key := by
  unfold keyOf at hkey ⊢
  cases hcall : c.calls p with
  | none => simp [hcall] at hkey
  | some call =>
      rw [h p call hcall]
      rwa [hcall] at hkey

theorem Committed.keyOf {order : TransferOrder} {id : Uuid} {r : Transaction}
    {sender receiver system : Wallet}
    (h : Committed env p order id r sender receiver system c c') :
    c.keyOf env p = some r.idempotencyKey := by
  obtain ⟨request, hcall, hordered⟩ := h.posting.request
  rw [State.keyOf_of_call hcall hordered.key]
  exact h.posting.key

/-! ## Reports -/

/-- The response that `p` has reported is that of its own transfer, which is there. -/
def Told (env : Env) (c : State) (p : Pid) (response : TransactionResultResponse) : Prop :=
  ∃ request order id r sender receiver, c.calls p = some (.transfer request) ∧
    Ordered env request order c.data ∧
    env.castUuid order.idempotencyKey = some r.idempotencyKey ∧
    c.data.row (.transaction id) = some r ∧
    (∃ trxId createdAt, r = order.record trxId r.idempotencyKey createdAt) ∧
    response = order.response r sender receiver

theorem Told.later (h : Told env c p response) (hg : Grows c.data c'.data)
    (hcalls : ∀ q call, c.calls q = some call → c'.calls q = some call) :
    Told env c' p response := by
  obtain ⟨request, order, id, r, sender, receiver, hcall, hordered, hkey, hrow, hrecord,
    hresponse⟩ := h
  exact ⟨request, order, id, r, sender, receiver, hcalls _ _ hcall, hordered.grows hg, hkey,
    hg.transaction hrow, hrecord, hresponse⟩

theorem Told.indexed (h : Told env c p response)
    (hi : Integrity env.cachedSystemWalletId c.data) :
    ∃ key id, c.keyOf env p = some key ∧
      c.data.row (.transactionByKey key) = some id := by
  obtain ⟨request, order, id, r, sender, receiver, hcall, hordered, hkey, hrow, -⟩ := h
  exact ⟨r.idempotencyKey, id, (State.keyOf_of_call hcall hordered.key).trans hkey,
    hi.idempotencyKeys.entry id r _ hrow rfl⟩

theorem Committed.told {order : TransferOrder} {id : Uuid} {r : Transaction}
    {sender receiver system : Wallet}
    (h : Committed env p order id r sender receiver system c c') (hi : Inv env c)
    (hg : Guar env p c c') :
    Told env c' p (order.response r (sender.plus (-order.total))
      (receiver.plus order.amount)) := by
  obtain ⟨request, hcall, hordered⟩ := h.posting.request
  refine ⟨request, order, id, r, _, _, hg.calls _ _ hcall, hordered.grows (hg.data_grows hi),
    h.posting.key, ?_, h.posting.record, rfl⟩
  rw [h.data, order.post_transaction, if_pos rfl]

structure Reports (env : Env) (c : State) : Prop where
  told : ∀ p response, (p, .transferred response) ∈ c.out → Told env c p response
  once : ∀ p q response response', (p, .transferred response) ∈ c.out →
    (q, .transferred response') ∈ c.out → c.keyOf env p = c.keyOf env q →
    p = q ∧ response = response'

theorem Reports.guar (h : Reports env c) (hi : Inv env c) (hg : Guar env p c c') :
    Reports env c' := by
  have hlater : ∀ q response, (q, .transferred response) ∈ c.out →
      Told env c' q response :=
    fun q response hq => (h.told q response hq).later (hg.data_grows hi) hg.calls
  -- keys that were known are the same after the step
  have hkey : ∀ q response, (q, .transferred response) ∈ c.out →
      c'.keyOf env q = c.keyOf env q := by
    intro q response hq
    obtain ⟨key, id, hk, -⟩ := (h.told q response hq).indexed hi.integrity
    rw [hk, State.keyOf_of_calls hg.calls hk]
  rcases hg.committed_or with ⟨order, id, r, sender, receiver, system, hc⟩ | ⟨hsame, hout⟩
  · have htold := hc.told hi hg
    have hmem : ∀ q response, (q, .transferred response) ∈ c'.out →
        (q, .transferred response) ∈ c.out ∨ (q = p ∧ response = order.response r
          (sender.plus (-order.total)) (receiver.plus order.amount)) := by
      intro q response hq
      rw [hc.out, List.mem_append, List.mem_singleton] at hq
      simpa using hq
    -- nobody was told of this key before
    have hnew : ∀ q response, (q, .transferred response) ∈ c.out →
        c'.keyOf env q ≠ c'.keyOf env p := by
      intro q response hq heq
      obtain ⟨key, id', hk, hindex⟩ := (h.told q response hq).indexed hi.integrity
      rw [hkey q response hq, hk, State.keyOf_of_calls hg.calls hc.keyOf,
        Option.some.injEq] at heq
      subst key
      simp [hc.posting.newKey] at hindex
    constructor
    · intro q response hq
      rcases hmem q response hq with hq | ⟨rfl, rfl⟩
      · exact hlater q response hq
      · exact htold
    · intro q q' response response' hq hq' heq
      rcases hmem q response hq with hq | ⟨rfl, rfl⟩ <;>
        rcases hmem q' response' hq' with hq' | ⟨rfl, rfl⟩
      · rw [hkey q response hq, hkey q' response' hq'] at heq
        exact h.once q q' response response' hq hq' heq
      · exact absurd heq (hnew q response hq)
      · exact absurd heq.symm (hnew q' response' hq')
      · exact ⟨rfl, rfl⟩
  · constructor
    · exact fun q response hq => hlater q response (hout q response hq)
    · intro q q' response response' hq hq' heq
      rw [hkey q response (hout q response hq), hkey q' response' (hout q' response' hq')] at heq
      exact h.once q q' response response' (hout q response hq) (hout q' response' hq') heq

theorem Reports.still (h : Reports env c) (hs : Still c c') : Reports env c' := by
  have hkey : ∀ q, c'.keyOf env q = c.keyOf env q := by
    intro q
    unfold State.keyOf
    rw [hs.calls]
  constructor
  · intro q response hq
    rw [hs.out] at hq
    exact (h.told q response hq).later (hs.data ▸ .refl _) (by simp [hs.calls])
  · intro q q' response response' hq hq' heq
    rw [hs.out] at hq hq'
    rw [hkey, hkey] at heq
    exact h.once q q' response response' hq hq' heq

theorem run_reports (hopening : Opening env shared)
    {allowed : KoriWorld → KoriMove → KoriWorld → Prop}
    (hr : Reach (kori env) allowed (World.idle shared) w) : Reports env w.conf := by
  refine run_preserves hopening.sound ?_ (fun _ _ _ hi hg h => h.guar hi hg)
    (fun _ _ hs h => h.still hs) hr
  constructor <;> simp [World.idle]

/-! ## Effects -/

/-- What the requests with the idempotency key `key` add to the balance of the
wallet `id` with the moves of a run. -/
def effectOf (env : Env) (key id : Uuid) : KoriWorld → List KoriMove → Int
  | _, [] => 0
  | w, m :: moves =>
      match w.move (kori env) m with
      | none => 0
      | some w' =>
          (if m.mover.bind (State.keyOf env w'.conf) = some key then
            (State.data w'.conf).balance id - (State.data w.conf).balance id
          else 0) + effectOf env key id w' moves

/-- One move either has no effect under the key or commits the transfer with it. -/
theorem move_effect {w' : KoriWorld} {m : KoriMove} (hs : (contract env).Sound w)
    (hmove : w.move (kori env) m = some w') (key : Uuid) :
    (∀ id, (if m.mover.bind (State.keyOf env w'.conf) = some key then
      (State.data w'.conf).balance id - (State.data w.conf).balance id else 0) = 0) ∨
    ∃ p order id r sender receiver system,
      Committed env p order id r sender receiver system w.conf w'.conf ∧
      r.idempotencyKey = key ∧
      ∀ id, (if m.mover.bind (State.keyOf env w'.conf) = some key then
        (State.data w'.conf).balance id - (State.data w.conf).balance id else 0) =
          r.moves env.cachedSystemWalletId id := by
  rcases link_cases ((contract env).sound_move hs hmove).1 with ⟨p, hmover, hg⟩ | hsame
  · rcases hg.committed_or with ⟨order, id, r, sender, receiver, system, hc⟩ | ⟨hsame, -⟩
    · have hkey := State.keyOf_of_calls hg.calls hc.keyOf
      have hcarries : m.mover.bind (State.keyOf env w'.conf) = some r.idempotencyKey := by
        rw [hmover]
        exact hkey
      by_cases heq : r.idempotencyKey = key
      · subst heq
        right
        refine ⟨p, order, id, r, sender, receiver, system, hc, rfl, ?_⟩
        intro id'
        obtain ⟨request, -, hordered⟩ := hc.posting.request
        rw [if_pos hcarries, hc.data, hc.posting.balance hs.inv.1.integrity, hordered.system]
        omega
      · left
        intro id'
        rw [if_neg (by simpa [hcarries] using heq)]
    · left
      intro id
      rw [hsame.balances, sub_self, ite_self]
  · left
    intro id
    rw [hsame.data, sub_self, ite_self]

theorem effectOf_cases {start : KoriWorld} {moves : List KoriMove}
    (hs : (contract env).Sound start) (hrun : start.run (kori env) moves = some w)
    (key : Uuid) :
    (∀ id, effectOf env key id start moves = 0) ∨
    ((State.data start.conf).row (.transactionByKey key) = none ∧
      ∃ id r, (State.data start.conf).row (.transaction id) = none ∧
        (State.data w.conf).row (.transaction id) = some r ∧ r.idempotencyKey = key ∧
        ∀ id, effectOf env key id start moves = r.moves env.cachedSystemWalletId id) := by
  induction moves generalizing start with
  | nil => exact .inl fun _ => rfl
  | cons m moves ih =>
      simp only [World.run] at hrun
      cases hmove : start.move (kori env) m with
      | none => simp [hmove] at hrun
      | some next =>
          simp only [hmove] at hrun
          have hs' := ((contract env).sound_move hs hmove).2
          have hgrows := run_grows hs (.move .refl hmove trivial :
            Reachable (kori env) start next)
          have hlater := run_grows hs' (reachable_of_run hrun)
          simp only [effectOf, hmove]
          rcases move_effect hs hmove key with
            hzero | ⟨p, order, id, r, sender, receiver, system, hc, hkey, hmoves⟩
          · rcases ih hs' hrun with hnone | ⟨hindex, id, r, hnew, hrow, hkey, hmoves⟩
            · left
              intro id
              rw [hzero, hnone, add_zero]
            · right
              refine ⟨?_, id, r, ?_, hrow, hkey, fun id => ?_⟩
              · cases h : (State.data start.conf).row (.transactionByKey key) with
                | none => rfl
                | some id' => simp [hgrows.transactionByKey h] at hindex
              · cases h : (State.data start.conf).row (.transaction id) with
                | none => rfl
                | some r' => simp [hgrows.transaction h] at hnew
              · rw [hzero, hmoves, zero_add]
          · subst hkey
            have hrow : (State.data next.conf).row (.transaction id) = some r := by
              rw [hc.data, order.post_transaction, if_pos rfl]
            right
            refine ⟨hc.posting.newKey, id, r, hc.posting.newId, hlater.transaction hrow, rfl,
              fun id' => ?_⟩
            -- the key is taken now, so the rest of the run has no effect
            rcases ih hs' hrun with hnone | ⟨hindex, -⟩
            · rw [hmoves, hnone, add_zero]
            · rw [hs'.inv.1.integrity.idempotencyKeys.entry id r _ hrow rfl] at hindex
              simp at hindex

/-- One stored key, at most one transfer. -/
theorem at_most_one_effect {moves : List KoriMove} (hopening : Opening env shared)
    (hrun : (World.idle shared).run (kori env) moves = some w) :
    (∀ id id' r r', (State.data w.conf).row (.transaction id) = some r →
      (State.data w.conf).row (.transaction id') = some r' →
      r.idempotencyKey = r'.idempotencyKey → id = id') ∧
    (∀ moves' w' id r, w.run (kori env) moves' = some w' →
      (State.data w.conf).row (.transaction id) = some r →
      (State.data w'.conf).row (.transaction id) = some r) ∧
    (∀ key, (∀ id, effectOf env key id (World.idle shared) moves = 0) ∨
      ∃ id r, shared.db.committed.row (.transaction id) = none ∧
        (State.data w.conf).row (.transaction id) = some r ∧ r.idempotencyKey = key ∧
        ∀ id, effectOf env key id (World.idle shared) moves =
          r.moves env.cachedSystemWalletId id) ∧
    Reports env w.conf := by
  have hr := reachable_of_run hrun
  have hs := (contract env).sound hopening.sound hr
  refine ⟨?_, ?_, ?_, run_reports hopening hr⟩
  · intro id id' r r' hrow hrow' hkey
    exact hs.inv.1.integrity.idempotencyKeys.unique hrow hrow' rfl
      (congrArg some hkey.symm)
  · intro moves' w' id r hrun' hrow
    exact (run_grows hs (reachable_of_run hrun')).transaction hrow
  · intro key
    rcases effectOf_cases hopening.sound hrun key with hzero | ⟨-, hmoved⟩
    · exact .inl hzero
    · exact .inr hmoved

/-- The transfer of 600 under the key `k`, which is stored as 107. -/
theorem at_most_one_effect_of_transfer : ∃ moves w id r, Sample.run moves = some w ∧
    (State.data w.conf).row (.transaction id) = some r ∧ r.idempotencyKey = 107 ∧
    ∀ id, effectOf Sample.env 107 id (World.idle Sample.shared) moves = r.moves 100 id := by
  cases hrun : Sample.run (Sample.transferMoves 0 (Sample.transferRequest 1 "2" "600")
      (Sample.transferChoices 55 11 12)) with
  | none =>
      have hsome : (Sample.run (Sample.transferMoves 0 (Sample.transferRequest 1 "2" "600")
          (Sample.transferChoices 55 11 12))).isSome = true := by decide +kernel
      rw [hrun] at hsome
      simp at hsome
  | some w =>
      rcases (at_most_one_effect Sample.opening hrun).2.2.1 107 with
        hzero | ⟨id, r, -, hrow, hkey, hmoves⟩
      · have hmoved : effectOf Sample.env 107 11 (World.idle Sample.shared)
            (Sample.transferMoves 0 (Sample.transferRequest 1 "2" "600")
              (Sample.transferChoices 55 11 12)) = -1100 := by decide +kernel
        rw [hzero] at hmoved
        simp at hmoved
      · exact ⟨_, w, id, r, hrun, hrow, hkey, hmoves⟩

end Kori
