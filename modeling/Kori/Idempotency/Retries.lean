import Kori.Idempotency.Cache

/-!
# Retries of a committed transfer

A retry runs through all the checks again before it meets the unique key.  As
long as the sender can still pay, it is answered with the first response or
turned away with a conflict or a server error.
-/

namespace Kori

open Foundation

variable {env : Env} {shared : Shared} {p q : Pid} {c : State}
variable {request : TransferRequest} {order : TransferOrder}
variable {response : TransactionResultResponse} {e : Reply}

/-- The answers that do not refuse a transfer answered with `response` before. -/
def Fair (response : TransactionResultResponse) : Reply → Prop
  | .failed e => ¬e.Refuses
  | .transferred response' | .replayed response' => response' = response
  | _ => True

/-- The user, both wallets of the request and their owners' accounts are active. -/
def StillActive (env : Env) (request : TransferRequest) (t : Data) : Prop :=
  ∀ sender receiver, Parties env request sender receiver t →
    (∃ type, Usable type sender t) ∧ ∃ type, Usable type receiver t

/-- If the move is a read of the sender's wallet for `p`, the balance that it finds
covers amount and fee. -/
def Covered (env : Env) (request : TransferRequest) (p : Pid) (w : KoriWorld)
    (m : KoriMove) : Prop :=
  ∀ sender receiver amounts query wallet, m = .step p .go →
    w.pending p = some (.sql (.select query)) →
    (query = .walletStateForTransaction sender ∨ query = .lockedWallet sender) →
    Parties env request sender receiver (State.data w.conf) →
    calculateTransferMath request.body.amountMinorUnits request.endpoint = .ok amounts →
    (State.data w.conf).row (.wallet sender) = some wallet →
    amounts.totalRequiredAmount.minorUnits ≤ wallet.balance

structure Repeated (env : Env) (p : Pid) (request : TransferRequest) (order : TransferOrder)
    (response : TransactionResultResponse) (c : State) : Prop where
  integrity : Integrity env.cachedSystemWalletId c.data
  call : c.calls p = some (.transfer request)
  ordered : Ordered env request order c.data
  active : StillActive env request c.data
  taken : ∃ key id, env.castUuid order.idempotencyKey = some key ∧
    c.data.row (.transactionByKey key) = some id
  cached : ∀ response' writer,
    c.shared.redis (.idempotency order.idempotencyKey) = some ⟨.response response', writer⟩ →
    response' = response

def retryScope (env : Env) (p : Pid) (request : TransferRequest) (order : TransferOrder)
    (response : TransactionResultResponse) : Scope where
  holds := Repeated env p request order response
  meets _ op choice c := ∀ query wallet, op = .sql (.select query) → choice = .go →
    (query = .walletStateForTransaction order.senderWalletId ∨
      query = .lockedWallet order.senderWalletId) →
    c.data.row (.wallet order.senderWalletId) = some wallet → order.total ≤ wallet.balance
  permits _ e _ := Fair response e

theorem Parties.unique {sender sender' receiver receiver' : Uuid} {t : Data}
    (h : Parties env request sender receiver t)
    (h' : Parties env request sender' receiver' t) :
    sender = sender' ∧ receiver = receiver' := by
  obtain ⟨actor, hactor, hsender⟩ := h.sender
  obtain ⟨actor', hactor', hsender'⟩ := h'.sender
  obtain ⟨phone, userId, hphone, huser, hreceiver⟩ := h.receiver
  obtain ⟨phone', userId', hphone', huser', hreceiver'⟩ := h'.receiver
  obtain rfl := Option.some.inj (hactor.symm.trans hactor')
  obtain rfl := Option.some.inj (hphone.symm.trans hphone')
  obtain rfl := Option.some.inj (huser.symm.trans huser')
  exact ⟨Option.some.inj (hsender.symm.trans hsender'),
    Option.some.inj (hreceiver.symm.trans hreceiver')⟩

theorem Ordered.admissible {t : Data} (h : Ordered env request order t) :
    Admissible env request where
  actor := by
    obtain ⟨actor, user, hactor, -⟩ := h.sender
    simp [hactor]
  key := ⟨_, h.key, h.keyGiven⟩
  endpoint := by
    obtain ⟨actor, user, -, -, hrole, -⟩ := h.sender
    simp [hrole]
  valid := h.valid
  amounts := ⟨_, h.amounts⟩

theorem Repeated.usable (h : Repeated env p request order response c) :
    Usable (senderType request.endpoint) order.senderWalletId c.data ∧
      Usable (receiverType request.endpoint) order.receiverWalletId c.data := by
  obtain ⟨⟨type, w, hw, -, hactive, howner⟩, type', w', hw', -, hactive', howner'⟩ :=
    h.active _ _ h.ordered.parties
  obtain ⟨w₁, hw₁, htype⟩ := h.ordered.senderType
  obtain ⟨w₂, hw₂, htype'⟩ := h.ordered.receiverType
  obtain rfl := Option.some.inj (hw.symm.trans hw₁)
  obtain rfl := Option.some.inj (hw'.symm.trans hw₂)
  rw [h.ordered.type] at htype htype'
  exact ⟨⟨w, hw, htype, hactive, howner⟩, w', hw', htype', hactive', howner'⟩

theorem Repeated.account (h : Repeated env p request order response c) {actor : Uuid}
    (hactor : request.actor = some actor) : ∃ user, c.data.row (.user actor) = some user ∧
      user.status = .active ∧ endpointRole request.endpoint = some user.role := by
  obtain ⟨actor', user, hactor', huser, hrole, hindex⟩ := h.ordered.sender
  obtain rfl := Option.some.inj (hactor.symm.trans hactor')
  obtain ⟨w, hw, -, -, howner⟩ := h.usable.1
  obtain ⟨w', hw', howned⟩ := h.integrity.wallets.target actor _ hindex
  obtain rfl := Option.some.inj (hw.symm.trans hw')
  obtain ⟨owner, howner', hactive⟩ := Data.ownerActive_iff.1 howner
  obtain rfl := Option.some.inj (howned.symm.trans howner')
  refine ⟨user, huser, ?_, hrole⟩
  simpa [Data.accountActive, huser] using hactive

/-- Nothing gives the retry a ground to be refused on. -/
theorem retry_no_ground (h : Ground env (retryScope env p request order response) p request)
    (ho : ∃ t, Ordered env request order t) : False := by
  cases h with
  | inadmissible hbad =>
      obtain ⟨t, ho⟩ := ho
      exact hbad ho.admissible
  | account hactor hholds hnone =>
      obtain ⟨user, huser, hactive, hrole⟩ := Repeated.account hholds hactor
      exact hnone user huser hactive hrole
  | parties hholds hnone => exact hnone _ _ (Repeated.ordered hholds).parties
  | self hholds hgrows hparties =>
      have ho' := (Repeated.ordered hholds).grows hgrows
      obtain ⟨hsender, hreceiver⟩ := hparties.unique ho'.parties
      exact ho'.distinct (hsender.symm.trans hreceiver)
  | wallets hholds hparties hbad =>
      obtain ⟨rfl, rfl⟩ := hparties.unique (Repeated.ordered hholds).parties
      obtain ⟨hsender, hreceiver⟩ := Repeated.usable hholds
      exact hbad.elim (fun h => h hsender) fun h => h hreceiver
  | funds hholds hparties hamounts hquery hmeets hrow hless =>
      obtain ⟨rfl, rfl⟩ := hparties.unique (Repeated.ordered hholds).parties
      obtain rfl := Except.ok.inj (hamounts.symm.trans (Repeated.ordered hholds).amounts)
      have hcovered := hmeets _ _ rfl rfl hquery hrow
      unfold TransferOrder.total at hcovered
      omega

theorem retryScope_grants {t : Data} (ho : Ordered env request order t) :
    (retryScope env p request order response).Grants env p request where
  failed := fun e c hgrounded hrefuses => retry_no_ground (hgrounded hrefuses) ⟨t, ho⟩
  transferred := by
    intro response' s s' c htransferred
    obtain ⟨order', id, r, sender, receiver, system, hpost⟩ := htransferred.posting
    have hholds : Repeated env p request order response s := htransferred.holds
    obtain ⟨request', hcall, ho'⟩ := hpost.request
    obtain rfl := Call.transfer.inj (Option.some.inj (hcall.symm.trans hholds.call))
    have hkey := Option.some.inj (ho'.key.symm.trans hholds.ordered.key)
    obtain ⟨key, id', hcast, htaken⟩ := hholds.taken
    rw [← hkey, hpost.key, Option.some.injEq] at hcast
    subst hcast
    simp [hpost.newKey] at htaken
  replayed := by
    intro response' header writer s c hholds hreq hentry _ _ _
    have hrepeated : Repeated env p request order response s := hholds
    obtain ⟨request', hcall, hheader⟩ := hreq
    obtain rfl := Call.transfer.inj (Option.some.inj (hcall.symm.trans hrepeated.call))
    obtain rfl := Option.some.inj (hheader.symm.trans hrepeated.ordered.key)
    exact hrepeated.cached response' writer hentry

theorem repeated_of_told {allowed : KoriWorld → KoriMove → KoriWorld → Prop}
    {w : KoriWorld} (hopening : Opening env shared)
    (hcache : ∀ header, shared.redis (.idempotency header) = none)
    (hr : Reach (kori env) allowed (World.idle shared) w)
    (hcall : w.conf.calls p = some (.transfer request))
    (hfirst : (q, .transferred response) ∈ w.conf.out)
    (hq : w.conf.calls q = some (.transfer request))
    (ho : Ordered env request order (State.data w.conf))
    (hactive : StillActive env request (State.data w.conf)) :
    Repeated env p request order response w.conf := by
  have hreports := run_reports hopening hr
  have hi := run_inv hopening.sound hr
  have hkeyOf : ∀ q', State.Requested w.conf q' order.idempotencyKey →
      State.keyOf env w.conf q' = env.castUuid order.idempotencyKey := by
    rintro q' ⟨request', hcall', hheader'⟩
    exact State.keyOf_of_call hcall' hheader'
  have hreq : State.Requested w.conf q order.idempotencyKey := ⟨request, hq, ho.key⟩
  refine ⟨hi.integrity, hcall, ho, hactive, ?_, ?_⟩
  · obtain ⟨key, id, hkey, hindex⟩ := (hreports.told q response hfirst).indexed hi.integrity
    exact ⟨key, id, (hkeyOf q hreq).symm.trans hkey, hindex⟩
  · intro response' writer hentry
    obtain ⟨hsaid, hwriter⟩ := run_remembered hopening hcache hr _ _ _ hentry
    exact (hreports.once writer q response' response hsaid hfirst
      ((hkeyOf writer hwriter).trans (hkeyOf q hreq).symm)).2

/-- A retry is never refused as long as the sender can pay when it looks. -/
theorem retry_fair {before after w : KoriWorld} (hopening : Opening env shared)
    (hcache : ∀ header, shared.redis (.idempotency header) = none)
    (hbefore : Reachable (kori env) (World.idle shared) before)
    (hfirst : (q, .transferred response) ∈ before.conf.out)
    (hq : before.conf.calls q = some (.transfer request))
    (hmove : before.move (kori env) (.arrive p (.transfer request)) = some after)
    (hactive : StillActive env request (State.data after.conf))
    (hr : Reach (kori env) (fun w m w' => StillActive env request (State.data w'.conf) ∧
      Covered env request p w m) after w)
    (he : (p, e) ∈ w.conf.out) : Fair response e := by
  have hs := (contract env).sound hopening.sound hbefore
  have hnew : before.conf.calls p = none := by
    cases hcalls : before.conf.calls p with
    | none => rfl
    | some old => simp [World.move, hcalls] at hmove
  obtain ⟨request', order, id, r, sender, receiver, hq', ho, -⟩ :=
    (run_reports hopening hbefore).told q response hfirst
  obtain rfl := Call.transfer.inj (Option.some.inj (hq.symm.trans hq'))
  have hafter : Reachable (kori env) (World.idle shared) after := .move hbefore hmove trivial
  have hcall : after.conf.calls p = some (.transfer request) := by
    simp only [World.move, hnew, Option.some.injEq] at hmove
    subst after
    exact Function.update_self ..
  have hsound := (contract env).sound hopening.sound hafter
  have hstep : Reachable (kori env) before after := .move .refl hmove trivial
  obtain ⟨hout, hcalls⟩ := run_keeps hs hstep
  have ho' := ho.grows (run_grows hs hstep)
  have hrepeated : ∀ w, Reach (kori env) (fun w m w' =>
      StillActive env request (State.data w'.conf) ∧ Covered env request p w m) after w →
      Repeated env p request order response w.conf := by
    intro w hw
    obtain ⟨hout', hcalls'⟩ := run_keeps hsound hw
    have hlater : StillActive env request (State.data w.conf) := by
      cases hw with
      | refl => exact hactive
      | move _ _ ha => exact ha.1
    exact repeated_of_told hopening hcache (hafter.trans hw.reachable) (hcalls' _ _ hcall)
      (hout' _ (hout _ hfirst)) (hcalls' _ _ (hcalls _ _ hq))
      (ho'.grows (run_grows hsound hw)) hlater
  have hfollow := arrival_answers (σ := retryScope env p request order response) hs hmove
    (transfer_settles (silent_arrive hs.inv.1 hnew _) (idle_arrive hs.inv.1 hnew _)
      (Function.update_self ..) (retryScope_grants ho))
    (run_spoken hopening hbefore hnew) hrepeated ?_ hr he
  · obtain ⟨w', -, -, hpermits⟩ := hfollow
    exact hpermits
  · intro w choice w' op next hw ha hproc query wallet hop hchoice hquery hrow
    subst hop hchoice
    have ho' := (hrepeated w hw).ordered
    refine ha.2 _ _ _ query wallet rfl ?_ hquery ho'.parties ho'.amounts hrow
    rw [World.pending, hproc]
    rfl

namespace Sample

def usable (id : Uuid) (t : Data) : Bool :=
  (t.row (.wallet id)).any fun w => w.isActive && t.ownerActive w

def stillActive (request : TransferRequest) (t : Data) : Bool :=
  (request.actor.bind fun actor => t.row (.walletByUser actor)).all (usable · t) &&
  ((Sample.env.parsePhoneNumber (trim request.body.phone)).bind fun phone =>
    (t.row (.userByPhone phone)).bind fun userId => t.row (.walletByUser userId)).all
      (usable · t)

theorem usable_of {id : Uuid} {t : Data} (h : usable id t = true) :
    ∃ type, Usable type id t := by
  obtain ⟨w, hw, hok⟩ := (Option.any_eq_true ..).1 h
  rw [Bool.and_eq_true] at hok
  exact ⟨w.type, w, hw, rfl, hok.1, hok.2⟩

theorem active_of_stillActive {request : TransferRequest} {t : Data}
    (h : stillActive request t = true) : StillActive Sample.env request t := by
  intro sender receiver hparties
  obtain ⟨actor, hactor, hsender⟩ := hparties.sender
  obtain ⟨phone, userId, hphone, huser, hreceiver⟩ := hparties.receiver
  simp only [stillActive, hactor, hphone, huser, hsender, hreceiver, Option.bind_some,
    Option.all_some, Bool.and_eq_true] at h
  exact ⟨usable_of h.1, usable_of h.2⟩

def repeated (amount : String) : TransferRequest := transferRequest 1 "2" amount

def firstMoves (amount : String) : List KoriMove :=
  transferMoves 0 (repeated amount) (transferChoices 55 11 12)

def answered (amount : String) (w : KoriWorld) : Bool :=
  (match w.conf.out with
    | [(0, .transferred _)] => true
    | _ => false) &&
  w.conf.calls 0 = some (.transfer (repeated amount))

def readsAtLeast (least : Int) (w : KoriWorld) : Bool :=
  match w.pending 1 with
  | some (.sql (.select (.walletStateForTransaction id)))
  | some (.sql (.select (.lockedWallet id))) =>
      decide ((State.data w.conf).row (.walletByUser 1) ≠ some id) ||
        ((State.data w.conf).row (.wallet id)).all fun wallet => least ≤ wallet.balance
  | _ => true

def affords (amount : String) (least : Int) (w : KoriWorld) (_ : KoriMove) (w' : KoriWorld) :
    Bool :=
  stillActive (repeated amount) (State.data w'.conf) && readsAtLeast least w

theorem covered_of_affords {amount : String} {least : Int} {w w' : KoriWorld} {m : KoriMove}
    (htotal : ∀ amounts, calculateTransferMath (some (js amount)) .sendMoney = .ok amounts →
      amounts.totalRequiredAmount.minorUnits ≤ least) (h : affords amount least w m w' = true) :
    StillActive Sample.env (repeated amount) (State.data w'.conf) ∧
      Covered Sample.env (repeated amount) 1 w m := by
  obtain ⟨hactive, hreads⟩ := Bool.and_eq_true_iff.1 h
  refine ⟨active_of_stillActive hactive, ?_⟩
  rintro sender receiver amounts query wallet rfl hpending hquery hparties hamounts hrow
  obtain ⟨actor, hactor, hsender⟩ := hparties.sender
  obtain rfl : (1 : Uuid) = actor := Option.some.inj hactor
  have hread : (decide ((State.data w.conf).row (.walletByUser 1) ≠ some sender) ||
      ((State.data w.conf).row (.wallet sender)).all fun wallet =>
        least ≤ wallet.balance) = true := by
    rcases hquery with rfl | rfl
    all_goals simpa only [readsAtLeast, hpending] using hreads
  have hleast : least ≤ wallet.balance := by
    rw [hsender, hrow] at hread
    simpa using hread
  exact (htotal amounts hamounts).trans hleast

def fromCache (w : KoriWorld) : Bool :=
  match w.conf.out with
  | [_, (1, .replayed _)] => true
  | _ => false

theorem retries (amount : String) (moves : List KoriMove) (choices : List Choice)
    (P : KoriWorld → Bool)
    {allowed : KoriWorld → KoriMove → KoriWorld → Prop}
    (ok : KoriWorld → KoriMove → KoriWorld → Bool)
    (hok : ∀ w m w', ok w m w' = true → allowed w m w')
    (h : ((run moves).any fun before =>
      (before.move (kori Sample.env) (.arrive 1 (.transfer (repeated amount)))).any fun after =>
        (answered amount before && stillActive (repeated amount) (State.data after.conf)) &&
        (after.runIf (kori Sample.env) ok (choices.map (.step 1))).any P) = true) :
    ∃ before after w response, Reachable (kori Sample.env) (World.idle Sample.shared) before ∧
      before.conf.out = [(0, .transferred response)] ∧
      before.conf.calls 0 = some (.transfer (repeated amount)) ∧
      before.move (kori Sample.env) (.arrive 1 (.transfer (repeated amount))) = some after ∧
      StillActive Sample.env (repeated amount) (State.data after.conf) ∧
      Reach (kori Sample.env) allowed after w ∧ P w = true := by
  obtain ⟨before, after, w, hbefore, hmove, hfirst, hr, hw⟩ := arrives moves 1
    (.transfer (repeated amount)) choices
    (fun before after =>
      answered amount before && stillActive (repeated amount) (State.data after.conf))
    P ok hok h
  simp only [answered, Bool.and_eq_true, decide_eq_true_eq] at hfirst
  obtain ⟨⟨hout, hcall⟩, hactive⟩ := hfirst
  split at hout
  · exact ⟨before, after, w, _, hbefore, by assumption, hcall, hmove,
      active_of_stillActive hactive, hr, hw⟩
  · simp at hout

end Sample

/-- The retry is answered from the cache; or the marker is gone, and the retry, which the sender
can pay, runs into the unique key. -/
theorem retry_fair_of_cached :
    (∃ w response response', (1, .replayed response') ∈ w.conf.out ∧
      Reachable (kori Sample.env) (World.idle Sample.shared) w ∧
      Fair response (.replayed response')) ∧
    ∃ w response, (1, .failed alreadyProcessed) ∈ w.conf.out ∧
      Reachable (kori Sample.env) (World.idle Sample.shared) w ∧
      Fair response (.failed alreadyProcessed) := by
  have htotal : ∀ amounts, calculateTransferMath (some (js "200")) .sendMoney = .ok amounts →
      amounts.totalRequiredAmount.minorUnits ≤ 700 := by
    intro amounts hamounts
    have hall : (calculateTransferMath (some (js "200")) .sendMoney).toOption.all (fun amounts =>
        amounts.totalRequiredAmount.minorUnits ≤ 700) = true := by decide +kernel
    rw [hamounts] at hall
    exact of_decide_eq_true hall
  constructor
  · obtain ⟨before, after, w, response, hbefore, hout, hcall, hmove, hactive, hr, hw⟩ :=
      Sample.retries "200" (Sample.firstMoves "200" ++ [.step 0 .go]) [.go, .go]
        Sample.fromCache (Sample.affords "200" 700)
        (fun _ _ _ => Sample.covered_of_affords htotal) (by decide +kernel)
    unfold Sample.fromCache at hw
    split at hw
    · rename_i first response' hout'
      have hafter : Reachable (kori Sample.env) before after := .move .refl hmove trivial
      exact ⟨w, response, response', by simp [hout'],
        (hbefore.trans hafter).trans hr.reachable, retry_fair Sample.opening (fun _ => rfl)
          hbefore (by simp [hout]) hcall hmove hactive hr (by simp [hout'])⟩
    · simp at hw
  · obtain ⟨before, after, w, response, hbefore, hout, hcall, hmove, hactive, hr, hw⟩ :=
      Sample.retries "200"
        (Sample.firstMoves "200" ++ [.step 0 .fail, .tick (.idempotency (js "k"))])
        ((Sample.transferChoices 56 11 12).take 22 ++ [.bytes 8, .uuid 56, .instant Sample.time,
          .go, .go, .go, .go, .go])
        (fun w => (1, .failed alreadyProcessed) ∈ w.conf.out) (Sample.affords "200" 700)
        (fun _ _ _ => Sample.covered_of_affords htotal) (by decide +kernel)
    have hafter : Reachable (kori Sample.env) before after := .move .refl hmove trivial
    have hreported := of_decide_eq_true hw
    exact ⟨w, response, hreported, (hbefore.trans hafter).trans hr.reachable,
      retry_fair Sample.opening (fun _ => rfl) hbefore (by simp [hout]) hcall hmove hactive hr
        hreported⟩

/-- The write of the response fails and the marker expires; then the fee and the
amount of the first transfer are what the retry lacks. -/
theorem retry_fair_fails : ∃ before after w response,
    Reachable (kori Sample.env) (World.idle Sample.shared) before ∧
      (0, .transferred response) ∈ before.conf.out ∧
      before.conf.calls 0 = some (.transfer (Sample.repeated "600")) ∧
      before.move (kori Sample.env) (.arrive 1 (.transfer (Sample.repeated "600"))) = some after ∧
      StillActive Sample.env (Sample.repeated "600") (State.data after.conf) ∧
      Reach (kori Sample.env) (fun _ _ w' =>
        StillActive Sample.env (Sample.repeated "600") (State.data w'.conf)) after w ∧
      ∃ e, (1, e) ∈ w.conf.out ∧ ¬Fair response e := by
  obtain ⟨before, after, w, response, hbefore, hout, hcall, hmove, hactive, hr, hw⟩ :=
    Sample.retries "600"
      (Sample.firstMoves "600" ++ [.step 0 .fail, .tick (.idempotency (js "k"))])
      ((Sample.transferChoices 55 11 12).take 10)
      (fun w => (1, .failed (.badRequest "Insufficient funds")) ∈ w.conf.out)
      (fun _ _ w' => Sample.stillActive (Sample.repeated "600") (State.data w'.conf))
      (fun _ _ _ => Sample.active_of_stillActive) (by decide +kernel)
  refine ⟨before, after, w, response, hbefore, by simp [hout], hcall, hmove, hactive, hr, _,
    of_decide_eq_true hw, ?_⟩
  simp [Fair, Exn.Refuses, Exn.badRequest, Exn.status]

end Kori
