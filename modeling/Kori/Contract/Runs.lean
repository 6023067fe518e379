import Kori.Contract.Admission

/-!
# Runs of the application

What every run of any requests keeps, from a state in which no request has been
made: one step lemma about the effects of a request, one about the environment,
and the property holds throughout.
-/

namespace Kori

open Foundation

section Runs

variable {env : Env} {shared : Shared}

/-- A state before the first request.  Nobody is in a transaction or holds a
marker, and the sessions of the device rows are known. -/
structure Opening (env : Env) (shared : Shared) : Prop where
  integrity : Integrity env.cachedSystemWalletId shared.db.committed
  idle : ∀ p, shared.db.tx p = none
  leases : ∀ p, shared.leases p = none
  minted : ∀ u o, shared.minted u = some o → o = .opening
  devices : ∀ userId deviceId device u,
    shared.db.committed.row (.device userId deviceId) = some device →
    device.refreshSessionId = some u ∨ device.currentRefreshJti = some u →
    shared.minted u = some .opening

theorem Opening.sound (h : Opening env shared) :
    (contract env).Sound (World.idle shared) := by
  refine Contract.sound_idle _ ⟨?_, trivial⟩
  exact {
    integrity := h.integrity
    pending := by
      intro p own hown
      simp [h.idle] at hown
    idle := fun p _ => ⟨h.idle p, h.leases p⟩
    unminted := by
      intro u hu
      have hfree : ∀ userId deviceId device,
          shared.db.committed.row (.device userId deviceId) = some device →
          ¬(device.refreshSessionId = some u ∨ device.currentRefreshJti = some u) := by
        intro userId deviceId device hrow hused
        have hminted := h.devices userId deviceId device u hrow hused
        rw [show shared.minted u = none from hu] at hminted
        simp at hminted
      exact ⟨fun userId deviceId device hrow => not_or.1 (hfree userId deviceId device hrow),
        by simp⟩ }

/-- A move of the environment: a crash or the loss of a Redis key. -/
structure Still (c c' : State) : Prop where
  data : c'.data = c.data
  calls : c'.calls = c.calls
  out : c'.out = c.out
  minted : c'.shared.minted = c.shared.minted
  cache : ∀ header entry, c'.shared.redis (.idempotency header) = some entry →
    c.shared.redis (.idempotency header) = some entry
  leases : ∀ p header, c'.shared.leases p = some header → c.shared.leases p = some header

theorem still_abort (p : Pid) (c : State) :
    Still c (c.withShared (Shared.abort p c.shared)) where
  data := rfl
  calls := rfl
  out := rfl
  minted := rfl
  cache := fun _ _ h => h
  leases := by
    intro q header h
    by_cases hq : q = p
    · subst q
      simp [Shared.abort] at h
    · exact (Function.update_of_ne hq ..).symm.trans h

theorem still_expire (k : RedisKey) (c : State) :
    Still c (c.withShared (Shared.expire k c.shared)) where
  data := rfl
  calls := rfl
  out := rfl
  minted := rfl
  cache := by
    intro header entry h
    by_cases hk : RedisKey.idempotency header = k
    · subst k
      simp [Shared.expire] at h
    · exact (Redis.remove_of_ne hk c.shared.redis).symm.trans h
  leases := fun _ _ h => h

theorem link_cases {m : KoriMove} {c c' : State} (h : (contract env).Link m c c') :
    (∃ p, m.mover = some p ∧ Guar env p c c') ∨ Still c c' := by
  cases h with
  | @arrive p _ _ _ hguar => exact .inl ⟨p, rfl, hguar.1⟩
  | @step p _ _ _ hguar => exact .inl ⟨p, rfl, hguar.1⟩
  | crash => exact .inr (still_abort ..)
  | tick => exact .inr (still_expire ..)

theorem Guar.said {p : Pid} {c c' : State} (hg : Guar env p c c') {x : Pid × Reply}
    (hx : x ∈ c.out) : x ∈ c'.out := by
  obtain ⟨replies, hout, -⟩ := hg.effect
  rw [hout]
  exact List.mem_append_left _ hx

variable {start w : KoriWorld} {allowed : KoriWorld → KoriMove → KoriWorld → Prop}

theorem guar_of_step {w' : KoriWorld} {p : Pid} {choice : Choice}
    (hs : (contract env).Sound w) (hmove : w.move (kori env) (.step p choice) = some w') :
    Guar env p w.conf w'.conf := by
  cases ((contract env).sound_move hs hmove).1 with
  | step hguar => exact hguar.1

/-- The invariant rule. -/
theorem run_preserves {P : State → Prop} (hs : (contract env).Sound start)
    (h₀ : P start.conf)
    (hguar : ∀ p c c', Inv env c → Guar env p c c' → P c → P c')
    (hstill : ∀ c c', Still c c' → P c → P c')
    (hr : Reach (kori env) allowed start w) : P w.conf := by
  refine (contract env).preserved hs P h₀ ?_ hr
  intro w₁ m w₂ hsound _ hlink h
  obtain ⟨p, -, hg⟩ | hsame := link_cases hlink
  · exact hguar p _ _ hsound.inv.1 hg h
  · exact hstill _ _ hsame h

theorem run_inv (hs : (contract env).Sound start) (hr : Reach (kori env) allowed start w) :
    Inv env w.conf :=
  ((contract env).sound hs hr).inv.1

theorem run_grows (hs : (contract env).Sound start)
    (hr : Reach (kori env) allowed start w) :
    Grows (State.data start.conf) (State.data w.conf) :=
  run_preserves (P := fun c => Grows (State.data start.conf) c.data) hs (.refl _)
    (fun _ _ _ hi hg h => h.trans (hg.data_grows hi)) (fun _ _ hsame h => hsame.data ▸ h) hr

theorem run_keeps (hs : (contract env).Sound start)
    (hr : Reach (kori env) allowed start w) :
    (∀ x, x ∈ start.conf.out → x ∈ w.conf.out) ∧
      ∀ q call, start.conf.calls q = some call → w.conf.calls q = some call := by
  refine run_preserves (P := fun c => (∀ x, x ∈ start.conf.out → x ∈ c.out) ∧
    ∀ q call, start.conf.calls q = some call → c.calls q = some call) hs
    ⟨fun _ h => h, fun _ _ h => h⟩ ?_ ?_ hr
  · rintro p c c' hi hg ⟨hout, hcalls⟩
    exact ⟨fun x hx => hg.said (hout x hx), fun q call h => hg.calls q call (hcalls q call h)⟩
  · rintro c c' hsame ⟨hout, hcalls⟩
    exact ⟨fun x hx => hsame.out ▸ hout x hx, fun q call h => hsame.calls ▸ hcalls q call h⟩

/-! ## One request in particular -/

theorem run_spoken (hopening : Opening env shared)
    (hr : Reach (kori env) allowed (World.idle shared) w) {p : Pid}
    (hcall : w.conf.calls p = none) (e : Reply) : (p, e) ∉ w.conf.out := by
  have hspoken : ∀ q, w.conf.calls q = none → ∀ e, (q, e) ∉ w.conf.out := by
    refine run_preserves (P := fun c => ∀ q, c.calls q = none → ∀ e, (q, e) ∉ c.out)
      hopening.sound (by simp [World.idle]) ?_ ?_ hr
    · intro p c c' hi hg h q hq e he
      have hqp : q ≠ p := by
        rintro rfl
        obtain ⟨call, hcall⟩ := hg.called
        simp [hq] at hcall
      exact h q ((hg.others q hqp).symm.trans hq) e ((hg.rely hi hqp).out e he)
    · intro c c' hsame h q hq e
      rw [hsame.calls] at hq
      rw [hsame.out]
      exact h q hq e
  exact hspoken p hcall e

variable {σ : Scope} {p : Pid}

theorem answers_move {w' : KoriWorld} {m : KoriMove} (hsound : (contract env).Sound w)
    (hholds : σ.holds w.conf) (hcall : w.conf.calls p ≠ none)
    (hsafe : ∀ m, w.procs p = some m → Safe (kori env) (terms env σ) p m w.conf)
    (hmeets : ∀ choice op next, m = .step p choice → w.procs p = some (.request op next) →
      σ.meets p op choice w.conf)
    (hm : w.move (kori env) m = some w') {e : Reply} (he : (p, e) ∈ w'.conf.out) :
    (p, e) ∈ w.conf.out ∨ σ.permits p e w'.conf := by
  have hlink := ((contract env).sound_move hsound hm).1
  cases m with
  | arrive q call =>
      have hpq : p ≠ q := by
        rintro rfl
        cases h : w.conf.calls p with
        | none => exact hcall h
        | some old => simp [World.move, h] at hm
      have hrely := (contract env).link_rely hlink hsound.inv
        ⟨by rintro _ _ ⟨⟩; exact hpq, by simp, by simp⟩
      exact .inl (hrely.out e he)
  | step q choice =>
      by_cases hpq : p = q
      · subst q
        obtain ⟨op, next, -, -, hproc, -, -⟩ := World.step_cases hm
        have hguar := ((hsafe _ hproc).step hproc ⟨hsound.inv.1, hholds⟩
          (fun op' next' h => hmeets choice op' next' rfl (h ▸ hproc)) hm).1
        exact hguar.2 e he
      · have hrely := (contract env).link_rely hlink hsound.inv
          ⟨by simp, by rintro _ _ ⟨⟩; exact hpq, by simp⟩
        exact .inl (hrely.out e he)
  | crash q =>
      generalize w'.conf = c' at hlink he
      cases hlink
      exact .inl he
  | tick k =>
      generalize w'.conf = c' at hlink he
      cases hlink
      exact .inl he

/-- What is proved of one request under a scope holds of all its answers, at the
moment they are given. -/
theorem follow_answers (hs : (contract env).Sound start) (hcall : start.conf.calls p ≠ none)
    (hsafe : ∀ m, start.procs p = some m → Safe (kori env) (terms env σ) p m start.conf)
    (hholds : ∀ w, Reach (kori env) allowed start w → σ.holds w.conf)
    (hmeets : ∀ w choice w' op next, Reach (kori env) allowed start w →
      allowed w (.step p choice) w' → w.procs p = some (.request op next) →
      σ.meets p op choice w.conf)
    (hsaid : ∀ e, (p, e) ∈ start.conf.out → σ.permits p e start.conf)
    (hr : Reach (kori env) allowed start w) {e : Reply} (he : (p, e) ∈ w.conf.out) :
    ∃ w', Reach (kori env) allowed start w' ∧ Reach (kori env) allowed w' w ∧
      σ.permits p e w'.conf := by
  induction hr with
  | refl => exact ⟨start, .refl, .refl, hsaid e he⟩
  | @move w w' m hr hm ha ih =>
      obtain ⟨hcalled, hsafe'⟩ := (contract env).follow (t := terms env σ)
        (fun _ _ h => h) (fun w hr => ⟨((contract env).sound hs hr).inv.1, hholds w hr⟩)
        hmeets hs hcall hsafe hr
      have hnew := answers_move ((contract env).sound hs hr) (hholds w hr) hcalled hsafe'
        (fun choice op next h hproc => hmeets w choice w' op next hr (h ▸ ha) hproc) hm he
      rcases hnew with hold | hpermits
      · obtain ⟨w₁, h₁, h₂, hpermits⟩ := ih hold
        exact ⟨w₁, h₁, .move h₂ hm ha, hpermits⟩
      · exact ⟨w', .move hr hm ha, .refl, hpermits⟩

theorem arrival_answers {call : Call} {before after : KoriWorld}
    (hs : (contract env).Sound before)
    (hmove : before.move (kori env) (.arrive p call) = some after)
    (hsettles : Answers env σ p (handle env call) (fun _ => (terms env σ).Guar p)
      (fun _ => (terms env σ).Guar p) before.conf (before.conf.arrive p call))
    (hsilent : ∀ e, (p, e) ∉ before.conf.out)
    (hholds : ∀ w, Reach (kori env) allowed after w → σ.holds w.conf)
    (hmeets : ∀ w choice w' op next, Reach (kori env) allowed after w →
      allowed w (.step p choice) w' → w.procs p = some (.request op next) →
      σ.meets p op choice w.conf)
    (hr : Reach (kori env) allowed after w) {e : Reply} (he : (p, e) ∈ w.conf.out) :
    ∃ w', Reach (kori env) allowed after w' ∧ Reach (kori env) allowed w' w ∧
      σ.permits p e w'.conf := by
  have hsound := ((contract env).sound_move hs hmove).2
  simp only [World.move] at hmove
  split at hmove
  · simp at hmove
  · simp only [Option.some.injEq] at hmove
    subst after
    obtain ⟨hguar, hsafe⟩ := safe_of_settles hsettles
    refine follow_answers hsound ?_ ?_ hholds hmeets ?_ hr he
    · simp [World.leave]
    · intro m hproc
      simp only [World.leave, Function.update_self, Option.some.injEq] at hproc
      exact hproc ▸ hsafe
    · exact fun e he => (hguar.2 e he).resolve_left (hsilent e)

end Runs

/-! ## A small deployment

Two customers, the first with 1500 in the wallet, each with one signed-in device. -/

namespace Sample

def env : Env where
  parsePhoneNumber := some
  castUuid := fun
    | [c] => some (BitVec.ofNat 128 c.toNat)
    | _ => none
  validates := fun _ => true
  verifyPin := fun pin hash => pin = hash
  sha256 := id
  loginMaxFailures := 5
  otpMaxFailures := 5
  otpTtl := 300
  registrationTtl := 600
  deviceEnrollmentTtl := 600
  cachedSystemWalletId := 100

def time : Instant := ⟨0, 2026, 1, 1⟩

def customer (phone : JsString) : User := ⟨phone, js "1234", .customer, .active⟩

def device (id sid jti : Uuid) : TrustDevice := ⟨id, true, some sid, some jti, time⟩

def system : Data := Tables.put .empty (.wallet 100) ⟨none, .system, true, 0, .bdt⟩

def accounts : Data :=
  (system.addAccount 1 (customer (js "1")) 11 .personal (js "d") (device 21 31 32)).addAccount
    2 (customer (js "2")) 12 .personal (js "d") (device 22 41 42)

def data : Data := accounts.put (.wallet 11) ⟨some 1, .personal, true, 1500, .bdt⟩

def issued : List Uuid := [31, 32, 41, 42]

def shared : Shared where
  db := .quiet data
  redis := fun _ => none
  minted := fun u => if u ∈ issued then some .opening else none
  tokens := []
  leases := fun _ => none

theorem integrity : Integrity 100 data := by
  have hsystem : Integrity 100 system := .fresh rfl rfl rfl
  refine Integrity.put_wallet (w := ⟨some 1, .personal, true, 0, .bdt⟩) ?_ (by decide +kernel)
    ⟨rfl, rfl, rfl⟩ (by simp)
  refine Data.addAccount_integrity (Data.addAccount_integrity hsystem ?_ ?_ ?_ ?_ ?_ ?_ ?_)
    ?_ ?_ ?_ ?_ ?_ ?_ ?_
  all_goals decide +kernel

def Known : Sigma Row → Bool
  | ⟨.device _ _, device⟩ =>
      device.refreshSessionId.all (· ∈ issued) && device.currentRefreshJti.all (· ∈ issued)
  | _ => true

theorem opening : Opening env shared where
  integrity := integrity
  idle := fun _ => rfl
  leases := fun _ => rfl
  minted := by
    intro u o h
    simp only [shared] at h
    split at h
    · exact (Option.some.inj h).symm
    · simp at h
  devices := by
    intro userId deviceId device u hrow hused
    have hall : ∀ e ∈ data.rows.entries, Known e = true := by decide +kernel
    have hknown : Known ⟨.device userId deviceId, device⟩ = true :=
      hall _ (AList.mem_lookup_iff.1 hrow)
    simp only [Known, Bool.and_eq_true] at hknown
    have hissued : u ∈ issued := by
      obtain hsid | hjti := hused
      · simpa [hsid] using hknown.1
      · simpa [hjti] using hknown.2
    exact if_pos hissued

def transferRequest (actor : Uuid) (recipient amount : String) : TransferRequest :=
  ⟨some actor, .sendMoney, some (js "k"), ⟨some (js amount), js recipient, none, none⟩⟩

def transferChoices (id sender receiver : Uuid) : List Choice :=
  [.go, .go, .go, .turn true, .go, .go, .go, .turn true, .go, .go, .go, .go,
    .order [.wallet sender, .wallet receiver, .wallet 100], .go, .go, .go, .turn true, .go,
    .turn true, .go, .go, .instant time, .bytes 7, .uuid id, .instant time, .go, .go, .go,
    .go, .go, .go, .go, .go, .go, .go]

def transferMoves (p : Pid) (request : TransferRequest) (choices : List Choice) :
    List KoriMove :=
  .arrive p (.transfer request) :: choices.map (.step p)

def run (moves : List KoriMove) : Option KoriWorld :=
  (World.idle shared).run (kori env) moves

theorem reaches (moves : List KoriMove) (P : KoriWorld → Bool)
    (h : (run moves).any P = true) :
    ∃ w, Reachable (kori env) (World.idle shared) w ∧ P w = true :=
  exists_of_run h

theorem stages (moves moves' : List KoriMove) (P : KoriWorld → KoriWorld → Bool)
    (h : ((run moves).any fun w => (w.run (kori env) moves').any (P w)) = true) :
    ∃ w w', Reachable (kori env) (World.idle shared) w ∧ Reachable (kori env) w w' ∧
      P w w' = true := by
  obtain ⟨w, hr, hw⟩ := reaches moves _ h
  obtain ⟨w', hr', hw'⟩ := exists_of_run hw
  exact ⟨w, w', hr, hr', hw'⟩

theorem next_of (moves : List KoriMove) (m : KoriMove) (P : KoriWorld → KoriWorld → Bool)
    (h : ((run moves).any fun w => (w.move (kori env) m).any (P w)) = true) :
    ∃ w w', Reachable (kori env) (World.idle shared) w ∧ w.move (kori env) m = some w' ∧
      P w w' = true := by
  obtain ⟨w, hr, hw⟩ := reaches moves _ h
  cases hm : w.move (kori env) m with
  | none => simp [hm] at hw
  | some w' => exact ⟨w, w', hr, hm, by simpa [hm] using hw⟩

theorem reaches_if (moves : List KoriMove) (P : KoriWorld → Bool)
    {allowed : KoriWorld → KoriMove → KoriWorld → Prop}
    (ok : KoriWorld → KoriMove → KoriWorld → Bool)
    (hok : ∀ w m w', ok w m w' = true → allowed w m w')
    (h : ((World.idle shared).runIf (kori env) ok moves).any P = true) :
    ∃ w, Reach (kori env) allowed (World.idle shared) w ∧ P w = true :=
  exists_of_runIf hok h

theorem arrives (moves : List KoriMove) (p : Pid) (call : Call) (choices : List Choice)
    (Q : KoriWorld → KoriWorld → Bool) (P : KoriWorld → Bool)
    {allowed : KoriWorld → KoriMove → KoriWorld → Prop}
    (ok : KoriWorld → KoriMove → KoriWorld → Bool)
    (hok : ∀ w m w', ok w m w' = true → allowed w m w')
    (h : ((run moves).any fun before =>
      (before.move (kori env) (.arrive p call)).any fun after => Q before after &&
        (after.runIf (kori env) ok (choices.map (.step p))).any P) = true) :
    ∃ before after w, Reachable (kori env) (World.idle shared) before ∧
      before.move (kori env) (.arrive p call) = some after ∧ Q before after = true ∧
      Reach (kori env) allowed after w ∧ P w = true := by
  obtain ⟨before, hbefore, h⟩ := reaches moves _ h
  cases hmove : before.move (kori env) (.arrive p call) with
  | none => simp [hmove] at h
  | some after =>
      simp only [hmove, Option.any_some, Bool.and_eq_true] at h
      cases hlater : after.runIf (kori env) ok (choices.map (.step p)) with
      | none => simp [hlater] at h
      | some w =>
          exact ⟨before, after, w, hbefore, hmove, h.1, reach_of_runIf hok hlater,
            by simpa [hlater] using h.2⟩

end Sample

end Kori
