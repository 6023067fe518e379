import Kori.Contract.Transfers

/-!
# The idempotency interceptor keeps the contract

The steps on the idempotency keys of Redis: a request acquires the marker of its
own key and later issues, at most once, the command that completes it.
-/

namespace Kori

open Foundation

variable {env : Env} {σ : Scope} {p : Pid} {c c' : State} {α : Type}
variable {request : TransferRequest} {header : JsString}

theorem guar_cache {s : Shared} (hi : Inv env c) (hcall : Called p c)
    (hdb : s.db = c.shared.db) (hminted : s.minted = c.shared.minted)
    (hleases : ∀ q, q ≠ p → s.leases q = c.shared.leases q)
    (hcache : CacheStep p c (c.withShared s)) : Guar env p c (c.withShared s) where
  frame := by
    rw [Conf.withShared_shared, hdb]
    exact .refl ..
  called := hcall
  calls := fun _ _ h => h
  others := fun _ _ => rfl
  minted := by simp [hminted]
  leases := hleases
  cache := hcache
  pending := by
    intro own hown
    have hown' : c.shared.db.tx p = some own := by
      rw [← hdb]
      exact hown
    exact (hi.pending p own hown').of_db hdb rfl
  effect := by
    refine ⟨[], by simp, ?_⟩
    change Effect env p c s.db.committed []
    rw [hdb]
    exact .none (by simp)

theorem Shared.lease_of_ne (s : Shared) {p q : Pid} (hq : q ≠ p) (acquired : Bool)
    (command : RedisCommand) : s.lease p acquired command q = s.leases q := by
  unfold Shared.lease
  split
  · split
    · exact Function.update_of_ne hq ..
    · rfl
  · exact Function.update_of_ne hq ..
  · exact Function.update_of_ne hq ..
  · rfl

theorem exec_redis {command : RedisCommand} {choice : Choice} {s s' : Shared}
    {a : RedisReply command.Ans}
    (h : Shared.exec env p (.redis command) choice s = some (a, s')) :
    (a = (s.redisGo p command).1 ∧ s' = (s.redisGo p command).2) ∨
      (a = .error ∧ s' = s.redisLost p command) ∨
      ((a = .error ∨ a = .offline) ∧ s' = s.redisFail p command) := by
  cases choice <;> simp only [Shared.exec, Option.some.injEq, Prod.mk.injEq,
    reduceCtorEq] at h
  · exact .inl ⟨congrArg Prod.fst h.symm, congrArg Prod.snd h.symm⟩
  · exact .inr (.inr ⟨.inl h.1.symm, h.2.symm⟩)
  · exact .inr (.inl ⟨h.1.symm, h.2.symm⟩)
  · exact .inr (.inr ⟨.inr h.1.symm, h.2.symm⟩)

theorem exec_redis_ok {command : RedisCommand} {choice : Choice} {s s' : Shared}
    {a : command.Ans} (h : Shared.exec env p (.redis command) choice s = some (.ok a, s')) :
    choice = .go ∧ a = (s.redis.exec p command).1 := by
  cases choice <;> simp only [Shared.exec, Option.some.injEq, reduceCtorEq] at h
  case go => exact ⟨rfl, (RedisReply.ok.inj (congrArg Prod.fst h)).symm⟩
  all_goals simp at h

theorem settles_send {command : RedisCommand}
    {P : RedisReply command.Ans → State → State → Prop}
    {T : Exn → State → State → Prop} (hs : (terms env σ).Guar p c c')
    (hcall : Called p c')
    (h : ∀ c₁, Rely p c' c₁ → ∀ a s,
      (a = (c₁.shared.redisGo p command).1 ∧ s = (c₁.shared.redisGo p command).2) ∨
        (a = .error ∧ s = c₁.shared.redisLost p command) ∨
        ((a = .error ∨ a = .offline) ∧ s = c₁.shared.redisFail p command) →
      CacheStep p c₁ (c₁.withShared s) ∧
        ((terms env σ).Silent p c₁ (c₁.withShared s) → P a c₁ (c₁.withShared s))) :
    Answers env σ p (RedisService.send command) P T c c' := by
  refine settles_ask hs fun c₁ hr hi choice a s _ hexec => ?_
  have hcases := exec_redis hexec
  obtain ⟨hcache, hP⟩ := h c₁ hr a s hcases
  have hguar : Guar env p c₁ (c₁.withShared s) := by
    refine guar_cache hi.1 (hcall.rely hr) ?_ ?_ (fun q hq => ?_) hcache
    · obtain ⟨-, rfl⟩ | ⟨-, rfl⟩ | ⟨-, rfl⟩ := hcases <;> rfl
    · obtain ⟨-, rfl⟩ | ⟨-, rfl⟩ | ⟨-, rfl⟩ := hcases <;> rfl
    · obtain ⟨-, rfl⟩ | ⟨-, rfl⟩ | ⟨-, rfl⟩ := hcases <;>
        exact Shared.lease_of_ne _ hq _ _
  exact hP ⟨hguar.silent, rfl⟩

/-! ## The marker -/

theorem State.Requested.rely (h : c.Requested p header) (hr : Rely p c c') :
    c'.Requested p header := by
  obtain ⟨request, hcall, hheader⟩ := h
  exact ⟨request, hr.calls _ _ hcall, hheader⟩

theorem cacheStep_of_key (header : JsString) {s : Shared}
    (hothers : ∀ k, k ≠ .idempotency header → s.redis k = c.shared.redis k)
    (hentry : s.redis (.idempotency header) = c.shared.redis (.idempotency header) ∨
      (s.redis (.idempotency header) = none ∧ c.shared.leases p = some header) ∨
      (c.shared.redis (.idempotency header) = none ∧ c.Requested p header ∧
        s.redis (.idempotency header) = some ⟨.processing, p⟩) ∨
      ∃ response, s.redis (.idempotency header) = some ⟨.response response, p⟩ ∧
        c.shared.leases p = some header ∧ c.Requested p header ∧
        (p, .transferred response) ∈ c.out ∧ s.leases p = none)
    (hlease : s.leases p = c.shared.leases p ∨ s.leases p = none ∨
      (s.leases p = some header ∧ c.shared.redis (.idempotency header) = none ∧
        s.redis (.idempotency header) = some ⟨.processing, p⟩)) :
    CacheStep p c (c.withShared s) where
  entry := by
    intro header'
    by_cases hkey : header' = header
    · subst header'
      exact hentry
    · exact .inl (hothers _ (by simpa using hkey))
  lease := by
    intro header' hheld
    obtain hsame | hnone | ⟨hsome, hfree, hmarker⟩ := hlease
    · exact .inl (hsame.symm.trans hheld)
    · simp [hnone] at hheld
    · rw [Conf.withShared_shared, hsome, Option.some.injEq] at hheld
      subst header'
      exact .inr ⟨hfree, hmarker⟩

theorem settles_acquire {T : Exn → State → State → Prop}
    (hs : (terms env σ).Guar p c c') (hreq : c'.Requested p header) :
    Answers env σ p (RedisService.set (.idempotency header) .processing true)
      (fun locked c₁ c₂ => (terms env σ).Silent p c₁ c₂ ∧ Rely p c' c₁ ∧
        c₂.shared.db = c₁.shared.db ∧ c₂.calls = c₁.calls ∧
        (locked = true → c₂.shared.leases p = some header)) T c c' := by
  have hcalled : Called p c' := by
    obtain ⟨request, hcall, -⟩ := hreq
    exact ⟨_, hcall⟩
  refine settles_bind.2 ((settles_send (P := fun a c₁ c₂ =>
    (terms env σ).Silent p c₁ c₂ ∧ Rely p c' c₁ ∧ c₂.shared.db = c₁.shared.db ∧
      c₂.calls = c₁.calls ∧ (a = .ok true → c₂.shared.leases p = some header))
    hs hcalled ?_).imp ?_ fun _ _ _ h => h)
  · intro c₁ hr a s hcases
    have hreq₁ := hreq.rely hr
    cases hentry : c₁.shared.redis (.idempotency header) with
    | some entry =>
        have hexec : c₁.shared.redis.exec p (.set (.idempotency header) .processing true) =
            (false, c₁.shared.redis) := by
          simp [Redis.exec, hentry]
        simp only [Shared.redisGo, Shared.redisLost, Shared.redisFail, hexec,
          Shared.granted, Shared.lease, Bool.false_eq_true, if_false] at hcases
        obtain ⟨rfl, rfl⟩ | ⟨rfl, rfl⟩ | ⟨ha, rfl⟩ := hcases
        · exact ⟨cacheStep_of_key header (fun _ _ => rfl) (.inl rfl) (.inl rfl),
            fun hs => ⟨hs, hr, rfl, rfl, by simp⟩⟩
        · exact ⟨cacheStep_of_key header (fun _ _ => rfl) (.inl rfl) (.inl rfl),
            fun hs => ⟨hs, hr, rfl, rfl, by simp⟩⟩
        · refine ⟨cacheStep_of_key header (fun _ _ => rfl) (.inl rfl) (.inl rfl),
            fun hs => ⟨hs, hr, rfl, rfl, ?_⟩⟩
          rintro rfl
          simp at ha
    | none =>
        have hexec : c₁.shared.redis.exec p (.set (.idempotency header) .processing true) =
            (true, c₁.shared.redis.put (.idempotency header) .processing p) := by
          simp [Redis.exec, hentry]
        simp only [Shared.redisGo, Shared.redisLost, Shared.redisFail, hexec,
          Shared.granted, Shared.lease, Bool.false_eq_true, if_false, if_true] at hcases
        have hput : CacheStep p c₁ (c₁.withShared { c₁.shared with
            redis := c₁.shared.redis.put (.idempotency header) .processing p }) :=
          cacheStep_of_key header (fun k hk => Redis.put_of_ne hk ..)
            (.inr (.inr (.inl ⟨hentry, hreq₁, Redis.put_self ..⟩))) (.inl rfl)
        obtain ⟨rfl, rfl⟩ | ⟨rfl, rfl⟩ | ⟨ha, rfl⟩ := hcases
        · refine ⟨cacheStep_of_key header (fun k hk => Redis.put_of_ne hk ..)
            (.inr (.inr (.inl ⟨hentry, hreq₁, Redis.put_self ..⟩)))
            (.inr (.inr ⟨Function.update_self .., hentry, Redis.put_self ..⟩)),
            fun hs => ⟨hs, hr, rfl, rfl, fun _ => Function.update_self ..⟩⟩
        · exact ⟨hput, fun hs => ⟨hs, hr, rfl, rfl, by simp⟩⟩
        · refine ⟨cacheStep_of_key header (fun _ _ => rfl) (.inl rfl) (.inl rfl),
            fun hs => ⟨hs, hr, rfl, rfl, ?_⟩⟩
          rintro rfl
          simp at ha
  · rintro a c₁ c₂ ⟨hs, hr, hdb, hcalls, hlease⟩
    cases a with
    | ok stored => exact ⟨hs, hr, hdb, hcalls, fun h => hlease (h ▸ rfl)⟩
    | offline => exact ⟨hs, hr, hdb, hcalls, by simp⟩
    | error => exact ⟨hs, hr, hdb, hcalls, by simp⟩

theorem settles_store {response : TransactionResultResponse}
    {T : Exn → State → State → Prop} (hs : (terms env σ).Guar p c c')
    (hreq : c'.Requested p header) (hlease : c'.shared.leases p = some header)
    (hsaid : (p, .transferred response) ∈ c'.out) :
    Answers env σ p (RedisService.set (.idempotency header) (.response response) false)
      (fun _ => (terms env σ).Silent p) T c c' := by
  have hcalled : Called p c' := by
    obtain ⟨request, hcall, -⟩ := hreq
    exact ⟨_, hcall⟩
  refine settles_bind.2 ((settles_send (P := fun _ => (terms env σ).Silent p)
    hs hcalled ?_).imp ?_ fun _ _ _ h => h)
  · intro c₁ hr a s hcases
    refine ⟨?_, fun hs => hs⟩
    simp only [Shared.redisGo, Shared.redisLost, Shared.redisFail, Redis.exec,
      Bool.false_eq_true, false_and, if_false, Shared.lease] at hcases
    have hlease₁ := hr.lease.trans hlease
    have hsaid₁ := hr.said _ hsaid
    obtain ⟨-, rfl⟩ | ⟨-, rfl⟩ | ⟨-, rfl⟩ := hcases
    · exact cacheStep_of_key header (fun k hk => Redis.put_of_ne hk ..)
        (.inr (.inr (.inr ⟨response, Redis.put_self .., hlease₁, hreq.rely hr, hsaid₁,
          Function.update_self ..⟩))) (.inr (.inl (Function.update_self ..)))
    · exact cacheStep_of_key header (fun k hk => Redis.put_of_ne hk ..)
        (.inr (.inr (.inr ⟨response, Redis.put_self .., hlease₁, hreq.rely hr, hsaid₁,
          Function.update_self ..⟩))) (.inr (.inl (Function.update_self ..)))
    · exact cacheStep_of_key header (fun _ _ => rfl) (.inl rfl)
        (.inr (.inl (Function.update_self ..)))
  · intro a c₁ c₂ h
    cases a <;> exact h

theorem settles_release {T : Exn → State → State → Prop}
    (hs : (terms env σ).Guar p c c') (hcall : Called p c')
    (hlease : c'.shared.leases p = some header) :
    Answers env σ p (RedisService.del (.idempotency header))
      (fun _ => (terms env σ).Silent p) T c c' := by
  refine settles_bind.2 ((settles_send (P := fun _ => (terms env σ).Silent p)
    hs hcall ?_).imp ?_ fun _ _ _ h => h)
  · intro c₁ hr a s hcases
    refine ⟨?_, fun hs => hs⟩
    simp only [Shared.redisGo, Shared.redisLost, Shared.redisFail, Redis.exec,
      Shared.lease] at hcases
    have hremoved : (c₁.shared.redis.remove (.idempotency header)) (.idempotency header) =
        none ∧ c₁.shared.leases p = some header :=
      ⟨Redis.remove_self .., hr.lease.trans hlease⟩
    obtain ⟨-, rfl⟩ | ⟨-, rfl⟩ | ⟨-, rfl⟩ := hcases
    · exact cacheStep_of_key header (fun k hk => Redis.remove_of_ne hk ..)
        (.inr (.inl hremoved)) (.inr (.inl (Function.update_self ..)))
    · exact cacheStep_of_key header (fun k hk => Redis.remove_of_ne hk ..)
        (.inr (.inl hremoved)) (.inr (.inl (Function.update_self ..)))
    · exact cacheStep_of_key header (fun _ _ => rfl) (.inl rfl)
        (.inr (.inl (Function.update_self ..)))
  · intro a c₁ c₂ h
    cases a <;> exact h

theorem settles_lookup (hs : (terms env σ).Silent p c c') (hcall : Called p c') :
    Answers env σ p (RedisService.get (.idempotency header))
      (fun found c₁ c₂ => (terms env σ).Silent p c₁ c₂ ∧ Rely p c' c₁ ∧ σ.holds c₁ ∧
        c₂.shared.db = c₁.shared.db ∧ Rely p c' c₂ ∧ c₂.calls = c₁.calls ∧
        ∀ value, found = some value →
          σ.meets p (.redis (.get (.idempotency header))) .go c₁ ∧
          ∃ writer, c₁.shared.redis (.idempotency header) = some ⟨value, writer⟩)
      (fun e c₁ c₂ => (terms env σ).Silent p c₁ c₂ ∧ 500 ≤ e.status) c c' := by
  have hq : (Op.redis (.get (.idempotency header))).Quiet := trivial
  refine settles_bind.2 (settles_ask hs.1 ?_)
  intro c₁ hr hi choice a s hmeets hexec
  have hmoved := hq.unmoved hexec
  have hs₁ : (terms env σ).Silent p c₁ (c₁.withShared s) :=
    ⟨(hmoved.guar hi.1 (hcall.rely hr)).silent, rfl⟩
  cases a with
  | offline => exact ⟨hs₁, hr, hi.2, hmoved.db, hr.trans hmoved.rely, rfl, by simp⟩
  | error => exact ⟨hs₁, Nat.le_refl 500⟩
  | ok found =>
      refine ⟨hs₁, hr, hi.2, hmoved.db, hr.trans hmoved.rely, rfl, ?_⟩
      rintro value rfl
      obtain ⟨rfl, hfound⟩ := exec_redis_ok hexec
      obtain ⟨⟨value', writer⟩, hentry, rfl⟩ := Option.map_eq_some_iff.1 hfound.symm
      exact ⟨hmeets, writer, hentry⟩

/-! ## The interceptor -/

/-- What the scope asks of the answers to a transfer request is granted. -/
structure Scope.Grants (σ : Scope) (env : Env) (p : Pid) (request : TransferRequest) :
    Prop where
  failed : ∀ e c, Grounded env σ p request e → σ.permits p (.failed e) c
  transferred : ∀ response s s' c, Transferred env σ p response s s' →
    σ.permits p (.transferred response) c
  replayed : ∀ response header writer s c, σ.holds s → s.Requested p header →
    s.shared.redis (.idempotency header) = some ⟨.response response, writer⟩ →
    σ.meets p (.redis (.get (.idempotency header))) .go s → c.calls = s.calls →
    (∀ x ∈ s.out, x ∈ c.out) → σ.permits p (.replayed response) c

theorem guar_told {response : TransactionResultResponse} {s s' : State}
    (h : Transferred env σ p response s s')
    (hpermits : ∀ c, σ.permits p (.transferred response) c) :
    (terms env σ).Guar p s (s'.tell p [.transferred response]) := by
  obtain ⟨shared, rfl⟩ := h.step
  refine h.guar.told fun e he => ?_
  obtain rfl := List.mem_singleton.1 he
  exact hpermits _

theorem intercept_settles {handle : Action TransactionResultResponse} {K : Data → Prop}
    (hs : (terms env σ).Silent p c c') (hidle : Idle p c')
    (hcall : c'.calls p = some (.transfer request))
    (hheader : request.idempotencyKey = some header) (hgrants : σ.Grants env p request)
    (hK : K c'.data) (hgrows : ∀ t t', Grows t t' → K t → K t')
    (hhandle : ∀ c₁ c₂ : State, (terms env σ).Silent p c₁ c₂ → Idle p c₂ →
      c₂.calls p = some (.transfer request) → K c₂.data →
      Answers env σ p handle
        (fun response s s' => Transferred env σ p response s s' ∧ Ended p c₂ s')
        (fun e s s' => (terms env σ).Silent p s s' ∧ Ended p c₂ s' ∧
          Grounded env σ p request e) c₁ c₂) :
    Answers env σ p (intercept header handle) (fun _ => (terms env σ).Guar p)
      (fun e c₁ c₂ => (terms env σ).Silent p c₁ c₂ ∧ Grounded env σ p request e) c c' := by
  have hreq : c'.Requested p header := ⟨request, hcall, hheader⟩
  have hconflict : Grounded env σ p request beingProcessed := fun h => absurd rfl h.2
  refine settles_bind.2 ((settles_lookup hs hidle.called).imp ?_
    fun e c₁ c₂ h => ⟨h.1, grounded_of_status h.2⟩)
  rintro found c₁ c₂ ⟨hs₂, hr₁, hσ₁, hdb, hr₂, hcalls, hfound⟩
  match found with
  | some .processing => exact ⟨hs₂, hconflict⟩
  | some (.response cached) =>
      obtain ⟨hmeets, writer, hentry⟩ := hfound _ rfl
      refine ⟨hs₂.1.1.tell hs₂.2 fun _ => ?_, fun e he => ?_⟩
      · rw [State.data, hdb]
        exact .replayed (hreq.rely hr₁) hentry
      · simp only [Conf.tell_out, List.map_cons, List.map_nil, List.mem_append,
          List.mem_singleton, Prod.mk.injEq, true_and, hs₂.2] at he
        obtain he | rfl := he
        · exact .inl he
        · exact .inr (hgrants.replayed _ _ _ _ _ hσ₁ (hreq.rely hr₁) hentry hmeets hcalls
            fun x hx => List.mem_append_left _ (hs₂.2 ▸ hx))
  | none =>
      refine settles_bind.2 ((settles_acquire hs₂.1 (hreq.rely hr₂)).imp ?_
        fun _ _ _ h => h)
      rintro locked c₃ c₄ ⟨hs₄, hr₃, hdb₄, hcalls₄, hlease⟩
      refine settles_throwIf_bind (fun _ => ⟨hs₄, hconflict⟩) fun hlocked => ?_
      have hlease₄ := hlease (by simpa using hlocked)
      have hidle₃ := (hidle.rely hr₂).rely hr₃
      have hcall₄ : c₄.calls p = some (.transfer request) := by
        rw [hcalls₄]
        exact (hr₂.trans hr₃).calls _ _ hcall
      have hidle₄ : Idle p c₄ := ⟨⟨_, hcall₄⟩, by rw [hdb₄]; exact hidle₃.tx⟩
      have hK₄ : K (State.data c₄) := by
        rw [State.data, hdb₄]
        exact hgrows _ _ (hr₂.trans hr₃).grows hK
      refine settles_bind.2 (settles_tryCatch.2 (settles_bind.2
        ((hhandle c₃ c₄ hs₄ hidle₄ hcall₄ hK₄).imp ?_ ?_)))
      · rintro response s s' ⟨htransferred, hended⟩
        have hguar := guar_told htransferred fun c => hgrants.transferred _ _ _ c htransferred
        refine settles_bind.2 ((settles_tell _).2 (settles_bind.2 ((settles_store hguar
          ⟨request, hended.calls _ _ hcall₄, hheader⟩ (hended.lease.trans hlease₄)
          (by simp)).imp (fun _ _ _ h => h.1) fun _ _ _ h => h)))
      · rintro e s s' ⟨hsilent, hended, he⟩
        have hguar : (terms env σ).Guar p s (s'.tell p [.failed e]) :=
          silent_plain hsilent trivial (hgrants.failed e _ he)
        refine settles_bind.2 ((settles_tell _).2 (settles_bind.2 ((settles_release hguar
          ⟨_, hended.calls _ _ hcall₄⟩ (hended.lease.trans hlease₄)).imp
          (fun _ _ _ h => h.1) fun _ _ _ h => h)))

theorem transfer_settles (hs : (terms env σ).Silent p c c') (hidle : Idle p c')
    (hcall : c'.calls p = some (.transfer request)) (hgrants : σ.Grants env p request) :
    Answers env σ p (transfer env request) (fun _ => (terms env σ).Guar p)
      (fun _ => (terms env σ).Guar p) c c' := by
  refine settles_tryCatch.2 (Settles.imp (P := fun _ => (terms env σ).Guar p)
    (X := fun e c₁ c₂ => (terms env σ).Silent p c₁ c₂ ∧ Grounded env σ p request e)
    ?_ (fun _ _ _ h => h) ?_)
  · cases hrole : endpointRole request.endpoint with
    | none => exact ⟨hs, fun _ => .inadmissible fun h => h.endpoint hrole⟩
    | some role =>
        refine Reads.settles_bind (roleGuards_reads hidle.called hidle.tx hrole) hs ?_
          fun e c₁ c₂ hs₂ _ he => ⟨hs₂, he⟩
        rintro sub c₁ c₂ hs₂ hr₂ ⟨hactor, hvetted⟩
        have hmissing : (∀ key, request.idempotencyKey = some key → key = []) →
            Grounded env σ p request missingIdempotencyKey := by
          refine fun hnone _ => .inadmissible fun h => ?_
          obtain ⟨key, hkey, hgiven⟩ := h.key
          exact hgiven (hnone key hkey)
        split
        · rename_i hkey
          exact ⟨hs₂, hmissing (by simp [hkey])⟩
        · rename_i hkey
          exact ⟨hs₂, hmissing (by simp [hkey])⟩
        · rename_i key hgiven hkey
          refine intercept_settles (K := fun t => Vetted σ sub role t) hs₂ (hidle.rely hr₂)
            (hr₂.calls _ _ hcall) hkey hgrants hvetted (fun _ _ hg h => h.grows hg) ?_
          intro c₃ c₄ hs₄ hidle₄ hcall₄ hvetted₄
          refine settles_throwIf_bind (fun hinvalid => ⟨hs₄,
            (Rely.refl p c₄).ended hidle₄.tx, fun _ => .inadmissible fun h => ?_⟩)
            fun hvalid => ?_
          · simp [h.valid] at hinvalid
          · exact endpointHandler_settles hs₄ hidle₄ hcall₄ hrole hactor hvetted₄ hkey
              hgiven (by simpa using hvalid)
  · rintro e c₁ c₂ ⟨hsilent, he⟩
    exact silent_plain hsilent trivial (hgrants.failed e _ he)

end Kori
