import Kori.Idempotency.Answers

/-!
# The idempotency cache

Whose response the interceptor answers with, and whose marker the error path of
a request deletes.  The key under which both are stored is the header alone.
-/

namespace Kori

open Foundation

variable {env : Env} {shared : Shared} {w : KoriWorld} {p q : Pid} {c c' : State}
variable {response : TransactionResultResponse}

/-! ## Stored responses -/

/-- A stored response was reported by the request that stored it, which carries
the header. -/
def Remembered (c : State) : Prop :=
  ∀ header response writer,
    c.shared.redis (.idempotency header) = some ⟨.response response, writer⟩ →
    (writer, .transferred response) ∈ c.out ∧ c.Requested writer header

theorem State.Requested.later {header : JsString} (h : c.Requested p header)
    (hcalls : ∀ q call, c.calls q = some call → c'.calls q = some call) :
    c'.Requested p header := by
  obtain ⟨request, hcall, hheader⟩ := h
  exact ⟨request, hcalls _ _ hcall, hheader⟩

theorem Remembered.guar (h : Remembered c) (hg : Guar env p c c') : Remembered c' := by
  intro header response writer hentry
  rcases hg.cache.entry header with
    hsame | ⟨hnone, -⟩ | ⟨-, -, hmarker⟩ | ⟨stored, hstored, -, hreq, hsaid, -⟩
  · obtain ⟨hsaid, hreq⟩ := h header response writer (hsame ▸ hentry)
    exact ⟨hg.said hsaid, hreq.later hg.calls⟩
  · simp [hnone] at hentry
  · simp [hmarker] at hentry
  · rw [hstored] at hentry
    simp only [Option.some.injEq, RedisEntry.mk.injEq, IdempotencyCacheState.response.injEq]
      at hentry
    obtain ⟨rfl, rfl⟩ := hentry
    exact ⟨hg.said hsaid, hreq.later hg.calls⟩

theorem Remembered.still (h : Remembered c) (hs : Still c c') : Remembered c' := by
  intro header response writer hentry
  obtain ⟨hsaid, hreq⟩ := h header response writer (hs.cache header _ hentry)
  exact ⟨hs.out ▸ hsaid, hreq.later (by simp [hs.calls])⟩

variable {allowed : KoriWorld → KoriMove → KoriWorld → Prop}

theorem run_remembered (hopening : Opening env shared)
    (hcache : ∀ header, shared.redis (.idempotency header) = none)
    (hr : Reach (kori env) allowed (World.idle shared) w) : Remembered w.conf := by
  refine run_preserves (P := Remembered) hopening.sound ?_ (fun _ _ _ _ hg h => h.guar hg)
    (fun _ _ hs h => h.still hs) hr
  intro header response writer hentry
  simp [World.idle, hcache] at hentry

/-! ## Answers from the cache -/

theorem Effect.replayed_or {t : Data} {replies : List Reply} (h : Effect env p c t replies)
    (hmem : Reply.replayed response ∈ replies) : ∃ header, c.Requested p header := by
  have hplain : (∀ e ∈ replies, e.Plain) → ∃ header, c.Requested p header :=
    fun hes => (hes _ hmem).elim
  cases h with
  | replayed hreq _ => exact ⟨_, hreq⟩
  | none hes | froze _ _ hes | activated _ _ _ _ hes | suspended _ _ _ _ _ _ _ _ hes
  | reactivated _ _ _ hes | enrolledNew _ _ _ _ hes | approved _ _ hes
  | renewed _ _ hes => exact hplain hes
  | transferred _ | registered _ _ => simp at hmem
  | device _ hstep =>
      cases hstep with
      | signedIn _ _ _ _ _ _ | rotated _ _ _ _ _ => simp at hmem
      | replayed _ _ _ _ hes | loggedOut _ _ _ _ hes | revoked _ hes
      | enrolled _ hes => exact hplain hes

theorem run_replays (hopening : Opening env shared)
    (hr : Reach (kori env) allowed (World.idle shared) w)
    (hmem : (p, .replayed response) ∈ w.conf.out) :
    ∃ request, w.conf.calls p = some (.transfer request) := by
  have hall : ∀ p response, (p, .replayed response) ∈ w.conf.out →
      ∃ header, State.Requested w.conf p header := by
    refine run_preserves (P := fun c => ∀ p response, (p, .replayed response) ∈ c.out →
      ∃ header, State.Requested c p header) hopening.sound (by simp [World.idle]) ?_ ?_ hr
    · intro q c c' hi hg h p response hp
      obtain ⟨replies, hout, heffect⟩ := hg.effect
      rw [hout, List.mem_append] at hp
      rcases hp with hp | hp
      · obtain ⟨header, hreq⟩ := h p response hp
        exact ⟨header, hreq.later hg.calls⟩
      · obtain ⟨e, he, heq⟩ := List.mem_map.1 hp
        obtain ⟨rfl, rfl⟩ := Prod.mk.inj heq
        obtain ⟨header, hreq⟩ := heffect.replayed_or he
        exact ⟨header, hreq.later hg.calls⟩
    · intro c c' hs h p response hp
      obtain ⟨header, hreq⟩ := h p response (hs.out ▸ hp)
      exact ⟨header, hreq.later (by simp [hs.calls])⟩
  obtain ⟨header, request, hcall, -⟩ := hall p response hmem
  exact ⟨request, hcall⟩

def State.SameRequest (c : State) (p q : Pid) : Prop :=
  ∃ request request', c.calls p = some (.transfer request) ∧
    c.calls q = some (.transfer request') ∧ request.actor = request'.actor ∧
    request.endpoint = request'.endpoint ∧ request.body = request'.body

theorem State.SameRequest.later (h : c.SameRequest p q)
    (hcalls : ∀ q call, c.calls q = some call → c'.calls q = some call) :
    c'.SameRequest p q := by
  obtain ⟨request, request', hp, hq, hsame⟩ := h
  exact ⟨request, request', hcalls _ _ hp, hcalls _ _ hq, hsame⟩

/-- Whatever was answered from the cache is the response to the same request. -/
def OwnAnswers (c : State) : Prop :=
  ∀ p response, (p, .replayed response) ∈ c.out →
    ∃ q, c.SameRequest p q ∧ (q, .transferred response) ∈ c.out

/-- When `p` looks up the header while a response is stored under it, all
successful requests with the header are the same request as `p`. -/
def Coincides (p : Pid) (header : JsString) (c : State) : Prop :=
  (∃ response writer,
    c.shared.redis (.idempotency header) = some ⟨.response response, writer⟩) →
  ∀ q response, c.Requested q header → (q, .transferred response) ∈ c.out →
    c.SameRequest p q

def Coincident (w : KoriWorld) (m : KoriMove) (_ : KoriWorld) : Prop :=
  ∀ p header, m = .step p .go →
    w.pending p = some (.redis (.get (.idempotency header))) → Coincides p header w.conf

def coincidentScope (p : Pid) : Scope where
  holds := Remembered
  meets _ op choice c := ∀ header, op = .redis (.get (.idempotency header)) →
    choice = .go → Coincides p header c
  permits _ e c := ∀ response, e = .replayed response →
    ∃ q, c.SameRequest p q ∧ (q, .transferred response) ∈ c.out

theorem coincidentScope_grants (request : TransferRequest) :
    (coincidentScope p).Grants env p request where
  failed := by simp [coincidentScope]
  transferred := by simp [coincidentScope]
  replayed := by
    intro response header writer s c hholds hreq hentry hmeets hcalls hout response' heq
    obtain rfl := Reply.replayed.inj heq
    obtain ⟨hsaid, hwriter⟩ := hholds header response writer hentry
    refine ⟨writer, ?_, hout _ hsaid⟩
    exact (hmeets header rfl rfl ⟨response, writer, hentry⟩ writer response hwriter
      hsaid).later (by simp [hcalls])

theorem answers_own (hopening : Opening env shared)
    (hcache : ∀ header, shared.redis (.idempotency header) = none)
    (hr : Reach (kori env) Coincident (World.idle shared) w) : OwnAnswers w.conf := by
  intro p response hmem
  obtain ⟨request, hcall⟩ := run_replays hopening hr hmem
  obtain ⟨before, after, hbefore, hmove, hallowed, hafter⟩ := hr.arrival rfl hcall
  have hs := (contract env).sound hopening.sound hbefore
  have hnew : before.conf.calls p = none := by
    cases hcalls : before.conf.calls p with
    | none => rfl
    | some old => simp [World.move, hcalls] at hmove
  have hfollow := arrival_answers (σ := coincidentScope p) hs hmove
    (transfer_settles (silent_arrive hs.inv.1 hnew _) (idle_arrive hs.inv.1 hnew _)
      (Function.update_self ..) (coincidentScope_grants request))
    (run_spoken hopening hbefore hnew)
    (fun w hw => run_remembered hopening hcache ((hbefore.move hmove hallowed).trans hw))
    (fun w choice w' op next hw ha hproc header hop hchoice => by
      subst hop hchoice
      refine ha p header rfl ?_
      rw [World.pending, hproc]
      rfl)
    hafter hmem
  obtain ⟨w', hw', hw, hpermits⟩ := hfollow
  obtain ⟨q, hsame, hsaid⟩ := hpermits response rfl
  have hs' := (contract env).sound hopening.sound ((hbefore.move hmove hallowed).trans hw')
  obtain ⟨hout, hcalls⟩ := run_keeps hs' hw
  exact ⟨q, hsame.later hcalls, hout _ hsaid⟩

namespace Sample

def replayMoves (request : TransferRequest) : List KoriMove :=
  transferMoves 0 (transferRequest 1 "2" "600") (transferChoices 55 11 12) ++
    .step 0 .go :: transferMoves 1 request [.go, .go]

def replayedTo (request : TransferRequest) (w : KoriWorld) : Bool :=
  (match w.conf.out with
    | [(0, .transferred _), (1, .replayed _)] => true
    | _ => false) &&
  w.conf.calls 0 = some (.transfer (transferRequest 1 "2" "600")) &&
  w.conf.calls 1 = some (.transfer request)

def sameRequest (c : State) (p q : Pid) : Bool :=
  match c.calls p, c.calls q with
  | some (.transfer request), some (.transfer request') =>
      request.actor = request'.actor && request.endpoint = request'.endpoint &&
        request.body = request'.body
  | _, _ => false

def onlyRetries (w : KoriWorld) (m : KoriMove) (_ : KoriWorld) : Bool :=
  match m with
  | .step p _ => w.conf.out.all fun x => sameRequest w.conf p x.1
  | _ => true

theorem coincident_of_onlyRetries (w : KoriWorld) (m : KoriMove) (w' : KoriWorld)
    (h : onlyRetries w m w' = true) : Coincident w m w' := by
  rintro p header rfl - - q response - hsaid
  have hsame := List.all_eq_true.1 h _ hsaid
  simp only [sameRequest] at hsame
  split at hsame
  · rename_i request request' hp hq
    simp only [Bool.and_eq_true, decide_eq_true_eq] at hsame
    exact ⟨request, request', hp, hq, hsame.1.1, hsame.1.2, hsame.2⟩
  · simp at hsame

theorem out_of_replayedTo {request : TransferRequest} {w : KoriWorld}
    (h : replayedTo request w = true) : ∃ response response',
    w.conf.out = [(0, .transferred response), (1, .replayed response')] ∧
      w.conf.calls 0 = some (.transfer (transferRequest 1 "2" "600")) ∧
      w.conf.calls 1 = some (.transfer request) := by
  simp only [replayedTo, Bool.and_eq_true, decide_eq_true_eq] at h
  obtain ⟨⟨hout, hfirst⟩, hsecond⟩ := h
  split at hout
  · exact ⟨_, _, by assumption, hfirst, hsecond⟩
  · simp at hout

end Sample

theorem answers_own_of_retry : ∃ w response,
    Reach (kori Sample.env) Coincident (World.idle Sample.shared) w ∧ OwnAnswers w.conf ∧
      (1, .replayed response) ∈ w.conf.out := by
  obtain ⟨w, hr, hw⟩ := Sample.reaches_if
    (Sample.replayMoves (Sample.transferRequest 1 "2" "600"))
    (Sample.replayedTo (Sample.transferRequest 1 "2" "600")) Sample.onlyRetries
    Sample.coincident_of_onlyRetries (by decide +kernel)
  obtain ⟨response, response', hout, -⟩ := Sample.out_of_replayedTo hw
  exact ⟨w, response', hr, answers_own Sample.opening (fun _ => rfl) hr, by simp [hout]⟩

/-- The second customer receives the first customer's response. -/
theorem answers_own_fails : ∃ w, Reachable (kori Sample.env) (World.idle Sample.shared) w ∧
    ¬OwnAnswers w.conf := by
  obtain ⟨w, hr, hw⟩ := Sample.reaches (Sample.replayMoves (Sample.transferRequest 2 "1" "50"))
    (Sample.replayedTo (Sample.transferRequest 2 "1" "50")) (by decide +kernel)
  obtain ⟨response, response', hout, hfirst, hsecond⟩ := Sample.out_of_replayedTo hw
  refine ⟨w, hr, fun hown => ?_⟩
  obtain ⟨q, ⟨request, request', hp, hq, hactor, -⟩, hsaid⟩ := hown 1 response' (by simp [hout])
  simp only [hout, List.mem_cons, Prod.mk.injEq, Reply.transferred.injEq, reduceCtorEq,
    and_false, List.not_mem_nil, or_false] at hsaid
  obtain ⟨rfl, -⟩ := hsaid
  rw [hfirst, Option.some.injEq, Call.transfer.injEq] at hq
  rw [hsecond, Option.some.injEq, Call.transfer.injEq] at hp
  subst hp hq
  revert hactor
  decide

end Kori
