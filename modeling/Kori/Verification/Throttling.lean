import Kori.Verification.Logins

/-!
# PIN guesses are bounded as long as admission keeps to the limit

A login reads the throttle before it compares and counts only afterwards, so logins that
overlap can pass the check together.  The bound holds in every stretch in which no login
is admitted beyond the limit.
-/

namespace Kori

open Foundation

section Throttling

variable {env : Env} {shared : Shared} {w w' w₀ : KoriWorld} {m : KoriMove} {p q : Pid}
variable {past earlier stretch before : List KoriMoment} {x y : KoriMoment}
variable {phone : JsString} {choice : Choice} {dto : AuthCredentialsDto}

/-! ## The counter and the throttle -/

def Redis.failures (r : Redis) (phone : JsString) : Nat :=
  match r (.loginFailure phone) with
  | some entry => entry.value
  | none => 0

theorem Redis.failures_congr {r r' : Redis}
    (h : r' (.loginFailure phone) = r (.loginFailure phone)) :
    r'.failures phone = r.failures phone := by
  unfold Redis.failures
  rw [h]

theorem Redis.failures_put {r : Redis} {count : Nat} :
    (r.put (.loginFailure phone) count p).failures phone = count := by
  unfold Redis.failures
  rw [Redis.put_self]

theorem Ran.failures {count : Nat} (h : Ran x p (.incrementWithTtl phone) count)
    (hm : x.1.move (kori env) x.2 = some w') :
    count = x.1.conf.shared.redis.failures phone + 1 ∧
      w'.conf.shared.redis.failures phone = x.1.conf.shared.redis.failures phone + 1 := by
  have hout : x.1.conf.shared.redis.failures phone + 1 = count := h.outcome
  refine ⟨hout.symm, ?_⟩
  rw [h.after hm]
  exact Redis.failures_put

theorem Ran.aboutTo {command : RedisCommand} {a : command.Ans} {k : RedisKey}
    (h : Ran (w, m) p command a) (hr : Run (kori env) (World.idle shared) past w)
    (hk : k = .loginFailure phone ∨ k = .loginThrottle phone) (hw : command.Writes k) :
    AboutTo env phone w p (.redis command) := by
  obtain ⟨answer, hans⟩ : ∃ answer,
    w.answered (kori env) m = some (p, ⟨.redis command, answer⟩) := h.answered
  obtain ⟨call, hcall, hasks⟩ := hr.asks obeyed hans
  obtain ⟨dto, rfl, hphone, -⟩ := (asks_redis hasks hw.not_free).login_keys hk hw
  exact ⟨⟨dto, hcall, hphone⟩, pending_answered hans⟩

theorem failures_same (hopening : Opening env shared)
    (hr : Run (kori env) (World.idle shared) past w) (hm : w.move (kori env) m = some w')
    (hkept : m ≠ .tick (.loginFailure phone)) (hwrong : WrongPin env phone (w, m))
    (hnot : ∀ p count, ¬Ran (w, m) p (.incrementWithTtl phone) count) :
    w'.conf.shared.redis.failures phone = w.conf.shared.redis.failures phone := by
  refine Redis.failures_congr ?_
  rcases redis_cases hm with hsame | ⟨k, rfl, hremove⟩ | ⟨p, command, a, hran⟩
  · rw [hsame]
  · rw [hremove]
    refine Redis.remove_of_ne ?_ _
    rintro rfl
    exact hkept rfl
  · rw [hran.after hm]
    by_cases hwrites : command.Writes (.loginFailure phone)
    · obtain ⟨dto, hcall, hphone, hasks⟩ := (hran.aboutTo hr (.inl rfl) hwrites).asks hr
      obtain ⟨choice, rfl⟩ := hran.step
      cases hasks with
      | record _ => exact absurd hran (hnot p a)
      | forget hverified => exact absurd hverified (hwrong.not_verified hopening hr hcall hphone)
      | establish _ _ hasks => cases hasks
      | throttle _ => exact hwrites.elim
      | impose _ _ _ | release _ | issue _ _ _ _ => simp [RedisCommand.Writes] at hwrites
    · exact Redis.exec_frame hwrites

theorem throttle_stays (hopening : Opening env shared)
    (hr : Run (kori env) (World.idle shared) past w) (hm : w.move (kori env) m = some w')
    (hkept : m ≠ .tick (.loginThrottle phone)) (hwrong : WrongPin env phone (w, m))
    (hset : (w.conf.shared.redis (.loginThrottle phone)).isSome) :
    (w'.conf.shared.redis (.loginThrottle phone)).isSome := by
  rcases redis_cases hm with hsame | ⟨k, rfl, hremove⟩ | ⟨p, command, a, hran⟩
  · rwa [hsame]
  · rw [hremove, Redis.remove_of_ne _ _]
    · exact hset
    · rintro rfl
      exact hkept rfl
  · rw [hran.after hm]
    by_cases hwrites : command.Writes (.loginThrottle phone)
    · obtain ⟨dto, hcall, hphone, hasks⟩ := (hran.aboutTo hr (.inr rfl) hwrites).asks hr
      obtain ⟨choice, rfl⟩ := hran.step
      cases hasks with
      | impose _ _ _ => simp [Redis.exec]
      | release hverified => exact absurd hverified (hwrong.not_verified hopening hr hcall hphone)
      | establish _ _ hasks => cases hasks
      | throttle _ => exact hwrites.elim
      | record _ | forget _ | issue _ _ _ _ => simp [RedisCommand.Writes] at hwrites
    · rwa [Redis.exec_frame hwrites]

/-! ## Comparisons -/

def comparesPin (env : Env) (phone : JsString) (x : KoriMoment) : Bool :=
  match x.2 with
  | .step p .go =>
      match x.1.pending p, x.1.conf.calls p with
      | some (.sql (.select (.devices _))), some (.login dto) =>
          phoneOf env dto.phone = some phone
      | _, _ => false
  | _ => false

theorem comparesPin_iff : comparesPin env phone x = true ↔
    ∃ p, x.2 = .step p .go ∧ Comparing env phone x.1 p := by
  constructor
  · intro h
    unfold comparesPin at h
    split at h
    · rename_i p hmove
      split at h
      · rename_i id dto hpending hcall
        exact ⟨p, hmove, id, ⟨dto, hcall, of_decide_eq_true h⟩, hpending⟩
      · simp at h
    · simp at h
  · rintro ⟨p, hmove, id, ⟨dto, hcall, hphone⟩, hpending⟩
    simp [comparesPin, hmove, hcall, hpending, hphone]

/-! ## Orderly stretches -/

/-- In the moment `x` no login is admitted beyond the limit, and none is kept from
counting its failure. -/
structure Orderly (env : Env) (phone : JsString) (x : KoriMoment) : Prop where
  admits : ∀ p, x.2 = .step p .go → Reading env phone x.1 p →
    x.1.conf.shared.redis (.loginThrottle phone) = none →
    (∀ q, ¬InFlight env phone x.1 q ∧ ¬Imposing env phone x.1 q) ∨
    ∃ qs : Finset Pid, (∀ q, InFlight env phone x.1 q → q ∈ qs) ∧
      (x.1.conf.shared.redis.failures phone + qs.card : Int) < env.loginMaxFailures
  answered : ∀ p choice, x.2 = .step p choice →
    Reading env phone x.1 p ∨ Recording env phone x.1 p ∨ Imposing env phone x.1 p →
    choice = .go
  settles : ∀ p, x.2 = .crash p → ¬Recording env phone x.1 p ∧ ¬Imposing env phone x.1 p

/-- There is room below the limit for every login that is under way. -/
def Room (env : Env) (phone : JsString) (w : KoriWorld) : Prop :=
  ∃ ps : Finset Pid, (∀ p, InFlight env phone w p → p ∈ ps) ∧
    (w.conf.shared.redis.failures phone + ps.card : Int) ≤ env.loginMaxFailures

def Counted (env : Env) (phone : JsString) (stretch : List KoriMoment) (w : KoriWorld) : Prop :=
  ∃ ps : Finset Pid, (∀ p ∈ ps, Recording env phone w p) ∧
    stretch.countP (comparesPin env phone) ≤ w.conf.shared.redis.failures phone + ps.card

def Closing (env : Env) (phone : JsString) (w : KoriWorld) : Prop :=
  (w.conf.shared.redis.failures phone : Int) ≥ env.loginMaxFailures →
    (w.conf.shared.redis (.loginThrottle phone)).isSome ∨ ∃ p, Imposing env phone w p

theorem Ran.recording {count : Nat} (h : Ran (w, m) p (.incrementWithTtl phone) count)
    (hr : Run (kori env) (World.idle shared) past w) : Recording env phone w p :=
  h.aboutTo hr (.inl rfl) rfl

theorem answered_unthrottled
    (hans : w.answered (kori env) m = some (p, unthrottled phone)) :
    m = .step p .go ∧ w.conf.shared.redis (.loginThrottle phone) = none := by
  obtain ⟨choice, s, hstep, hexec⟩ := answered_exec (x := (w, m)) hans
  obtain ⟨rfl, hnone⟩ := exec_redis_ok hexec
  refine ⟨hstep, ?_⟩
  simpa [Redis.exec] using hnone.symm

theorem Room.step (hopening : Opening env shared)
    (hr : Run (kori env) (World.idle shared) past w) (hm : w.move (kori env) m = some w')
    (hkept : m ≠ .tick (.loginFailure phone)) (hwrong : WrongPin env phone (w, m))
    (horderly : Orderly env phone (w, m)) (hclosing : Closing env phone w)
    (h : Room env phone w) : Room env phone w' := by
  obtain ⟨ps, hps, hroom⟩ := h
  by_cases hadmits : ∃ p, Reading env phone w p ∧
      w.answered (kori env) m = some (p, unthrottled phone)
  · -- one more login is under way
    obtain ⟨p, hreading, hans⟩ := hadmits
    obtain ⟨rfl, hnone⟩ := answered_unthrottled hans
    have hsame := failures_same hopening hr hm hkept hwrong fun q count hran => by
      have hrecording := hran.recording hr
      obtain ⟨choice, hmove⟩ := hran.step
      obtain ⟨rfl, -⟩ := Move.step.inj hmove
      simpa using hreading.unique hrecording
    have hcomes : ∀ q, InFlight env phone w' q → InFlight env phone w q ∨ q = p := by
      intro q hq
      rcases hq.comes hr hm with ⟨hbefore, -⟩ | ⟨-, hans'⟩
      · exact .inl hbefore
      · exact .inr (Prod.mk.inj (Option.some.inj (hans'.symm.trans hans))).1
    rcases horderly.admits p rfl hreading hnone with hfree | ⟨qs, hqs, hbelow⟩
    · refine ⟨{p}, fun q hq => ?_, ?_⟩
      · rcases hcomes q hq with hbefore | rfl
        · exact absurd hbefore (hfree q).1
        · simp
      · have hopen : ¬(w.conf.shared.redis.failures phone : Int) ≥ env.loginMaxFailures := by
          intro hlimit
          rcases hclosing hlimit with hset | ⟨q, himposing⟩
          · simp [hnone] at hset
          · exact (hfree q).2 himposing
        rw [hsame, Finset.card_singleton]
        omega
    · refine ⟨insert p qs, fun q hq => ?_, ?_⟩
      · rcases hcomes q hq with hbefore | rfl
        · exact Finset.mem_insert_of_mem (hqs q hbefore)
        · exact Finset.mem_insert_self q qs
      · have hcard := Finset.card_insert_le p qs
        simp only at hbelow
        rw [hsame]
        omega
  · have hcomes : ∀ q, InFlight env phone w' q → InFlight env phone w q ∧
        ∀ choice, m = .step q choice → ¬Recording env phone w q := by
      intro q hq
      rcases hq.comes hr hm with hbefore | hans
      · exact hbefore
      · exact absurd ⟨q, hans⟩ hadmits
    by_cases hcount : ∃ p count, Ran (w, m) p (.incrementWithTtl phone) count
    · -- the failure of `p` is counted, and `p` is not under way any more
      obtain ⟨p, count, hran⟩ := hcount
      have hrecording := hran.recording hr
      have hmem : p ∈ ps := hps p ⟨_, hrecording, .record⟩
      refine ⟨ps.erase p, fun q hq => ?_, ?_⟩
      · obtain ⟨hbefore, hnot⟩ := hcomes q hq
        refine Finset.mem_erase.2 ⟨?_, hps q hbefore⟩
        rintro rfl
        obtain ⟨choice, hmove⟩ := hran.step
        exact hnot choice hmove hrecording
      · have hcard := Finset.card_erase_add_one hmem
        have hnext := (hran.failures hm).2
        simp only at hnext
        rw [hnext]
        omega
    · refine ⟨ps, fun q hq => hps q (hcomes q hq).1, ?_⟩
      rw [failures_same hopening hr hm hkept hwrong fun p count hran => hcount ⟨p, count, hran⟩]
      exact hroom

theorem Orderly.go (h : Orderly env phone (w, m)) (hm : m = .step p choice)
    (hwaits : Recording env phone w p ∨ Imposing env phone w p) : m = .step p .go := by
  subst hm
  rw [h.answered p choice rfl (.inr hwaits)]

theorem Ran.of_go {command : RedisCommand} (hm : w.move (kori env) (.step p .go) = some w')
    (hpending : w.pending p = some (.redis command)) :
    ∃ a, Ran (w, .step p .go) p command a := by
  obtain ⟨op, next, a, s, hproc, hexec, -⟩ := World.step_cases hm
  rw [World.pending, hproc] at hpending
  obtain rfl : op = .redis command := Option.some.inj hpending
  exact ⟨_, .inl rfl, ⟨next, hproc⟩, rfl⟩

theorem Counted.step (hopening : Opening env shared)
    (hr : Run (kori env) (World.idle shared) past w) (hm : w.move (kori env) m = some w')
    (hkept : m ≠ .tick (.loginFailure phone)) (hwrong : WrongPin env phone (w, m))
    (horderly : Orderly env phone (w, m)) (h : Counted env phone stretch w) :
    Counted env phone ((w, m) :: stretch) w' := by
  obtain ⟨ps, hps, hcounted⟩ := h
  have hstays : ∀ q ∈ ps, (∀ choice, m ≠ .step q choice) → Recording env phone w' q := by
    intro q hq hstep
    exact (hps q hq).stays hm hstep fun hcrash => (horderly.settles q hcrash).1 (hps q hq)
  have hmover : ∀ q ∈ ps, ∀ choice, m = .step q choice →
      ∃ count, Ran (w, m) q (.incrementWithTtl phone) count := by
    intro q hq choice hmove
    obtain rfl := horderly.go hmove (.inl (hps q hq))
    exact Ran.of_go hm (hps q hq).pending
  cases hcompares : comparesPin env phone (w, m) with
  | true =>
      -- the comparison is followed by the count
      obtain ⟨p, rfl, hcomparing⟩ := comparesPin_iff.1 hcompares
      have hnot : ∀ q count, ¬Ran (w, .step p .go) q (.incrementWithTtl phone) count := by
        intro q count hran
        obtain ⟨choice, hmove⟩ := hran.step
        obtain ⟨rfl, -⟩ := Move.step.inj hmove
        obtain ⟨id, habout⟩ := hcomparing
        simpa using habout.unique (hran.recording hr)
      have hnew : p ∉ ps := by
        intro hmem
        obtain ⟨count, hran⟩ := hmover p hmem .go rfl
        exact hnot p count hran
      refine ⟨insert p ps, fun q hq => ?_, ?_⟩
      · rcases Finset.mem_insert.1 hq with rfl | hmem
        · exact hcomparing.recording hopening hr hwrong hm
        · refine hstays q hmem fun choice hmove => ?_
          obtain ⟨count, hran⟩ := hmover q hmem choice hmove
          exact hnot q count hran
      · rw [List.countP_cons_of_pos hcompares, Finset.card_insert_of_notMem hnew,
          failures_same hopening hr hm hkept hwrong hnot]
        omega
  | false =>
      rw [← Bool.not_eq_true] at hcompares
      by_cases hcount : ∃ p count, Ran (w, m) p (.incrementWithTtl phone) count
      · obtain ⟨p, count, hran⟩ := hcount
        refine ⟨ps.erase p, fun q hq => ?_, ?_⟩
        · obtain ⟨hne, hmem⟩ := Finset.mem_erase.1 hq
          refine hstays q hmem fun choice hmove => hne ?_
          obtain ⟨choice', hmove'⟩ := hran.step
          exact (Move.step.inj (hmove.symm.trans hmove')).1
        · have hcard := Finset.pred_card_le_card_erase (s := ps) (a := p)
          have hnext := (hran.failures hm).2
          simp only at hnext
          rw [List.countP_cons_of_neg hcompares, hnext]
          omega
      · refine ⟨ps, fun q hq => ?_, ?_⟩
        · refine hstays q hq fun choice hmove => hcount ?_
          obtain ⟨count, hran⟩ := hmover q hq choice hmove
          exact ⟨q, count, hran⟩
        · rw [List.countP_cons_of_neg hcompares, failures_same hopening hr hm hkept hwrong
            fun p count hran => hcount ⟨p, count, hran⟩]
          exact hcounted

theorem Closing.step (hopening : Opening env shared)
    (hr : Run (kori env) (World.idle shared) past w) (hm : w.move (kori env) m = some w')
    (hkept : m ≠ .tick (.loginFailure phone)) (hkept' : m ≠ .tick (.loginThrottle phone))
    (hwrong : WrongPin env phone (w, m)) (horderly : Orderly env phone (w, m))
    (h : Closing env phone w) : Closing env phone w' := by
  intro hlimit
  by_cases hcount : ∃ p count, Ran (w, m) p (.incrementWithTtl phone) count
  · -- the login that counts up to the limit imposes the throttle next
    obtain ⟨p, count, hran⟩ := hcount
    have hrecording := hran.recording hr
    obtain ⟨choice, hmove⟩ := hran.step
    obtain rfl := horderly.go hmove (.inl hrecording)
    obtain ⟨hcounted, hnext⟩ := hran.failures hm
    simp only at hcounted hnext
    obtain ⟨e, hans, -, -⟩ := step_answered hm
    obtain ⟨choice, s, hstep, hexec⟩ := answered_exec (x := (w, .step p .go)) hans
    obtain ⟨-, rfl⟩ := Move.step.inj hstep
    obtain ⟨op, answer⟩ := e
    obtain rfl : _ = op :=
      Option.some.inj (hrecording.pending.symm.trans (pending_answered hans))
    obtain ⟨rfl, -⟩ := Prod.mk.inj (Option.some.inj hexec)
    refine .inr ⟨p, hrecording.imposing hr hm hans ?_⟩
    have hout : (w.conf.shared.redis.exec p (.incrementWithTtl phone)).1 = count := hran.outcome
    rw [hnext] at hlimit
    change ((w.conf.shared.redis.exec p (.incrementWithTtl phone)).1 : Int) ≥ _
    rw [hout, hcounted]
    exact hlimit
  · rw [failures_same hopening hr hm hkept hwrong fun p count hran =>
      hcount ⟨p, count, hran⟩] at hlimit
    rcases h hlimit with hset | ⟨p, himposing⟩
    · exact .inl (throttle_stays hopening hr hm hkept' hwrong hset)
    · by_cases hmove : ∃ choice, m = .step p choice
      · obtain ⟨choice, hmove⟩ := hmove
        obtain rfl := horderly.go hmove (.inr himposing)
        obtain ⟨a, hran⟩ := Ran.of_go hm himposing.pending
        refine .inl ?_
        rw [hran.after hm]
        simp [Redis.exec]
      · refine .inr ⟨p, himposing.stays hm (fun choice heq => hmove ⟨choice, heq⟩) ?_⟩
        exact fun hcrash => (horderly.settles p hcrash).2 himposing

/-! ## Stretches of a run -/

/-- The stretch starts without a counted failure and with room for the logins under way,
nothing expires in it, every PIN is wrong and every moment orderly. -/
structure Stretch (env : Env) (phone : JsString) (w₀ : KoriWorld) (stretch : List KoriMoment) :
    Prop where
  fresh : w₀.conf.shared.redis (.loginFailure phone) = none
  room : ∃ ps : Finset Pid, (∀ p, InFlight env phone w₀ p → p ∈ ps) ∧
    (ps.card : Int) ≤ env.loginMaxFailures
  kept : ∀ x ∈ stretch, x.2 ≠ .tick (.loginFailure phone) ∧ x.2 ≠ .tick (.loginThrottle phone)
  wrong : ∀ x ∈ stretch, WrongPin env phone x
  orderly : ∀ x ∈ stretch, Orderly env phone x

theorem Stretch.suffix (h : Stretch env phone w₀ stretch) (hbefore : before <:+ stretch) :
    Stretch env phone w₀ before where
  fresh := h.fresh
  room := h.room
  kept := fun y hy => h.kept y (hbefore.subset hy)
  wrong := fun y hy => h.wrong y (hbefore.subset hy)
  orderly := fun y hy => h.orderly y (hbefore.subset hy)

theorem run_stretch (hopening : Opening env shared) (hmax : 1 ≤ env.loginMaxFailures)
    (hearlier : Run (kori env) (World.idle shared) earlier w₀)
    (hrun : Run (kori env) w₀ stretch w) (h : Stretch env phone w₀ stretch) :
    Room env phone w ∧ Counted env phone stretch w ∧ Closing env phone w := by
  induction hrun with
  | nil =>
      have hzero : w₀.conf.shared.redis.failures phone = 0 := by
        simp [Redis.failures, h.fresh]
      obtain ⟨ps, hps, hcard⟩ := h.room
      refine ⟨⟨ps, hps, ?_⟩, ⟨∅, by simp, by simp⟩, fun hlimit => ?_⟩
      · rw [hzero]
        omega
      · rw [hzero] at hlimit
        omega
  | @cons stretch w w' m hr hm ih =>
      obtain ⟨hroom, hcounted, hclosing⟩ := ih (h.suffix (List.suffix_cons _ _))
      obtain ⟨hkept, hkept'⟩ := h.kept (w, m) (.head _)
      have hwrong := h.wrong (w, m) (.head _)
      have horderly := h.orderly (w, m) (.head _)
      have hrun := hearlier.trans hr
      exact ⟨hroom.step hopening hrun hm hkept hwrong horderly hclosing,
        hcounted.step hopening hrun hm hkept hwrong horderly,
        hclosing.step hopening hrun hm hkept hkept' hwrong horderly⟩

/-- Comparisons that are counted keep below the limit. -/
theorem Counted.below (h : Counted env phone stretch w) {ps : Finset Pid} {limit : Int}
    (hps : ∀ p, InFlight env phone w p → p ∈ ps)
    (hroom : (w.conf.shared.redis.failures phone + ps.card : Int) ≤ limit) :
    (stretch.countP (comparesPin env phone) : Int) ≤ limit := by
  obtain ⟨rs, hrs, hcounted⟩ := h
  have hcard := Finset.card_le_card fun q hq => hps q ⟨_, hrs q hq, .record⟩
  omega

theorem reads_throttle (hopening : Opening env shared) (hmax : 1 ≤ env.loginMaxFailures)
    (hearlier : Run (kori env) (World.idle shared) earlier w₀)
    (hrun : Run (kori env) w₀ before w) (h : Stretch env phone w₀ ((w, .step p .go) :: before))
    (hreading : Reading env phone w p)
    (hlimit : env.loginMaxFailures ≤ before.countP (comparesPin env phone)) :
    (w.conf.shared.redis (.loginThrottle phone)).isSome := by
  obtain ⟨-, hcounted, hclosing⟩ :=
    run_stretch hopening hmax hearlier hrun (h.suffix (List.suffix_cons _ _))
  by_contra hnot
  have hnone := Option.not_isSome_iff_eq_none.1 hnot
  rcases (h.orderly _ (.head _)).admits p rfl hreading hnone with hfree | ⟨qs, hqs, hbelow⟩
  · have hnobody : ∀ q, InFlight env phone w q → q ∈ (∅ : Finset Pid) :=
      fun q hq => absurd hq (hfree q).1
    have hall := hcounted.below hnobody le_rfl
    rcases hclosing (by simpa using hlimit.trans hall) with hset | ⟨q, himposing⟩
    · exact hnot hset
    · exact (hfree q).2 himposing
  · have hall := hcounted.below hqs le_rfl
    simp only at hbelow
    omega

def throttled (phone : JsString) : Entry Op Op.Ans :=
  ⟨.redis (.get (.loginThrottle phone)), .ok (some ())⟩

structure Throttled (env : Env) (phone : JsString) (past : List KoriMoment) (p : Pid)
    (dto : AuthCredentialsDto) : Prop where
  normalised : phoneOf env dto.phone = some phone
  valid : env.validates (.credentials dto) = true
  first : [throttled phone] <:+ heard (kori env) p past

theorem Reading.first (h : Reading env phone w p)
    (hr : Run (kori env) (World.idle shared) past w) : heard (kori env) p past = [] := by
  obtain ⟨dto, -, -, hasks⟩ := h.asks hr
  cases hasks with
  | throttle hpast => exact hpast
  | establish _ _ hasks => cases hasks

theorem answered_throttled (hm : w.move (kori env) (.step p .go) = some w')
    (hpending : w.pending p = some (.redis (.get (.loginThrottle phone))))
    (hset : (w.conf.shared.redis (.loginThrottle phone)).isSome) :
    w.answered (kori env) (.step p .go) = some (p, throttled phone) := by
  obtain ⟨op, next, a, s, hproc, hexec, -⟩ := World.step_cases hm
  rw [World.pending, hproc] at hpending
  obtain rfl : op = _ := Option.some.inj hpending
  obtain ⟨entry, hentry⟩ := Option.isSome_iff_exists.1 hset
  obtain rfl : .ok (some ()) = a := by
    have hanswer := (Prod.mk.inj (Option.some.inj hexec)).1
    simpa [Redis.exec, hentry] using hanswer
  exact World.answered_step hproc hexec

theorem reading_throttled (hr : Run (kori env) (World.idle shared) past w)
    (hx : (w', .step p .go) :: before <:+ past) (hreading : Reading env phone w' p)
    (hset : (w'.conf.shared.redis (.loginThrottle phone)).isSome) :
    ∃ dto, w.conf.calls p = some (.login dto) ∧ Throttled env phone past p dto := by
  obtain ⟨hrx, w₁, later, hm, -, rfl⟩ := hr.at hx
  obtain ⟨dto, hcall, hphone, -⟩ := hreading.asks hrx
  have hans := answered_throttled hm hreading.pending hset
  obtain ⟨call, hcalled, hasked⟩ := hrx.asks obeyed hans
  obtain rfl := Option.some.inj (hcall.symm.trans hcalled)
  have hcons : heard (kori env) p ((w', .step p .go) :: before) = [throttled phone] := by
    rw [heard_cons_self hans, hreading.first hrx]
  exact ⟨dto, hr.called_at hx hcall, hphone, hasked.1, hcons ▸ heard_suffix hx⟩

theorem Throttled.not_comparing (h : Throttled env phone past p dto)
    (hr : Run (kori env) (World.idle shared) past w) : ¬Comparing env phone w p := by
  rintro ⟨id, habout⟩
  obtain ⟨dto', -, -, hasks⟩ := habout.asks hr
  cases hasks with
  | compare hpast _ =>
      have hfirst := h.first
      rw [hpast] at hfirst
      rcases List.suffix_cons_iff.1 hfirst with hall | hfirst
      · simp at hall
      · rcases List.suffix_cons_iff.1 hfirst with hall | hnone
        · simp [throttled, unthrottled] at hall
        · simp at hnone
  | establish _ _ hasks => cases hasks

theorem Throttled.told (h : Throttled env phone past p dto)
    (hr : Run (kori env) (World.idle shared) past w)
    (hcall : w.conf.calls p = some (.login dto)) {reply : Reply}
    (hreply : (p, reply) ∈ w.conf.out) : reply = .failed tooManyLogins := by
  obtain ⟨later, before, rfl, htells⟩ := ((hr.kept obeyed).1 p).told _ reply hcall hreply
  have htells : LoginTells phone (heard (kori env) p before) reply :=
    htells h.valid phone h.normalised
  refine htells.throttled ?_
  have hsuffix : heard (kori env) p before <:+ heard (kori env) p (later ++ before) :=
    heard_suffix (List.suffix_append later before)
  rcases List.suffix_or_suffix_of_suffix h.first hsuffix with hheard | hheard
  · exact hheard.subset (.head _)
  · rcases List.suffix_cons_iff.1 hheard with heq | hnil
    · rw [heq]
      exact .head _
    · exact absurd (List.suffix_nil.1 hnil) htells.asked

end Throttling

end Kori
