import Kori.Verification.Throttling

/-!
# PIN guesses

How many PINs are compared in a stretch, and what happens at the limit.  Without the
condition on the order of the logins the limit does not hold: six logins that all read
the throttle before the first of them counts its failure have six PINs compared.
-/

namespace Kori

open Foundation

section Guesses

variable {env : Env} {shared : Shared} {w w₀ : KoriWorld} {p : Pid} {phone : JsString}
variable {past earlier stretch : List KoriMoment} {x : KoriMoment} {dto : AuthCredentialsDto}

/-- In an orderly stretch at most as many PINs are compared as failures are allowed, and
every login that comes after that many is refused before its PIN is compared. -/
theorem login_guesses_bounded (hopening : Opening env shared) (hmax : 1 ≤ env.loginMaxFailures)
    (hearlier : Run (kori env) (World.idle shared) earlier w₀)
    (hrun : Run (kori env) w₀ stretch w) (h : Stretch env phone w₀ stretch) :
    stretch.countP (comparesPin env phone) ≤ env.loginMaxFailures.toNat ∧
      ∀ x before p, x :: before <:+ stretch → x.2 = .step p .go → Reading env phone x.1 p →
        env.loginMaxFailures ≤ before.countP (comparesPin env phone) →
        (∀ y ∈ stretch, y.2 = .step p .go → ¬Comparing env phone y.1 p) ∧
          ∀ reply, (p, reply) ∈ w.conf.out → reply = .failed tooManyLogins := by
  have hr := hearlier.trans hrun
  constructor
  · obtain ⟨⟨ps, hps, hroom⟩, hcounted, -⟩ := run_stretch hopening hmax hearlier hrun h
    have hbelow := hcounted.below hps hroom
    omega
  · rintro ⟨w₁, m⟩ before p hx rfl hreading hlimit
    obtain ⟨hbefore, -⟩ := hrun.at hx
    have hset := reads_throttle hopening hmax hearlier hbefore (h.suffix hx) hreading hlimit
    have hmoment : (w₁, .step p .go) :: (before ++ earlier) <:+ stretch ++ earlier := by
      obtain ⟨later, rfl⟩ := hx
      exact ⟨later, by simp⟩
    obtain ⟨dto, hcall, hthrottled⟩ := reading_throttled hr hmoment hreading hset
    refine ⟨?_, fun reply hreply => hthrottled.told hr hcall hreply⟩
    intro y hy hmove hcomparing
    obtain ⟨later, before', heq⟩ := List.append_of_mem hy
    have hy' : y :: (before' ++ earlier) <:+ stretch ++ earlier := ⟨later, by simp [heq]⟩
    obtain ⟨y₁, m⟩ := y
    obtain rfl : m = .step p .go := hmove
    obtain ⟨hr', w₂, later', hm', -, -⟩ := hr.at hy'
    rcases moments_cases hmoment hy' with ⟨heq, -⟩ | hlater | hsooner
    · obtain ⟨rfl, -⟩ := Prod.mk.inj heq
      obtain ⟨id, habout⟩ := hcomparing
      simpa using habout.unique hreading
    · obtain ⟨dto', -, hthrottled'⟩ := reading_throttled hr' hlater hreading hset
      exact hthrottled'.not_comparing hr' hcomparing
    · -- a login reads the throttle before anything else
      obtain ⟨e, hans, -, -⟩ := step_answered hm'
      have hmem := heard_at (p := p) hsooner hans
      rw [hreading.first (hr.at hmoment).1] at hmem
      simp at hmem

/-! ## Stretches that can be checked -/

def presentsWrong (env : Env) (phone : JsString) (x : KoriMoment) : Bool :=
  match x.2 with
  | .step p _ =>
      match x.1.conf.calls p with
      | some (.login dto) =>
          if phoneOf env dto.phone = some phone then
            (Data.accountByPhone (State.data x.1.conf) phone).all fun account =>
              env.verifyPin dto.pin account.2.pin = false
          else true
      | _ => true
  | _ => true

theorem wrongPin_of (h : presentsWrong env phone x = true) : WrongPin env phone x := by
  intro p choice dto hmove hcall hphone u user haccount
  simpa [presentsWrong, hmove, hcall, hphone, haccount] using h

def alone (p : Pid) (x : KoriMoment) : Bool :=
  match x.2 with
  | .arrive q _ => q = p
  | .step q choice => q = p ∧ choice = .go
  | _ => false

theorem calls_alone (hr : Run (kori env) (World.idle shared) past w)
    (h : ∀ x ∈ past, alone p x = true) {q : Pid} (hne : q ≠ p) : w.conf.calls q = none := by
  induction hr with
  | nil => rfl
  | @cons past w w' m hr hm ih =>
      have hnone := ih fun x hx => h x (.tail _ hx)
      rcases World.calls_cases hm with hsame | ⟨q', call, rfl, -, hcalls⟩
      · rw [hsame]
        exact hnone
      · have hq' : q' = p := by simpa [alone] using h _ (.head _)
        rw [hcalls, Function.update_of_ne (hq' ▸ hne)]
        exact hnone

theorem AboutTo.alone {q : Pid} {op : Op} (h : AboutTo env phone w q op)
    (hr : Run (kori env) (World.idle shared) past w) (hpast : ∀ x ∈ past, alone p x = true) :
    q = p := by
  by_contra hne
  obtain ⟨dto, hcall, -⟩ := h.login
  simp [calls_alone hr hpast hne] at hcall

theorem orderly_alone (hr : Run (kori env) (World.idle shared) past w)
    (hpast : ∀ x ∈ past, alone p x = true) {m : KoriMove} (hm : alone p (w, m) = true) :
    Orderly env phone (w, m) where
  admits := by
    rintro q - hreading -
    obtain rfl := AboutTo.alone hreading hr hpast
    refine .inl fun q' => ⟨?_, fun himposing => ?_⟩
    · rintro ⟨op, habout, hop⟩
      obtain rfl := habout.alone hr hpast
      obtain rfl := habout.unique hreading
      cases hop
    · obtain rfl := AboutTo.alone himposing hr hpast
      simpa using himposing.unique hreading
  answered := by
    rintro q choice rfl -
    simp only [Kori.alone, decide_eq_true_eq] at hm
    exact hm.2
  settles := by
    rintro q rfl
    simp [Kori.alone] at hm

theorem stretch_alone (hr : Run (kori env) (World.idle shared) stretch w)
    (hmax : 1 ≤ env.loginMaxFailures) (hfresh : shared.redis (.loginFailure phone) = none)
    (hwrong : ∀ x ∈ stretch, presentsWrong env phone x = true)
    (halone : ∀ x ∈ stretch, alone p x = true) :
    Stretch env phone (World.idle shared) stretch where
  fresh := hfresh
  room := by
    refine ⟨∅, fun q hq => ?_, by simp; omega⟩
    obtain ⟨op, habout, -⟩ := hq
    simpa [World.pending, World.idle] using habout.pending
  kept := by
    intro x hx
    have hmove := halone x hx
    constructor
    · intro htick
      simp [alone, htick] at hmove
    · intro htick
      simp [alone, htick] at hmove
  wrong := fun x hx => wrongPin_of (hwrong x hx)
  orderly := by
    intro x hx
    obtain ⟨later, before, rfl⟩ := List.append_of_mem hx
    refine orderly_alone (hr.at (List.suffix_append later _)).1 (fun y hy => ?_) (halone x hx)
    exact halone y (List.mem_append_right _ (.tail _ hy))

end Guesses

namespace Sample

def wrongDto : AuthCredentialsDto := ⟨js "1", js "9999", js "d"⟩

theorem moments_of (moves : List KoriMove) (P : List KoriMoment → Bool)
    (h : (((World.idle shared).moments (kori env) moves).any fun run => P run.1) = true) :
    ∃ past w, Run (kori env) (World.idle shared) past w ∧ P past = true := by
  obtain ⟨past, w, hr, -, hP⟩ := exists_of_moments h
  exact ⟨past, w, hr, hP⟩

def keepsKeys (x : KoriMoment) : Bool :=
  match x.2 with
  | .tick _ => false
  | _ => true

theorem keepsKeys_iff {x : KoriMoment} : keepsKeys x = true ↔ ∀ k, x.2 ≠ .tick k := by
  unfold keepsKeys
  split
  · rename_i k hmove
    simp [hmove]
  · rename_i hnot
    simpa using hnot

end Sample

theorem login_guesses_bounded_of_guess : ∃ stretch w,
    Run (kori Sample.env) (World.idle Sample.shared) stretch w ∧
      0 < stretch.countP (comparesPin Sample.env (js "1")) ∧
      stretch.countP (comparesPin Sample.env (js "1")) ≤ 5 := by
  obtain ⟨stretch, w, hr, htest⟩ := Sample.moments_of
    (.arrive 0 (.login Sample.wrongDto) :: List.replicate 4 (.step 0 .go))
    (fun stretch => stretch.all (presentsWrong Sample.env (js "1")) && stretch.all (alone 0) &&
      decide (0 < stretch.countP (comparesPin Sample.env (js "1"))))
    (by decide +kernel)
  simp only [Bool.and_eq_true, List.all_eq_true, decide_eq_true_eq] at htest
  obtain ⟨⟨hwrong, halone⟩, hcompares⟩ := htest
  have hstretch := stretch_alone hr (by decide) rfl hwrong halone
  exact ⟨stretch, w, hr, hcompares,
    (login_guesses_bounded Sample.opening (by decide) .nil hr hstretch).1⟩

/-- Six logins overlap: each has read the throttle and has its PIN compared before the
first of them counts its failure. -/
theorem login_guesses_unbounded : ¬∀ (env : Env) (shared : Shared) (phone : JsString)
    (earlier stretch : List KoriMoment) (w₀ w : KoriWorld),
    Opening env shared → 1 ≤ env.loginMaxFailures →
    Run (kori env) (World.idle shared) earlier w₀ → Run (kori env) w₀ stretch w →
    w₀.conf.shared.redis (.loginFailure phone) = none →
    (∀ x ∈ stretch, x.2 ≠ .tick (.loginFailure phone) ∧ x.2 ≠ .tick (.loginThrottle phone)) →
    (∀ x ∈ stretch, WrongPin env phone x) →
    stretch.countP (comparesPin env phone) ≤ env.loginMaxFailures.toNat := by
  intro hall
  obtain ⟨stretch, w, hr, htest⟩ := Sample.moments_of
    ((List.range 6).map (fun p => .arrive p (.login Sample.wrongDto)) ++
      (List.range 6).map (.step · .go) ++ (List.range 6).map (.step · .go) ++
      (List.range 6).map (.step · .go))
    (fun stretch => stretch.all (presentsWrong Sample.env (js "1")) &&
      stretch.all Sample.keepsKeys &&
      decide (stretch.countP (comparesPin Sample.env (js "1")) = 6))
    (by decide +kernel)
  simp only [Bool.and_eq_true, List.all_eq_true, decide_eq_true_eq] at htest
  obtain ⟨⟨hwrong, hkept⟩, hcompares⟩ := htest
  have hbound := hall Sample.env Sample.shared (js "1") [] stretch (World.idle Sample.shared) w
    Sample.opening (by decide) .nil hr rfl
    (fun x hx => ⟨Sample.keepsKeys_iff.1 (hkept x hx) _, Sample.keepsKeys_iff.1 (hkept x hx) _⟩)
    (fun x hx => wrongPin_of (hwrong x hx))
  rw [hcompares] at hbound
  exact absurd hbound (by decide)

end Kori
