import Kori.Contract.Runs

/-!
# Ownership of the PROCESSING marker

The error path deletes the key without looking at it.  It deletes the request's
own marker as long as nobody acquires the key while another request that has
acquired it is still at work.
-/

namespace Kori

open Foundation

variable {env : Env} {shared : Shared} {w w' : KoriWorld} {p : Pid} {c c' : State}
variable {header : JsString}

/-- Whoever stores a marker is the only one at work under the key. -/
def Exclusive (w : KoriWorld) (_ : KoriMove) (w' : KoriWorld) : Prop :=
  ∀ p header, w.conf.shared.redis (.idempotency header) = none →
    w'.conf.shared.redis (.idempotency header) = some ⟨.processing, p⟩ →
    ∀ q, w.conf.shared.leases q = some header → q = p

/-- Under the key of a request at work there is its marker or nothing. -/
structure Leased (c : State) : Prop where
  marker : ∀ p header, c.shared.leases p = some header →
    c.shared.redis (.idempotency header) = none ∨
      c.shared.redis (.idempotency header) = some ⟨.processing, p⟩
  unique : ∀ p q header, c.shared.leases p = some header →
    c.shared.leases q = some header → p = q

theorem Guar.lease_cases (hg : Guar env p c c') {q : Pid}
    (h : c'.shared.leases q = some header) : c.shared.leases q = some header ∨
      (q = p ∧ c.shared.redis (.idempotency header) = none ∧
        c'.shared.redis (.idempotency header) = some ⟨.processing, p⟩) := by
  by_cases hq : q = p
  · subst q
    rcases hg.cache.lease header h with hold | ⟨hfree, hmarker⟩
    · exact .inl hold
    · exact .inr ⟨rfl, hfree, hmarker⟩
  · exact .inl ((hg.leases q hq).symm.trans h)

theorem Leased.guar (h : Leased c) (hg : Guar env p c c')
    (hexclusive : ∀ header, c.shared.redis (.idempotency header) = none →
      c'.shared.redis (.idempotency header) = some ⟨.processing, p⟩ →
      ∀ q, c.shared.leases q = some header → q = p) : Leased c' := by
  constructor
  · intro q header hlease
    rcases hg.lease_cases hlease with hold | ⟨rfl, -, hmarker⟩
    · rcases hg.cache.entry header with
        hsame | ⟨hnone, -⟩ | ⟨hfree, -, hmarker⟩ | ⟨response, -, hown, -, -, hended⟩
      · rw [hsame]
        exact h.marker q header hold
      · exact .inl hnone
      · obtain rfl := hexclusive header hfree hmarker q hold
        exact .inr hmarker
      · -- storing the response ends the lease
        obtain rfl := h.unique q p header hold hown
        simp [hended] at hlease
    · exact .inr hmarker
  · intro q q' header hq hq'
    rcases hg.lease_cases hq with hold | ⟨rfl, hfree, hmarker⟩ <;>
      rcases hg.lease_cases hq' with hold' | ⟨rfl, hfree', hmarker'⟩
    · exact h.unique q q' header hold hold'
    · exact hexclusive header hfree' hmarker' q hold
    · exact (hexclusive header hfree hmarker q' hold').symm
    · rfl

theorem Leased.still (h : Leased c) (hs : Still c c') : Leased c' := by
  constructor
  · intro q header hlease
    cases hentry : c'.shared.redis (.idempotency header) with
    | none => exact .inl rfl
    | some entry =>
        rw [← hs.cache header entry hentry]
        rcases h.marker q header (hs.leases q header hlease) with hnone | hmarker
        · simp [hs.cache header entry hentry] at hnone
        · exact .inr hmarker
  · intro q q' header hq hq'
    exact h.unique q q' header (hs.leases q header hq) (hs.leases q' header hq')

theorem run_leased (hopening : Opening env shared)
    (hr : Reach (kori env) Exclusive (World.idle shared) w) : Leased w.conf := by
  refine (contract env).preserved hopening.sound Leased ?_ ?_ hr
  · constructor <;> simp [World.idle, hopening.leases]
  · intro w₁ m w₂ _ hexclusive hlink h
    rcases link_cases hlink with ⟨p, -, hg⟩ | hsame
    · exact h.guar hg (hexclusive p)
    · exact h.still hsame

/-- The step of a request that makes a key disappear removes its own marker. -/
theorem deletes_own_marker (hopening : Opening env shared)
    (hr : Reach (kori env) Exclusive (World.idle shared) w) {choice : Choice}
    {entry : RedisEntry (.idempotency header)}
    (hmove : w.move (kori env) (.step p choice) = some w')
    (hentry : w.conf.shared.redis (.idempotency header) = some entry)
    (hgone : w'.conf.shared.redis (.idempotency header) = none) :
    entry = ⟨.processing, p⟩ := by
  have hg := guar_of_step ((contract env).sound hopening.sound hr) hmove
  rcases hg.cache.entry header with
    hkept | ⟨-, hlease⟩ | ⟨-, -, hmarker⟩ | ⟨response, hstored, -⟩
  · rw [hkept, hentry] at hgone
    simp at hgone
  · rcases (run_leased hopening hr).marker p header hlease with hnone | hmarker
    · simp [hentry] at hnone
    · exact Option.some.inj (hentry.symm.trans hmarker)
  · simp [hgone] at hmarker
  · simp [hgone] at hstored

theorem exclusive_of_alone (hopening : Opening env shared)
    (hr : Reach (kori env) (fun _ m _ => m.mover = some p) (World.idle shared) w) :
    Reach (kori env) Exclusive (World.idle shared) w ∧ ∀ q, q ≠ p → w.conf.calls q = none := by
  induction hr with
  | refl => exact ⟨.refl, fun _ _ => rfl⟩
  | @move w w' m hr hm hmover ih =>
      obtain ⟨hexclusive, halone⟩ := ih
      refine ⟨.move hexclusive hm ?_, ?_⟩
      · intro p' header hfree hmarker q hlease
        have hq : q = p := by
          by_contra hq
          have hidle := (run_inv hopening.sound hr).idle q (halone q hq)
          simp [hidle.2] at hlease
        have hs := (contract env).sound hopening.sound hr
        rcases link_cases ((contract env).sound_move hs hm).1 with ⟨p'', hp, hg⟩ | hsame
        · obtain rfl : p'' = p := Option.some.inj (hp.symm.trans hmover)
          rcases hg.cache.entry header with
            hkept | ⟨hnone, -⟩ | ⟨-, -, hstored⟩ | ⟨response, hstored, -⟩
          · simp [hkept, hfree] at hmarker
          · simp [hnone] at hmarker
          · rw [hstored, Option.some.injEq, RedisEntry.mk.injEq] at hmarker
            exact hq.trans hmarker.2
          · simp [hstored] at hmarker
        · simp [hsame.cache header _ hmarker] at hfree
      · intro q hq
        rcases World.calls_cases hm with hsame | ⟨q', call, rfl, -, hcalls⟩
        · rw [hsame]
          exact halone q hq
        · obtain rfl : q' = p := Option.some.inj hmover
          rw [hcalls, Function.update_of_ne hq]
          exact halone q hq

namespace Sample

def acquireMoves (p : Pid) : List KoriMove :=
  transferMoves p (transferRequest 1 "2" "600") [.go, .go, .go]

def breakMoves (p : Pid) : List KoriMove := [.step p (.turn true), .step p .fail]

def holdsMarker (p : Pid) (w : KoriWorld) : Bool :=
  match w.conf.shared.redis (.idempotency (js "k")) with
  | some ⟨.processing, writer⟩ => writer = p
  | _ => false

def removesMarker (q p : Pid) (w : KoriWorld) : Bool :=
  holdsMarker p w && (w.move (kori Sample.env) (.step q .go)).any fun w' =>
    (w'.conf.shared.redis (.idempotency (js "k"))).isNone

theorem move_of_removesMarker {p q : Pid} {w : KoriWorld} (h : removesMarker q p w = true) :
    ∃ w', w.move (kori Sample.env) (.step q .go) = some w' ∧
      w.conf.shared.redis (.idempotency (js "k")) = some ⟨.processing, p⟩ ∧
      w'.conf.shared.redis (.idempotency (js "k")) = none := by
  simp only [removesMarker, holdsMarker, Bool.and_eq_true] at h
  obtain ⟨hmarker, hmove⟩ := h
  cases hw : w.move (kori Sample.env) (.step q .go) with
  | none => simp [hw] at hmove
  | some w' =>
      split at hmarker
      · rename_i writer hentry
        rw [decide_eq_true_eq] at hmarker
        subst hmarker
        exact ⟨w', rfl, hentry, by simpa [hw] using hmove⟩
      · simp at hmarker

end Sample

/-- Without a second request at work the error path deletes its own marker. -/
theorem deletes_own_marker_of_failure : ∃ w w',
    Reach (kori Sample.env) Exclusive (World.idle Sample.shared) w ∧
      w.move (kori Sample.env) (.step 0 .go) = some w' ∧
      w'.conf.shared.redis (.idempotency (js "k")) = none ∧
      ∀ entry, w.conf.shared.redis (.idempotency (js "k")) = some entry →
        entry = ⟨.processing, 0⟩ := by
  obtain ⟨w, hr, hw⟩ := Sample.reaches_if (Sample.acquireMoves 0 ++ Sample.breakMoves 0)
    (Sample.removesMarker 0 0) (fun _ m _ => m.mover = some 0)
    (fun _ _ _ h => of_decide_eq_true h) (by decide +kernel)
  obtain ⟨w', hmove, hentry, hgone⟩ := Sample.move_of_removesMarker hw
  replace hr := (exclusive_of_alone Sample.opening hr).1
  exact ⟨w, w', hr, hmove, hgone, fun entry hentry =>
    deletes_own_marker Sample.opening hr hmove hentry hgone⟩

/-- After its own marker has expired, a failing request deletes the marker of
another one. -/
theorem deletes_own_marker_fails : ∃ w w',
    Reachable (kori Sample.env) (World.idle Sample.shared) w ∧
      w.move (kori Sample.env) (.step 0 .go) = some w' ∧
      w.conf.shared.redis (.idempotency (js "k")) = some ⟨.processing, 1⟩ ∧
      w'.conf.shared.redis (.idempotency (js "k")) = none := by
  obtain ⟨w, hr, hw⟩ := Sample.reaches (Sample.acquireMoves 0 ++
    .tick (.idempotency (js "k")) :: Sample.acquireMoves 1 ++ Sample.breakMoves 0)
    (Sample.removesMarker 0 1) (by decide +kernel)
  obtain ⟨w', hmove, hentry, hgone⟩ := Sample.move_of_removesMarker hw
  exact ⟨w, w', hr, hmove, hentry, hgone⟩

end Kori
