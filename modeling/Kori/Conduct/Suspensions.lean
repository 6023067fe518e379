import Kori.Conduct.Registrations

/-!
# What a suspension commits

It holds the account from before it lists the devices until its transaction ends,
and it has cleared every device that it has listed when it commits.
-/

namespace Kori

open Foundation

variable {env : Env} {shared : Shared} {w w' : KoriWorld} {p : Pid} {choice : Choice}
variable {past : List KoriMoment} {h₀ before : History} {u : Uuid} {d : JsString}
variable {t t' : Data} {own : (k : Key) → Option (Row k)}

theorem mem_devicesOf : d ∈ Data.devicesOf t u ↔ (t.row (.device u d)).isSome := by
  rw [Tables.row_isSome, AList.mem_keys]
  unfold Data.devicesOf
  rw [List.mem_filterMap]
  constructor
  · rintro ⟨k, hk, heq⟩
    split at heq
    · split at heq
      · rename_i howner
        obtain rfl := Option.some.inj heq
        exact howner ▸ hk
      · simp at heq
    · simp at heq
  · exact fun hk => ⟨_, hk, by simp⟩

/-! ## The history of a suspension -/

theorem SuspendAsks.listing
    (h : Throughout (fun before e => SuspendAsks u before e.op) h₀)
    (hlisting : ⟨.sql (.select (.devices u)), .ok t⟩ :: before <:+ h₀) :
    Restricting u before ∧ ∀ t, ¬Listed u before t := by
  have hasks := h.at hlisting
  cases hasks with
  | free _ hnot => exact absurd rfl (hnot u)
  | list hrestricting hnew => exact ⟨hrestricting, hnew⟩

theorem SuspendAsks.listed_once
    (h : Throughout (fun before e => SuspendAsks u before e.op) h₀) (ht : Listed u h₀ t)
    (ht' : Listed u h₀ t') : t = t' := by
  obtain ⟨later, before, heq⟩ := List.append_of_mem ht
  obtain ⟨later', before', heq'⟩ := List.append_of_mem ht'
  have hx := heq ▸ List.suffix_append later (⟨.sql (.select (.devices u)), .ok t⟩ :: before)
  have hy := heq' ▸ List.suffix_append later' (⟨.sql (.select (.devices u)), .ok t'⟩ :: before')
  rcases moments_cases hx hy with ⟨hsame, -⟩ | hearlier | hearlier
  · simpa using hsame
  · exact absurd (hearlier.subset List.mem_cons_self) ((SuspendAsks.listing h hy).2 t)
  · exact absurd (hearlier.subset List.mem_cons_self) ((SuspendAsks.listing h hx).2 t')

theorem SuspendAsks.restricting
    (h : Throughout (fun before e => SuspendAsks u before e.op) h₀) (hlisted : Listed u h₀ t)
    (hown : uncommitted (statements h₀) = some own) : (own (.user u)).isSome := by
  obtain ⟨later, before, rfl⟩ := List.append_of_mem hlisted
  obtain ⟨⟨own₀, hown₀, hrow⟩, -⟩ := SuspendAsks.listing h (List.suffix_append later _)
  have happend : statements (later ++ ⟨.sql (.select (.devices u)), .ok t⟩ :: before) =
      statements later ++ statements (⟨.sql (.select (.devices u)), .ok t⟩ :: before) :=
    List.filterMap_append
  rw [happend] at hown
  have hlisting : uncommitted (statements
      (⟨.sql (.select (.devices u)), .ok t⟩ :: before)) = some own₀ := hown₀
  refine uncommitted_keeps hlisting hrow ?_ hown
  intro e he hop
  -- a transaction that starts has listed nothing yet
  obtain ⟨later', before', rfl⟩ := List.append_of_mem (mem_statements.1 he)
  have hsuffix : (⟨.sql e.op, e.answer⟩ : Entry Op Op.Ans) ::
      (before' ++ ⟨.sql (.select (.devices u)), .ok t⟩ :: before) <:+
        (later' ++ ⟨.sql e.op, e.answer⟩ :: before') ++
          ⟨.sql (.select (.devices u)), .ok t⟩ :: before := ⟨later', by simp⟩
  have hasks : SuspendAsks u (before' ++ ⟨.sql (.select (.devices u)), .ok t⟩ :: before)
      (.sql e.op) := h.at hsuffix
  rw [hop] at hasks
  cases hasks with
  | free hfree _ => exact hfree
  | start hnew => exact hnew t (List.mem_append_right _ (.head _))

theorem SuspendAsks.device {owner : Uuid} {device : TrustDevice} {e : Entry Op Op.Ans}
    (hwrites : Writes (.device owner d) device e) (h : SuspendAsks u before e.op) :
    e = ⟨.sql (.update (.device owner d) clearRow), .ok (some device)⟩ ∧
      ∃ t, Listed u before t := by
  cases hwrites with
  | update =>
      cases h with
      | free hfree _ => exact hfree.elim
      | clear harranged _ =>
          obtain ⟨t, hlisted, -⟩ := harranged
          exact ⟨rfl, t, hlisted⟩
  | insert =>
      cases h with
      | free hfree _ => exact hfree.elim

/-! ## Runs -/

variable {actor : Option Uuid}

theorem suspend_asked (hr : Run (kori env) (World.idle shared) past w)
    (hcall : w.conf.calls p = some (.suspend actor u)) :
    Throughout (fun before e => SuspendAsks u before e.op) (heard (kori env) p past) :=
  hr.asked obeyed hcall

theorem suspension_clears (hr : Run (kori env) (World.idle shared) past w)
    (hcall : w.conf.calls p = some (.suspend actor u))
    (hown : uncommitted (statements (heard (kori env) p past)) = some own) {owner : Uuid}
    {device : TrustDevice} (hrow : own (.device owner d) = some device) :
    device.refreshSessionId = none ∧ device.currentRefreshJti = none := by
  obtain ⟨e, he, hwrites⟩ := writes_of_uncommitted hown hrow
  obtain ⟨later, before, heq⟩ := List.append_of_mem he
  have hasks := (suspend_asked hr hcall).at (heq ▸ List.suffix_append later (e :: before))
  obtain ⟨rfl, -⟩ := SuspendAsks.device hwrites hasks
  obtain ⟨x, -, -, hans⟩ := heard_moment he
  obtain ⟨device₀, -, hchange⟩ := answered_update hans
  obtain rfl : device₀.clearSession = device := by simpa [clearRow] using hchange
  exact ⟨rfl, rfl⟩

theorem listed_rows (hopening : Opening env shared)
    (hr : Run (kori env) (World.idle shared) past w)
    (hcall : w.conf.calls p = some (.suspend actor u))
    (hlisted : Listed u (heard (kori env) p past) t) (hd : d ∈ Data.devicesOf t u) :
    ((State.data w.conf).row (.device u d)).isSome := by
  obtain ⟨x, before, hx, hans⟩ := heard_moment hlisted
  obtain ⟨hrx, w₁, later, hm, hlater, -⟩ := hr.at hx
  obtain ⟨choice, next, s, hstep, hproc, hexec⟩ := World.answered_cases hans
  have hcons : heard (kori env) p (x :: before) = _ :: heard (kori env) p before :=
    heard_cons_self hans
  have hnew := (SuspendAsks.listing (suspend_asked hr hcall) (hcons ▸ heard_suffix hx)).2
  obtain ⟨called, hcalled, -⟩ := hrx.asks obeyed hans
  obtain rfl := Option.some.inj ((hr.called_at hx hcalled).symm.trans hcall)
  -- no device has been written before the listing
  have hcommitted : ((State.data x.1.conf).row (.device u d)).isSome := by
    rw [mem_devicesOf, answered_select hans] at hd
    cases htx : x.1.conf.shared.db.tx p with
    | none =>
        rw [Store.view_of_idle htx] at hd
        exact hd
    | some own =>
        rw [Store.view_of_open htx] at hd
        cases hrow : own.row (.device u d) with
        | none =>
            rw [Tables.row_overlay_of_none hrow] at hd
            exact hd
        | some device =>
            have hown := (run_follows hopening.idle hrx p).alive (by simp [hproc])
            rw [Store.ownRows, htx] at hown
            obtain ⟨e, he, hwrites⟩ := writes_of_uncommitted hown.symm hrow
            obtain ⟨later', before', heq⟩ := List.append_of_mem he
            have hsuffix := heq ▸ List.suffix_append later' (e :: before')
            obtain ⟨-, t', hlisted'⟩ :=
              SuspendAsks.device hwrites ((suspend_asked hrx hcalled).at hsuffix)
            exact absurd (hsuffix.subset (.tail _ hlisted')) (hnew t')
  obtain ⟨device, hrow⟩ := Option.isSome_iff_exists.1 hcommitted
  have hreach : Reachable (kori env) x.1 w :=
    Reach.trans (.move .refl hm trivial) hlater.reachable
  obtain ⟨device', hrow', -⟩ :=
    run_grows ((contract env).sound hopening.sound hrx.reachable) hreach _ _ hrow
  exact hrow' ▸ rfl

/-- A suspension that commits has written every device it has listed. -/
theorem suspension_lists (hopening : Opening env shared)
    (hr : Run (kori env) (World.idle shared) past w)
    (hcall : w.conf.calls p = some (.suspend actor u)) {a : Except SqlError Unit}
    (hans : w.answered (kori env) (.step p choice) = some (p, ⟨.sql .commit, a⟩))
    (hown : uncommitted (statements (heard (kori env) p past)) = some own) :
    ∃ t, Listed u (heard (kori env) p past) t ∧
      ∀ d ∈ Data.devicesOf t u, (own (.device u d)).isSome := by
  obtain ⟨called, hcalled, hasks⟩ := hr.asks obeyed hans
  obtain rfl := Option.some.inj (hcalled.symm.trans hcall)
  cases hasks with
  | free hfree _ => exact hfree.elim
  | @commit keys harranged hcleared =>
      obtain ⟨t, hlisted, harrange⟩ := harranged
      refine ⟨t, hlisted, fun d hd => ?_⟩
      obtain ⟨x, -, -, hansx⟩ := heard_moment harrange
      obtain ⟨choice', s, -, hexec⟩ := answered_exec hansx
      have hperm : keys.Perm ((Data.devicesOf t u).map (.device u)) := by
        cases choice' <;> simp only [Shared.exec, reduceCtorEq] at hexec
        split at hexec
        · rename_i hperm
          simp only [Option.some.injEq, Prod.mk.injEq] at hexec
          exact hexec.1 ▸ hperm
        · simp at hexec
      rcases hcleared _ (hperm.mem_iff.2 (List.mem_map_of_mem hd)) d rfl with
        ⟨own', hown', hrow⟩ | hmissed
      · obtain rfl := Option.some.inj (hown.symm.trans hown')
        exact hrow
      · -- the row was there when the update found none
        obtain ⟨y, before, hy, hansy⟩ := heard_moment hmissed
        obtain ⟨hry, -⟩ := hr.at hy
        obtain ⟨called, hcalledy, hasksy⟩ := hry.asks obeyed hansy
        obtain rfl := Option.some.inj ((hr.called_at hy hcalledy).symm.trans hcall)
        cases hasksy with
        | free hfree _ => exact hfree.elim
        | clear harranged' _ =>
            obtain ⟨t', hlisted', -⟩ := harranged'
            have hsuffix : heard (kori env) p before <:+ heard (kori env) p past :=
              heard_before hy
            obtain rfl := SuspendAsks.listed_once (suspend_asked hr hcall)
              (hsuffix.subset hlisted') hlisted
            have hthere := listed_rows hopening hry hcalledy hlisted' hd
            obtain ⟨device, hview⟩ : ∃ device,
                (y.1.conf.shared.db.view p).row (.device u d) = some device :=
              Option.isSome_iff_exists.1 (Store.view_isSome hthere)
            simpa [clearRow] using answered_update_none hansy hview

end Kori
