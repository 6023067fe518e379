import Kori.Conduct.Guards
import Kori.Conduct.Keys
import Kori.Restrictions.Frozen

/-!
# Who may change what

A request behind the guards changes nothing before its caller's account was seen to be
ACTIVE and to have the role of the endpoint.  The activity of a wallet and the status of an
account are changed by administrators only.
-/

namespace Kori

open Foundation

section

variable {env : Env} {shared : Shared} {past : List KoriMoment} {w w' : KoriWorld} {p : Pid}
variable {choice : Choice} {call : Call} {actor : Option Uuid} {required : Option Role}

/-- At a moment between the arrival of the request and `w`, the caller's account was ACTIVE
and had the required role. -/
def LetIn (env : Env) (shared : Shared) (w : KoriWorld) (p : Pid) (call : Call)
    (actor : Option Uuid) (required : Option Role) : Prop :=
  ∃ w₀, Reachable (kori env) (World.idle shared) w₀ ∧ Reachable (kori env) w₀ w ∧
    w₀.conf.calls p = some call ∧ ∃ sub account, actor = some sub ∧
      (State.data w₀.conf).row (.user sub) = some account ∧ account.status = .active ∧
      ∀ role ∈ required, account.role = role

theorem SeenActive.letIn (hidle : ∀ p, shared.db.tx p = none)
    (hr : Run (kori env) (World.idle shared) past w)
    (hcall : w.conf.calls p = some call)
    (h : SeenActive actor required (heard (kori env) p past)) :
    LetIn env shared w p call actor required := by
  obtain ⟨sub, account, hactor, t, hread, hrow, hactive⟩ := h
  obtain ⟨x, before, hx, hans, hfirst⟩ := moment_of_heard hread
  obtain ⟨hrx, w₁, later, hm, hlater, -⟩ := hr.at hx
  have hreach : Reachable (kori env) x.1 w :=
    Reach.trans (.move .refl hm trivial) hlater.reachable
  obtain ⟨choice, next, s, -, hproc, -⟩ := World.answered_cases hans
  refine ⟨x.1, hrx.reachable, hreach, ?_, sub, account, hactor, ?_, hactive⟩
  · obtain ⟨called, hcalled, -⟩ := hrx.asks obeyed hans
    rw [hcalled, ← hr.called_at hx hcalled]
    exact hcall
  · -- the request had made no statement before
    have hown := (run_follows hidle hrx p).alive (by simp [hproc])
    rw [hfirst] at hown
    have hnone : x.1.conf.shared.db.tx p = none := Option.map_eq_none_iff.1 hown
    rw [answered_select hans, Store.view_of_idle hnone] at hrow
    exact hrow

/-- What a request has asked for behind the guards. -/
theorem run_permitted (hr : Run (kori env) (World.idle shared) past w)
    (hcall : w.conf.calls p = some call) {e : Entry Op Op.Ans}
    (he : e ∈ heard (kori env) p past) (hfree : ¬e.op.Free) :
    (∀ actor required, call.guard = some (actor, required) →
      SeenActive actor required (heard (kori env) p past)) ∧ call.Permits e.op := by
  obtain ⟨later, before, heq⟩ := List.append_of_mem he
  have hsuffix : e :: before <:+ heard (kori env) p past := heq ▸ List.suffix_append later _
  have hasked := ((hr.asked guards_obeyed hcall).at hsuffix).resolve_left hfree
  refine ⟨fun actor required hguard => ?_, hasked.2⟩
  exact (hasked.1 actor required hguard).mono ((List.suffix_cons e before).trans hsuffix)

theorem free_unmoved {op : Op} {a : op.Ans} {s s' : Shared} (hfree : op.Free)
    (hexec : Shared.exec env p op choice s = some (a, s')) :
    s'.db = s.db ∧ s'.redis = s.redis := by
  cases op with
  | sql statement =>
      cases statement with
      | select query =>
          obtain ⟨-, -, rfl⟩ | ⟨-, db, hdb, rfl⟩ := exec_sql hexec
          · exact ⟨rfl, rfl⟩
          · simp only [Store.exec, Option.some.injEq, Prod.mk.injEq] at hdb
            exact ⟨hdb.2.symm, rfl⟩
      | _ => exact hfree.elim
  | redis command =>
      cases command with
      | get key => obtain ⟨-, rfl⟩ | ⟨-, rfl⟩ | ⟨-, rfl⟩ := exec_redis hexec <;> exact ⟨rfl, rfl⟩
      | _ => exact hfree.elim
  | _ =>
      cases choice <;> simp only [Shared.exec, Option.ite_none_right_eq_some,
        Option.ite_none_left_eq_some, Option.some.injEq, Prod.mk.injEq, reduceCtorEq] at hexec
      all_goals grind

theorem step_guarded (hidle : ∀ p, shared.db.tx p = none)
    (hr : Run (kori env) (World.idle shared) past w) (hcall : w.conf.calls p = some call)
    {e : Entry Op Op.Ans} (hans : w.answered (kori env) (.step p choice) = some (p, e))
    (hfree : ¬e.op.Free) (hguard : call.guard = some (actor, required)) :
    LetIn env shared w p call actor required := by
  obtain ⟨called, hcalled, hasks⟩ := hr.asks guards_obeyed hans
  obtain rfl := Option.some.inj (hcalled.symm.trans hcall)
  have hseen := (hasks.resolve_left hfree).1 actor required hguard
  exact hseen.letIn hidle hr hcall

/-! ## Restrictions -/

theorem Op.not_spares {op : Op} {k : Key} (hwrites : op.WritesRow k)
    (hk : (∃ id, k = .wallet id) ∨ ∃ id, k = .user id) : ¬op.SparesAccounts := by
  intro h
  obtain ⟨id, rfl⟩ | ⟨id, rfl⟩ := hk
  · exact (h id).1 hwrites
  · exact (h id).2 hwrites

theorem run_wrote (hidle : ∀ p, shared.db.tx p = none)
    (hr : Run (kori env) (World.idle shared) past w)
    (hm : w.move (kori env) (.step p choice) = some w') (hcall : w.conf.calls p = some call)
    {k : Key} {v : Row k} (hrow : (State.data w'.conf).row k = some v)
    (hnew : (State.data w.conf).row k ≠ some v) :
    ∃ e before, Writes k v e ∧ call.Permits e.op ∧
      e :: before <:+ heard (kori env) p ((w, .step p choice) :: past) := by
  obtain ⟨e, before, hwrites, -, hsuffix⟩ := run_changed hidle hr hm hrow hnew hcall
  have hfree : ¬e.op.Free := fun hfree => hfree.not_writes hwrites.writesRow
  have hlater := Run.cons hr hm
  have hcall' := World.calls_mono hm hcall
  have hmem := hsuffix.subset (List.mem_cons_self ..)
  exact ⟨e, before, hwrites, (run_permitted hlater hcall' hmem hfree).2, hsuffix⟩

theorem Writes.sets {k : Key} {v : Row k} {P : Row k → Prop} {e : Entry Op Op.Ans}
    {before : History} (h : Writes k v e) (hsets : e.op.Sets k P)
    (hsuffix : e :: before <:+ heard (kori env) p past) : P v := by
  obtain ⟨change, hop, hchange⟩ := hsets
  cases h with
  | @update change' =>
      obtain rfl : change' = change := by simpa using hop
      obtain ⟨x, earlier, hx, hans, -⟩ := moment_of_heard hsuffix
      obtain ⟨v₀, -, heq⟩ := answered_update hans
      exact hchange v₀ v heq
  | insert => simp at hop

theorem Call.restricting {op : Op} (h : call.Permits op) (hnot : ¬op.Unrestricting) :
    (∃ actor, call.guard = some (actor, some .admin)) ∧
      ∀ op', call.Permits op' → op'.SparesAccounts ∨ call.Restricts op' := by
  cases call with
  | deactiveWallet _ _ | activeWallet _ _ | suspend _ _ | reactivate _ _ =>
      exact ⟨⟨_, rfl⟩, fun _ h' => h'⟩
  | _ => exact absurd h hnot

/-- The move is a step of an administrator's request, which was let in, with the property
`P`. -/
def ByAdmin (env : Env) (shared : Shared) (w : KoriWorld) (m : KoriMove) (P : Call → Prop) :
    Prop :=
  ∃ p choice call actor, m = .step p choice ∧ w.conf.calls p = some call ∧
    call.guard = some (actor, some .admin) ∧
    LetIn env shared w p call actor (some .admin) ∧ P call

theorem field_by_admin (hopening : Opening env shared)
    (hr : Reachable (kori env) (World.idle shared) w) {m : KoriMove}
    (hm : w.move (kori env) m = some w') {k : Key} {β : Type} {f : Row k → β} {v v' : Row k}
    {P : Call → Row k → Prop} (hk : (∃ id, k = .wallet id) ∨ ∃ id, k = .user id)
    (hkeeps : ∀ op : Op, op.Unrestricting → op.KeepsField k f)
    (hsets : ∀ (call : Call) (op : Op), call.Restricts op → op.WritesRow k → op.Sets k (P call))
    (hrow : (State.data w.conf).row k = some v) (hrow' : (State.data w'.conf).row k = some v')
    (hchanged : f v' ≠ f v) : ByAdmin env shared w m (P · v') := by
  obtain ⟨past, hrun⟩ := Reachable.run hr
  have hnew : (State.data w.conf).row k ≠ some v' := by
    intro hsame
    obtain rfl := Option.some.inj (hrow.symm.trans hsame)
    exact hchanged rfl
  -- the move is a step of a request
  by_cases hstep : ∃ p choice, m = .step p choice
  · obtain ⟨p, choice, rfl⟩ := hstep
    obtain ⟨e, hans, hpublishes⟩ := run_published hopening.idle hrun hm hrow' hnew
    obtain ⟨call, hcall, -⟩ := hrun.asks guards_obeyed hans
    obtain ⟨e', before, hwrites, hpermits, hsuffix⟩ :=
      run_wrote hopening.idle hrun hm hcall hrow' hnew
    -- one of its updates did not keep the field
    obtain ⟨e₁, he₁, hnot⟩ : ∃ e₁ ∈ heard (kori env) p ((w, .step p choice) :: past),
        ¬e₁.op.Unrestricting := by
      by_contra hnone
      push Not at hnone
      exact hchanged (run_keeps_field hopening.idle hrun hm hrow hrow' fun e he =>
        hkeeps e.op (hnone e he))
    have hfree₁ : ¬e₁.op.Free := fun hfree => hnot (Harmless.free _ hfree)
    have hpermits₁ :=
      (run_permitted (Run.cons hrun hm) (World.calls_mono hm hcall) he₁ hfree₁).2
    obtain ⟨⟨actor, hguard⟩, hrestricting⟩ := Call.restricting hpermits₁ hnot
    have hrestricts : call.Restricts e'.op :=
      (hrestricting e'.op hpermits).resolve_left (Op.not_spares hwrites.writesRow hk)
    have hfree : ¬e.op.Free := by cases hpublishes <;> exact id
    refine ⟨p, choice, call, actor, rfl, hcall, hguard, ?_, ?_⟩
    · exact step_guarded hopening.idle hrun hcall hans hfree hguard
    · exact hwrites.sets (hsets call e'.op hrestricts hwrites.writesRow) hsuffix
  · have hsame := data_of_other hm fun p choice heq => hstep ⟨p, choice, heq⟩
    rw [hsame] at hrow'
    exact absurd hrow' hnew

theorem Op.Sets.key {op : Op} {k k' : Key} {P : Row k → Prop} (h : op.Sets k P)
    (hwrites : op.WritesRow k') : k = k' := by
  obtain ⟨change, rfl, -⟩ := h
  exact hwrites

theorem wallet_by_admin (hopening : Opening env shared)
    (hr : Reachable (kori env) (World.idle shared) w) {m : KoriMove}
    (hm : w.move (kori env) m = some w') {id : Uuid} {wallet wallet' : Wallet}
    (hrow : (State.data w.conf).row (.wallet id) = some wallet)
    (hrow' : (State.data w'.conf).row (.wallet id) = some wallet')
    (hchanged : wallet'.isActive ≠ wallet.isActive) :
    ByAdmin env shared w m (Call.SetsWallet id wallet' ·) := by
  apply field_by_admin (f := Wallet.isActive) (P := fun call w => call.SetsWallet id w) hopening
    hr hm (.inl ⟨id, rfl⟩) (fun op h => h.1 id) _ hrow hrow' hchanged
  rintro call op (⟨id', hsets⟩ | ⟨id', hsets⟩) hwrites
  · obtain rfl := Key.wallet.inj (hsets.key hwrites)
    exact hsets
  · simpa using hsets.key hwrites

theorem account_by_admin (hopening : Opening env shared)
    (hr : Reachable (kori env) (World.idle shared) w) {m : KoriMove}
    (hm : w.move (kori env) m = some w') {id : Uuid} {user user' : User}
    (hrow : (State.data w.conf).row (.user id) = some user)
    (hrow' : (State.data w'.conf).row (.user id) = some user')
    (hchanged : user'.status ≠ user.status) :
    ByAdmin env shared w m (Call.SetsAccount id user' ·) := by
  apply field_by_admin (f := User.status) (P := fun call user => call.SetsAccount id user)
    hopening hr hm (.inr ⟨id, rfl⟩) (fun op h => h.2 id) _ hrow hrow' hchanged
  rintro call op (⟨id', hsets⟩ | ⟨id', hsets⟩) hwrites
  · simpa using hsets.key hwrites
  · obtain rfl := Key.user.inj (hsets.key hwrites)
    exact hsets

end

namespace Sample

theorem suspension : ∃ w w' user user', Reachable (kori env) (World.idle staffed) w ∧
    w.move (kori env) (.step 0 .go) = some w' ∧
    w.conf.calls 0 = some (.suspend (some 9) 1) ∧
    (State.data w.conf).row (.user 1) = some user ∧
    (State.data w'.conf).row (.user 1) = some user' ∧ user'.status ≠ user.status := by
  have hrun : (((World.idle staffed).run (kori env)
      (suspendMoves 0 1 [.device 1 (js "d")]).dropLast).any fun w =>
        (w.move (kori env) (.step 0 .go)).any fun w' =>
          w.conf.calls 0 = some (.suspend (some 9) 1) ∧
          ((State.data w.conf).row (.user 1)).map User.status = some .active ∧
          ((State.data w'.conf).row (.user 1)).map User.status = some .suspended) = true := by
    decide +kernel
  obtain ⟨w, hr, hw⟩ := exists_of_run hrun
  cases hm : w.move (kori env) (.step 0 .go) with
  | none => simp [hm] at hw
  | some w' =>
      rw [hm] at hw
      obtain ⟨hcall, hbefore, hafter⟩ := of_decide_eq_true hw
      obtain ⟨user, hrow, hstatus⟩ := Option.map_eq_some_iff.1 hbefore
      obtain ⟨user', hrow', hstatus'⟩ := Option.map_eq_some_iff.1 hafter
      refine ⟨w, w', user, user', hr, hm, hcall, hrow, hrow', ?_⟩
      simp [hstatus, hstatus']

end Sample

section

variable {env : Env} {shared : Shared} {w w' : KoriWorld} {p : Pid} {choice : Choice}
variable {call : Call} {actor : Option Uuid} {required : Option Role}

/-- A request behind the guards moves nothing before its caller was seen to be ACTIVE, with
the role that the endpoint asks for. -/
theorem effects_guarded (hopening : Opening env shared)
    (hr : Reachable (kori env) (World.idle shared) w)
    (hm : w.move (kori env) (.step p choice) = some w') (hcall : w.conf.calls p = some call)
    (hguard : call.guard = some (actor, required))
    (hmoved : w'.conf.shared.db ≠ w.conf.shared.db ∨
      w'.conf.shared.redis ≠ w.conf.shared.redis) :
    LetIn env shared w p call actor required := by
  obtain ⟨past, hrun⟩ := Reachable.run hr
  obtain ⟨op, next, a, s, hproc, hexec, rfl⟩ := World.step_cases hm
  apply step_guarded hopening.idle hrun hcall (World.answered_step hproc hexec) _ hguard
  intro hfree
  obtain ⟨hdb, hredis⟩ := free_unmoved hfree hexec
  exact hmoved.elim (· hdb) (· hredis)

end

theorem effects_guarded_of_suspension : ∃ w,
    Reachable (kori Sample.env) (World.idle Sample.staffed) w ∧
      LetIn Sample.env Sample.staffed w 0 (.suspend (some 9) 1) (some 9) (some .admin) := by
  obtain ⟨w, w', user, user', hr, hm, hcall, hrow, hrow', hchanged⟩ := Sample.suspension
  refine ⟨w, hr, effects_guarded Sample.staffed_opening hr hm hcall rfl (.inl fun hdb => ?_)⟩
  change w'.conf.shared.db.committed.row _ = _ at hrow'
  rw [hdb] at hrow'
  obtain rfl := Option.some.inj (hrow.symm.trans hrow')
  exact hchanged rfl

/-- The activity of a wallet and the status of an account change by a step of an
administrator's request for this wallet, or for this account, only. -/
theorem restrictions_authorised {env : Env} {shared : Shared} {w w' : KoriWorld}
    (hopening : Opening env shared) (hr : Reachable (kori env) (World.idle shared) w) {m : KoriMove}
    (hm : w.move (kori env) m = some w') :
    (∀ id wallet wallet', (State.data w.conf).row (.wallet id) = some wallet →
      (State.data w'.conf).row (.wallet id) = some wallet' →
      wallet'.isActive ≠ wallet.isActive →
      ByAdmin env shared w m (Call.SetsWallet id wallet' ·)) ∧
    ∀ id user user', (State.data w.conf).row (.user id) = some user →
      (State.data w'.conf).row (.user id) = some user' → user'.status ≠ user.status →
      ByAdmin env shared w m (Call.SetsAccount id user' ·) :=
  ⟨fun _ _ _ => wallet_by_admin hopening hr hm, fun _ _ _ => account_by_admin hopening hr hm⟩

theorem restrictions_authorised_of_suspension : ∃ w m user',
    Reachable (kori Sample.env) (World.idle Sample.staffed) w ∧
      ByAdmin Sample.env Sample.staffed w m (Call.SetsAccount 1 user' ·) := by
  obtain ⟨w, w', user, user', hr, hm, -, hrow, hrow', hchanged⟩ := Sample.suspension
  refine ⟨w, .step 0 .go, user', hr, ?_⟩
  exact (restrictions_authorised Sample.staffed_opening hr hm).2 1 user user' hrow hrow' hchanged

end Kori
