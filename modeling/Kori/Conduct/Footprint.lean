import Kori.Conduct.Proofs
import Kori.Conduct.Sessions
import Kori.Contract.Runs

/-!
# What a request changes

The uncommitted rows of a request are those that its own statements have written,
and a step of the request changes a committed row only by a write that the rules
of its call permit.
-/

namespace Kori

open Foundation

variable {env : Env} {shared s s' : Shared} {p q : Pid} {op : Op} {choice : Choice} {a : op.Ans}

abbrev KoriMoment := Moment Pid Call Reply Exn Shared Choice RedisKey Op Op.Ans

/-- Every request keeps to its rules. -/
theorem obeyed : Obeyed (kori env) (rules env) := by
  -- nothing is asked of how the other requests end
  have hplain : ∀ {call : Call} {m : Action Reply}, (∀ dto, call ≠ .login dto) →
      Heeds (rules env call) m (fun _ _ => True) (fun _ _ => True) [] →
      Heeds (rules env call) (respond m) (fun _ => (rules env call).ends)
        (fun _ => (rules env call).ends) [] := fun hcall h =>
    heeds_respond (h.imp (fun _ _ _ => tells_ends hcall _ _) fun _ _ _ => tells_ends hcall _ _)
  intro call
  cases call with
  | transfer request => exact transfer_heeds request
  | deactiveWallet actor walletId =>
      have hwallet : Key.IsWallet (.wallet walletId) := ⟨walletId, rfl⟩
      exact heeds_endpoint (P := Op.OnRows Key.IsWallet) (by simp)
        (deactiveWallet_only actor hwallet) fun _ _ h => h
  | activeWallet actor walletId =>
      have hwallet : Key.IsWallet (.wallet walletId) := ⟨walletId, rfl⟩
      exact heeds_endpoint (P := Op.OnRows Key.IsWallet) (by simp)
        (activeWallet_only actor hwallet) fun _ _ h => h
  | suspend actor targetUserId => exact suspendEndpoint_heeds actor targetUserId
  | reactivate actor targetUserId => exact reactivate_heeds actor targetUserId
  | sendOtp dto => exact hplain (by simp) (sendOtp_heeds fun _ _ h => h)
  | verifyOtp dto => exact hplain (by simp) (verifyOtp_heeds fun _ _ h => h)
  | register dto => exact hplain (by simp) (register_heeds fun _ _ h => h)
  | registerBusiness dto => exact hplain (by simp) (registerBusiness_heeds fun _ _ h => h)
  | login dto => exact loginEndpoint_heeds dto
  | refresh token => exact refresh_heeds token
  | logout token => exact logout_heeds token
  | revokeTrustedDevice actor deviceRecordId => exact revoke_heeds actor deviceRecordId
  | approveBusinessAccount actor dto =>
      exact heeds_endpoint (P := Op.OnRows Key.IsApproval) (by simp)
        (approveBusiness_only actor dto) fun _ _ h => h

/-! ## One operation -/

theorem exec_db (h : Shared.exec env p op choice s = some (a, s'))
    (hop : ∀ statement, op ≠ .sql statement) : s'.db = s.db := by
  cases op with
  | sql statement => exact absurd rfl (hop statement)
  | redis command =>
      obtain ⟨-, rfl⟩ | ⟨-, rfl⟩ | ⟨-, rfl⟩ := exec_redis h <;> rfl
  | _ =>
      refine (Op.Quiet.unmoved ?_ h).db
      trivial

theorem exec_ownRows {past : History} (h : Shared.exec env p op choice s = some (a, s'))
    (hown : s.db.ownRows p = uncommitted (statements past)) :
    s'.db.ownRows p = uncommitted (statements (⟨op, a⟩ :: past)) := by
  by_cases hop : ∀ statement, op ≠ .sql statement
  · rw [exec_db h hop, statements_cons hop]
    exact hown
  · obtain ⟨statement, rfl⟩ := not_forall_not.1 hop
    obtain ⟨-, rfl, rfl⟩ | ⟨-, db, hdb, rfl⟩ := exec_sql h
    · exact Store.fail_ownRows hown
    · exact Store.exec_ownRows hdb hown

theorem exec_tx (h : Shared.exec env p op choice s = some (a, s')) (hq : q ≠ p) :
    s'.db.tx q = s.db.tx q := by
  by_cases hop : ∀ statement, op ≠ .sql statement
  · rw [exec_db h hop]
  · obtain ⟨statement, rfl⟩ := not_forall_not.1 hop
    obtain ⟨-, rfl, rfl⟩ | ⟨-, db, hdb, rfl⟩ := exec_sql h
    · exact (Store.fail_frame s.db p statement).tx q hq
    · exact (Store.exec_frame hdb).tx q hq

/-! ## Open transactions -/

variable {past : List KoriMoment} {w w' : KoriWorld}

/-- The open transaction of `p` holds what `p` has written in it. -/
structure Follows (env : Env) (past : List KoriMoment) (w : KoriWorld) (p : Pid) : Prop where
  alive : (w.procs p).isSome →
    w.conf.shared.db.ownRows p = uncommitted (statements (heard (kori env) p past))
  gone : w.procs p = none → w.conf.shared.db.tx p = none

theorem elsewhere_tx (h : Elsewhere (kori env) p s s') : s'.db.tx p = s.db.tx p := by
  cases h with
  | step hq hexec => exact exec_tx hexec (Ne.symm hq)
  | @crash q hq => exact (Store.rollback_frame s.db q).tx p (Ne.symm hq)
  | tick => rfl

theorem run_follows (hidle : ∀ p, shared.db.tx p = none)
    (hr : Run (kori env) (World.idle shared) past w) (p : Pid) : Follows env past w p := by
  have hfollows := hr.follows p (fun past s => s.db.ownRows p = uncommitted (statements past))
    (fun s => s.db.tx p = none) (hidle p) ?_ ?_ ?_ ?_
  · exact ⟨hfollows.1, hfollows.2⟩
  · exact fun s htx => congrArg (Option.map Tables.row) htx
  · exact fun past op choice a s s' hown hexec => exec_ownRows hexec hown
  · intro past s _
    simp [kori, Shared.abort, Store.rollback, Store.finish]
  · intro s s' helse
    have htx := elsewhere_tx helse
    exact ⟨htx.trans, fun past => (congrArg (Option.map Tables.row) htx).trans⟩

/-! ## Answers of statements -/

section Answers

variable {x : KoriMoment} {k : Key}

theorem answered_exec {e : Entry Op Op.Ans} (h : x.1.answered (kori env) x.2 = some (p, e)) :
    ∃ choice s, x.2 = .step p choice ∧
      Shared.exec env p e.op choice x.1.conf.shared = some (e.answer, s) := by
  obtain ⟨choice, next, s, hstep, -, hexec⟩ := World.answered_cases h
  exact ⟨choice, s, hstep, hexec⟩

theorem answered_sql {statement : Statement} {a : statement.Ans}
    (h : x.1.answered (kori env) x.2 = some (p, ⟨.sql statement, .ok a⟩)) :
    ∃ db, x.1.conf.shared.db.exec p statement = some (.ok a, db) := by
  obtain ⟨choice, s, -, hexec⟩ := answered_exec h
  obtain ⟨-, ha, -⟩ | ⟨-, db, hdb, -⟩ := exec_sql hexec
  · cases statement <;> simp [Store.fail] at ha
  · exact ⟨db, hdb⟩

theorem answered_select {query : Query} {t : Data}
    (h : x.1.answered (kori env) x.2 = some (p, ⟨.sql (.select query), .ok t⟩)) :
    t = x.1.conf.shared.db.view p := by
  obtain ⟨db, hdb⟩ := answered_sql h
  simp only [Store.exec, Option.some.injEq, Prod.mk.injEq, Except.ok.injEq] at hdb
  exact hdb.1.symm

theorem answered_update {change : Row k → Except SqlError (Option (Row k))} {v : Row k}
    (h : x.1.answered (kori env) x.2 = some (p, ⟨.sql (.update k change), .ok (some v)⟩)) :
    ∃ v₀, (x.1.conf.shared.db.view p).row k = some v₀ ∧ change v₀ = .ok (some v) := by
  obtain ⟨db, hdb⟩ := answered_sql h
  obtain ⟨-, ⟨ha, -⟩ | ⟨v₀, e, -, -, ha, -⟩ | ⟨v₀, v', hrow, hchange, ha, -⟩⟩ :=
    Store.exec_update hdb
  · simp at ha
  · simp at ha
  · obtain rfl : v = v' := by simpa using ha
    exact ⟨v₀, hrow, hchange⟩

theorem answered_update_none {change : Row k → Except SqlError (Option (Row k))}
    (h : x.1.answered (kori env) x.2 = some (p, ⟨.sql (.update k change), .ok none⟩)) {v : Row k}
    (hrow : (x.1.conf.shared.db.view p).row k = some v) : change v = .ok none := by
  obtain ⟨db, hdb⟩ := answered_sql h
  obtain ⟨-, ⟨-, -, hnone⟩ | ⟨v₀, e, -, -, ha, -⟩ | ⟨v₀, v', -, -, ha, -⟩⟩ :=
    Store.exec_update hdb
  · exact hnone v hrow
  · simp at ha
  · simp at ha

end Answers

/-! ## Committed rows -/

inductive Writes (k : Key) (v : Row k) : Entry Op Op.Ans → Prop
  | update {change} : Writes k v ⟨.sql (.update k change), .ok (some v)⟩
  | insert : Writes k v ⟨.sql (.insert k v), .ok ()⟩

theorem writes_of_wrote {k : Key} {v : Row k} {e : Executed Key Row LedgerEntry Query}
    (h : e.wrote = some ⟨k, v⟩) : Writes k v ⟨.sql e.op, e.answer⟩ := by
  unfold Executed.wrote at h
  split at h
  · obtain ⟨rfl, heq⟩ := Sigma.mk.inj (Option.some.inj h)
    cases heq
    exact .update
  · obtain ⟨rfl, heq⟩ := Sigma.mk.inj (Option.some.inj h)
    cases heq
    exact .insert
  · simp at h

theorem mem_statements {past : History} {e : Executed Key Row LedgerEntry Query} :
    e ∈ statements past ↔ (⟨.sql e.op, e.answer⟩ : Entry Op Op.Ans) ∈ past := by
  unfold statements
  rw [List.mem_filterMap]
  constructor
  · rintro ⟨⟨op, a⟩, hmem, heq⟩
    cases op with
    | sql statement =>
        obtain rfl : _ = e := by simpa [executed] using heq
        exact hmem
    | _ => simp [executed] at heq
  · exact fun hmem => ⟨_, hmem, rfl⟩

theorem writes_of_uncommitted {past : History} {own : (k : Key) → Option (Row k)} {k : Key}
    {v : Row k} (h : uncommitted (statements past) = some own) (hrow : own k = some v) :
    ∃ e ∈ past, Writes k v e := by
  obtain ⟨e, he, hwrote⟩ := mem_of_uncommitted h hrow
  exact ⟨_, mem_statements.1 he, writes_of_wrote hwrote⟩

/-- How a step of `p` with the entry `e` comes to change the committed row under `k`. -/
inductive Publishes (w : KoriWorld) (past : History) (k : Key) (v : Row k) :
    Entry Op Op.Ans → Prop
  | update {change v₀} : ¬InTransaction past → w.conf.shared.db.committed.row k = some v₀ →
      change v₀ = .ok (some v) → Publishes w past k v ⟨.sql (.update k change), .ok (some v)⟩
  | insert : ¬InTransaction past → Publishes w past k v ⟨.sql (.insert k v), .ok ()⟩
  | commit {own} : uncommitted (statements past) = some own → own k = some v →
      Publishes w past k v ⟨.sql .commit, .ok ()⟩

theorem run_published (hidle : ∀ p, shared.db.tx p = none)
    (hr : Run (kori env) (World.idle shared) past w)
    (hm : w.move (kori env) (.step p choice) = some w') {k : Key} {v : Row k}
    (hrow : (State.data w'.conf).row k = some v) (hnew : (State.data w.conf).row k ≠ some v) :
    ∃ e, w.answered (kori env) (.step p choice) = some (p, e) ∧
      Publishes w (heard (kori env) p past) k v e := by
  obtain ⟨op, next, answer, s, hproc, hexec, rfl⟩ := World.step_cases hm
  have hans : w.answered (kori env) (.step p choice) = some (p, ⟨op, answer⟩) :=
    World.answered_step hproc hexec
  have hown := (run_follows hidle hr p).alive (by simp [hproc])
  refine ⟨_, hans, ?_⟩
  change s.db.committed.row k = some v at hrow
  by_cases hop : ∀ statement, op ≠ .sql statement
  · rw [exec_db hexec hop] at hrow
    exact absurd hrow hnew
  · obtain ⟨statement, rfl⟩ := not_forall_not.1 hop
    obtain ⟨-, rfl, rfl⟩ | ⟨-, db, hdb, rfl⟩ := exec_sql hexec
    · rw [Store.fail_committed] at hrow
      exact absurd hrow hnew
    · obtain hold | hpublished := Store.exec_published hdb hrow
      · exact absurd hold hnew
      · cases hpublished with
        | written htx hwrote =>
            have houtside : ¬InTransaction (heard (kori env) p past) := by
              unfold InTransaction
              rw [← hown, Store.ownRows, htx]
              simp
            have hwrites := writes_of_wrote hwrote
            generalize hentry : (⟨.sql statement, answer⟩ : Entry Op Op.Ans) = entry
              at hans hwrites ⊢
            cases hwrites with
            | update =>
                obtain ⟨v₀, hv₀, hchange⟩ := answered_update (x := (w, .step p choice)) hans
                rw [Store.view_of_idle htx] at hv₀
                exact .update houtside hv₀ hchange
            | insert => exact .insert houtside
        | committed hcommit hrows hv =>
            obtain rfl : statement = .commit := hcommit
            simp only [Store.exec, Option.some.injEq, Prod.mk.injEq] at hdb
            obtain rfl := hdb.1
            exact .commit (hown.symm.trans hrows) hv

theorem run_committed (hidle : ∀ p, shared.db.tx p = none)
    (hr : Run (kori env) (World.idle shared) past w)
    (hm : w.move (kori env) (.step p choice) = some w')
    (hans : w.answered (kori env) (.step p choice) = some (p, ⟨.sql .commit, .ok ()⟩))
    {own : (k : Key) → Option (Row k)}
    (hown : uncommitted (statements (heard (kori env) p past)) = some own) {k : Key} {v : Row k}
    (hrow : own k = some v) : (State.data w'.conf).row k = some v := by
  obtain ⟨choice', next, s, hstep, hproc, hexec⟩ := World.answered_cases hans
  obtain ⟨-, rfl⟩ := Move.step.inj hstep
  simp only [World.move, hproc] at hm
  have hsame : w.leave p (w.conf.withShared s) (next (.ok ())) = w' := by
    split at hm
    · simp at hm
    · rename_i answer s' hexec'
      obtain ⟨rfl, rfl⟩ := Prod.mk.inj (Option.some.inj (hexec.symm.trans hexec'))
      exact Option.some.inj hm
  subst w'
  change s.db.committed.row k = some v
  obtain ⟨-, ha, -⟩ | ⟨-, db, hdb, rfl⟩ := exec_sql hexec
  · simp [Store.fail] at ha
  · simp only [Store.exec, Option.some.injEq, Prod.mk.injEq] at hdb
    obtain ⟨-, rfl⟩ := hdb
    change (w.conf.shared.db.view p).row k = some v
    have halive := (run_follows hidle hr p).alive (by simp [hproc])
    obtain ⟨own', htx, rfl⟩ := Option.map_eq_some_iff.1 (halive.trans hown)
    rw [Store.view_of_open htx]
    exact Tables.row_overlay_of_some hrow _

theorem Publishes.writes {past : History} {k : Key} {v : Row k} {e : Entry Op Op.Ans}
    (h : Publishes w past k v e) : ∃ e' ∈ e :: past, Writes k v e' := by
  cases h with
  | update _ _ _ => exact ⟨_, .head _, .update⟩
  | insert _ => exact ⟨_, .head _, .insert⟩
  | commit hown hrow =>
      obtain ⟨e', he', hwrites⟩ := writes_of_uncommitted hown hrow
      exact ⟨e', .tail _ he', hwrites⟩

/-- A committed row changes by a write that the rules of the call permit. -/
theorem run_changed (hidle : ∀ p, shared.db.tx p = none)
    (hr : Run (kori env) (World.idle shared) past w)
    (hm : w.move (kori env) (.step p choice) = some w') {k : Key} {v : Row k}
    (hrow : (State.data w'.conf).row k = some v) (hnew : (State.data w.conf).row k ≠ some v)
    {call : Call} (hcall : w.conf.calls p = some call) :
    ∃ e before, Writes k v e ∧ Asks env call before e.op ∧
      e :: before <:+ heard (kori env) p ((w, .step p choice) :: past) := by
  obtain ⟨e, hans, hpublishes⟩ := run_published hidle hr hm hrow hnew
  obtain ⟨e', hmem, hwrites⟩ := hpublishes.writes
  have hcons : heard (kori env) p ((w, .step p choice) :: past) = e :: heard (kori env) p past :=
    heard_cons_self hans
  rw [← hcons] at hmem
  obtain ⟨later, before, heq⟩ := List.append_of_mem hmem
  have hsuffix : e' :: before <:+ heard (kori env) p ((w, .step p choice) :: past) :=
    heq ▸ List.suffix_append later _
  have hasked := (Run.cons hr hm).asked obeyed (World.calls_mono hm hcall)
  exact ⟨e', before, hwrites, hasked.at hsuffix, hsuffix⟩

theorem run_locks (hidle : ∀ p, shared.db.tx p = none)
    (hr : Run (kori env) (World.idle shared) past w) (hproc : (w.procs p).isSome)
    {own : (k : Key) → Option (Row k)}
    (hown : uncommitted (statements (heard (kori env) p past)) = some own) {k : Key}
    (hrow : (own k).isSome) : w.conf.shared.db.lock k = some p := by
  have halive := (run_follows hidle hr p).alive hproc
  obtain ⟨own', htx, rfl⟩ := Option.map_eq_some_iff.1 (halive.trans hown)
  exact w.conf.shared.db.owned htx (Tables.row_isSome.1 hrow)

/-! ## Rows that a call may write -/

def Op.WritesRow (k : Key) : Op → Prop
  | .sql (.update k' _) | .sql (.insert k' _) => k' = k
  | _ => False

theorem Writes.writesRow {k : Key} {v : Row k} {e : Entry Op Op.Ans} (h : Writes k v e) :
    e.op.WritesRow k := by
  cases h <;> rfl

theorem Op.Free.not_writes {k : Key} (hfree : op.Free) : ¬op.WritesRow k := by
  cases op with
  | sql statement => cases statement <;> simp_all [Op.Free, Op.WritesRow]
  | _ => exact id

theorem Op.OnRows.writes {keys : Key → Prop} {k : Key} (h : op.OnRows keys)
    (hop : op.WritesRow k) : keys k := by
  cases op with
  | sql statement => cases statement <;> simp_all [Op.OnRows, Op.WritesRow]
  | _ => exact hop.elim

/-- The rows that a call may write. -/
def Call.Touches : Call → Key → Prop
  | .transfer _, k => k.IsTransfer
  | .deactiveWallet _ _, k | .activeWallet _ _, k => k.IsWallet
  | .suspend _ target, k => k.IsWallet ∨ k = .user target ∨ ∃ u d, k = .device u d
  | .reactivate _ target, k => k = .user target
  | .sendOtp _, _ => False
  | .verifyOtp dto, k => (∃ u, k = .device u dto.deviceId) ∨ ∃ id, k = .deviceById id
  | .register _, _ | .registerBusiness _, _ => True
  | .login dto, k => ∃ u, k = .device u dto.deviceId
  | .refresh token, k | .logout token, k =>
      ∃ payload, token = some payload ∧ k = .device payload.sub payload.deviceId
  | .revokeTrustedDevice actor _, k => ∃ u d, actor = some u ∧ k = .device u d
  | .approveBusinessAccount _ _, k => k.IsApproval

theorem asks_touches {call : Call} {before : History} {k : Key}
    (hasks : Asks env call before op) (hop : op.WritesRow k) : call.Touches k := by
  cases call with
  | transfer _ =>
      rcases hasks with hcache | hrows
      · cases op with
        | sql _ => exact hcache.elim
        | _ => exact hop.elim
      · exact hrows.writes hop
  | deactiveWallet _ _ | activeWallet _ _ | approveBusinessAccount _ _ =>
      exact Op.OnRows.writes hasks hop
  | suspend _ target =>
      cases hasks with
      | free hfree _ => exact absurd hop hfree.not_writes
      | freeze => exact .inl ⟨_, hop.symm⟩
      | restrict _ => exact .inr (.inl hop.symm)
      | clear _ _ => exact .inr (.inr ⟨_, _, hop.symm⟩)
      | _ => exact hop.elim
  | reactivate _ target =>
      cases hasks with
      | free hfree => exact absurd hop hfree.not_writes
      | update _ => exact hop.symm
  | sendOtp dto =>
      cases hasks with
      | free hfree _ => exact hfree.not_writes hop
      | _ => exact hop
  | verifyOtp dto =>
      cases hasks with
      | free hfree => exact absurd hop hfree.not_writes
      | upsert _ hasks =>
          cases hasks with
          | update _ => exact .inl ⟨_, hop.symm⟩
          | insert _ => exact .inl ⟨_, hop.symm⟩
          | index _ => exact .inr ⟨_, hop.symm⟩
          | _ => exact hop.elim
      | _ => exact hop.elim
  | register _ | registerBusiness _ => trivial
  | login dto =>
      obtain ⟨-, phone, -, hasks⟩ := hasks
      cases hasks with
      | establish _ _ hasks =>
          cases hasks with
          | update _ => exact ⟨_, hop.symm⟩
          | _ => exact hop.elim
      | _ => exact hop.elim
  | refresh _ | logout _ =>
      obtain ⟨payload, rfl, hasks⟩ := hasks
      cases hasks with
      | free hfree => exact absurd hop hfree.not_writes
      | update _ => exact ⟨payload, rfl, hop.symm⟩
  | revokeTrustedDevice actor _ =>
      obtain ⟨userId, rfl, hasks⟩ := hasks
      cases hasks with
      | free hfree => exact absurd hop hfree.not_writes
      | update _ _ => exact ⟨userId, _, rfl, hop.symm⟩

/-- A request changes no other rows than those it may write. -/
theorem run_touches (hidle : ∀ p, shared.db.tx p = none)
    (hr : Run (kori env) (World.idle shared) past w)
    (hm : w.move (kori env) (.step p choice) = some w') {k : Key} {v : Row k}
    (hrow : (State.data w'.conf).row k = some v) (hnew : (State.data w.conf).row k ≠ some v)
    {call : Call} (hcall : w.conf.calls p = some call) : call.Touches k := by
  obtain ⟨e, before, hwrites, hasks, -⟩ := run_changed hidle hr hm hrow hnew hcall
  exact asks_touches hasks hwrites.writesRow

theorem unwritten_row (hidle : ∀ p, shared.db.tx p = none)
    (hr : Run (kori env) (World.idle shared) past w) {k : Key} {v : Row k}
    (hnever : ∀ e ∈ heard (kori env) p past, ¬e.op.WritesRow k) (hproc : (w.procs p).isSome)
    (hrow : (w.conf.shared.db.view p).row k = some v) : (State.data w.conf).row k = some v := by
  cases htx : w.conf.shared.db.tx p with
  | none => rwa [Store.view_of_idle htx] at hrow
  | some own =>
      rw [Store.view_of_open htx] at hrow
      cases hown : own.row k with
      | none => rwa [Tables.row_overlay_of_none hown] at hrow
      | some v' =>
          have halive := (run_follows hidle hr p).alive hproc
          rw [Store.ownRows, htx, Option.map_some] at halive
          obtain ⟨e, he, hwrites⟩ := writes_of_uncommitted halive.symm hown
          exact absurd hwrites.writesRow (hnever e he)

theorem run_seen (hidle : ∀ p, shared.db.tx p = none)
    (hr : Run (kori env) (World.idle shared) past w) {call : Call}
    (hcall : w.conf.calls p = some call) {k : Key} {v : Row k} (hnot : ¬call.Touches k)
    {query : Query} {t : Data}
    (hread : ⟨.sql (.select query), .ok t⟩ ∈ heard (kori env) p past)
    (hrow : t.row k = some v) : ∃ w₀, Reachable (kori env) (World.idle shared) w₀ ∧
      Reachable (kori env) w₀ w ∧ (State.data w₀.conf).row k = some v := by
  obtain ⟨x, before, hx, hans⟩ := heard_moment hread
  obtain ⟨hrx, w₁, later, hm, hlater, -⟩ := hr.at hx
  obtain ⟨called, hcalled, -⟩ := hrx.asks obeyed hans
  obtain rfl := Option.some.inj ((hr.called_at hx hcalled).symm.trans hcall)
  refine ⟨x.1, hrx.reachable, Reach.trans (.move .refl hm trivial) hlater.reachable, ?_⟩
  rw [answered_select hans] at hrow
  obtain ⟨choice, next, s, -, hproc, -⟩ := World.answered_cases hans
  refine unwritten_row hidle hrx (fun e he hwrites => ?_) (by simp [hproc]) hrow
  obtain ⟨later', before', heq⟩ := List.append_of_mem he
  have hasks := (hrx.asked obeyed hcalled).at (heq ▸ List.suffix_append later' (e :: before'))
  exact hnot (asks_touches hasks hwrites)

theorem run_read (hopening : Opening env shared)
    (hr : Run (kori env) (World.idle shared) past w) {call : Call}
    (hcall : w.conf.calls p = some call) {k : Key} {v : Row k} (hnot : ¬call.Touches k)
    {query : Query} {t : Data}
    (hread : ⟨.sql (.select query), .ok t⟩ ∈ heard (kori env) p past)
    (hrow : t.row k = some v) : ∃ v', (State.data w.conf).row k = some v' ∧ Lasts k v v' := by
  obtain ⟨w₀, hr₀, hlater, hseen⟩ := run_seen hopening.idle hr hcall hnot hread hrow
  exact run_grows ((contract env).sound hopening.sound hr₀) hlater k v hseen

/-! ## Requests that never open a transaction -/

theorem uncommitted_of_never {past : History} (h : Never (· = .sql .start) past) :
    uncommitted (statements past) = none := by
  induction past with
  | nil => rfl
  | cons e past ih =>
      have hrest := ih fun e' he' => h e' (.tail _ he')
      have hnot := h e (.head _)
      obtain ⟨op, a⟩ := e
      cases op with
      | sql statement =>
          rw [statements_sql, uncommitted_cons, hrest]
          unfold Executed.apply
          split
          · rename_i heq
            cases heq
            exact absurd rfl hnot
          all_goals rfl
      | _ => exact hrest

def Call.Single (env : Env) (call : Call) : Prop :=
  ∀ before, ¬Asks env call before (.sql .start)

theorem run_single (hidle : ∀ p, shared.db.tx p = none)
    (hr : Run (kori env) (World.idle shared) past w) {call : Call}
    (hcall : w.conf.calls p = some call) (hsingle : call.Single env) :
    w.conf.shared.db.tx p = none ∧ ¬InTransaction (heard (kori env) p past) := by
  have hnever : Never (· = .sql .start) (heard (kori env) p past) := by
    intro e he hstart
    obtain ⟨later, before, heq⟩ := List.append_of_mem he
    have hasked := (hr.asked obeyed hcall).at (heq ▸ List.suffix_append later (e :: before))
    exact hsingle before (hstart ▸ hasked)
  have hnone := uncommitted_of_never hnever
  refine ⟨?_, by simp [InTransaction, hnone]⟩
  have hfollows := run_follows hidle hr p
  cases hproc : w.procs p with
  | none => exact hfollows.gone hproc
  | some m =>
      have hown := hfollows.alive (by simp [hproc])
      rw [hnone] at hown
      exact Option.map_eq_none_iff.1 hown

theorem run_written (hidle : ∀ p, shared.db.tx p = none)
    (hr : Run (kori env) (World.idle shared) past w)
    (hm : w.move (kori env) (.step p choice) = some w') {k : Key} {v : Row k}
    (hrow : (State.data w'.conf).row k = some v) (hnew : (State.data w.conf).row k ≠ some v)
    {call : Call} (hcall : w.conf.calls p = some call) (hsingle : call.Single env) :
    (∃ change v₀, Asks env call (heard (kori env) p past) (.sql (.update k change)) ∧
      (State.data w.conf).row k = some v₀ ∧ change v₀ = .ok (some v)) ∨
    Asks env call (heard (kori env) p past) (.sql (.insert k v)) := by
  obtain ⟨e, hans, hpublishes⟩ := run_published hidle hr hm hrow hnew
  obtain ⟨called, hcalled, hasks⟩ := hr.asks obeyed hans
  obtain rfl := Option.some.inj (hcalled.symm.trans hcall)
  cases hpublishes with
  | update _ hv₀ hchange => exact .inl ⟨_, _, hasks, hv₀, hchange⟩
  | insert _ => exact .inr hasks
  | commit hown _ =>
      refine absurd ?_ (run_single hidle hr hcall hsingle).2
      simp [InTransaction, hown]

theorem run_row (hopening : Opening env shared)
    (hr : Reachable (kori env) (World.idle shared) w) {m : KoriMove}
    (hm : w.move (kori env) m = some w') {k : Key}
    (hchanged : (State.data w'.conf).row k ≠ (State.data w.conf).row k) :
    ∃ v, (State.data w'.conf).row k = some v ∧ (State.data w.conf).row k ≠ some v := by
  cases hafter : (State.data w'.conf).row k with
  | some v => exact ⟨v, rfl, fun hbefore => hchanged (hafter.trans hbefore.symm)⟩
  | none =>
      have hstep : Reachable (kori env) w w' := .move .refl hm trivial
      have hgrows := run_grows ((contract env).sound hopening.sound hr) hstep
      cases hbefore : (State.data w.conf).row k with
      | none => exact absurd (hafter.trans hbefore.symm) hchanged
      | some v =>
          obtain ⟨v', hv', -⟩ := hgrows k v hbefore
          simp [hafter] at hv'

theorem row_stays (hopening : Opening env shared) (hr : Run (kori env) (World.idle shared) past w)
    {x : KoriMoment} {before : List KoriMoment} (hx : x :: before <:+ past) {k : Key} {v : Row k}
    (hrow : (State.data x.1.conf).row k = some v) : ((State.data w.conf).row k).isSome := by
  obtain ⟨hbefore, w₁, later, hm, hlater, -⟩ := hr.at hx
  have hreach : Reachable (kori env) x.1 w :=
    Reach.trans (.move .refl hm trivial) hlater.reachable
  have hgrows := run_grows ((contract env).sound hopening.sound hbefore.reachable) hreach
  obtain ⟨v', hrow', -⟩ := hgrows k v hrow
  simp [hrow']

theorem accountByPhone_row {t : Data} {phone : JsString} {id : Uuid} {user : User}
    (h : Data.accountByPhone t phone = some (id, user)) :
    t.row (.userByPhone phone) = some id ∧ t.row (.user id) = some user := by
  obtain ⟨id', hid, hfound⟩ := Option.bind_eq_some_iff.1 h
  obtain ⟨user', huser, heq⟩ := Option.map_eq_some_iff.1 hfound
  obtain ⟨rfl, rfl⟩ := Prod.mk.inj heq
  exact ⟨hid, huser⟩

end Kori
