import Kori.Conduct.Footprint

/-!
# What a registration commits

One account with the phone that has been verified, and devices of that account only.
-/

namespace Kori

open Foundation

variable {env : Env} {shared : Shared} {w w' : KoriWorld} {q : Pid} {choice : Choice}
variable {past : List KoriMoment} {h₀ later before : History}

/-! ## One transaction -/

theorem written_stays {k : Key} {v : Row k} {e : Entry Op Op.Ans}
    {own : (k : Key) → Option (Row k)} (hwrites : Writes k v e) (hopen : InTransaction before)
    (hstart : ∀ e ∈ later, e.op ≠ .sql .start)
    (hown : uncommitted (statements (later ++ e :: before)) = some own) : (own k).isSome := by
  obtain ⟨statement, a, rfl, hwrote⟩ : ∃ statement a, e = ⟨.sql statement, a⟩ ∧
      Executed.wrote ⟨statement, a⟩ = some ⟨k, v⟩ := by
    cases hwrites with
    | update => exact ⟨_, _, rfl, rfl⟩
    | insert => exact ⟨_, _, rfl, rfl⟩
  obtain ⟨own₀, hown₀⟩ := Option.isSome_iff_exists.1 hopen
  have happend : statements (later ++ ⟨.sql statement, a⟩ :: before) =
      statements later ++ statements (⟨.sql statement, a⟩ :: before) := List.filterMap_append
  rw [happend] at hown
  have hnow : uncommitted (statements (⟨.sql statement, a⟩ :: before)) =
      some (Function.update own₀ k (some v)) := by
    rw [statements_sql, uncommitted_cons, Executed.apply_wrote hwrote, hown₀]
    rfl
  refine uncommitted_keeps hnow (by simp) (fun e he hop => ?_) hown
  refine hstart _ (mem_statements.1 he) ?_
  simp [hop]

theorem InTransaction.started (h : InTransaction before) : ∃ e ∈ before, e.op = .sql .start := by
  by_contra hnone
  have hnever : Never (· = .sql .start) before := fun e he hop => hnone ⟨e, he, hop⟩
  simp [InTransaction, uncommitted_of_never hnever] at h

/-! ## Registrations -/

def Registers (c : State) (q : Pid) (dto : RegisterDto) : Prop :=
  c.calls q = some (.register dto) ∨ c.calls q = some (.registerBusiness dto)

variable {dto : RegisterDto}

theorem registers_asked (hr : Run (kori env) (World.idle shared) past w)
    (hcall : Registers w.conf q dto) :
    Throughout (fun before e => RegisterAsks env dto before e.op) (heard (kori env) q past) := by
  obtain hcall | hcall := hcall <;> exact hr.asked obeyed hcall

theorem RegisterAsks.one_start
    (h : Throughout (fun before e => RegisterAsks env dto before e.op) (later ++ before))
    (hopen : InTransaction before) : ∀ e ∈ later, e.op ≠ .sql .start := by
  intro e he hop
  obtain ⟨later', before', rfl⟩ := List.append_of_mem he
  have hsuffix : e :: (before' ++ before) <:+ (later' ++ e :: before') ++ before :=
    ⟨later', by simp⟩
  have hasks := h.at hsuffix
  obtain ⟨e', he', hop'⟩ := hopen.started
  rw [hop] at hasks
  cases hasks with
  | free hfree => exact hfree
  | provision _ hasks =>
      cases hasks with
      | start hnever => exact hnever e' (List.mem_append_right _ he') hop'

theorem RegisterAsks.user {own : (k : Key) → Option (Row k)}
    (h : Throughout (fun before e => RegisterAsks env dto before e.op) h₀)
    (hown : uncommitted (statements h₀) = some own) {u : Uuid} {user : User}
    (hrow : own (.user u) = some user) :
    ⟨.sql (.insert (.user u) user), .ok ()⟩ ∈ h₀ ∧ user.status = .active ∧
      ProofConsumed env dto user.phone h₀ := by
  obtain ⟨e, he, hwrites⟩ := writes_of_uncommitted hown hrow
  obtain ⟨later, before, rfl⟩ := List.append_of_mem he
  have hasks := h.at (List.suffix_append later (e :: before))
  have hmono : before ⊆ later ++ e :: before := fun _ he =>
    List.mem_append_right _ (.tail _ he)
  cases hwrites with
  | update =>
      cases hasks with
      | free hfree => exact hfree.elim
      | provision _ hasks => cases hasks
  | insert =>
      cases hasks with
      | free hfree => exact hfree.elim
      | provision hconsumed hasks =>
          cases hasks with
          | user _ hphone hstatus _ =>
              subst hphone
              exact ⟨he, hstatus, hconsumed.1, hmono hconsumed.2⟩
          | other _ huser _ => exact absurd rfl (huser u)

theorem RegisterAsks.one_user
    (h : Throughout (fun before e => RegisterAsks env dto before e.op) h₀) {u u' : Uuid}
    {user user' : User} (hu : ⟨.sql (.insert (.user u) user), .ok ()⟩ ∈ h₀)
    (hu' : ⟨.sql (.insert (.user u') user'), .ok ()⟩ ∈ h₀) : u = u' := by
  have hnew : ∀ {before u user}, ⟨.sql (.insert (.user u) user), .ok ()⟩ :: before <:+ h₀ →
      ∀ u' user', ⟨.sql (.insert (.user u') user'), .ok ()⟩ ∉ before := by
    intro before u user hsuffix
    have hasks := h.at hsuffix
    cases hasks with
    | free hfree => exact hfree.elim
    | provision _ hasks =>
        cases hasks with
        | user _ _ _ hnew => exact hnew
        | other _ huser _ => exact absurd rfl (huser u)
  obtain ⟨later, before, heq⟩ := List.append_of_mem hu
  obtain ⟨later', before', heq'⟩ := List.append_of_mem hu'
  have hx := heq ▸ List.suffix_append later (⟨.sql (.insert (.user u) user), .ok ()⟩ :: before)
  have hy := heq' ▸
    List.suffix_append later' (⟨.sql (.insert (.user u') user'), .ok ()⟩ :: before')
  rcases moments_cases hx hy with ⟨hsame, -⟩ | hearlier | hearlier
  · simp only [Entry.mk.injEq, Op.sql.injEq, Sql.insert.injEq, Key.user.injEq] at hsame
    exact hsame.1.1
  · exact absurd (hearlier.subset List.mem_cons_self) (hnew hy u user)
  · exact absurd (hearlier.subset List.mem_cons_self) (hnew hx u' user')

theorem RegisterAsks.device {own : (k : Key) → Option (Row k)}
    (h : Throughout (fun before e => RegisterAsks env dto before e.op) h₀)
    (hown : uncommitted (statements h₀) = some own) {u : Uuid} {d : JsString}
    {device : TrustDevice} (hrow : own (.device u d) = some device) :
    d = dto.deviceId ∧ (own (.user u)).isSome := by
  obtain ⟨e, he, hwrites⟩ := writes_of_uncommitted hown hrow
  obtain ⟨later, before, rfl⟩ := List.append_of_mem he
  have hasks := h.at (List.suffix_append later (e :: before))
  cases hwrites with
  | update =>
      cases hasks with
      | free hfree => exact hfree.elim
      | provision _ hasks => cases hasks
  | insert =>
      cases hasks with
      | free hfree => exact hfree.elim
      | provision _ hasks =>
          cases hasks with
          | @device _ user _ _ hmem =>
              refine ⟨rfl, ?_⟩
              -- the account has been written earlier in the same transaction
              obtain ⟨later', before', heq⟩ := List.append_of_mem hmem
              generalize hall : later ++ ⟨.sql (.insert (.device u dto.deviceId) device), .ok ()⟩ ::
                before = all at h hown
              have hsplit : all = (later ++ ⟨.sql (.insert (.device u dto.deviceId) device),
                  .ok ()⟩ :: later') ++ ⟨.sql (.insert (.user u) user), .ok ()⟩ :: before' := by
                rw [← hall, heq]
                simp
              rw [hsplit] at h hown
              have hasks' := h.at (List.suffix_append _ (_ :: before'))
              have hopen : InTransaction before' := by
                cases hasks' with
                | free hfree => exact hfree.elim
                | provision _ hasks' =>
                    cases hasks' with
                    | user hopen _ _ _ => exact hopen
                    | other hopen _ _ => exact hopen
              refine written_stays .insert hopen ?_ hown
              intro e he
              exact RegisterAsks.one_start h (hopen.cons (by simp [Op.KeepsOpen])) e he
          | other _ _ hdevice => exact absurd rfl (hdevice u d)

theorem run_registers (hidle : ∀ p, shared.db.tx p = none)
    (hr : Run (kori env) (World.idle shared) past w)
    (hm : w.move (kori env) (.step q choice) = some w') (hcall : Registers w.conf q dto)
    {k : Key} {v : Row k} (hrow : (State.data w'.conf).row k = some v)
    (hnew : (State.data w.conf).row k ≠ some v)
    (hk : (∃ u, k = .user u) ∨ ∃ u d, k = .device u d) :
    ∃ own, w.answered (kori env) (.step q choice) = some (q, ⟨.sql .commit, .ok ()⟩) ∧
      uncommitted (statements (heard (kori env) q past)) = some own ∧ own k = some v := by
  obtain ⟨e, hans, hpublishes⟩ := run_published hidle hr hm hrow hnew
  have hasks : RegisterAsks env dto (heard (kori env) q past) e.op := by
    obtain ⟨called, hcalled, hasks⟩ := hr.asks obeyed hans
    obtain hcall | hcall := hcall
    · obtain rfl := Option.some.inj (hcalled.symm.trans hcall)
      exact hasks
    · obtain rfl := Option.some.inj (hcalled.symm.trans hcall)
      exact hasks
  cases hpublishes with
  | commit hown hv => exact ⟨_, hans, hown, hv⟩
  | update houtside _ _ =>
      cases hasks with
      | free hfree => exact hfree.elim
      | provision _ hasks =>
          cases hasks with
          | claim hopen => exact absurd hopen houtside
  | insert houtside =>
      cases hasks with
      | free hfree => exact hfree.elim
      | provision _ hasks =>
          cases hasks with
          | user hopen _ _ _ => exact absurd hopen houtside
          | device hopen _ => exact absurd hopen houtside
          | other hopen _ _ => exact absurd hopen houtside

end Kori
