import Kori.Conduct.Rules

/-!
# Building blocks under rules

How statements, Redis access, transactions and single updates keep to rules that
look back on the history of a request.
-/

namespace Kori

open Foundation Code

variable {env : Env} {r : Rules Op Op.Ans Reply} {past past' : History} {α β : Type}
variable {Q : α → History → Prop} {E : Exn → History → Prop}

/-! ## Histories -/

theorem statements_sql (statement : Statement) (a : Except SqlError statement.Ans) :
    statements (⟨.sql statement, a⟩ :: past) = ⟨statement, a⟩ :: statements past := rfl

theorem statements_cons {e : Entry Op Op.Ans} (h : ∀ statement, e.op ≠ .sql statement) :
    statements (e :: past) = statements past := by
  obtain ⟨op, a⟩ := e
  cases op with
  | sql statement => exact absurd rfl (h statement)
  | _ => rfl

def Op.KeepsOpen (op : Op) : Prop := op ≠ .sql .commit ∧ op ≠ .sql .rollback

theorem InTransaction.start (past : History) :
    InTransaction (⟨.sql .start, .ok ()⟩ :: past) := rfl

theorem InTransaction.cons (h : InTransaction past) {e : Entry Op Op.Ans}
    (he : e.op.KeepsOpen) : InTransaction (e :: past) := by
  obtain ⟨op, a⟩ := e
  cases op with
  | sql statement =>
      unfold InTransaction at h ⊢
      rw [statements_sql, uncommitted_cons]
      unfold Executed.apply
      split
      · rfl
      · rename_i heq
        cases heq
        exact absurd rfl he.1
      · rename_i heq
        cases heq
        exact absurd rfl he.2
      · simpa using h
      · simpa using h
      · exact h
  | _ => exact h

theorem InTransaction.extends (h : InTransaction past) (he : Extends Op.KeepsOpen past past') :
    InTransaction past' := by
  obtain ⟨recent, rfl, hrecent⟩ := he
  induction recent with
  | nil => exact h
  | cons e recent ih =>
      exact (ih fun e' he' => hrecent e' (List.mem_cons_of_mem _ he')).cons
        (hrecent e List.mem_cons_self)

theorem Never.nil {P : Op → Prop} : Never P [] := by simp [Never]

theorem Never.cons {P : Op → Prop} {e : Entry Op Op.Ans} (h : Never P past)
    (he : ¬P e.op) : Never P (e :: past) := by
  simpa [Never] using ⟨he, h⟩

theorem Never.extends {P R : Op → Prop} (h : Never P past) (he : Extends R past past')
    (hR : ∀ op, R op → ¬P op) : Never P past' :=
  fun e hmem hp => h e (he.old hmem fun hr => hR _ hr hp) hp

/-! ## Statements -/

theorem heeds_sql {statement : Statement} {Q : statement.Ans → History → Prop}
    (hasks : r.asks past (.sql statement))
    (hok : ∀ a, Q a (⟨.sql statement, .ok a⟩ :: past))
    (hthrow : ∀ e, E (.sql e) (⟨.sql statement, .error e⟩ :: past)) :
    Heeds r (sql statement) Q E past := by
  refine ⟨hasks, fun answer => ?_⟩
  cases answer with
  | ok a => exact hok a
  | error e => exact hthrow e

theorem heeds_select {query : Query} {Q : Data → History → Prop}
    (hasks : r.asks past (.sql (.select query)))
    (hok : ∀ t, Q t (⟨.sql (.select query), .ok t⟩ :: past))
    (hthrow : ∀ e, E (.sql e) (⟨.sql (.select query), .error e⟩ :: past)) :
    Heeds r (select query) Q E past :=
  heeds_sql hasks hok hthrow

theorem heeds_transaction {body : Action α} {R : α → History → Prop} {X : Exn → History → Prop}
    (hstart : r.asks past (.sql .start))
    (hrefused : ∀ e, E (.sql e) (⟨.sql .start, .error e⟩ :: past))
    (hbody : Heeds r body R X (⟨.sql .start, .ok ()⟩ :: past))
    (hrollback : ∀ e past', X e past' → r.asks past' (.sql .rollback) ∧
      ∀ a, E e (⟨.sql .rollback, a⟩ :: past'))
    (hcommit : ∀ a past', R a past' → r.asks past' (.sql .commit) ∧
      Q a (⟨.sql .commit, .ok ()⟩ :: past') ∧
      ∀ e, E (.sql e) (⟨.sql .commit, .error e⟩ :: past')) :
    Heeds r (transaction body) Q E past := by
  refine (heeds_sql (Q := fun _ past' => past' = ⟨.sql .start, .ok ()⟩ :: past) hstart
    (fun _ => rfl) hrefused).bind ?_
  rintro - _ rfl
  refine Heeds.bind (R := R) (hbody.tryCatch fun e past' he => ?_) ?_
  · exact ⟨(hrollback e past' he).1, (hrollback e past' he).2⟩
  · intro a past' ha
    obtain ⟨hasks, hok, hthrow⟩ := hcommit a past' ha
    refine (heeds_sql hasks (Q := fun _ past'' => Q a past'') ?_ hthrow).bind fun _ _ h => h
    exact fun _ => hok

theorem heeds_updateRow {query : Query} {k : Key} {conditions : Row k → Bool}
    {relations : Data → Bool} {data : Row k → Row k} {Q : Nat → History → Prop}
    (hselect : r.asks past (.sql (.select query)))
    (hupdate : ∀ t, r.asks (⟨.sql (.select query), .ok t⟩ :: past)
      (.sql (.update k fun row => .ok (if conditions row then some (data row) else none))))
    (hQ : ∀ n past', Extends (fun op => op = .sql (.select query) ∨
      ∃ change, op = .sql (.update k change)) past past' →
      (n = 1 → ∃ t change v, past' = ⟨.sql (.update k change), .ok (some v)⟩ ::
        ⟨.sql (.select query), .ok t⟩ :: past) → Q n past')
    (hE : ∀ e past', Extends (fun op => op = .sql (.select query) ∨
      ∃ change, op = .sql (.update k change)) past past' → E e past') :
    Heeds r (updateRow query k conditions relations data) Q E past := by
  refine (heeds_select (Q := fun t past' => past' = ⟨.sql (.select query), .ok t⟩ :: past)
    hselect (fun _ => rfl) fun e => hE _ _ ((Extends.refl _).cons (.inl rfl))).bind ?_
  rintro t _ rfl
  have hread : Extends (fun op => op = .sql (.select query) ∨
      ∃ change, op = .sql (.update k change)) past (⟨.sql (.select query), .ok t⟩ :: past) :=
    (Extends.refl _).cons (.inl rfl)
  split
  · exact hQ _ _ hread (by simp)
  · split
    · refine Heeds.bind (R := fun updated past' => Q (if updated.isSome then 1 else 0) past')
        (heeds_sql (hupdate t) (fun a => ?_) ?_) ?_
      · refine hQ _ _ (hread.cons (.inr ⟨_, rfl⟩)) fun hone => ?_
        obtain ⟨v, rfl⟩ : ∃ v, a = some v := by
          cases a with
          | none => simp at hone
          | some v => exact ⟨v, rfl⟩
        exact ⟨t, _, v, rfl⟩
      · exact fun e => hE _ _ (hread.cons (.inr ⟨_, rfl⟩))
      · intro updated past' h
        cases updated with
        | none => exact h
        | some _ => exact h
    · exact hQ _ _ hread (by simp)

/-! ## Redis -/

theorem heeds_getStrict {k : RedisKey} {Q : Option (RedisValue k) → History → Prop}
    (hasks : r.asks past (.redis (.get k)))
    (hok : ∀ value, Q value (⟨.redis (.get k), .ok value⟩ :: past))
    (hoffline : ∀ e, E e (⟨.redis (.get k), .offline⟩ :: past))
    (herror : ∀ e, E e (⟨.redis (.get k), .error⟩ :: past)) :
    Heeds r (RedisService.getStrict k) Q E past := by
  refine ⟨hasks, fun reply => ?_⟩
  cases reply with
  | offline => exact hoffline _
  | error => exact herror _
  | ok value => exact hok value

theorem heeds_set {k : RedisKey} {value : RedisValue k} {nx : Bool}
    {Q : Bool → History → Prop} (hasks : r.asks past (.redis (.set k value nx)))
    (h : ∀ stored reply, Q stored (⟨.redis (.set k value nx), reply⟩ :: past)) :
    Heeds r (RedisService.set k value nx) Q E past := by
  refine ⟨hasks, fun reply => ?_⟩
  cases reply with
  | offline => exact h _ _
  | error => exact h _ _
  | ok stored => exact h _ _

theorem heeds_evalScript {command : RedisCommand} {unavailable : Exn}
    {Q : command.Ans → History → Prop} (hasks : r.asks past (.redis command))
    (hok : ∀ a, Q a (⟨.redis command, .ok a⟩ :: past))
    (hoffline : E unavailable (⟨.redis command, .offline⟩ :: past))
    (herror : E unavailable (⟨.redis command, .error⟩ :: past)) :
    Heeds r (RedisService.evalScript command unavailable) Q E past := by
  refine ⟨hasks, fun reply => ?_⟩
  cases reply with
  | offline => exact hoffline
  | error => exact herror
  | ok a => exact hok a

/-! ## Guards and answers -/

theorem heeds_phoneNumberFrom {value : JsString} {Q : JsString → History → Prop}
    (hok : ∀ phone, phoneOf env value = some phone → Q phone past)
    (hthrow : phoneOf env value = none → ∀ e, E e past) :
    Heeds r (phoneNumberFrom env value) Q E past := by
  unfold phoneNumberFrom
  unfold phoneOf at hok hthrow
  dsimp only
  split
  · rename_i hempty
    exact hthrow (if_pos hempty) _
  · rename_i hgiven
    rw [if_neg hgiven] at hok hthrow
    split
    · rename_i hnone
      exact hthrow hnone _
    · rename_i number hsome
      exact hok number hsome

theorem heeds_respond {handler : Action Reply}
    (h : Heeds r handler (fun reply past' => r.tells past' reply ∧ r.ends past')
      (fun e past' => r.tells past' (.failed e) ∧ r.ends past') past) :
    Heeds r (respond handler) (fun _ => r.ends) (fun _ => r.ends) past :=
  heeds_bind.2 (heeds_tryCatch.2 h)

theorem heeds_only {P : Op → Prop} {m : Action α} (h : m.Only P)
    (hasks : ∀ past' op, Extends P past past' → P op → r.asks past' op)
    (hQ : ∀ a past', Extends P past past' → Q a past')
    (hE : ∀ e past', Extends P past past' → E e past') : Heeds r m Q E past :=
  (h.heeds hasks).imp hQ hE

end Kori
