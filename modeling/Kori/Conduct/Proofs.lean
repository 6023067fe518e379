import Kori.Conduct.Rows
import Kori.Contract.Proofs

/-!
# One-time passwords and registration under their rules
-/

namespace Kori

open Foundation Code

variable {env : Env} {r : Rules Op Op.Ans Reply} {past past' : History}
variable {E : Exn → History → Prop}

/-! ## Sending -/

theorem heeds_getOtpSecurityValue {k : RedisKey} {Q : Option (RedisValue k) → History → Prop}
    (hasks : r.asks past (.redis (.get k)))
    (hok : ∀ value, Q value (⟨.redis (.get k), .ok value⟩ :: past))
    (hthrow : ∀ e past', E e past') : Heeds r (getOtpSecurityValue k) Q E past :=
  (heeds_getStrict (E := fun _ _ => True) hasks hok (fun _ => trivial)
    fun _ => trivial).tryCatch fun _ _ _ => hthrow _ _

theorem acquireResendLock_heeds {phone : JsString} {Q : Unit → History → Prop}
    (hset : r.asks past (.redis (.set (.otpResend phone) () true)))
    (hget : ∀ past, r.asks past (.redis (.get (.otpResend phone))))
    (hok : ∀ reply, Q () (⟨.redis (.set (.otpResend phone) () true), reply⟩ :: past))
    (hthrow : ∀ e past', E e past') : Heeds r (acquireResendLock phone) Q E past := by
  refine Heeds.bind (R := fun _ past' => Q () past') (heeds_set hset fun _ => hok) ?_
  intro acquired past₁ hQ
  split
  · refine heeds_bind.2 (heeds_getOtpSecurityValue (hget _) (fun existing => ?_)
      hthrow)
    split
    · exact hthrow _ _
    · exact hthrow _ _
  · exact hQ

theorem storeChallenge_heeds {dto : SendOtpDto} {phone : JsString} {u : Uuid} {otp : JsString}
    (hasks : ∀ past op, SendOtpAsks env dto past op → r.asks past op)
    (hphone : phoneOf env dto.phone = some phone) (hbelow : BelowLimit env phone past)
    (hdrawn : ⟨.randomUUID, u⟩ ∈ past) (hnew : Never Op.StoresChallenge past)
    (hnewPointer : Never Op.StoresPointer past) :
    Heeds r (storeChallenge phone dto.deviceId (uuidText u) otp) (fun _ _ => True)
      (fun _ _ => True) past := by
  refine heeds_bind.2 (heeds_set (hasks _ _ (.challenge hphone hbelow hdrawn hnew)) ?_)
  intro stored reply
  split
  · exact heeds_bind.2 (heeds_only (RedisService.del_only
      (P := fun op => op = .redis (.del (.otpResend phone))) rfl)
      (fun _ _ _ h => h ▸ hasks _ _ .unlock) (fun _ _ _ => trivial) fun _ _ _ => trivial)
  · refine heeds_bind.2 (heeds_set (hasks _ _ (.pointer hphone (.tail _ hdrawn) ?_)) ?_)
    · refine hnewPointer.cons ?_
      rintro ⟨phone', challengeId, heq⟩
      simp at heq
    · intro storedPointer reply'
      split
      · refine heeds_bind.2 (heeds_only (P := fun op => op = .turn ∨
          op = .redis (.del (.otpChallenge phone (uuidText u))) ∨
          op = .redis (.del (.otpResend phone))) (Only.both (.inl rfl)
            (RedisService.del_only (.inr (.inl rfl))) (RedisService.del_only (.inr (.inr rfl))))
          ?_ (fun _ _ _ => trivial) fun _ _ _ => trivial)
        rintro past' _ hpast (rfl | rfl | rfl)
        · exact hasks _ _ (.free (by trivial) (by simp))
        · exact hasks _ _ (.retract (hpast.mem (.tail _ (.tail _ hdrawn))))
        · exact hasks _ _ .unlock
      · trivial

theorem sendOtp_heeds {dto : SendOtpDto}
    (hasks : ∀ past op, SendOtpAsks env dto past op → r.asks past op) :
    Heeds r (AuthController.sendOtp env dto) (fun _ _ => True) (fun _ _ => True) [] := by
  refine heeds_bind.2 (heeds_throwIf (fun _ => trivial) fun _ => ?_)
  refine heeds_bind.2 (heeds_phoneNumberFrom (fun phone hphone => ?_) fun _ _ => trivial)
  refine heeds_bind.2 (heeds_getOtpSecurityValue (hasks _ _ (.count hphone rfl))
    (fun failureCount => ?_) fun _ _ => trivial)
  refine heeds_bind.2 (heeds_throwIf (fun _ => trivial) fun hbelow => ?_)
  refine heeds_bind.2 (acquireResendLock_heeds (hasks _ _ .lock)
    (fun _ => hasks _ _ (.free (by trivial) (by simp))) (fun reply => ?_) fun _ _ => trivial)
  refine heeds_ask_bind.2 ⟨hasks _ _ (.free (by trivial) (by simp)), fun u => ?_⟩
  refine heeds_ask_bind.2 ⟨hasks _ _ (.free (by trivial) (by simp)), fun code => heeds_bind.2 ?_⟩
  refine (storeChallenge_heeds hasks hphone ?_ (.tail _ (.head _)) ?_ ?_).imp (fun _ _ _ => trivial)
    fun _ _ h => h
  · intro count hcount
    simp only [List.mem_cons, Entry.mk.injEq, reduceCtorEq, false_and, Op.redis.injEq,
      true_and, List.not_mem_nil, or_false, false_or] at hcount
    obtain rfl : count = failureCount := by simpa using hcount
    exact hbelow
  · simp [Never, Op.StoresChallenge]
  · simp [Never, Op.StoresPointer]

/-! ## Verification and enrolment -/

theorem OtpVerified.mono {dto : VerifyOtpDto} {phone : JsString}
    (h : OtpVerified env dto phone past) (hp : past ⊆ past') : OtpVerified env dto phone past' :=
  ⟨h.1, hp h.2⟩

theorem LookedUp.mono {phone : JsString} {account : Option (Uuid × User)}
    (h : LookedUp past phone account) (hp : past ⊆ past') : LookedUp past' phone account := by
  obtain ⟨t, ht, haccount⟩ := h
  exact ⟨t, hp ht, haccount⟩

theorem Enrolls.mono {dto : VerifyOtpDto} {phone : JsString} {id : Uuid}
    (h : Enrolls env dto phone id past) (hp : past ⊆ past') : Enrolls env dto phone id past' where
  verified := h.verified.mono hp
  account := by
    obtain ⟨user, huser⟩ := h.account
    exact ⟨user, huser.mono hp⟩
  consumed := by
    obtain ⟨token, htoken, hconsumed⟩ := h.consumed
    exact ⟨token, htoken, hp hconsumed⟩

theorem statement_heeds {statement : Statement} (hasks : r.asks past (.sql statement)) :
    Heeds r (sql statement)
      (fun _ past' => Extends (· = .sql statement) past past' ∧
        ∃ a, ⟨.sql statement, .ok a⟩ ∈ past')
      (fun _ => Extends (· = .sql statement) past) past :=
  heeds_sql hasks (fun a => ⟨(Extends.refl _).cons rfl, a, .head _⟩)
    fun _ => (Extends.refl _).cons rfl

theorem upsertLocked_heeds {dto : VerifyOtpDto} {phone : JsString} {id recordId : Uuid}
    {now : Instant} (hasks : ∀ past op, VerifyOtpAsks env dto past op → r.asks past op)
    (h : Enrolls env dto phone id past) (hopen : InTransaction past) :
    Heeds r (upsertLocked id dto.deviceId now recordId)
      (fun _ => Extends Op.KeepsOpen past) (fun _ => Extends Op.KeepsOpen past) past := by
  have hkeeps : ∀ {past₁ past₂ : History} {statement : Statement},
      Op.KeepsOpen (.sql statement) → Extends Op.KeepsOpen past past₁ →
      Extends (· = .sql statement) past₁ past₂ → Extends Op.KeepsOpen past past₂ := by
    rintro past₁ past₂ statement hstatement h₁ h₂
    exact h₁.trans (h₂.mono fun op hop => hop ▸ hstatement)
  refine heeds_bind.2 ((statement_heeds (hasks _ _ (.upsert h .lock))).imp ?_
    fun _ _ => hkeeps (by simp [Op.KeepsOpen]) (.refl _))
  rintro - past₁ ⟨hpast, -⟩
  have hpast₁ := hkeeps (by simp [Op.KeepsOpen]) (.refl past) hpast
  refine heeds_bind.2 ((statement_heeds (hasks _ _ (.free (by trivial)))).imp ?_
    fun _ _ => hkeeps (by simp [Op.KeepsOpen]) hpast₁)
  rintro t past₂ ⟨hpast, -⟩
  have hpast₂ := hkeeps (by simp [Op.KeepsOpen]) hpast₁ hpast
  have henrolls := h.mono hpast₂.subset
  have hopen₂ := hopen.extends hpast₂
  split
  · exact heeds_bind.2 ((statement_heeds (hasks _ _ (.upsert henrolls (.update hopen₂)))).imp
      (fun _ _ hpast => hkeeps (by simp [Op.KeepsOpen]) hpast₂ hpast.1)
      fun _ _ => hkeeps (by simp [Op.KeepsOpen]) hpast₂)
  · refine heeds_bind.2 ((statement_heeds
      (hasks _ _ (.upsert henrolls (.insert hopen₂)))).imp ?_
      fun _ _ => hkeeps (by simp [Op.KeepsOpen]) hpast₂)
    rintro - past₃ ⟨hpast, -⟩
    have hpast₃ := hkeeps (by simp [Op.KeepsOpen]) hpast₂ hpast
    exact (statement_heeds (hasks _ _ (.upsert (h.mono hpast₃.subset)
      (.index (hopen.extends hpast₃))))).imp
      (fun _ _ hpast => hkeeps (by simp [Op.KeepsOpen]) hpast₃ hpast.1)
      fun _ _ => hkeeps (by simp [Op.KeepsOpen]) hpast₃

theorem upsertTrustDevice_heeds {dto : VerifyOtpDto} {phone : JsString} {id : Uuid}
    (hasks : ∀ past op, VerifyOtpAsks env dto past op → r.asks past op)
    (h : Enrolls env dto phone id past) (hnew : Never (· = .sql .start) past)
    (hnewCommit : Never (· = .sql .commit) past) :
    Heeds r (upsertTrustDevice id dto.deviceId) (fun _ _ => True) (fun _ _ => True) past := by
  refine heeds_ask_bind.2 ⟨hasks _ _ (.free (by trivial)), fun now => ?_⟩
  refine heeds_ask_bind.2 ⟨hasks _ _ (.free (by trivial)), fun recordId => ?_⟩
  generalize hpast₁ : (⟨.generatedId, recordId⟩ :: ⟨.now, now⟩ :: past : History) = past₁
  have hdrawn : Extends Op.Free past past₁ := by
    subst past₁
    exact ((Extends.refl _).cons (by trivial)).cons (by trivial)
  have hnew₁ := hnew.extends hdrawn (by rintro _ hfree rfl; exact hfree)
  have hnewCommit₁ := hnewCommit.extends hdrawn (by rintro _ hfree rfl; exact hfree)
  have henrolls := (h.mono hdrawn.subset).mono (List.subset_cons_self ⟨.sql .start, .ok ()⟩ past₁)
  refine heeds_transaction (R := fun _ => Extends Op.KeepsOpen (⟨.sql .start, .ok ()⟩ :: past₁))
    (X := fun _ => Extends Op.KeepsOpen (⟨.sql .start, .ok ()⟩ :: past₁))
    (hasks _ _ (.upsert (h.mono hdrawn.subset) (.start hnew₁))) (fun _ => trivial)
    (upsertLocked_heeds hasks henrolls (.start past₁)) ?_ ?_
  · intro e past₂ hpast₂
    exact ⟨hasks _ _ (.upsert (henrolls.mono hpast₂.subset) .rollback), fun _ => trivial⟩
  · intro _ past₂ hpast₂
    refine ⟨hasks _ _ (.upsert (henrolls.mono hpast₂.subset) (.commit ?_)), trivial,
      fun _ => trivial⟩
    refine (hnewCommit₁.cons (by simp)).extends hpast₂ ?_
    rintro _ hkeeps rfl
    exact hkeeps.1 rfl

theorem verifyOtp_heeds {dto : VerifyOtpDto}
    (hasks : ∀ past op, VerifyOtpAsks env dto past op → r.asks past op) :
    Heeds r (AuthController.verifyOtp env dto) (fun _ _ => True) (fun _ _ => True) [] := by
  refine heeds_bind.2 (heeds_throwIf (fun _ => trivial) fun _ => ?_)
  refine heeds_bind.2 (heeds_phoneNumberFrom (fun phone hphone => ?_) fun _ _ => trivial)
  refine heeds_bind.2 (heeds_evalScript (hasks _ _ (.verify hphone .nil)) (fun status => ?_)
    trivial trivial)
  split
  · trivial
  · rename_i hstatus
    obtain rfl : status = .verified := by
      cases status <;> simp [otpError] at hstatus ⊢
    refine heeds_bind.2 (heeds_select (hasks _ _ (.free (by trivial))) (fun users => ?_)
      fun _ => trivial)
    split
    · rename_i id user haccount
      unfold enrollDevice
      split
      · trivial
      · trivial
      · rename_i token _ hgiven
        refine heeds_bind.2 (heeds_throwIf (fun _ => trivial) fun _ => ?_)
        have hlooked : LookedUp [⟨.sql (.select (.userByPhone phone)), .ok users⟩,
            ⟨.redis (.verifyOtp phone dto.challengeId dto.deviceId dto.otp env.otpMaxFailures),
              .ok .verified⟩] phone (some (id, user)) := ⟨users, .head _, haccount⟩
        refine heeds_bind.2 (heeds_evalScript (hasks _ _ (.consume
          ⟨hphone, .tail _ (.head _)⟩ hlooked hgiven ?_))
          (fun authorizationStatus => ?_) trivial trivial)
        · simp [Never, Op.ConsumesEnrollment]
        · refine heeds_bind.2 (heeds_throwIf (fun _ => trivial) fun hconsumed => ?_)
          obtain rfl := not_not.1 hconsumed
          refine heeds_bind.2 ((upsertTrustDevice_heeds hasks
            ⟨⟨hphone, .tail _ (.tail _ (.head _))⟩, ⟨user, users, .tail _ (.head _), haccount⟩,
              token, hgiven, .head _⟩ ?_ ?_).imp
            (fun _ _ _ => trivial) fun _ _ h => h)
          · simp [Never]
          · simp [Never]
    · rename_i hnone
      refine heeds_bind.2 (Heeds.imp (Q := fun _ _ => True) (E := fun _ _ => True) ?_
        (fun _ _ _ => trivial) fun _ _ h => h)
      refine heeds_ask_bind.2 ⟨hasks _ _ (.free (by trivial)), fun token => ?_⟩
      refine heeds_bind.2 (heeds_set (hasks _ _ (.issue ⟨hphone, .tail _ (.tail _ (.head _))⟩
        ⟨users, .tail _ (.head _), hnone⟩ (.head _) ?_)) fun stored reply => ?_)
      · simp [Never, Op.IssuesRegistration]
      · exact heeds_bind.2 (heeds_throwIf (fun _ => trivial) fun _ => trivial)

/-! ## Registration -/

/-- The request is in the transaction that creates the account of `phone`. -/
structure Provisions (env : Env) (dto : RegisterDto) (phone : JsString) (past : History) :
    Prop where
  consumed : ProofConsumed env dto phone past
  inside : InTransaction past

theorem Provisions.extends {dto : RegisterDto} {phone : JsString}
    (h : Provisions env dto phone past) (hp : Extends Op.KeepsOpen past past') :
    Provisions env dto phone past' :=
  ⟨⟨h.consumed.1, hp.mem h.consumed.2⟩, h.inside.extends hp⟩

def Op.InsertsUser (op : Op) : Prop := ∃ id user, op = .sql (.insert (.user id) user)

abbrev Provides (r : Rules Op Op.Ans Reply) {α : Type} (m : Action α) (past : History) : Prop :=
  Heeds r m (fun _ => Extends (fun op => op.KeepsOpen ∧ ¬op.InsertsUser) past)
    (fun _ => Extends Op.KeepsOpen past) past

theorem Provides.bind {α β : Type} {m : Action α} {next : α → Action β}
    {Q : β → History → Prop} (h : Provides r m past)
    (hnext : ∀ a past', Extends (fun op => op.KeepsOpen ∧ ¬op.InsertsUser) past past' →
      Heeds r (next a) Q (fun _ => Extends Op.KeepsOpen past') past') :
    Heeds r (m >>= next) Q (fun _ => Extends Op.KeepsOpen past) past :=
  heeds_bind.2 (Heeds.imp h (fun a past' hp => (hnext a past' hp).imp (fun _ _ h => h)
    fun _ _ he => (hp.mono fun _ h => h.1).trans he) fun _ _ h => h)

section Provision

variable {dto : RegisterDto} {phone : JsString}
variable (hasks : ∀ past op, RegisterAsks env dto past op → r.asks past op)

include hasks

theorem provides_free {op : Op} (hop : op.Free) :
    Provides r (ask op : Code Op Op.Ans Reply Exn op.Ans) past := by
  have hkind : op.KeepsOpen ∧ ¬op.InsertsUser := by
    refine ⟨⟨?_, ?_⟩, ?_⟩
    · rintro rfl
      exact hop
    · rintro rfl
      exact hop
    · rintro ⟨id, user, rfl⟩
      exact hop
  refine ⟨hasks _ _ (.free hop), fun a => ?_⟩
  change Extends (fun op => op.KeepsOpen ∧ ¬op.InsertsUser) past (⟨op, a⟩ :: past)
  exact (Extends.refl past).cons hkind

theorem provides_sql {statement : Statement} (h : Provisions env dto phone past)
    (hstatement : ProvisionAsks phone dto.deviceId past statement)
    (hop : (Op.sql statement).KeepsOpen ∧ ¬(Op.sql statement).InsertsUser) :
    Provides r (sql statement) past :=
  (statement_heeds (hasks _ _ (.provision h.consumed hstatement))).imp
    (fun _ _ hp => hp.1.mono fun _ heq => heq ▸ hop)
    fun _ _ hp => hp.mono fun _ heq => heq ▸ hop.1

theorem provides_insert {k : Key} {v : Row k} (h : Provisions env dto phone past)
    (huser : ∀ id, k ≠ .user id) (hdevice : ∀ u d, k ≠ .device u d) :
    Provides r (sql (.insert k v)) past := by
  refine provides_sql hasks h (.other h.inside huser hdevice) ⟨by simp [Op.KeepsOpen], ?_⟩
  rintro ⟨id, user, heq⟩
  simp only [Op.sql.injEq, Sql.insert.injEq] at heq
  exact huser id heq.1

theorem createUser_heeds {user : User} (h : Provisions env dto phone past)
    (hphone : user.phone = phone) (hstatus : user.status = .active)
    (hnew : Never Op.InsertsUser past) :
    Heeds r (createUser user) (fun id past' => Extends Op.KeepsOpen past past' ∧
      ⟨.sql (.insert (.user id) user), .ok ()⟩ ∈ past') (fun _ => Extends Op.KeepsOpen past)
      past := by
  refine (provides_free hasks (by trivial)).bind fun id past₁ hp₁ => ?_
  have h₁ := h.extends (hp₁.mono fun _ h => h.1)
  have hnew₁ : Never Op.InsertsUser past₁ := hnew.extends hp₁ fun _ h => h.2
  refine heeds_bind.2 ((statement_heeds (hasks _ _ (.provision h₁.consumed
    (.user h₁.inside hphone hstatus ?_)))).imp ?_ ?_)
  · exact fun id' user' hmem => hnew₁ _ hmem ⟨id', user', rfl⟩
  · rintro ⟨⟩ past₂ ⟨hp₂, ⟨⟩, hmem⟩
    have hp : Extends Op.KeepsOpen past₁ past₂ := hp₂.mono fun _ h => h ▸ by simp [Op.KeepsOpen]
    refine ((provides_insert hasks (h₁.extends hp) (by simp) (by simp)).bind
      (Q := fun id past' => Extends Op.KeepsOpen past₂ past' ∧
        ⟨.sql (.insert (.user id) user), .ok ()⟩ ∈ past') fun _ past₃ hp₃ => ?_).imp ?_ ?_
    · exact ⟨hp₃.mono fun _ h => h.1, hp₃.mem hmem⟩
    · exact fun id past₃ hp₃ =>
        ⟨((hp₁.mono fun _ h => h.1).trans hp).trans hp₃.1, hp₃.2⟩
    · exact fun _ _ hp₃ => hp.trans hp₃
  · exact fun _ _ hp₂ => hp₂.mono fun _ h => h ▸ by simp [Op.KeepsOpen]

theorem createWallet_heeds {userId : Uuid} {type : WalletType}
    (h : Provisions env dto phone past) : Provides r (createWallet userId type) past := by
  refine (provides_free hasks (by trivial)).bind fun id past₁ hp₁ => ?_
  have h₁ := h.extends (hp₁.mono fun _ h => h.1)
  refine ((provides_insert hasks h₁ (by simp) (by simp)).bind
    (Q := fun _ => Extends (fun op => op.KeepsOpen ∧ ¬op.InsertsUser) past₁)
    fun _ past₂ hp₂ => ?_).imp (fun _ _ hp => hp₁.trans hp) fun _ _ he => he
  have h₂ := h₁.extends (hp₂.mono fun _ h => h.1)
  exact (provides_insert hasks h₂ (by simp) (by simp)).imp (fun _ _ hp => hp₂.trans hp)
    fun _ _ he => he

theorem createBusinessWallet_heeds {userId : Uuid} {role : Role}
    (h : Provisions env dto phone past) :
    Provides r (createBusinessWallet userId role) past :=
  heeds_bind.2 (heeds_throwIf (fun _ => .refl past) fun _ => createWallet_heeds hasks h)

theorem createTrustedDevice_heeds {userId sid jti : Uuid} {user : User}
    (h : Provisions env dto phone past)
    (huser : ⟨.sql (.insert (.user userId) user), .ok ()⟩ ∈ past) :
    Provides r (createTrustedDevice userId dto.deviceId sid jti) past := by
  refine (provides_free hasks (by trivial)).bind fun id past₁ hp₁ => ?_
  have h₁ := h.extends (hp₁.mono fun _ h => h.1)
  refine ((provides_free hasks (by trivial)).bind
    (Q := fun _ => Extends (fun op => op.KeepsOpen ∧ ¬op.InsertsUser) past₁)
    fun now past₂ hp₂ => ?_).imp (fun _ _ hp => hp₁.trans hp) fun _ _ he => he
  have h₂ := h₁.extends (hp₂.mono fun _ h => h.1)
  refine ((provides_sql hasks h₂ (.device h₂.inside (hp₂.mem (hp₁.mem huser)))
    ⟨by simp [Op.KeepsOpen], by simp [Op.InsertsUser]⟩).bind
    (Q := fun _ => Extends (fun op => op.KeepsOpen ∧ ¬op.InsertsUser) past₂)
    fun _ past₃ hp₃ => ?_).imp (fun _ _ hp => hp₂.trans hp) fun _ _ he => he
  have h₃ := h₂.extends (hp₃.mono fun _ h => h.1)
  exact (provides_insert hasks h₃ (by simp) (by simp)).imp (fun _ _ hp => hp₃.trans hp)
    fun _ _ he => he

theorem provides_select {query : Query} : Provides r (select query) past := by
  have hkind : (Op.sql (.select query)).KeepsOpen ∧ ¬(Op.sql (.select query)).InsertsUser :=
    ⟨by simp [Op.KeepsOpen], by simp [Op.InsertsUser]⟩
  refine (statement_heeds (hasks _ _ (.free (by trivial)))).imp ?_ ?_
  · exact fun _ _ hp => hp.1.mono fun _ heq => heq ▸ hkind
  · exact fun _ _ hp => hp.mono fun _ heq => heq ▸ hkind.1

theorem claimApproval_heeds (h : Provisions env dto phone past) :
    Provides r (claimApproval phone) past := by
  refine (provides_free hasks (by trivial)).bind fun now past₁ hp₁ => ?_
  refine ((provides_select hasks).bind
    (Q := fun _ => Extends (fun op => op.KeepsOpen ∧ ¬op.InsertsUser) past₁)
    fun snapshot past₂ hp₂ => ?_).imp (fun _ _ hp => hp₁.trans hp) fun _ _ he => he
  split
  · exact .refl past₂
  · rename_i id approval hfound
    refine heeds_bind.2 (heeds_throwIf (fun _ => .refl past₂) fun _ => ?_)
    refine ((provides_free hasks (by trivial)).bind
      (Q := fun _ => Extends (fun op => op.KeepsOpen ∧ ¬op.InsertsUser) past₂)
      fun claimedAt past₃ hp₃ => ?_).imp (fun _ _ hp => hp₂.trans hp) fun _ _ he => he
    refine ((provides_free hasks (by trivial)).bind
      (Q := fun _ => Extends (fun op => op.KeepsOpen ∧ ¬op.InsertsUser) past₃)
      fun activatedAt past₄ hp₄ => ?_).imp (fun _ _ hp => hp₃.trans hp) fun _ _ he => he
    have h₄ := h.extends ((((hp₁.trans hp₂).trans hp₃).trans hp₄).mono fun _ h => h.1)
    have hkinds : ∀ op : Op, (op = .sql (.select (.approval id)) ∨
        ∃ change, op = .sql (.update (.approval id) change)) →
        op.KeepsOpen ∧ ¬op.InsertsUser := by
      rintro _ (rfl | ⟨change, rfl⟩) <;>
        exact ⟨by simp [Op.KeepsOpen], by simp [Op.InsertsUser]⟩
    have hread : Extends Op.KeepsOpen past₄ past₄ := .refl past₄
    refine heeds_bind.2 (heeds_updateRow (hasks _ _ (.free (by trivial))) (fun t => ?_) ?_ ?_)
    · have hopen := h₄.extends (hread.cons (e := ⟨.sql (.select (.approval id)), .ok t⟩)
        (by simp [Op.KeepsOpen]))
      exact hasks _ _ (.provision hopen.consumed (.claim hopen.inside))
    · intro claimed past₅ hp₅ _
      have hp := hp₅.mono hkinds
      exact heeds_bind.2 (heeds_throwIf (fun _ => hp.mono fun _ h => h.1) fun _ => hp₄.trans hp)
    · exact fun _ _ hp₅ => (hp₅.mono hkinds).mono fun _ h => h.1

theorem provisionPersonal_heeds {hashPin : JsString} (h : Provisions env dto phone past)
    (hnew : Never Op.InsertsUser past) :
    Heeds r (provisionPersonal phone hashPin dto.deviceId)
      (fun _ => Extends Op.KeepsOpen past) (fun _ => Extends Op.KeepsOpen past) past := by
  have hkeeps : ∀ op : Op, op.KeepsOpen ∧ ¬op.InsertsUser → op.KeepsOpen := fun _ h => h.1
  refine heeds_bind.2 ((createUser_heeds hasks h rfl rfl hnew).imp ?_ fun _ _ he => he)
  rintro id past₁ ⟨hp₁, huser⟩
  refine Heeds.imp (Q := fun _ => Extends Op.KeepsOpen past₁)
    (E := fun _ => Extends Op.KeepsOpen past₁) ?_ (fun _ _ => hp₁.trans) fun _ _ => hp₁.trans
  refine (provides_free hasks (by trivial)).bind fun sid past₂ hp₂ => ?_
  refine Heeds.imp (Q := fun _ => Extends Op.KeepsOpen past₂)
    (E := fun _ => Extends Op.KeepsOpen past₂) ?_
    (fun _ _ => (hp₂.mono hkeeps).trans) fun _ _ he => he
  refine (provides_free hasks (by trivial)).bind fun jti past₃ hp₃ => ?_
  have h₃ := ((h.extends hp₁).extends (hp₂.mono hkeeps)).extends (hp₃.mono hkeeps)
  refine Heeds.imp (Q := fun _ => Extends Op.KeepsOpen past₃)
    (E := fun _ => Extends Op.KeepsOpen past₃) ?_
    (fun _ _ => (hp₃.mono hkeeps).trans) fun _ _ he => he
  refine (createWallet_heeds hasks h₃).bind fun _ past₄ hp₄ => ?_
  refine heeds_bind.2 ((createTrustedDevice_heeds hasks (h₃.extends (hp₄.mono hkeeps))
    (hp₄.mem (hp₃.mem (hp₂.mem huser)))).imp ?_ fun _ _ he => he)
  exact fun _ _ hp₅ => (hp₄.mono hkeeps).trans (hp₅.mono hkeeps)

theorem provisionBusiness_heeds {hashedPin : JsString} (h : Provisions env dto phone past)
    (hnew : Never Op.InsertsUser past) :
    Heeds r (provisionBusiness phone hashedPin dto.deviceId)
      (fun _ => Extends Op.KeepsOpen past) (fun _ => Extends Op.KeepsOpen past) past := by
  have hkeeps : ∀ op : Op, op.KeepsOpen ∧ ¬op.InsertsUser → op.KeepsOpen := fun _ h => h.1
  refine (claimApproval_heeds hasks h).bind fun role past₀ hp₀ => ?_
  have h₀ := h.extends (hp₀.mono hkeeps)
  have hnew₀ : Never Op.InsertsUser past₀ := hnew.extends hp₀ fun _ h => h.2
  refine Heeds.imp (Q := fun _ => Extends Op.KeepsOpen past₀)
    (E := fun _ => Extends Op.KeepsOpen past₀) ?_
    (fun _ _ => (hp₀.mono hkeeps).trans) fun _ _ he => he
  refine heeds_bind.2 ((createUser_heeds hasks h₀ rfl rfl hnew₀).imp ?_ fun _ _ he => he)
  rintro id past₁ ⟨hp₁, huser⟩
  refine Heeds.imp (Q := fun _ => Extends Op.KeepsOpen past₁)
    (E := fun _ => Extends Op.KeepsOpen past₁) ?_ (fun _ _ => hp₁.trans) fun _ _ => hp₁.trans
  refine (createBusinessWallet_heeds hasks (h₀.extends hp₁)).bind fun _ past₂ hp₂ => ?_
  have h₂ := (h₀.extends hp₁).extends (hp₂.mono hkeeps)
  refine Heeds.imp (Q := fun _ => Extends Op.KeepsOpen past₂)
    (E := fun _ => Extends Op.KeepsOpen past₂) ?_
    (fun _ _ => (hp₂.mono hkeeps).trans) fun _ _ he => he
  refine (provides_free hasks (by trivial)).bind fun sid past₃ hp₃ => ?_
  refine Heeds.imp (Q := fun _ => Extends Op.KeepsOpen past₃)
    (E := fun _ => Extends Op.KeepsOpen past₃) ?_
    (fun _ _ => (hp₃.mono hkeeps).trans) fun _ _ he => he
  refine (provides_free hasks (by trivial)).bind fun jti past₄ hp₄ => ?_
  have h₄ := (h₂.extends (hp₃.mono hkeeps)).extends (hp₄.mono hkeeps)
  refine heeds_bind.2 ((createTrustedDevice_heeds hasks h₄
    (hp₄.mem (hp₃.mem (hp₂.mem huser)))).imp ?_ ?_)
  · exact fun _ _ hp₅ => (hp₄.mono hkeeps).trans (hp₅.mono hkeeps)
  · exact fun _ _ he => he

theorem provision_heeds {body : Action TokensResponse}
    (h : ProofConsumed env dto phone past) (hnew : Never (· = .sql .start) past)
    (hnewCommit : Never (· = .sql .commit) past) (hnewUser : Never Op.InsertsUser past)
    (hbody : ∀ past', Provisions env dto phone past' → Never Op.InsertsUser past' →
      Heeds r body (fun _ => Extends Op.KeepsOpen past') (fun _ => Extends Op.KeepsOpen past')
        past') :
    Heeds r (transaction body) (fun _ _ => True) (fun _ _ => True) past := by
  have hopen : Provisions env dto phone (⟨.sql .start, .ok ()⟩ :: past) :=
    ⟨⟨h.1, .tail _ h.2⟩, .start past⟩
  refine heeds_transaction (hasks _ _ (.provision h (.start hnew))) (fun _ => trivial)
    (hbody _ hopen (hnewUser.cons (by simp [Op.InsertsUser]))) ?_ ?_
  · intro e past₁ hp
    exact ⟨hasks _ _ (.provision (hopen.extends hp).consumed .rollback), fun _ => trivial⟩
  · intro _ past₁ hp
    refine ⟨hasks _ _ (.provision (hopen.extends hp).consumed (.commit ?_)), trivial,
      fun _ => trivial⟩
    refine (hnewCommit.cons (by simp)).extends hp ?_
    rintro _ hkeeps rfl
    exact hkeeps.1 rfl

theorem register_heeds :
    Heeds r (AuthController.register env dto) (fun _ _ => True) (fun _ _ => True) [] := by
  refine heeds_bind.2 (heeds_throwIf (fun _ => trivial) fun _ => ?_)
  refine heeds_bind.2 (Heeds.imp (Q := fun _ _ => True) (E := fun _ _ => True) ?_
    (fun _ _ _ => trivial) fun _ _ h => h)
  refine heeds_bind.2 (heeds_phoneNumberFrom (fun phone hphone => ?_) fun _ _ => trivial)
  refine heeds_bind.2 (heeds_evalScript (hasks _ _ (.consume hphone .nil))
    (fun authorizationStatus => ?_) trivial trivial)
  refine heeds_bind.2 (heeds_throwIf (fun _ => trivial) fun hconsumed => ?_)
  obtain rfl := not_not.1 hconsumed
  refine heeds_bind.2 (heeds_select (hasks _ _ (.free (by trivial))) (fun existing => ?_)
    fun _ => trivial)
  refine heeds_bind.2 (heeds_throwIf (fun _ => trivial) fun _ => ?_)
  refine heeds_ask_bind.2 ⟨hasks _ _ (.free (by trivial)), fun hashPin => ?_⟩
  refine (provision_heeds hasks (show ProofConsumed env dto phone _ from ⟨hphone, ?_⟩) ?_ ?_ ?_
    fun past' h hnew => provisionPersonal_heeds hasks h hnew).tryCatch fun _ _ _ => trivial
  · exact .tail _ (.tail _ (.head _))
  · simp [Never]
  · simp [Never]
  · simp [Never, Op.InsertsUser]

theorem registerBusiness_heeds :
    Heeds r (AuthController.registerBusiness env dto) (fun _ _ => True) (fun _ _ => True) [] := by
  refine heeds_bind.2 (heeds_throwIf (fun _ => trivial) fun _ => ?_)
  refine heeds_bind.2 (Heeds.imp (Q := fun _ _ => True) (E := fun _ _ => True) ?_
    (fun _ _ _ => trivial) fun _ _ h => h)
  refine heeds_bind.2 (heeds_phoneNumberFrom (fun phone hphone => ?_) fun _ _ => trivial)
  refine heeds_bind.2 (heeds_evalScript (hasks _ _ (.consume hphone .nil))
    (fun proofStatus => ?_) trivial trivial)
  refine heeds_bind.2 (heeds_throwIf (fun _ => trivial) fun hconsumed => ?_)
  obtain rfl := not_not.1 hconsumed
  refine heeds_ask_bind.2 ⟨hasks _ _ (.free (by trivial)), fun hashedPin => ?_⟩
  refine (provision_heeds hasks (show ProofConsumed env dto phone _ from ⟨hphone, ?_⟩) ?_ ?_ ?_
    fun past' h hnew => provisionBusiness_heeds hasks h hnew).tryCatch fun e _ _ => ?_
  · exact .tail _ (.head _)
  · simp [Never]
  · simp [Never]
  · simp [Never, Op.InsertsUser]
  · split <;> trivial

end Provision

end Kori
