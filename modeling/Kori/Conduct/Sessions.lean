import Kori.Conduct.Rows
import Kori.Contract.Sessions

/-!
# Logins, sessions and restrictions under their rules

A login is followed answer by answer up to the comparison of the PIN.  Behind
it the rules only look back on what the login then knew.
-/

namespace Kori

open Foundation Code

variable {env : Env} {r : Rules Op Op.Ans Reply} {past past' : History}

/-! ## Failed logins -/

/-- How a login may stop: its failure is recorded, and its answer is true. -/
structure LoginStops (env : Env) (dto : AuthCredentialsDto) (phone : JsString)
    (past : History) (reply : Reply) : Prop where
  tells : LoginTells phone past reply
  ends : LoginEnds env dto phone past

section Login

variable {dto : AuthCredentialsDto} {phone : JsString}

theorem LoginFails.not_nil : ¬LoginFails env dto phone [] := by
  rintro ⟨⟩

theorem LoginFails.of_cons {e : Entry Op Op.Ans} (h : LoginFails env dto phone (e :: past)) :
    (∃ t, e = ⟨.sql (.select (.userByPhone phone)), .ok t⟩) ∨
      ∃ id devices, e = ⟨.sql (.select (.devices id)), .ok devices⟩ := by
  generalize hall : e :: past = all at h
  cases h with
  | noAccount h => exact .inl ⟨_, (List.cons.inj hall).1⟩
  | wrongPin h hpin => exact .inr ⟨_, _, (List.cons.inj hall).1⟩

theorem LoginFails.unthrottled (h : LoginFails env dto phone past) :
    ⟨.redis (.get (.loginThrottle phone)), .ok (some ())⟩ ∉ past := by
  cases h with
  | noAccount h => simp [lookup, Kori.unthrottled]
  | wrongPin h hpin => simp [comparison, lookup, Kori.unthrottled]

theorem LoginEnds.of_cons {e : Entry Op Op.Ans}
    (hread : ∀ query t, e ≠ ⟨.sql (.select query), .ok t⟩)
    (hcount : ∀ count, e = ⟨.redis (.incrementWithTtl phone), .ok count⟩ →
      LoginFails env dto phone past → ¬(count : Int) ≥ env.loginMaxFailures) :
    LoginEnds env dto phone (e :: past) where
  recorded := by
    intro h
    obtain ⟨t, rfl⟩ | ⟨id, devices, rfl⟩ := h.of_cons
    · exact hread _ _ rfl
    · exact hread _ _ rfl
  imposed := by
    rintro count before heq hfails
    obtain ⟨rfl, rfl⟩ := List.cons.inj heq
    exact hcount count rfl hfails

theorem recordLoginFailure_heeds
    (hasks : ∀ past op, LoginAsks env dto phone past op → r.asks past op)
    (h : LoginFails env dto phone past) :
    Heeds r (recordLoginFailure env phone)
      (fun _ past' => ∀ reply, LoginStops env dto phone past' reply)
      (fun e past' => LoginStops env dto phone past' (.failed e)) past := by
  refine heeds_bind.2 ⟨hasks _ _ (.record h), fun reply => ?_⟩
  have htells : ∀ answer reply, LoginTells phone
      (⟨.redis (.incrementWithTtl phone), answer⟩ :: past) reply := by
    intro answer reply
    exact ⟨by simp, fun hmem => absurd (by simpa using hmem) h.unthrottled⟩
  cases reply with
  | offline => exact ⟨htells _ _, .of_cons (by simp) (by simp)⟩
  | error => exact ⟨htells _ _, .of_cons (by simp) (by simp)⟩
  | ok count =>
      change Heeds r (if (count : Int) ≥ env.loginMaxFailures then _ else _) _ _ _
      split
      · rename_i hlimit
        refine heeds_bind.2 (heeds_set (hasks _ _ (.impose rfl h hlimit)) ?_)
        intro stored answer
        have hstops : ∀ reply, LoginStops env dto phone
            (⟨.redis (.set (.loginThrottle phone) () false), answer⟩ ::
              ⟨.redis (.incrementWithTtl phone), .ok count⟩ :: past) reply := by
          refine fun reply => ⟨⟨by simp, fun hmem => ?_⟩, .of_cons (by simp) (by simp)⟩
          exact absurd (by simpa using hmem) h.unthrottled
        exact heeds_bind.2 (heeds_throwIf (fun _ => hstops _) fun _ => hstops _)
      · rename_i hbelow
        intro reply
        refine ⟨htells _ _, .of_cons (by simp) ?_⟩
        rintro count' heq -
        obtain rfl : count = count' := by simpa using heq
        exact hbelow

/-! ## Successful logins -/

/-- The PIN was right, and the login has not been throttled. -/
structure SignsIn (env : Env) (dto : AuthCredentialsDto) (phone : JsString) (id : Uuid)
    (user : User) (devices : Data) (past : History) : Prop
    extends PinVerified env dto phone id user devices past where
  unthrottled : ⟨.redis (.get (.loginThrottle phone)), .ok (some ())⟩ ∉ past

variable {id : Uuid} {user : User} {devices : Data}

theorem SignsIn.extends (h : SignsIn env dto phone id user devices past)
    (hp : Extends (· ≠ .redis (.get (.loginThrottle phone))) past past') :
    SignsIn env dto phone id user devices past' where
  compared := by
    obtain ⟨t, haccount, hsuffix⟩ := h.compared
    obtain ⟨recent, rfl, -⟩ := hp
    exact ⟨t, haccount, hsuffix.trans (List.suffix_append recent past)⟩
  pin := h.pin
  unthrottled := fun hmem => h.unthrottled (hp.old hmem (by simp))

theorem PinVerified.not_fails (h : PinVerified env dto phone id user devices past) :
    ¬LoginFails env dto phone past := by
  obtain ⟨t, haccount, hsuffix⟩ := h.compared
  intro hfails
  cases hfails with
  | noAccount hnone =>
      have hlength := hsuffix.length_le
      simp [comparison, lookup] at hlength
  | @wrongPin t' id' user' devices' haccount' hpin =>
      have hsame := hsuffix.eq_of_length (by simp [comparison, lookup])
      simp only [comparison, lookup, List.cons.injEq, Entry.mk.injEq, Op.sql.injEq,
        Sql.select.injEq, Query.devices.injEq, and_true] at hsame
      obtain ⟨⟨rfl, -⟩, -, ht⟩ := hsame
      obtain rfl : t = t' := by simpa using ht
      obtain rfl : user = user' := by
        rw [haccount] at haccount'
        exact (Prod.mk.inj (Option.some.inj haccount')).2
      simp [h.pin] at hpin

theorem SignsIn.stops (h : SignsIn env dto phone id user devices past) (reply : Reply) :
    LoginStops env dto phone past reply where
  tells := by
    obtain ⟨t, -, hsuffix⟩ := h.compared
    refine ⟨?_, fun hmem => absurd hmem h.unthrottled⟩
    rintro rfl
    simp [comparison] at hsuffix
  ends := by
    refine ⟨h.not_fails, fun count before heq hfails => ?_⟩
    obtain ⟨t, haccount, hsuffix⟩ := h.compared
    subst heq
    rcases List.suffix_cons_iff.1 hsuffix with hall | hsuffix
    · simp [comparison] at hall
    · exact absurd hfails (PinVerified.not_fails ⟨⟨t, haccount, hsuffix⟩, h.pin⟩)

theorem SignsIn.only {α : Type} {m : Action α} {P : Op → Prop}
    (h : SignsIn env dto phone id user devices past) (hm : m.Only P)
    (hP : ∀ op, P op → op ≠ .redis (.get (.loginThrottle phone)))
    (hasks : ∀ past' op, SignsIn env dto phone id user devices past' →
      P op → r.asks past' op) :
    Heeds r m (fun _ => Extends P past) (fun _ => Extends P past) past :=
  hm.heeds fun _ op hp => hasks _ op (h.extends (hp.mono hP))

theorem establishSession_only (userId : Uuid) (role : Role) (deviceId : JsString) :
    (establishSession userId role deviceId).Only (EstablishAsks userId deviceId) := by
  refine (ask_only .uuid).bind fun sid => (ask_only .uuid).bind fun jti =>
    (ask_only .now).bind fun now => Only.bind (updateRow_only .select (.update ?_)) fun _ =>
    (only_throwIf _ _).bind fun _ => only_pure _
  intro device device' hchange
  split at hchange
  · rename_i hauthorized
    obtain rfl : _ = device' := by simpa using hchange
    exact ⟨hauthorized, hauthorized⟩
  · simp at hchange

theorem loginVerified_heeds
    (hasks : ∀ past op, LoginAsks env dto phone past op → r.asks past op)
    (h : SignsIn env dto phone id user devices past) (hnew : Never Op.IssuesEnrollment past) :
    Heeds r (loginVerified env phone dto.deviceId id user
        (devices.row (.device id dto.deviceId)))
      (fun tokens past' => LoginStops env dto phone past' (.tokens tokens))
      (fun e past' => LoginStops env dto phone past' (.failed e)) past := by
  refine heeds_bind.2 (Heeds.imp (Q := fun _ => Extends (fun op => op = .turn ∨
      op = .redis (.del (.loginFailure phone)) ∨ op = .redis (.del (.loginThrottle phone))) past)
    (E := fun _ => Extends (fun op => op = .turn ∨ op = .redis (.del (.loginFailure phone)) ∨
      op = .redis (.del (.loginThrottle phone))) past) ?_ ?_ ?_)
  · refine h.only ((Only.both (.inl rfl) (RedisService.del_only (.inr (.inl rfl)))
      (RedisService.del_only (.inr (.inr rfl)))).bind fun _ => only_pure _) ?_ ?_
    · rintro _ (rfl | rfl | rfl) <;> simp
    · rintro past' _ h' (rfl | rfl | rfl)
      · exact hasks _ _ (.turn h'.toPinVerified)
      · exact hasks _ _ (.forget h'.toPinVerified)
      · exact hasks _ _ (.release h'.toPinVerified)
  · intro _ past₁ hp₁
    have h₁ := h.extends (hp₁.mono (by rintro _ (rfl | rfl | rfl) <;> simp))
    have hnew₁ : Never Op.IssuesEnrollment past₁ := hnew.extends hp₁ (by
      rintro _ (rfl | rfl | rfl) <;> simp [Op.IssuesEnrollment])
    refine heeds_bind.2 (heeds_throwIf (fun _ => h₁.stops _) fun _ => ?_)
    split
    · rename_i huntrusted
      refine heeds_bind.2 (heeds_ask_bind.2 ⟨hasks _ _ (.token h₁.toPinVerified),
        fun token => heeds_bind.2 ?_⟩)
      have h₂ := h₁.extends ((Extends.refl past₁).cons (e := ⟨.randomToken, token⟩) (by simp))
      refine heeds_set (hasks _ _ (.issue h₂.toPinVerified ?_ (.head _)
        (hnew₁.cons (by simp [Op.IssuesEnrollment])))) fun stored reply => ?_
      · rw [Data.trusts, Option.isSome_eq_false_iff]
        exact huntrusted
      · have h₃ := h₂.extends ((Extends.refl _).cons (e := ⟨.redis (.set
          (.deviceEnrollmentAuthorization phone) _ false), reply⟩) (by simp))
        exact heeds_bind.2 (heeds_throwIf (fun _ => h₃.stops _) fun _ => h₃.stops _)
    · rename_i htrusted
      have hops : ∀ op, EstablishAsks id dto.deviceId op →
          op ≠ .redis (.get (.loginThrottle phone)) := by
        rintro _ (_ | _ | _ | _) <;> simp
      refine (h₁.only (establishSession_only id user.role dto.deviceId) hops ?_).imp ?_ ?_
      · intro past' op h' hop
        refine hasks _ _ (.establish h'.toPinVerified ?_ hop)
        rw [Data.trusts, ← Option.not_isNone, Bool.not_eq_true']
        simpa using htrusted
      · exact fun _ _ hp => (h₁.extends (hp.mono hops)).stops _
      · exact fun _ _ hp => (h₁.extends (hp.mono hops)).stops _
  · intro e past₁ hp₁
    exact (h.extends (hp₁.mono (by rintro _ (rfl | rfl | rfl) <;> simp))).stops _

theorem login_heeds
    (hasks : ∀ past op, LoginAsks env dto phone past op → r.asks past op)
    (hphone : phoneOf env dto.phone = some phone) :
    Heeds r (login env dto)
      (fun tokens past' => LoginStops env dto phone past' (.tokens tokens))
      (fun e past' => LoginStops env dto phone past' (.failed e)) [] := by
  refine heeds_bind.2 (heeds_phoneNumberFrom (fun phone' hphone' => ?_) fun hnone => ?_)
  · obtain rfl := Option.some.inj (hphone.symm.trans hphone')
    refine heeds_bind.2 (heeds_bind.2 (Heeds.tryCatch (E := fun _ past' =>
      LoginStops env dto phone past' (.failed temporarilyUnavailable))
      (heeds_getStrict (hasks _ _ (.throttle rfl)) (fun throttle => ?_) ?_ ?_)
      fun _ _ h => h))
    · refine heeds_throwIf (fun hthrottled => ?_) fun hfree => ?_
      · exact ⟨⟨by simp, fun _ => rfl⟩, .of_cons (by simp) (by simp)⟩
      · obtain rfl : throttle = none := by simpa using hfree
        refine heeds_bind.2 (heeds_select (hasks _ _ (.account rfl)) (fun users => ?_)
          fun e => ?_)
        · split
          · rename_i hnone
            exact (recordLoginFailure_heeds hasks (.noAccount hnone)).bind
              fun _ _ hstops => hstops _
          · rename_i id user haccount
            refine heeds_bind.2 (heeds_select (hasks _ _ (.compare rfl haccount))
              (fun devices => ?_) fun e => ?_)
            · split
              · rename_i hpin
                refine loginVerified_heeds hasks
                  ⟨⟨⟨users, haccount, List.suffix_rfl⟩, hpin⟩, ?_⟩ ?_
                · simp
                · simp [Never, Op.IssuesEnrollment]
              · rename_i hpin
                exact (recordLoginFailure_heeds hasks (.wrongPin haccount
                  (Bool.eq_false_iff.2 hpin))).bind fun _ _ hstops => hstops _
            · exact ⟨⟨by simp, by simp⟩, .of_cons (by simp) (by simp)⟩
        · exact ⟨⟨by simp, by simp⟩, .of_cons (by simp) (by simp)⟩
    · exact fun _ => ⟨⟨by simp, by simp⟩, .of_cons (by simp) (by simp)⟩
    · exact fun _ => ⟨⟨by simp, by simp⟩, .of_cons (by simp) (by simp)⟩
  · simp [hphone] at hnone

end Login

theorem loginEndpoint_heeds (dto : AuthCredentialsDto) :
    Heeds (rules env (.login dto)) (respond (AuthController.login env dto))
      (fun _ => (rules env (.login dto)).ends) (fun _ => (rules env (.login dto)).ends) [] := by
  have hends : (rules env (.login dto)).ends [] := fun phone _ =>
    ⟨LoginFails.not_nil, fun count before heq => by simp at heq⟩
  refine heeds_respond (heeds_bind.2 (heeds_throwIf (fun hinvalid => ?_) fun hvalid => ?_))
  · exact ⟨fun hvalid => by simp [hinvalid] at hvalid, hends⟩
  · have hvalid : env.validates (.credentials dto) = true := by simpa using hvalid
    cases hphone : phoneOf env dto.phone with
    | none =>
        refine heeds_bind.2 (heeds_bind.2 (heeds_phoneNumberFrom (fun phone hsome => ?_) ?_))
        · simp [hphone] at hsome
        · exact fun _ e => ⟨fun _ phone hsome => by simp [hphone] at hsome, hends⟩
    | some phone =>
        have hstops : ∀ past reply, LoginStops env dto phone past reply →
            (rules env (.login dto)).tells past reply ∧ (rules env (.login dto)).ends past := by
          intro past reply h
          refine ⟨fun _ phone' h' => ?_, fun phone' h' => ?_⟩
          · exact Option.some.inj (hphone.symm.trans h') ▸ h.tells
          · exact Option.some.inj (hphone.symm.trans h') ▸ h.ends
        refine heeds_bind.2 ((login_heeds ?_ hphone).imp ?_ ?_)
        · exact fun _ op hop => ⟨hvalid, phone, hphone, hop⟩
        · exact fun _ _ h => hstops _ _ h
        · exact fun _ _ h => hstops _ _ h

/-! ## Refresh, logout and revocation -/

instance (payload : RefreshTokenPayload) : Harmless (SessionAsks payload) :=
  ⟨fun _ h => .free h⟩

theorem updateSession_only {payload : RefreshTokenPayload} {relations : Data → Bool}
    {conditions : TrustDevice → Bool} {data : TrustDevice → TrustDevice}
    (hsid : ∀ device, conditions device = true → device.refreshSessionId = some payload.sid)
    (hdata : ∀ device, (data device).isAuthorized = device.isAuthorized) :
    (updateRow (.device payload.sub payload.deviceId) (.device payload.sub payload.deviceId)
      conditions relations data).Only (SessionAsks payload) := by
  refine updateRow_only (.free (by trivial)) (.update fun device device' hchange => ?_)
  split at hchange
  · rename_i hholds
    obtain rfl : data device = device' := by simpa using hchange
    exact ⟨hsid device hholds, hdata device⟩
  · simp at hchange

theorem refreshTokens_only (payload : RefreshTokenPayload) :
    (refreshTokens payload).Only (SessionAsks payload) := by
  refine (select_only _).bind fun users => ?_
  split
  · trivial
  · refine (ask_only (.free (by trivial))).bind fun newJti =>
      (ask_only (.free (by trivial))).bind fun now => Only.bind ?_ fun count => ?_
    · exact updateSession_only (fun _ h => (holdsToken_iff.1 h).1) fun _ => rfl
    · split
      · trivial
      · refine Only.bind ((select_only _).bind fun snapshot => ?_) fun _ => only_throw _
        dsimp only
        split
        · refine Only.bind (updateSession_only (fun device h => ?_) fun _ => rfl) fun _ =>
            only_pure _
          exact (isReplay_iff.1 h).2.1
        · trivial

theorem logoutCurrentSession_only (payload : RefreshTokenPayload) :
    (logoutCurrentSession payload).Only (SessionAsks payload) := by
  refine Only.tryCatch (Only.bind ?_ fun _ => only_pure _) fun _ => only_throw _
  exact updateSession_only (fun _ h => of_decide_eq_true h) fun _ => rfl

theorem refresh_heeds (token : Option RefreshTokenPayload) :
    Heeds (rules env (.refresh token)) (respond (AuthController.refresh token))
      (fun _ => (rules env (.refresh token)).ends)
      (fun _ => (rules env (.refresh token)).ends) [] := by
  cases token with
  | none => exact ⟨trivial, trivial⟩
  | some payload =>
      refine heeds_endpoint (by simp) ((refreshTokens_only payload).bind fun _ => only_pure _) ?_
      exact fun _ op hop => ⟨payload, rfl, hop⟩

theorem logout_heeds (token : Option RefreshTokenPayload) :
    Heeds (rules env (.logout token)) (respond (AuthController.logout token))
      (fun _ => (rules env (.logout token)).ends)
      (fun _ => (rules env (.logout token)).ends) [] := by
  cases token with
  | none => exact ⟨trivial, trivial⟩
  | some payload =>
      refine heeds_endpoint (by simp)
        ((logoutCurrentSession_only payload).bind fun _ => only_pure _) ?_
      exact fun _ op hop => ⟨payload, rfl, hop⟩

theorem revokeTrustedDevice_heeds {userId deviceRecordId : Uuid}
    (hasks : ∀ past op, RevokeAsks userId deviceRecordId past op → r.asks past op) :
    Heeds r (revokeTrustedDevice userId deviceRecordId) (fun _ _ => True) (fun _ _ => True)
      past := by
  refine heeds_bind.2 (heeds_select (hasks _ _ (.free (by trivial))) (fun t => ?_)
    fun _ => trivial)
  split
  · trivial
  · rename_i owner deviceId hrow
    split
    · rename_i howner
      subst howner
      refine heeds_bind.2 (heeds_sql (hasks _ _ (.update (.head _) hrow)) (fun updated => ?_)
        fun _ => trivial)
      exact heeds_throwIf (fun _ => trivial) fun _ => trivial
    · trivial

theorem revoke_heeds (actor : Option Uuid) (deviceRecordId : Uuid) :
    Heeds (rules env (.revokeTrustedDevice actor deviceRecordId))
      (respond (AuthController.revokeDevice actor deviceRecordId))
      (fun _ => (rules env (.revokeTrustedDevice actor deviceRecordId)).ends)
      (fun _ => (rules env (.revokeTrustedDevice actor deviceRecordId)).ends) [] := by
  cases actor with
  | none => exact ⟨trivial, trivial⟩
  | some sub =>
      have hasks : ∀ past op, RevokeAsks sub deviceRecordId past op →
          (rules env (.revokeTrustedDevice (some sub) deviceRecordId)).asks past op :=
        fun _ op hop => ⟨sub, rfl, hop⟩
      refine heeds_respond (Heeds.imp (Q := fun _ _ => True) (E := fun _ _ => True) ?_
        (fun _ _ _ => ⟨trivial, trivial⟩) fun _ _ _ => ⟨trivial, trivial⟩)
      have hguard : (activeAccountGuard sub).Only Op.Free := activeAccountGuard_only sub
      refine heeds_bind.2 (heeds_bind.2 (heeds_only hguard
        (fun _ _ _ hop => hasks _ _ (.free hop)) (fun _ past₁ _ => ?_) fun _ _ _ => trivial))
      exact heeds_bind.2 ((revokeTrustedDevice_heeds hasks).imp (fun _ _ _ => trivial)
        fun _ _ h => h)

/-! ## Suspension and reactivation -/

theorem reactivate_only (targetUserId : Uuid) :
    (Kori.reactivate targetUserId).Only (ReactivateAsks targetUserId) := by
  refine Only.bind (updateRow_only (.free (by trivial)) (.update ?_)) fun updated => ?_
  · intro user user' hchange
    split at hchange
    · obtain rfl : _ = user' := by simpa using hchange
      rfl
    · simp at hchange
  · split
    · trivial
    · have : Harmless (ReactivateAsks targetUserId) := ⟨fun _ h => .free h⟩
      refine (select_only _).bind fun accounts => ?_
      split <;> trivial

theorem reactivate_heeds (actor : Option Uuid) (targetUserId : Uuid) :
    Heeds (rules env (.reactivate actor targetUserId))
      (respond (AccountsController.reactivate actor targetUserId))
      (fun _ => (rules env (.reactivate actor targetUserId)).ends)
      (fun _ => (rules env (.reactivate actor targetUserId)).ends) [] := by
  have : Harmless (ReactivateAsks targetUserId) := ⟨fun _ h => .free h⟩
  refine heeds_endpoint (by simp) ((roleGuards_only _ _).bind fun _ =>
    (reactivate_only targetUserId).bind fun _ => only_pure _) ?_
  exact fun _ op hop => hop

theorem roleGuards_asks (required : Role) (actor : Option Uuid) :
    (roleGuards required actor).Only fun op => ∃ sub, op = .sql (.select (.user sub)) := by
  refine (accessTokenGuard_only _).bind fun sub => Only.bind ?_ fun role =>
    (only_throwIf _ _).bind fun _ => only_pure _
  refine Only.bind (Only.tryCatch (sql_only ⟨sub, rfl⟩) fun _ => only_throw _) fun snapshot => ?_
  split
  · trivial
  · split <;> trivial

theorem ClearedRow.update {userId : Uuid} {k k' : Key} {change : Row k' → Except SqlError _}
    {a : Except SqlError (Option (Row k'))} (h : ClearedRow userId past k) :
    ClearedRow userId (⟨.sql (.update k' change), a⟩ :: past) k := by
  intro deviceId hk
  obtain ⟨own, hown, hrow⟩ | hmem := h deviceId hk
  · refine .inl ?_
    rw [statements_sql, uncommitted_cons, hown]
    cases a with
    | error e => exact ⟨own, rfl, hrow⟩
    | ok written =>
        cases written with
        | none => exact ⟨own, rfl, hrow⟩
        | some v =>
            refine ⟨Function.update own k' (some v), rfl, ?_⟩
            by_cases hkey : Key.device userId deviceId = k'
            · subst k'
              simp
            · rwa [Function.update_of_ne hkey]
  · exact .inr (.tail _ hmem)

section Suspension

variable {userId : Uuid} (hasks : ∀ past op, SuspendAsks userId past op → r.asks past op)

include hasks

theorem clearSessions_heeds (h : Restricting userId past) (hnew : ∀ t, ¬Listed userId past t) :
    Heeds r (clearSessions userId)
      (fun _ past' => ∃ keys, Arranged userId past' keys ∧ ∀ k ∈ keys, ClearedRow userId past' k)
      (fun _ _ => True) past := by
  have hopen : InTransaction past := by
    obtain ⟨own, hown, -⟩ := h
    simp [InTransaction, hown]
  refine heeds_bind.2 (heeds_select (hasks _ _ (.list h hnew)) (fun t => ?_) fun _ => trivial)
  refine heeds_ask_bind.2 ⟨hasks _ _ (.free (by trivial) (by simp)), fun keys => ?_⟩
  -- the invariant speaks about the rows that are no longer to be visited
  refine (heeds_forEach (I := fun rest past' => Arranged userId past' keys ∧
    InTransaction past' ∧ rest ⊆ keys ∧ ∀ k ∈ keys, k ∉ rest → ClearedRow userId past' k)
    ⟨⟨t, .tail _ (.head _), .head _⟩, ?_, fun _ h => h, ?_⟩ ?_).imp ?_ fun _ _ h => h
  · exact (hopen.cons (by simp [Op.KeepsOpen])).cons (by simp [Op.KeepsOpen])
  · exact fun k hk hnot => absurd hk hnot
  · rintro k rest past₁ ⟨harranged, hinside, hsub, hcleared⟩
    have hrest : rest ⊆ keys := fun _ hk => hsub (.tail _ hk)
    have hother : ∀ k', k' ∈ keys → k' ≠ k → k' ∉ rest → ClearedRow userId past₁ k' := by
      intro k' hk' hne hnot
      refine hcleared k' hk' fun hmem => ?_
      rcases List.mem_cons.1 hmem with rfl | hmem
      · exact hne rfl
      · exact hnot hmem
    cases k with
    | device owner deviceId =>
        refine heeds_bind.2 (heeds_sql (hasks _ _ (.clear harranged (hsub (.head _))))
          (fun a => ?_) fun _ => trivial)
        obtain ⟨t', hlisted, hkeys⟩ := harranged
        refine ⟨⟨t', .tail _ hlisted, .tail _ hkeys⟩, hinside.cons (by simp [Op.KeepsOpen]),
          hrest, fun k' hk' hnot => ?_⟩
        by_cases hk : k' = .device owner deviceId
        · subst k'
          intro deviceId' heq
          obtain ⟨rfl, rfl⟩ := Key.device.inj heq
          cases a with
          | none => exact .inr (.head _)
          | some device =>
              obtain ⟨own, hown⟩ := Option.isSome_iff_exists.1 hinside
              refine .inl ⟨Function.update own (.device owner deviceId) (some device), ?_, ?_⟩
              · rw [statements_sql, uncommitted_cons, hown]
                rfl
              · simp
        · exact (hother k' hk' hk hnot).update
    | _ =>
        refine ⟨harranged, hinside, hrest, fun k' hk' hnot deviceId heq => ?_⟩
        exact hother k' hk' (by simp [heq]) hnot deviceId heq
  · rintro - past₁ ⟨harranged, -, -, hcleared⟩
    exact ⟨keys, harranged, fun k hk => hcleared k hk (by simp)⟩

theorem restrictAccount_heeds (hopen : InTransaction past) (hnew : ∀ t, ¬Listed userId past t) :
    Heeds r (restrictAccount userId)
      (fun _ past' => ∃ keys, Arranged userId past' keys ∧ ∀ k ∈ keys, ClearedRow userId past' k)
      (fun _ _ => True) past := by
  refine heeds_bind.2 (heeds_only (findSuspendable_only (P := fun op =>
    op = .sql (.select (.user userId)) ∨ op = .sql (.select (.walletByUser userId)))
    (.inl rfl) (.inr rfl)) ?_ (fun walletId past₁ hp₁ => ?_) fun _ _ _ => trivial)
  · rintro past₁ _ - (rfl | rfl) <;> exact hasks _ _ (.free (by trivial) (by simp))
  · have hopen₁ := hopen.extends (hp₁.mono (by
      rintro _ (rfl | rfl) <;> simp [Op.KeepsOpen]))
    have hnew₁ : ∀ t, ¬Listed userId past₁ t := fun t hlisted =>
      hnew t (hp₁.old hlisted (by simp))
    refine heeds_bind.2 (heeds_updateRow (hasks _ _ (.free (by trivial) (by simp)))
      (fun t => hasks _ _ .freeze) (fun frozen past₂ hp₂ _ => ?_) fun _ _ _ => trivial)
    have hopen₂ := hopen₁.extends (hp₂.mono (by
      rintro _ (rfl | ⟨change, rfl⟩) <;> simp [Op.KeepsOpen]))
    have hnew₂ : ∀ t, ¬Listed userId past₂ t := fun t hlisted =>
      hnew₁ t (hp₂.old hlisted (by simp))
    refine heeds_bind.2 (heeds_throwIf (fun _ => trivial) fun _ => ?_)
    refine heeds_bind.2 (heeds_updateRow (hasks _ _ (.free (by trivial) (by simp)))
      (fun t => hasks _ _ (.restrict (hopen₂.cons (by simp [Op.KeepsOpen]))))
      (fun restricted past₃ hp₃ hone => ?_) fun _ _ _ => trivial)
    refine heeds_bind.2 (heeds_throwIf (fun _ => trivial) fun hrestricted => ?_)
    refine clearSessions_heeds hasks ?_ fun t hlisted => hnew₂ t (hp₃.old hlisted (by simp))
    obtain ⟨t, change, user, rfl⟩ := hone (not_not.1 hrestricted)
    obtain ⟨own, hown⟩ := Option.isSome_iff_exists.1 hopen₂
    refine ⟨Function.update own (.user userId) (some user), ?_, by simp⟩
    rw [statements_sql, uncommitted_cons, statements_sql, uncommitted_cons, hown]
    rfl

theorem suspend_heeds (hnew : ∀ t, ¬Listed userId past t) :
    Heeds r (Kori.suspend userId) (fun _ _ => True) (fun _ _ => True) past := by
  refine heeds_transaction (hasks _ _ (.start hnew)) (fun _ => trivial)
    (restrictAccount_heeds hasks (.start past) fun t hlisted => ?_) ?_ ?_
  · exact hnew t (List.mem_of_ne_of_mem (by simp) hlisted)
  · exact fun _ _ _ => ⟨hasks _ _ .rollback, fun _ => trivial⟩
  · rintro - past₁ ⟨keys, harranged, hcleared⟩
    exact ⟨hasks _ _ (.commit harranged hcleared), trivial, fun _ => trivial⟩

end Suspension

theorem suspendEndpoint_heeds (actor : Option Uuid) (targetUserId : Uuid) :
    Heeds (rules env (.suspend actor targetUserId))
      (respond (AccountsController.suspend actor targetUserId))
      (fun _ => (rules env (.suspend actor targetUserId)).ends)
      (fun _ => (rules env (.suspend actor targetUserId)).ends) [] := by
  refine heeds_respond (Heeds.imp (Q := fun _ _ => True) (E := fun _ _ => True) ?_
    (fun _ _ _ => ⟨trivial, trivial⟩) fun _ _ _ => ⟨trivial, trivial⟩)
  refine heeds_bind.2 (heeds_only (roleGuards_asks _ _) ?_ (fun sub past₁ hp₁ => ?_)
    fun _ _ _ => trivial)
  · rintro past₁ _ - ⟨sub, rfl⟩
    exact SuspendAsks.free (by trivial) (by simp)
  · refine heeds_bind.2 ((suspend_heeds (fun _ _ h => h) fun t hlisted => ?_).imp
      (fun _ _ _ => trivial) fun _ _ h => h)
    exact absurd (hp₁.old hlisted (by simp)) (by simp)

end Kori
