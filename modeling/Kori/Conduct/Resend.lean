import Kori.Conduct.Approvals
import Kori.Conduct.Commands

/-!
# The resend lock

A request gives the resend lock of a phone back only if it has acquired it and has not
given it back before, and it announces a challenge only while it has the lock.
-/

namespace Kori

open Foundation Code

variable {env : Env} {past past' : History} {phone : JsString}

/-- The request believes that it has the resend lock of the phone. -/
structure HoldsResend (phone : JsString) (past : History) : Prop where
  acquired : ⟨.redis (.set (.otpResend phone) () true), .ok true⟩ ∈ past
  kept : Never (· = .redis (.del (.otpResend phone))) past

def Activated (phone challengeId : JsString) (past : History) : Prop :=
  ∃ before, past = ⟨.redis (.set (.otpActiveChallenge phone) challengeId false), .ok true⟩ :: before

def Inactive (past : History) : Prop :=
  ∀ phone challengeId,
    ⟨.redis (.set (.otpActiveChallenge phone) challengeId false), .ok true⟩ ∉ past

/-- What a request knows when it announces a challenge. -/
structure Announces (env : Env) (dto : SendOtpDto) (challengeId : JsString) (past : History) :
    Prop where
  lock : ∃ phone, phoneOf env dto.phone = some phone ∧ HoldsResend phone past ∧
    Activated phone challengeId past

/-- The request may give the lock back. -/
structure Releases (phone : JsString) (past : History) : Prop extends HoldsResend phone past where
  inactive : Inactive past

def resendRules (env : Env) (call : Call) : Rules Op Op.Ans Reply where
  asks := fun past op => ∀ phone, op = .redis (.del (.otpResend phone)) → Releases phone past
  tells := fun past reply => ∀ dto challengeId expiresIn, call = .sendOtp dto →
    reply = .otpSent challengeId expiresIn → Announces env dto challengeId past
  ends := fun _ => True

/-! ## Building blocks -/

section Blocks

variable {call : Call} {α β : Type} {Q : α → History → Prop}

inductive Op.Concludes : Op → Prop
  | unlock {phone : JsString} : Op.Concludes (.redis (.del (.otpResend phone)))
  | activate {phone challengeId : JsString} :
      Op.Concludes (.redis (.set (.otpActiveChallenge phone) challengeId false))

theorem resend_asks {op : Op} (h : ∀ phone, op ≠ .redis (.del (.otpResend phone))) :
    (resendRules env call).asks past op :=
  fun phone hop => absurd hop (h phone)

theorem HoldsResend.cons {e : Entry Op Op.Ans} (h : HoldsResend phone past)
    (he : e.op ≠ .redis (.del (.otpResend phone))) : HoldsResend phone (e :: past) where
  acquired := .tail _ h.acquired
  kept := h.kept.cons he

theorem Releases.extends (h : Releases phone past)
    (hp : Extends (¬Op.Concludes ·) past past') : Releases phone past' where
  acquired := hp.mem h.acquired
  kept := by
    intro e he hop
    exact h.kept e (hp.old he (by simpa [hop] using .unlock)) hop
  inactive := by
    intro phone challengeId hmem
    exact h.inactive phone challengeId (hp.old hmem (by simpa using .activate))

theorem heeds_set_stored {k : RedisKey} {value : RedisValue k} {nx : Bool}
    {r : Rules Op Op.Ans Reply} {Q : Bool → History → Prop} {E : Exn → History → Prop}
    (hasks : r.asks past (.redis (.set k value nx)))
    (hstored : Q true (⟨.redis (.set k value nx), .ok true⟩ :: past))
    (hnot : ∀ reply, reply ≠ .ok true → Q false (⟨.redis (.set k value nx), reply⟩ :: past)) :
    Heeds r (RedisService.set k value nx) Q E past := by
  refine ⟨hasks, fun reply => ?_⟩
  cases reply with
  | offline => exact hnot _ (by simp)
  | error => exact hnot _ (by simp)
  | ok stored =>
      cases stored with
      | true => exact hstored
      | false => exact hnot _ (by simp)

theorem heeds_del {k : RedisKey} {r : Rules Op Op.Ans Reply} {Q : Bool → History → Prop}
    {E : Exn → History → Prop} (hasks : r.asks past (.redis (.del k)))
    (h : ∀ b reply, Q b (⟨.redis (.del k), reply⟩ :: past)) :
    Heeds r (RedisService.del k) Q E past := by
  refine ⟨hasks, fun reply => ?_⟩
  cases reply <;> exact h _ _

theorem pending_bind {m : Action β} {next : β → Action α} (h : m.Only (¬Op.Concludes ·))
    (hnext : ∀ b past', Extends (¬Op.Concludes ·) past past' →
      Heeds (resendRules env call) (next b) Q (fun _ _ => True) past') :
    Heeds (resendRules env call) (m >>= next) Q (fun _ _ => True) past := by
  apply h.heeds_bind
  · rintro past' op - hop
    apply resend_asks
    rintro phone rfl
    exact hop .unlock
  · exact hnext
  · exact fun _ _ _ => trivial

instance : Harmless (¬Op.Concludes ·) where
  free := by
    intro op hfree hop
    cases hop <;> exact hfree

end Blocks

/-! ## Sending -/

section Sending

variable {call : Call} {dto : SendOtpDto}

theorem acquireResendLock_resend :
    Heeds (resendRules env call) (acquireResendLock phone)
      (fun _ past' => ⟨.redis (.set (.otpResend phone) () true), .ok true⟩ :: past = past')
      (fun _ _ => True) past := by
  apply Heeds.bind (R := fun stored past' => stored = true →
    ⟨.redis (.set (.otpResend phone) () true), .ok true⟩ :: past = past')
  · apply heeds_set_stored (resend_asks (by simp))
    · exact fun _ => rfl
    · exact fun _ _ h => by simp at h
  · intro acquired past₁ hacquired
    split
    · apply pending_bind (getOtpSecurityValue_only _)
      intro existing past₂ _
      split <;> trivial
    · rename_i hnot
      exact hacquired (by simpa using hnot)

theorem retract_resend {challengeId : JsString} {Q : Bool × Bool → History → Prop}
    (h : Releases phone past) (hQ : ∀ bs past', Q bs past') :
    Heeds (resendRules env call) (Code.both Op.turn id
      (RedisService.del (.otpChallenge phone challengeId))
      (RedisService.del (.otpResend phone))) Q (fun _ _ => True) past := by
  have hother : ∀ past', (resendRules env call).asks past'
      (.redis (.del (.otpChallenge phone challengeId))) := fun _ => resend_asks (by simp)
  have hunlock : ∀ past', Extends (¬Op.Concludes ·) past past' →
      (resendRules env call).asks past' (.redis (.del (.otpResend phone))) := by
    rintro past' hp phone' ⟨⟩
    exact h.extends hp
  have hturn : ¬Op.turn.Concludes := by rintro ⟨⟩
  have hretract : ¬(Op.redis (.del (.otpChallenge phone challengeId))).Concludes := by rintro ⟨⟩
  refine ⟨resend_asks (by simp), fun first => ?_⟩
  cases first with
  | true =>
      refine ⟨hother _, fun reply => ?_⟩
      have hlast := hunlock (⟨_, reply⟩ :: ⟨.turn, true⟩ :: past)
        (((Extends.refl past).cons hturn).cons hretract)
      cases reply <;> exact heeds_bind.2 (heeds_del hlast fun _ _ => hQ _ _)
  | false =>
      refine ⟨hunlock _ ((Extends.refl past).cons hturn), fun reply => ?_⟩
      cases reply <;> exact ⟨hother _, fun reply => by cases reply <;> exact hQ _ _⟩

theorem storeChallenge_resend {deviceId challengeId otp : JsString} (h : Releases phone past) :
    Heeds (resendRules env call) (storeChallenge phone deviceId challengeId otp)
      (fun _ past' => HoldsResend phone past' ∧ Activated phone challengeId past')
      (fun _ _ => True) past := by
  apply Heeds.bind (R := fun _ => Releases phone)
  · apply heeds_set (resend_asks (by simp))
    exact fun _ _ => h.extends ((Extends.refl past).cons (by rintro ⟨⟩))
  · intro stored past₁ h₁
    split
    · apply heeds_bind.2
      apply heeds_del
      · rintro phone' ⟨⟩
        exact h₁
      · exact fun _ _ => trivial
    · apply heeds_bind.2
      apply heeds_set_stored (resend_asks (by simp))
      · exact ⟨h₁.toHoldsResend.cons (by simp), past₁, rfl⟩
      · intro reply hreply
        apply heeds_bind.2
        apply retract_resend _ fun _ _ => trivial
        refine ⟨h₁.toHoldsResend.cons (by simp), ?_⟩
        intro phone' challengeId' hmem
        rcases List.mem_cons.1 hmem with heq | hmem
        · cases heq
          exact hreply rfl
        · exact h₁.inactive phone' challengeId' hmem

theorem sendOtp_resend :
    Heeds (resendRules env (.sendOtp dto)) (AuthController.sendOtp env dto)
      (fun reply past' => (resendRules env (.sendOtp dto)).tells past' reply)
      (fun _ _ => True) [] := by
  apply pending_bind (validationPipe_only _)
  intro _ past₁ h₁
  refine heeds_bind.2 (heeds_phoneNumberFrom (fun phone hphone => ?_) fun _ _ => trivial)
  apply pending_bind (getOtpSecurityValue_only _)
  intro count past₂ h₂
  apply pending_bind (only_throwIf _ _)
  intro _ past₃ h₃
  apply acquireResendLock_resend.bind
  rintro _ past₄ rfl
  have hreleases : Releases phone
      (⟨.redis (.set (.otpResend phone) () true), .ok true⟩ :: past₃) := by
    -- nothing has been concluded yet
    have hnew : ∀ e ∈ past₃, ¬e.op.Concludes := by
      intro e he hop
      simpa using ((h₁.trans h₂).trans h₃).old he (not_not.2 hop)
    refine ⟨⟨List.mem_cons_self, ?_⟩, ?_⟩
    · intro e he hop
      rcases List.mem_cons.1 he with rfl | he
      · simp at hop
      · exact hnew e he (hop ▸ .unlock)
    · intro phone' challengeId hmem
      rcases List.mem_cons.1 hmem with heq | hmem
      · simp at heq
      · exact hnew _ hmem .activate
  apply pending_bind (ask_only (by rintro ⟨⟩))
  intro challengeId past₅ h₅
  apply pending_bind (ask_only (by rintro ⟨⟩))
  intro code past₆ h₆
  apply (storeChallenge_resend ((hreleases.extends h₅).extends h₆)).bind
  rintro _ past₇ ⟨hholds, hactive⟩
  rintro dto' _ _ ⟨⟩ ⟨⟩
  exact ⟨phone, hphone, hholds, hactive⟩

end Sending

/-! ## Every request -/

theorem Commands.unlocks {h₀ : History} {call : Call}
    (h : Commands env h₀ (.del (.otpResend phone)) call) : ∃ dto, call = .sendOtp dto := by
  cases h with
  | transfer hcache => exact hcache.elim
  | sendOtp _ => exact ⟨_, rfl⟩
  | verifyOtp hasks =>
      cases hasks with
      | free hfree => exact hfree.elim
  | register hasks | registerBusiness hasks =>
      cases hasks with
      | free hfree => exact hfree.elim
  | login _ hasks =>
      cases hasks with
      | establish _ _ hasks => cases hasks

theorem resend_obeyed : Obeyed (kori env) (resendRules env) := by
  intro call
  by_cases hsend : ∃ dto, call = .sendOtp dto
  · obtain ⟨dto, rfl⟩ := hsend
    apply heeds_respond
    apply sendOtp_resend.imp
    · exact fun _ _ h => ⟨h, trivial⟩
    · exact fun _ _ _ => ⟨fun _ _ _ _ hreply => by simp at hreply, trivial⟩
  · have hasks : ∀ past op, Asks env call past op → (resendRules env call).asks past op := by
      rintro past _ hasks phone rfl
      exact absurd (asks_redis hasks (by simp [Op.Free])).unlocks hsend
    apply Heeds.imp ((obeyed call).weaken (fun past op _ h => hasks past op h) _)
    · exact fun _ _ _ => trivial
    · exact fun _ _ _ => trivial
    · intro past reply _ _ dto _ _ hcall
      exact absurd ⟨dto, hcall⟩ hsend

end Kori
