import Kori.Conduct.Approvals
import Kori.Restrictions.Frozen
import Kori.Verification.Roles

/-!
# Business approvals

An approval is activated in the transaction that creates the account it was given for,
and the account keeps the role that the approval had at that moment.
-/

namespace Kori

open Foundation

def Role.Business (role : Role) : Prop := role = .agent ∨ role = .merchant

section Approvals

variable {env : Env} {shared : Shared} {w w' : KoriWorld} {past before : List KoriMoment}
variable {p : Pid} {choice : Choice} {id u : Uuid} {a : BusinessApproval} {user : User}

/-! ## Written approvals -/

theorem Call.touches_approval {call : Call} (h : call.Touches (.approval id)) :
    call.OnApprovals := by
  cases call <;>
    simp_all [Call.Touches, Call.OnApprovals, Key.IsTransfer, Key.IsWallet, Key.IsApproval]

theorem approval_written (hidle : ∀ p, shared.db.tx p = none)
    (hr : Run (kori env) (World.idle shared) past w)
    (hm : w.move (kori env) (.step p choice) = some w')
    (hrow : (State.data w'.conf).row (.approval id) = some a)
    (hnew : (State.data w.conf).row (.approval id) ≠ some a) :
    ∃ y before e, y :: before <:+ (w, .step p choice) :: past ∧
      y.1.answered (kori env) y.2 = some (p, e) ∧ Writes (.approval id) a e ∧
      ApprovalAsks (heard (kori env) p before) e.op := by
  obtain ⟨e, hans, hpublishes⟩ := run_published hidle hr hm hrow hnew
  obtain ⟨call, hcall, -⟩ := hr.asks obeyed hans
  have htouches := Call.touches_approval (run_touches hidle hr hm hrow hnew hcall)
  obtain ⟨e', he', hwrites⟩ := hpublishes.writes
  have hcons : heard (kori env) p ((w, .step p choice) :: past) = e :: heard (kori env) p past :=
    heard_cons_self hans
  rw [← hcons] at he'
  obtain ⟨y, before, hy, hanswered⟩ := heard_moment he'
  have hasked := (Run.cons hr hm).asked approvals_obeyed (World.calls_mono hm hcall)
  have hsuffix : e' :: heard (kori env) p before <:+
      heard (kori env) p ((w, .step p choice) :: past) :=
    heard_cons_self hanswered ▸ heard_suffix hy
  exact ⟨y, before, e', hy, hanswered, hwrites, hasked.at hsuffix htouches⟩

theorem approval_created (hopening : Opening env shared)
    (hr : Run (kori env) (World.idle shared) past w)
    (hm : w.move (kori env) (.step p choice) = some w')
    (hrow : (State.data w'.conf).row (.approval id) = some a)
    (hnone : (State.data w.conf).row (.approval id) = none) :
    a.activatedAt = none ∧ shared.db.committed.row (.userByPhone a.phone) = none := by
  obtain ⟨y, before, e, hy, hans, hwrites, hasks⟩ :=
    approval_written hopening.idle hr hm hrow (by simp [hnone])
  obtain ⟨hbefore, -⟩ := (Run.cons hr hm).at hy
  cases hwrites with
  | insert =>
      cases hasks with
      | spares hspares => exact absurd ⟨id, rfl⟩ hspares
      | insert _ hactivated hlooked hfree =>
          refine ⟨hactivated, ?_⟩
          obtain ⟨x, beforeX, hx, hread⟩ := heard_moment hlooked
          rw [answered_select hread] at hfree
          by_contra hseed
          obtain ⟨u, hu⟩ := Option.ne_none_iff_exists'.1 hseed
          have hgrows := run_grows hopening.sound (hbefore.at hx).1.reachable
          have hindex : (State.data x.1.conf).row (.userByPhone a.phone) = some u :=
            hgrows.userByPhone hu
          have hview := Store.view_isSome (p := p) (Option.isSome_of_eq_some hindex)
          simp [hfree] at hview
  | update =>
      exfalso
      obtain ⟨v₀, hview, -⟩ := answered_update hans
      have hnever : Never Op.WritesApproval (heard (kori env) p before) := by
        cases hasks with
        | spares hspares => exact absurd ⟨id, rfl⟩ hspares
        | renew hnever _ => exact hnever
        | claim hnever _ _ => exact hnever
      obtain ⟨choice', next, s, -, hproc, -⟩ := World.answered_cases hans
      have hthere := unwritten_row hopening.idle hbefore
        (fun e he hwrites => hnever e he ⟨id, hwrites⟩) (by simp [hproc]) hview
      obtain heq | hearlier := List.suffix_cons_iff.1 hy
      · obtain ⟨rfl, -⟩ := List.cons.inj heq
        exact absurd (hnone.symm.trans hthere) (by simp)
      · have hsome := row_stays hopening hr hearlier hthere
        simp [hnone] at hsome

theorem approval_activated (hidle : ∀ p, shared.db.tx p = none)
    (hr : Run (kori env) (World.idle shared) past w)
    (hm : w.move (kori env) (.step p choice) = some w')
    (hrow : (State.data w'.conf).row (.approval id) = some a)
    (hnew : (State.data w.conf).row (.approval id) ≠ some a) {activatedAt : Instant}
    (hactivated : a.activatedAt = some activatedAt) :
    ∃ claimedAt, Clocked (heard (kori env) p past) claimedAt activatedAt ∧
      claimedAt.ms < a.expiresAt.ms := by
  obtain ⟨y, before, e, hy, hans, hwrites, hasks⟩ := approval_written hidle hr hm hrow hnew
  cases hwrites with
  | insert =>
      cases hasks with
      | spares hspares => exact absurd ⟨id, rfl⟩ hspares
      | insert _ hnone _ _ => simp [hnone] at hactivated
  | update =>
      obtain ⟨v₀, -, hchange⟩ := answered_update hans
      cases hasks with
      | spares hspares => exact absurd ⟨id, rfl⟩ hspares
      | renew _ hrenewed => simp [hrenewed v₀ a hchange] at hactivated
      | claim _ hclocked hclaimed =>
          obtain ⟨hrecorded, hlt⟩ := hclaimed v₀ a hchange
          obtain rfl := Option.some.inj (hrecorded.symm.trans hactivated)
          have hsuffix : before <:+ past := by
            obtain heq | hearlier := List.suffix_cons_iff.1 hy
            · exact (List.cons.inj heq).2 ▸ List.suffix_refl _
            · exact (List.suffix_cons y before).trans hearlier
          obtain ⟨first, hfirst⟩ := hclocked
          exact ⟨_, ⟨first, hfirst.trans (heard_suffix hsuffix)⟩, hlt⟩

/-! ## Approvals and accounts -/

/-- The effect leaves approvals alone and creates no account, or it is one of the three
that write approvals. -/
inductive ApprovalStep (c : State) (p : Pid) (t : Data) : Prop
  | quiet : (∀ id, t.row (.approval id) = c.data.row (.approval id)) →
      (∀ u user, t.row (.user u) = some user → user.role.Business →
        (c.data.row (.user u)).isSome) → ApprovalStep c p t
  | approved {id : Uuid} {a : BusinessApproval} : c.data.row (.approval id) = none →
      c.data.row (.approvalByPhone a.phone) = none →
      t = (c.data.put (.approval id) a).put (.approvalByPhone a.phone) id →
      ApprovalStep c p t
  | renewed {id : Uuid} {a a' : BusinessApproval} : t = c.data.put (.approval id) a' →
      c.data.row (.approval id) = some a → a.activatedAt = none → a'.activatedAt = none →
      a'.phone = a.phone → ApprovalStep c p t
  | activated {id u : Uuid} {a : BusinessApproval} {user : User} {walletId type deviceId device}
      {activatedAt : Instant} :
      c.data.row (.approval id) = some a → a.activatedAt = none →
      a.phone = user.phone → a.role = user.role → user.role.Business →
      c.data.row (.user u) = none →
      t = Data.addAccount
        (c.data.put (.approval id) { a with activatedAt := some activatedAt }) u user walletId
        type deviceId device → ApprovalStep c p t

theorem Effect.approvalStep {c : State} {t : Data} {replies : List Reply}
    (h : Effect env p c t replies) : ApprovalStep c p t := by
  have hsame : (∀ id, t.row (.approval id) = c.data.row (.approval id)) →
      (∀ u, t.row (.user u) = c.data.row (.user u)) → ApprovalStep c p t := by
    intro happrovals husers
    apply ApprovalStep.quiet happrovals
    intro u user hrow _
    rw [← husers, hrow]
    rfl
  cases h with
  | none _ => exact hsame (fun _ => rfl) fun _ => rfl
  | replayed _ _ => exact hsame (fun _ => rfl) fun _ => rfl
  | transferred hpost =>
      exact hsame (fun _ => TransferOrder.post_row (by simp) (by simp) (by simp) (by simp))
        fun _ => TransferOrder.post_row (by simp) (by simp) (by simp) (by simp)
  | @suspended userId user' walletId w devices _ huser _ _ _ _ _ _ _ _ =>
      apply ApprovalStep.quiet
      · intro id
        rw [clearDevices_row (by simp)]
        simp
      · intro u user hrow _
        rw [clearDevices_row (by simp)] at hrow
        by_cases hid : u = userId
        · subst userId
          simp [huser]
        · rw [Tables.row_put_of_ne (by simpa using hid), Tables.row_put_of_ne (by simp)] at hrow
          simp [hrow]
  | @reactivated userId user' _ huser _ _ _ =>
      apply ApprovalStep.quiet (by simp)
      intro u user hrow _
      by_cases hid : u = userId
      · subst userId
        simp [huser]
      · rw [Tables.row_put_of_ne (by simpa using hid)] at hrow
        simp [hrow]
  | @registered id user' walletId type deviceId device sid jti t hnew hclaim =>
      cases hclaim with
      | personal hrole =>
          apply ApprovalStep.quiet
          · intro id'
            exact Data.addAccount_row (by simp) (by simp) (by simp) (by simp) (by simp) (by simp)
          · intro u user hrow hbusiness
            by_cases hid : u = id
            · subst id
              obtain rfl : user' = user := by simpa [Data.addAccount] using hrow
              simp [hrole, Role.Business] at hbusiness
            · rw [Data.addAccount_row (by simpa using hid) (by simp) (by simp) (by simp)
                (by simp) (by simp)] at hrow
              simp [hrow]
      | business hrow hphone hrole hunused hbusiness =>
          exact .activated hrow hunused hphone hrole hbusiness hnew.newUser rfl
  | approved hrow hindex _ => exact .approved hrow hindex rfl
  | renewed hrow hunused _ => exact .renewed rfl hrow hunused hunused rfl
  | froze _ _ _ | activated _ _ _ _ _ | device _ _ | enrolledNew _ _ _ _ _ =>
      exact hsame (by simp) (by simp)

theorem ApprovalStep.keeps {c : State} {t : Data} (h : ApprovalStep c p t)
    (hrow : c.data.row (.approval id) = some a) (hused : a.activatedAt ≠ none) :
    t.row (.approval id) = some a := by
  have hne : ∀ {id' : Uuid} {a' : BusinessApproval}, c.data.row (.approval id') = some a' →
      a'.activatedAt = none → id ≠ id' := by
    rintro id' a' hrow' hunused rfl
    obtain rfl := Option.some.inj (hrow.symm.trans hrow')
    exact hused hunused
  cases h with
  | quiet hsame _ => rw [hsame, hrow]
  | @approved id' a' hnone _ hput =>
      have hid : id ≠ id' := by
        rintro rfl
        simp [hnone] at hrow
      rw [hput, Tables.row_put_of_ne (by simp), Tables.row_put_of_ne (by simpa using hid), hrow]
  | renewed hput hrow' hunused _ _ =>
      rw [hput, Tables.row_put_of_ne (by simpa using hne hrow' hunused), hrow]
  | activated hrow' hunused _ _ _ _ hput =>
      rw [hput, Data.addAccount_row (by simp) (by simp) (by simp) (by simp) (by simp) (by simp),
        Tables.row_put_of_ne (by simpa using hne hrow' hunused), hrow]

structure BusinessAccount (t : Data) (phone : JsString) (u : Uuid) (user : User) : Prop where
  row : t.row (.user u) = some user
  phone : user.phone = phone
  business : user.role.Business

theorem BusinessAccount.grows {t t' : Data} {phone : JsString}
    (h : BusinessAccount t phone u user) (hg : Grows t t') :
    ∃ user', BusinessAccount t' phone u user' ∧ user'.role = user.role := by
  obtain ⟨user', hrow, hphone, hrole⟩ := hg.user h.row
  exact ⟨user', ⟨hrow, hphone.trans h.phone, hrole ▸ h.business⟩, hrole⟩

theorem BusinessAccount.earlier {t t' : Data} {phone : JsString}
    (h : BusinessAccount t' phone u user) (hg : Grows t t') (hold : (t.row (.user u)).isSome) :
    ∃ user', BusinessAccount t phone u user' ∧ user'.role = user.role := by
  obtain ⟨user', hrow⟩ := Option.isSome_iff_exists.1 hold
  obtain ⟨user'', hrow', hphone, hrole⟩ := hg.user hrow
  obtain rfl := Option.some.inj (hrow'.symm.trans h.row)
  exact ⟨user', ⟨hrow, hphone.symm.trans h.phone, hrole ▸ h.business⟩, hrole.symm⟩

/-- The approval is activated exactly if it has its account, which has its role. -/
structure Settled (t : Data) (a : BusinessApproval) : Prop where
  activated : a.activatedAt ≠ none ↔ ∃ u user, BusinessAccount t a.phone u user
  role : ∀ u user, BusinessAccount t a.phone u user → user.role = a.role

/-- Approvals are settled, and an account that was not seeded has one. -/
structure Approved (seed t : Data) : Prop where
  settled : ∀ id a, t.row (.approval id) = some a → Settled t a
  backed : ∀ u phone user, BusinessAccount t phone u user → seed.row (.user u) = none →
    ∃ id a, t.row (.approval id) = some a ∧ a.phone = phone

theorem Settled.grows {t t' : Data} (h : Settled t a) (hg : Grows t t')
    (hold : ∀ u user, BusinessAccount t' a.phone u user → (t.row (.user u)).isSome) :
    Settled t' a := by
  constructor
  · rw [h.activated]
    constructor
    · rintro ⟨u, user, haccount⟩
      obtain ⟨user', hafter, -⟩ := haccount.grows hg
      exact ⟨u, user', hafter⟩
    · rintro ⟨u, user, haccount⟩
      obtain ⟨user', hbefore, -⟩ := haccount.earlier hg (hold u user haccount)
      exact ⟨u, user', hbefore⟩
  · intro u user haccount
    obtain ⟨user', hbefore, hrole⟩ := haccount.earlier hg (hold u user haccount)
    rw [← hrole]
    exact h.role u user' hbefore

section Steps

variable {seed : Data} {c : State} {t' : Data} {systemId : Uuid}

/-- The phone of a new approval has no account: an unseeded one would have an approval
already, and the phone had no account in the beginning. -/
theorem Approved.no_account (h : Approved seed c.data) (hseed : Integrity systemId seed)
    (hi : Integrity systemId c.data) (hg : Grows seed c.data) {phone : JsString}
    (hindex : c.data.row (.approvalByPhone phone) = none)
    (hphone : seed.row (.userByPhone phone) = none) :
    ¬BusinessAccount c.data phone u user := by
  intro haccount
  cases hold : seed.row (.user u) with
  | none =>
      obtain ⟨id, a, hrow, hsame⟩ := h.backed u phone user haccount hold
      have hentry := hi.approvals.entry id a phone hrow (by rw [hsame])
      simp [hindex] at hentry
  | some old =>
      obtain ⟨user', hbefore, -⟩ := haccount.earlier hg (by simp [hold])
      have hentry := hseed.users.entry u user' phone hbefore.row (by rw [hbefore.phone])
      simp [hphone] at hentry

theorem Approved.covered (h : Approved seed c.data) (hg : Grows c.data t') {phone : JsString}
    (haccount : BusinessAccount t' phone u user) (hold : (c.data.row (.user u)).isSome)
    (hnone : seed.row (.user u) = none) :
    ∃ id a, t'.row (.approval id) = some a ∧ a.phone = phone := by
  obtain ⟨user', hbefore, -⟩ := haccount.earlier hg hold
  obtain ⟨id, a, hrow, hphone⟩ := h.backed u phone user' hbefore hnone
  obtain ⟨a', hrow', hlasts⟩ := hg _ _ hrow
  exact ⟨id, a', hrow', Eq.trans hlasts hphone⟩

theorem Approved.put (h : Approved seed c.data) (hg : Grows c.data t')
    (husers : ∀ u, t'.row (.user u) = c.data.row (.user u))
    (happrovals : ∀ id', id' ≠ id → t'.row (.approval id') = c.data.row (.approval id'))
    (hrow : t'.row (.approval id) = some a) (hunused : a.activatedAt = none)
    (hfree : ∀ u user, ¬BusinessAccount c.data a.phone u user) : Approved seed t' := by
  have hold : ∀ {phone : JsString} {u : Uuid} {user : User}, BusinessAccount t' phone u user →
      BusinessAccount c.data phone u user :=
    fun haccount => ⟨husers _ ▸ haccount.row, haccount.phone, haccount.business⟩
  constructor
  · intro id' a' hrow'
    by_cases hid : id' = id
    · subst id'
      obtain rfl := Option.some.inj (hrow.symm.trans hrow')
      constructor
      · simp only [hunused, ne_eq, not_true_eq_false, false_iff, not_exists]
        exact fun u user haccount => hfree u user (hold haccount)
      · exact fun u user haccount => absurd (hold haccount) (hfree u user)
    · rw [happrovals id' hid] at hrow'
      exact (h.settled id' a' hrow').grows hg fun u user haccount => by simp [(hold haccount).row]
  · intro u phone user haccount
    exact h.covered hg haccount (by simp [(hold haccount).row])

theorem Approved.activate (h : Approved seed c.data) (hg : Grows c.data t')
    (hi : Integrity systemId c.data) (hi' : Integrity systemId t')
    (hrow : c.data.row (.approval id) = some a) {a' : BusinessApproval}
    (hrow' : t'.row (.approval id) = some a') (hactivated : a'.activatedAt ≠ none)
    (hphone : a'.phone = a.phone) (hthere : BusinessAccount t' a.phone u user)
    (hrole : a'.role = user.role)
    (happrovals : ∀ id', id' ≠ id → t'.row (.approval id') = c.data.row (.approval id'))
    (husers : ∀ v, v ≠ u → t'.row (.user v) = c.data.row (.user v)) : Approved seed t' := by
  have hself : ∀ {v : Uuid} {user' : User}, BusinessAccount t' a.phone v user' → v = u := by
    intro v user' haccount
    have hother := hi'.users.entry v user' a.phone haccount.row (by rw [haccount.phone])
    have hone := hi'.users.entry u user a.phone hthere.row (by rw [hthere.phone])
    exact Option.some.inj (hother.symm.trans hone)
  have hold : ∀ {phone : JsString} {v : Uuid} {user' : User},
      BusinessAccount t' phone v user' → v ≠ u → (c.data.row (.user v)).isSome := by
    intro phone v user' haccount hv
    rw [← husers v hv, haccount.row]
    rfl
  constructor
  · intro id' b hb
    by_cases hid : id' = id
    · subst id'
      obtain rfl := Option.some.inj (hrow'.symm.trans hb)
      rw [← hphone] at hthere hself
      constructor
      · exact ⟨fun _ => ⟨u, user, hthere⟩, fun _ => hactivated⟩
      · intro v user' haccount
        obtain rfl := hself haccount
        obtain rfl := Option.some.inj (hthere.row.symm.trans haccount.row)
        exact hrole.symm
    · rw [happrovals id' hid] at hb
      apply (h.settled id' b hb).grows hg
      intro v user' haccount
      apply hold haccount
      rintro rfl
      obtain rfl := Option.some.inj (hthere.row.symm.trans haccount.row)
      have hphones : b.phone = a.phone := haccount.phone.symm.trans hthere.phone
      have hone := hi.approvals.entry id' b a.phone hb (by rw [hphones])
      have hother := hi.approvals.entry id a a.phone hrow rfl
      exact hid (Option.some.inj (hone.symm.trans hother))
  · intro v phone user' haccount hnone
    by_cases hv : v = u
    · subst v
      obtain rfl := Option.some.inj (hthere.row.symm.trans haccount.row)
      exact ⟨id, a', hrow', hphone.trans (hthere.phone.symm.trans haccount.phone)⟩
    · exact h.covered hg haccount (hold haccount hv) hnone

theorem Approved.step (h : Approved seed c.data) (hseed : Integrity systemId seed)
    (hi : Integrity systemId c.data) (hi' : Integrity systemId t') (hgrown : Grows seed c.data)
    (hg : Grows c.data t') (hstep : ApprovalStep c p t')
    (hcreated : ∀ id a, c.data.row (.approval id) = none → t'.row (.approval id) = some a →
      a.activatedAt = none ∧ seed.row (.userByPhone a.phone) = none) :
    Approved seed t' := by
  cases hstep with
  | quiet hsame hold =>
      constructor
      · intro id a hrow
        rw [hsame] at hrow
        apply (h.settled id a hrow).grows hg
        exact fun u user haccount => hold u user haccount.row haccount.business
      · intro u phone user haccount
        exact h.covered hg haccount (hold u user haccount.row haccount.business)
  | @approved id a hnone hindex hput =>
      have hrow : t'.row (.approval id) = some a := by simp [hput]
      obtain ⟨hunused, hphone⟩ := hcreated id a hnone hrow
      apply h.put hg (by simp [hput]) _ hrow hunused
      · exact fun u user => h.no_account hseed hi hgrown hindex hphone
      · intro id' hid
        rw [hput, Tables.row_put_of_ne (by simp), Tables.row_put_of_ne (by simpa using hid)]
  | @renewed id a a' hput hrow hunused hunused' hphone =>
      apply h.put hg (by simp [hput]) _ (by rw [hput, Tables.row_put_self]) hunused'
      · intro u user haccount
        rw [hphone] at haccount
        exact (h.settled id a hrow).activated.2 ⟨u, user, haccount⟩ hunused
      · intro id' hid
        rw [hput, Tables.row_put_of_ne (by simpa using hid)]
  | @activated id u a user walletId type deviceId device activatedAt hrow _ hphone hrole
      hbusiness _ hput =>
      have huser : t'.row (.user u) = some user := by simp [hput, Data.addAccount]
      have happroval : t'.row (.approval id) =
          some { a with activatedAt := some activatedAt } := by
        rw [hput, Data.addAccount_row (by simp) (by simp) (by simp) (by simp) (by simp)
          (by simp), Tables.row_put_self]
      apply h.activate hg hi hi' hrow happroval (by simp) rfl
        ⟨huser, hphone.symm, hbusiness⟩ hrole
      · intro id' hid
        rw [hput, Data.addAccount_row (by simp) (by simp) (by simp) (by simp) (by simp)
          (by simp), Tables.row_put_of_ne (by simpa using hid)]
      · intro v hv
        rw [hput, Data.addAccount_row (by simpa using hv) (by simp) (by simp) (by simp)
          (by simp) (by simp), Tables.row_put_of_ne (by simp)]

end Steps

/-! ## Runs -/

theorem run_approved (hopening : Opening env shared)
    (hsettled : ∀ id a, shared.db.committed.row (.approval id) = some a →
      Settled shared.db.committed a)
    (hr : Run (kori env) (World.idle shared) past w) :
    Approved shared.db.committed (State.data w.conf) := by
  induction hr with
  | nil =>
      constructor
      · exact hsettled
      · intro u phone user haccount hnone
        exact absurd (hnone.symm.trans haccount.row) (by simp)
  | @cons past w w' m hr hm ih =>
      cases m with
      | step q choice =>
          have hsound := (contract env).sound hopening.sound hr.reachable
          have hguar := guar_of_step hsound hm
          obtain ⟨replies, -, heffect⟩ := hguar.effect
          have hi := run_inv hopening.sound hr.reachable
          exact ih.step hopening.integrity hi.integrity (hi.guar hguar).integrity
            (run_grows hopening.sound hr.reachable) (hguar.data_grows hi) heffect.approvalStep
            fun id a hnone hrow => approval_created hopening hr hm hrow hnone
      | _ => 
          rw [data_of_other hm (by simp)]
          exact ih

theorem run_unseeded (hopening : Opening env shared)
    (hr : Run (kori env) (World.idle shared) past w) :
    ∀ id a, (State.data w.conf).row (.approval id) = some a →
      shared.db.committed.row (.approval id) = none →
      shared.db.committed.row (.userByPhone a.phone) = none := by
  induction hr with
  | nil =>
      intro id a hrow hnone
      exact absurd (hnone.symm.trans hrow) (by simp)
  | @cons past w w' m hr hm ih =>
      intro id a hrow hnone
      cases m with
      | step q choice =>
          cases hold : (State.data w.conf).row (.approval id) with
          | none => exact (approval_created hopening hr hm hrow hold).2
          | some a₀ =>
              have hsound := (contract env).sound hopening.sound hr.reachable
              have hgrows := (guar_of_step hsound hm).data_grows hsound.inv.1
              obtain ⟨a', hrow', hphone⟩ := hgrows _ _ hold
              obtain rfl := Option.some.inj (hrow'.symm.trans hrow)
              have hphone : a'.phone = a₀.phone := hphone
              rw [hphone]
              exact ih id a₀ hold hnone
      | _ =>
          rw [data_of_other hm (by simp)] at hrow
          exact ih id a hrow hnone

/-- A settled approval whose account has the wallet that goes with its role. -/
structure Honoured (t : Data) (a : BusinessApproval) : Prop extends Settled t a where
  wallet : ∀ u user, BusinessAccount t a.phone u user →
    ∃ walletId v, OwnsOne t u walletId v ∧ a.role.walletType = some v.type

/-- An approval is activated exactly if its phone has an account with the role and wallet
it was given for; it never changes again, and it was activated before it expired. -/
theorem approvals_used_once (hopening : Opening env shared)
    (hseed : ∀ id a, shared.db.committed.row (.approval id) = some a →
      Honoured shared.db.committed a)
    (hr : Run (kori env) (World.idle shared) past w) :
    (∀ id a, (State.data w.conf).row (.approval id) = some a →
      Honoured (State.data w.conf) a ∧ (a.activatedAt ≠ none →
        ∀ w', Reachable (kori env) w w' → (State.data w'.conf).row (.approval id) = some a)) ∧
    ∀ p choice w' id a activatedAt, w.move (kori env) (.step p choice) = some w' →
      (State.data w'.conf).row (.approval id) = some a →
      (State.data w.conf).row (.approval id) ≠ some a → a.activatedAt = some activatedAt →
      ∃ claimedAt, Clocked (heard (kori env) p past) claimedAt activatedAt ∧
        claimedAt.ms < a.expiresAt.ms := by
  have hi := (run_inv hopening.sound hr.reachable).integrity
  have hgrows : Grows shared.db.committed (State.data w.conf) :=
    run_grows hopening.sound hr.reachable
  refine ⟨?_, ?_⟩
  · intro id a hrow
    have hsettled := (run_approved hopening (fun id a h => (hseed id a h).toSettled)
      hr).settled id a hrow
    refine ⟨⟨hsettled, ?_⟩, ?_⟩
    · intro u user haccount
      rw [← hsettled.role u user haccount]
      cases hold : shared.db.committed.row (.user u) with
      | none =>
          obtain ⟨walletId, hmatched⟩ :=
            run_provided hopening hr.reachable u user haccount.row hold
          obtain ⟨v, hone, -, htype⟩ := hmatched.ownsOne hi
          exact ⟨walletId, v, hone, htype⟩
      | some old =>
          obtain ⟨user', hbefore, hrole⟩ := haccount.earlier hgrows (by simp [hold])
          have hindex := hopening.integrity.users.entry u user' a.phone hbefore.row
            (by rw [hbefore.phone])
          cases hseeded : shared.db.committed.row (.approval id) with
          | none =>
              have hnone := run_unseeded hopening hr id a hrow hseeded
              exact absurd (hnone.symm.trans hindex) (by simp)
          | some a₀ =>
              obtain ⟨a', hrow', hphone⟩ := hgrows _ _ hseeded
              obtain rfl := Option.some.inj (hrow'.symm.trans hrow)
              have hphone : a'.phone = a₀.phone := hphone
              have hlaw := hseed id a₀ hseeded
              rw [hphone] at hbefore
              obtain ⟨walletId, v, hone, htype⟩ := hlaw.wallet u user' hbefore
              obtain ⟨v', hone', htype'⟩ := hone.grows hopening.integrity hi hgrows
              refine ⟨walletId, v', hone', ?_⟩
              rw [← hrole, hlaw.role u user' hbefore, htype, htype']
    · intro hused w' hlater
      refine run_preserves (P := fun c => c.data.row (.approval id) = some a)
        ((contract env).sound hopening.sound hr.reachable) hrow ?_
        (fun c c' hstill h => hstill.data ▸ h) hlater
      intro q c c' _ hguar h
      obtain ⟨replies, -, heffect⟩ := hguar.effect
      exact heffect.approvalStep.keeps h hused
  · intro p choice w' id a activatedAt hm hrow hnew hactivated
    exact approval_activated hopening.idle hr hm hrow hnew hactivated

end Approvals

namespace Sample

def Approves : Sigma Row → Bool
  | ⟨.approval _, _⟩ => true
  | _ => false

theorem staffed_unapproved (id : Uuid) : staffed.db.committed.row (.approval id) = none := by
  have hnone : ∀ e ∈ staffed.db.committed.rows.entries, Approves e = false := by
    decide +kernel
  cases hrow : staffed.db.committed.row (.approval id) with
  | none => rfl
  | some a =>
      have hnot := hnone _ (AList.mem_lookup_iff.1 hrow)
      simp [Approves] at hnot

def approveMoves (p : Pid) (dto : ApproveBusinessDto) (id : Uuid) : List KoriMove :=
  .arrive p (.approveBusinessAccount (some 9) dto) ::
    [.go, .go, .instant time, .instant time, .go, .uuid id, .go, .go, .go, .go].map (.step p)

def registerBusinessMoves (p : Pid) (dto : RegisterDto) (u : Uuid)
    (claimedAt activatedAt : Instant) : List KoriMove :=
  .arrive p (.registerBusiness dto) ::
    [.go, .text dto.pin, .go, .instant time, .go, .instant claimedAt, .instant activatedAt, .go,
      .go, .uuid u, .go, .go, .uuid 13, .go, .go, .uuid 51, .uuid 52, .uuid 23, .instant time,
      .go, .go].map (.step p)

def merchantMoves (claimedAt activatedAt : Instant) : List KoriMove :=
  sendOtpMoves 0 sendOtpDto 77 123456 ++
    verifyOtpMoves 1 ⟨sendOtpDto, js "123456", uuidText 77, none⟩ ++
    approveMoves 2 ⟨js "3", .merchant⟩ 61 ++
    registerBusinessMoves 3 registerDto 3 claimedAt activatedAt

def activates (id : Uuid) (w w' : KoriWorld) : Bool :=
  ((State.data w.conf).row (.approval id)).any (fun a => a.activatedAt.isNone) ∧
    ((State.data w'.conf).row (.approval id)).any fun a => a.activatedAt = some time

end Sample

theorem approvals_used_once_of_registration : ∃ w a u user walletId v, ∃ claimedAt : Instant,
    Reachable (kori Sample.env) (World.idle Sample.staffed) w ∧
      (State.data w.conf).row (.approval 61) = some a ∧
      BusinessAccount (State.data w.conf) a.phone u user ∧ user.role = a.role ∧
      OwnsOne (State.data w.conf) u walletId v ∧ a.role.walletType = some v.type ∧
      claimedAt.ms < a.expiresAt.ms ∧ ∀ w', Reachable (kori Sample.env) w w' →
        (State.data w'.conf).row (.approval 61) = some a := by
  have hrun : (((World.idle Sample.staffed).run (kori Sample.env)
      (Sample.merchantMoves Sample.time Sample.time)).any fun w =>
      (w.move (kori Sample.env) (.step 3 .go)).any (Sample.activates 61 w)) = true := by
    decide +kernel
  obtain ⟨w, hr, hw⟩ := exists_of_run hrun
  obtain ⟨w', hm, hw'⟩ := (Option.any_eq_true _ _).1 hw
  obtain ⟨hbefore, hafter⟩ := of_decide_eq_true hw'
  obtain ⟨a₀, hrow₀, hunused⟩ := (Option.any_eq_true _ _).1 hbefore
  obtain ⟨a, hrow, hactivated⟩ := (Option.any_eq_true _ _).1 hafter
  have hactivated : a.activatedAt = some Sample.time := of_decide_eq_true hactivated
  have hnew : (State.data w.conf).row (.approval 61) ≠ some a := by
    rw [hrow₀]
    rintro heq
    obtain rfl := Option.some.inj heq
    simp [hactivated] at hunused
  have hseed : ∀ id a, Sample.staffed.db.committed.row (.approval id) = some a →
      Honoured Sample.staffed.db.committed a := by
    intro id a hrow
    simp [Sample.staffed_unapproved id] at hrow
  obtain ⟨past, hpast⟩ := Reachable.run hr
  obtain ⟨-, htimes⟩ := approvals_used_once Sample.staffed_opening hseed hpast
  obtain ⟨claimedAt, -, hlt⟩ := htimes 3 .go w' 61 a _ hm hrow hnew hactivated
  obtain ⟨hlaw, -⟩ := approvals_used_once Sample.staffed_opening hseed (.cons hpast hm)
  obtain ⟨hhonoured, hkept⟩ := hlaw 61 a hrow
  obtain ⟨u, user, haccount⟩ := hhonoured.activated.1 (by simp [hactivated])
  obtain ⟨walletId, v, hone, htype⟩ := hhonoured.wallet u user haccount
  exact ⟨w', a, u, user, walletId, v, claimedAt, (Run.cons hpast hm).reachable, hrow, haccount,
    hhonoured.role u user haccount, hone, htype, hlt, hkept (by simp [hactivated])⟩

/-- The clock passes `expiresAt` between the reading that is compared with it and the one that
is recorded. -/
theorem activated_after_expiry : Opening Sample.env Sample.staffed ∧
    (∀ id, Sample.staffed.db.committed.row (.approval id) = none) ∧
    ∃ w a activatedAt, Reachable (kori Sample.env) (World.idle Sample.staffed) w ∧
      (State.data w.conf).row (.approval 61) = some a ∧ a.activatedAt = some activatedAt ∧
      a.expiresAt.ms ≤ activatedAt.ms := by
  refine ⟨Sample.staffed_opening, Sample.staffed_unapproved, ?_⟩
  have hrun : (((World.idle Sample.staffed).run (kori Sample.env)
      (Sample.merchantMoves { Sample.time with ms := 3599999 }
        { Sample.time with ms := 3600000 } ++ [.step 3 .go])).any fun w =>
      ((State.data w.conf).row (.approval 61)).any fun a =>
        a.activatedAt.any fun activatedAt => a.expiresAt.ms ≤ activatedAt.ms) = true := by
    decide +kernel
  obtain ⟨w, hr, hw⟩ := exists_of_run hrun
  obtain ⟨a, hrow, ha⟩ := (Option.any_eq_true _ _).1 hw
  obtain ⟨activatedAt, hactivated, hle⟩ := (Option.any_eq_true _ _).1 ha
  exact ⟨w, a, activatedAt, hr, hrow, hactivated, of_decide_eq_true hle⟩

end Kori
