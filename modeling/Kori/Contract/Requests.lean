import Kori.Contract.Commits

/-!
# Answering a request

A step of which nothing has been reported yet may be followed by any reply that
says nothing about transfers or sessions.  The guards in front of the
controllers only learn.
-/

namespace Kori

open Foundation

variable {env : Env} {σ : Scope} {p : Pid} {c c' : State}
variable {α β : Type}

/-! ## Plain replies -/

theorem Effect.plain {t : Data} {reply : Reply} (h : Effect env p c t [])
    (hplain : reply.Plain) : Effect env p c t [reply] := by
  have hreplies : ∀ e ∈ [reply], e.Plain := by simpa using hplain
  cases h with
  | none _ => exact .none hreplies
  | froze hrow htype _ => exact .froze hrow htype hreplies
  | activated hrow htype hinactive howner _ =>
      exact .activated hrow htype hinactive howner hreplies
  | suspended huser hrole hstatus hwallet howner htype hlock hdevices _ =>
      exact .suspended huser hrole hstatus hwallet howner htype hlock hdevices hreplies
  | reactivated huser hrole hstatus _ => exact .reactivated huser hrole hstatus hreplies
  | device hrow hstep =>
      refine .device hrow ?_
      cases hstep with
      | replayed hcall hsub hdevice hreplay _ =>
          exact .replayed hcall hsub hdevice hreplay hreplies
      | loggedOut hcall hsub hdevice hsid _ =>
          exact .loggedOut hcall hsub hdevice hsid hreplies
      | revoked hcall _ => exact .revoked hcall hreplies
      | enrolled hcall _ => exact .enrolled hcall hreplies
  | enrolledNew hrow hindex hsid hjti _ => exact .enrolledNew hrow hindex hsid hjti hreplies
  | approved hrow hindex _ => exact .approved hrow hindex hreplies
  | renewed hrow hunused _ => exact .renewed hrow hunused hreplies

theorem Participants.of_db {order : TransferOrder} {sender receiver system : Wallet}
    (h : Participants c p order sender receiver system)
    (hdb : c'.shared.db = c.shared.db) :
    Participants c' p order sender receiver system := by
  obtain ⟨⟨db, _, _, _, _⟩, calls, out⟩ := c
  obtain ⟨⟨db', _, _, _, _⟩, calls', out'⟩ := c'
  cases hdb
  exact ⟨h.senderLock, h.receiverLock, h.systemLock, h.senderRow, h.receiverRow,
    h.systemRow, h.senderActive, h.receiverActive, h.systemActive, h.senderOwner,
    h.receiverOwner, h.funds⟩

theorem Pending.of_db {own : Data} (h : Pending env c p own)
    (hdb : c'.shared.db = c.shared.db) (hcalls : c'.calls = c.calls) :
    Pending env c' p own where
  covered := by
    intro id r hr
    obtain ⟨request, order, sender, receiver, system, hcall, ho, hp, hrecord⟩ :=
      h.covered id r hr
    refine ⟨request, order, sender, receiver, system, hcalls ▸ hcall, ?_, hp.of_db hdb,
      hrecord⟩
    simpa only [State.data, hdb] using ho
  debits := by simpa only [State.data, hdb] using h.debits

theorem Guar.tell (h : Guar env p c c') (hout : c'.out = c.out) {replies : List Reply}
    (hreplies : Effect env p c c'.data [] → Effect env p c c'.data replies) :
    Guar env p c (c'.tell p replies) where
  frame := h.frame
  called := h.called
  calls := h.calls
  others := h.others
  minted := h.minted
  leases := h.leases
  cache := ⟨h.cache.entry, h.cache.lease⟩
  pending := fun own hown => (h.pending own hown).of_db rfl rfl
  effect := by
    obtain ⟨silence, hsilence, heffect⟩ := h.effect
    rw [hout, List.self_eq_append_right, List.map_eq_nil_iff] at hsilence
    subst silence
    exact ⟨replies, by simp [hout], hreplies heffect⟩

theorem silent_plain (hs : (terms env σ).Silent p c c') {reply : Reply}
    (hplain : reply.Plain) (hpermits : σ.permits p reply (c'.tell p [reply])) :
    (terms env σ).Guar p c (c'.tell p [reply]) := by
  refine ⟨hs.1.1.tell hs.2 fun h => h.plain hplain, fun e he => ?_⟩
  simp only [Conf.tell_out, List.map_cons, List.map_nil, List.mem_append,
    List.mem_singleton, Prod.mk.injEq, true_and, hs.2] at he
  obtain he | rfl := he
  · exact .inl he
  · exact .inr hpermits

/-! ## The frame of every handler -/

theorem settles_respond {handler : Action Reply}
    (h : Answers env σ p handler
      (fun reply c₁ c₂ => (terms env σ).Guar p c₁ (c₂.tell p [reply]))
      (fun e c₁ c₂ => (terms env σ).Guar p c₁ (c₂.tell p [.failed e])) c c') :
    Answers env σ p (respond handler) (fun _ => (terms env σ).Guar p)
      (fun _ => (terms env σ).Guar p) c c' := by
  refine settles_bind.2 (settles_tryCatch.2 ?_)
  exact h.imp (fun _ _ _ h => h) fun _ _ _ h => h

theorem settles_only {m : Action α} (hm : m.Only Op.Quiet)
    (hs : (terms env σ).Silent p c c') (hcall : Called p c') :
    Answers env σ p m (fun _ c₁ c₂ => (terms env σ).Silent p c₁ c₂ ∧ Rely p c' c₂)
      (fun _ c₁ c₂ => (terms env σ).Silent p c₁ c₂ ∧ Rely p c' c₂) c c' :=
  (Leads.of_quiet (reads_only hm hcall) fun _ h => h).settles hs
    (fun _ _ _ hs hr _ => ⟨hs, hr⟩) fun _ _ _ hs hr _ => ⟨hs, hr⟩

theorem settles_only_bind {m : Action β} {next : β → Action α}
    {P : α → State → State → Prop} {T : Exn → State → State → Prop}
    (hm : m.Only Op.Quiet) (hs : (terms env σ).Silent p c c') (hcall : Called p c')
    (hnext : ∀ b c₁ c₂, (terms env σ).Silent p c₁ c₂ → Rely p c' c₂ →
      Answers env σ p (next b) P T c₁ c₂)
    (hT : ∀ e c₁ c₂, (terms env σ).Silent p c₁ c₂ → Rely p c' c₂ → T e c₁ c₂) :
    Answers env σ p (m >>= next) P T c c' :=
  (reads_only hm hcall).settles_bind hs (fun b c₁ c₂ hs hr _ => hnext b c₁ c₂ hs hr)
    fun e c₁ c₂ hs hr _ => hT e c₁ c₂ hs hr

/-! ## Guards and small readers -/

def Op.Free : Op → Prop
  | .sql (.select _) | .redis (.get _) => True
  | .sql _ | .redis _ => False
  | _ => True

class Harmless (P : Op → Prop) : Prop where
  free : ∀ op : Op, op.Free → P op

instance : Harmless Op.Free := ⟨fun _ h => h⟩

instance : Harmless Op.Quiet where
  free := by
    intro op h
    cases op with
    | sql statement => cases statement <;> trivial
    | redis command => cases command <;> trivial
    | _ => trivial

open Code

variable {P : Op → Prop}

theorem ask_only {op : Op} (h : P op) : (ask op : Code Op Op.Ans Reply Exn op.Ans).Only P :=
  only_ask.2 h

theorem sql_only {statement : Statement} (h : P (.sql statement)) : (sql statement).Only P := by
  refine (ask_only h).bind fun result => ?_
  cases result <;> trivial

theorem select_only [Harmless P] (query : Query) : (select query).Only P :=
  sql_only (Harmless.free _ (by trivial))

theorem accessTokenGuard_only (actor : Option Uuid) : (accessTokenGuard actor).Only P := by
  cases actor <;> trivial

theorem activeAccountGuard_only [Harmless P] (sub : Uuid) : (activeAccountGuard sub).Only P := by
  refine ((select_only _).tryCatch fun _ => only_throw _).bind fun snapshot => ?_
  split
  · trivial
  · split <;> trivial

theorem roleGuards_only [Harmless P] (required : Role) (actor : Option Uuid) :
    (roleGuards required actor).Only P :=
  (accessTokenGuard_only actor).bind fun _ => (activeAccountGuard_only _).bind fun _ =>
    (only_throwIf _ _).bind fun _ => only_pure _

theorem validationPipe_only (payload : Payload) : (validationPipe env payload).Only P :=
  only_throwIf _ _

theorem phoneNumberFrom_only (value : JsString) : (phoneNumberFrom env value).Only P := by
  unfold phoneNumberFrom
  dsimp only
  split
  · trivial
  · split <;> trivial

namespace RedisService

variable {k : RedisKey}

theorem send_only {command : RedisCommand} (h : P (.redis command)) : (send command).Only P :=
  ask_only h

theorem get_only [Harmless P] (k : RedisKey) : (get k).Only P := by
  refine (send_only (Harmless.free _ (by trivial))).bind fun reply => ?_
  cases reply <;> trivial

theorem getStrict_only (h : P (.redis (.get k))) : (getStrict k).Only P := by
  refine (send_only h).bind fun reply => ?_
  cases reply <;> trivial

theorem set_only {value : RedisValue k} {nx : Bool} (h : P (.redis (.set k value nx))) :
    (set k value nx).Only P := by
  refine (send_only h).bind fun reply => ?_
  cases reply <;> trivial

theorem del_only (h : P (.redis (.del k))) : (del k).Only P := by
  refine (send_only h).bind fun reply => ?_
  cases reply <;> trivial

theorem incrementWithTtl_only {phone : JsString} (h : P (.redis (.incrementWithTtl phone))) :
    (incrementWithTtl phone).Only P := by
  refine (send_only h).bind fun reply => ?_
  cases reply <;> trivial

theorem evalScript_only {command : RedisCommand} (h : P (.redis command))
    (unavailable : Exn) : (evalScript command unavailable).Only P := by
  refine (send_only h).bind fun reply => ?_
  cases reply <;> trivial

end RedisService

end Kori
