import Mathlib.Logic.Basic

/-!
# Code as trees of interactions

A piece of code is the tree of everything it may do: the next operation on the
shared state together with the continuation for every possible answer.  Local
computation between two operations is part of the continuation and takes no
step, so concurrent calls interleave exactly at their operations.

`do` blocks, `throw` and `tryCatch` have the meaning they have in an
asynchronous language with exceptions: a bind waits for its first part.
-/

namespace Kori.Foundation

/--
Code over operations `Op`, where `Ans op` is the type of the answers to `op`,
`Ev` the type of what the code reports to its caller and `Exn` the type of its
exceptions.
-/
inductive Code (Op : Type) (Ans : Op → Type) (Ev Exn α : Type) where
  | ret (a : α)
  | raise (e : Exn)
  | report (event : Ev) (rest : Code Op Ans Ev Exn α)
  | request (op : Op) (next : Ans op → Code Op Ans Ev Exn α)

namespace Code

variable {Op : Type} {Ans : Op → Type} {Ev Exn : Type} {α β : Type}

def reports : Code Op Ans Ev Exn α → List Ev
  | ret _ => []
  | raise _ => []
  | report event rest => event :: rest.reports
  | request _ _ => []

def resume : Code Op Ans Ev Exn α → Code Op Ans Ev Exn α
  | ret a => ret a
  | raise e => raise e
  | report _ rest => rest.resume
  | request op next => request op next

def pending : Code Op Ans Ev Exn α → Option Op
  | ret _ => none
  | raise _ => none
  | report _ rest => rest.pending
  | request op _ => some op

protected def bind : Code Op Ans Ev Exn α → (α → Code Op Ans Ev Exn β) →
    Code Op Ans Ev Exn β
  | ret a, next => next a
  | raise e, _ => raise e
  | report event rest, next => report event (rest.bind next)
  | request op answer, next => request op (fun a => (answer a).bind next)

protected def tryCatch : Code Op Ans Ev Exn α →
    (Exn → Code Op Ans Ev Exn α) → Code Op Ans Ev Exn α
  | ret a, _ => ret a
  | raise e, handler => handler e
  | report event rest, handler => report event (rest.tryCatch handler)
  | request op answer, handler =>
      request op (fun a => (answer a).tryCatch handler)

instance : Monad (Code Op Ans Ev Exn) where
  pure := ret
  bind := Code.bind

instance : MonadExcept Exn (Code Op Ans Ev Exn) where
  throw := raise
  tryCatch := Code.tryCatch

def ask (op : Op) : Code Op Ans Ev Exn (Ans op) := request op ret

def tell (event : Ev) : Code Op Ans Ev Exn Unit := report event (ret ())

def throwIf (condition : Prop) [Decidable condition] (e : Exn) :
    Code Op Ans Ev Exn Unit :=
  if condition then raise e else ret ()

/-- Run `body` on every element, one after another. -/
def forEach (body : α → Code Op Ans Ev Exn Unit) :
    List α → Code Op Ans Ev Exn Unit
  | [] => ret ()
  | a :: rest => body a >>= fun _ => forEach body rest

section Both

variable (schedule : Op) (first : Ans schedule → Bool)

def bothFrom (op : Op) (left : Ans op → Code Op Ans Ev Exn α)
    (go : Ans op → Code Op Ans Ev Exn β → Code Op Ans Ev Exn (α × β)) :
    Code Op Ans Ev Exn β → Code Op Ans Ev Exn (α × β)
  | ret b => request op left >>= fun a => ret (a, b)
  | raise e => raise e
  | report event rest => report event (bothFrom op left go rest)
  | request op' right =>
      request schedule fun turn =>
        if first turn then request op fun a => go a (request op' right)
        else request op' fun b => bothFrom op left go (right b)

/--
Run two pieces of code at once and wait for both.  Whenever both have an
operation to make, the answer to `schedule` says whose turn it is.  The first
exception ends both.
-/
def both : Code Op Ans Ev Exn α → Code Op Ans Ev Exn β →
    Code Op Ans Ev Exn (α × β)
  | ret a, right => right >>= fun b => ret (a, b)
  | raise e, _ => raise e
  | report event rest, right => report event (both rest right)
  | request op left, right =>
      bothFrom schedule first op left (fun a => both (left a)) right

end Both

/-- The code does not report and makes only operations in `P`. -/
def Only (P : Op → Prop) : Code Op Ans Ev Exn α → Prop
  | ret _ => True
  | raise _ => True
  | report _ _ => False
  | request op next => P op ∧ ∀ a, (next a).Only P

section Only

variable {P : Op → Prop}

@[simp] theorem only_pure (a : α) : (pure a : Code Op Ans Ev Exn α).Only P := trivial

@[simp] theorem only_throw (e : Exn) : (throw e : Code Op Ans Ev Exn α).Only P := trivial

@[simp] theorem only_throwIf (condition : Prop) [Decidable condition] (e : Exn) :
    (throwIf condition e : Code Op Ans Ev Exn Unit).Only P := by
  unfold throwIf
  split <;> trivial

@[simp] theorem only_ask {op : Op} :
    (ask op : Code Op Ans Ev Exn (Ans op)).Only P ↔ P op :=
  ⟨fun h => h.1, fun h => ⟨h, fun _ => trivial⟩⟩

theorem Only.mono {P' : Op → Prop} {m : Code Op Ans Ev Exn α} (h : m.Only P)
    (hP : ∀ op, P op → P' op) : m.Only P' := by
  induction m with
  | ret a => trivial
  | raise e => trivial
  | report event rest ih => exact h.elim
  | request op next ih => exact ⟨hP op h.1, fun a => ih a (h.2 a)⟩

theorem Only.bind {m : Code Op Ans Ev Exn α} {next : α → Code Op Ans Ev Exn β}
    (h : m.Only P) (hnext : ∀ a, (next a).Only P) : (m >>= next).Only P := by
  induction m with
  | ret a => exact hnext a
  | raise e => trivial
  | report event rest ih => exact h.elim
  | request op answer ih => exact ⟨h.1, fun a => ih a (h.2 a)⟩

theorem Only.tryCatch {m : Code Op Ans Ev Exn α} {handler : Exn → Code Op Ans Ev Exn α}
    (h : m.Only P) (hhandler : ∀ e, (handler e).Only P) :
    (tryCatch m handler : Code Op Ans Ev Exn α).Only P := by
  induction m with
  | ret a => trivial
  | raise e => exact hhandler e
  | report event rest ih => exact h.elim
  | request op answer ih => exact ⟨h.1, fun a => ih a (h.2 a)⟩

theorem Only.forEach {body : α → Code Op Ans Ev Exn Unit} {as : List α}
    (h : ∀ a ∈ as, (body a).Only P) : (forEach body as).Only P := by
  induction as with
  | nil => trivial
  | cons a as ih =>
      exact (h a List.mem_cons_self).bind fun _ =>
        ih fun a' ha' => h a' (List.mem_cons_of_mem _ ha')

theorem Only.both {schedule : Op} {first : Ans schedule → Bool}
    {m : Code Op Ans Ev Exn α} {n : Code Op Ans Ev Exn β} (hschedule : P schedule)
    (hm : m.Only P) (hn : n.Only P) : (Code.both schedule first m n).Only P := by
  induction m generalizing n with
  | ret a => exact hn.bind fun _ => trivial
  | raise e => trivial
  | report event rest ih => exact hm.elim
  | request op left ihm =>
      -- the left operation stays pending while the right code moves on
      change (bothFrom schedule first op left _ n).Only P
      induction n with
      | ret b => exact ⟨hm.1, fun a => (hm.2 a).bind fun _ => trivial⟩
      | raise e => trivial
      | report event rest ih => exact hn.elim
      | request op' right ihn =>
          refine ⟨hschedule, fun turn => ?_⟩
          dsimp only
          split
          · exact ⟨hm.1, fun a => ihm a (hm.2 a) hn⟩
          · exact ⟨hn.1, fun b => ihn b (hn.2 b)⟩

end Only

@[simp] theorem reports_ret (a : α) :
    (ret a : Code Op Ans Ev Exn α).reports = [] := rfl

@[simp] theorem reports_report (event : Ev) (rest : Code Op Ans Ev Exn α) :
    (report event rest).reports = event :: rest.reports := rfl

@[simp] theorem reports_request (op : Op) (next : Ans op → Code Op Ans Ev Exn α) :
    (request op next).reports = [] := rfl

@[simp] theorem resume_report (event : Ev) (rest : Code Op Ans Ev Exn α) :
    (report event rest).resume = rest.resume := rfl

end Code

end Kori.Foundation
