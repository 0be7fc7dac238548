/-
RealTimeTrading.Concurrency.Program — sequential programs over a
signature of atomic operations, and the protocols their calls follow.

A program is a tree of calls: it returns a value, or calls one atomic
operation and goes on with whatever the operation returns. Nothing here
says what an operation does to shared state; that is the business of
`Concurrency.Interleaving`. What can be said about a program alone is
which calls it may issue, given what the earlier ones returned. A
`Protocol` says so with a ghost value carried along the calls, and
`Prog.Conforms` is the check, one rule per constructor, so that a
program written in `do` notation is checked by symbolic execution.
-/
import Mathlib.Data.List.Forall2

namespace RealTimeTrading.Concurrency

variable {Op : Type} {Res : Op → Type} {α β G : Type}

/-! ## Programs -/

/-- A program over the operations `Op`, where calling `o` yields a `Res o`. -/
inductive Prog (Op : Type) (Res : Op → Type) (α : Type) : Type where
  | ret (a : α)
  | call (o : Op) (k : Res o → Prog Op Res α)

namespace Prog

/-- Sequencing grafts the second program onto every leaf of the first. -/
protected def bind : Prog Op Res α → (α → Prog Op Res β) → Prog Op Res β
  | .ret a, f => f a
  | .call o k, f => .call o (fun r => (k r).bind f)

instance : Monad (Prog Op Res) where
  pure := .ret
  bind := Prog.bind

/-- The program that issues one call and returns its result. -/
def op (o : Op) : Prog Op Res (Res o) := .call o .ret

@[simp] theorem call_bind (o : Op) (k : Res o → Prog Op Res α) (f : α → Prog Op Res β) :
    ((.call o k : Prog Op Res α) >>= f) = .call o (fun r => k r >>= f) := rfl

/-- The program issues only calls of this kind, whatever they return. -/
def Only (kind : Op → Prop) : Prog Op Res α → Prop
  | .ret _ => True
  | .call o k => kind o ∧ ∀ r, Only kind (k r)

theorem Only.bind {kind : Op → Prop} {p : Prog Op Res α} {f : α → Prog Op Res β}
    (hp : p.Only kind) (hf : ∀ a, (f a).Only kind) : (p >>= f).Only kind := by
  induction p with
  | ret a => exact hf a
  | call o k ih => exact ⟨hp.1, fun r => ih r (hp.2 r)⟩

theorem Only.op {kind : Op → Prop} {o : Op} (h : kind o) :
    (Prog.op o : Prog Op Res (Res o)).Only kind := ⟨h, fun _ => trivial⟩

end Prog

/-! ## Protocols -/

/-- What a caller promises about each call it issues (`allowed`), what it
may rely on about the result (`returns`), and how its ghost value moves. -/
structure Protocol (Op : Type) (Res : Op → Type) (G : Type) where
  allowed : G → Op → Prop
  returns : G → (o : Op) → Res o → Prop
  next : G → (o : Op) → Res o → G

namespace Prog

/-- Every call `p` can issue from ghost value `g` is allowed, as long as the
results are relied on as the protocol says, and `post` holds at its leaves. -/
def Conforms (π : Protocol Op Res G) (post : G → α → Prop) : G → Prog Op Res α → Prop
  | g, .ret a => post g a
  | g, .call o k => π.allowed g o ∧ ∀ r, π.returns g o r → Conforms π post (π.next g o r) (k r)

variable {π : Protocol Op Res G} {post post' : G → α → Prop} {g : G}

@[simp] theorem conforms_call (o : Op) (k : Res o → Prog Op Res α) :
    Conforms π post g (.call o k) ↔
      π.allowed g o ∧ ∀ r, π.returns g o r → Conforms π post (π.next g o r) (k r) := Iff.rfl

/-- The rule of consequence at the leaves. -/
theorem Conforms.mono {p : Prog Op Res α} (h : Conforms π post g p)
    (hpost : ∀ g' a, post g' a → post' g' a) : Conforms π post' g p := by
  induction p generalizing g with
  | ret a => exact hpost g a h
  | call o k ih => exact ⟨h.1, fun r hr => ih r (h.2 r hr)⟩

/-- The sequencing rule: the second program is checked from the ghost value
the first one ends in. -/
theorem conforms_bind (p : Prog Op Res α) (f : α → Prog Op Res β) {post : G → β → Prop} :
    Conforms π post g (p >>= f) ↔
      Conforms π (fun g' a => Conforms π post g' (f a)) g p := by
  induction p generalizing g with
  | ret a => rfl
  | call o k ih =>
    simp only [call_bind, conforms_call]
    exact and_congr_right fun _ => forall_congr' fun r => imp_congr_right fun _ => ih r

/-- Sequencing with an intermediate assertion. -/
theorem Conforms.bind {p : Prog Op Res α} {f : α → Prog Op Res β} {mid : G → α → Prop}
    {post : G → β → Prop} (hp : Conforms π mid g p)
    (hf : ∀ g' a, mid g' a → Conforms π post g' (f a)) : Conforms π post g (p >>= f) :=
  (conforms_bind p f).mpr (hp.mono hf)

end Prog

end RealTimeTrading.Concurrency
