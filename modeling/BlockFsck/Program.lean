/-!
# Programs that ask questions

A program is a value: it is done with a result, or it asks a question and goes on with the answer.
Which answers it gets is decided by whoever runs it, so that one program can be run against a
store, over a network, or interleaved with others.
-/

namespace BlockFsck

/-- Questions, and for each the type of its answers. -/
structure Interface where
  Question : Type
  Answer : Question → Type

inductive Program (I : Interface) (α : Type)
  | done (result : α)
  | ask (question : I.Question) (next : I.Answer question → Program I α)

namespace Program

variable {I J : Interface} {α β γ : Type}

def bind : Program I α → (α → Program I β) → Program I β
  | .done a, f => f a
  | .ask q next, f => .ask q fun answer => (next answer).bind f

/-- Asks one question and gives back its answer. -/
def question (q : I.Question) : Program I (I.Answer q) := .ask q .done

instance : Monad (Program I) where
  pure := .done
  bind := bind

@[simp] theorem bind_done (a : α) (f : α → Program I β) : (Program.done a).bind f = f a := rfl

@[simp] theorem bind_ask (q : I.Question) (next : I.Answer q → Program I α)
    (f : α → Program I β) :
    (Program.ask q next).bind f = .ask q fun answer => (next answer).bind f := rfl

theorem bind_pure_done (p : Program I α) : p.bind .done = p := by
  induction p with
  | done a => rfl
  | ask q next ih => simp [ih]

theorem bind_assoc (p : Program I α) (f : α → Program I β) (g : β → Program I γ) :
    (p.bind f).bind g = p.bind fun a => (f a).bind g := by
  induction p with
  | done a => rfl
  | ask q next ih => simp [ih]

instance : LawfulMonad (Program I) :=
  LawfulMonad.mk' (Program I) bind_pure_done (fun _ _ => rfl) bind_assoc

/-- Runs a program with the given way of answering. -/
def run {m : Type → Type} [Monad m] (answer : (q : I.Question) → m (I.Answer q)) :
    Program I α → m α
  | .done a => pure a
  | .ask q next => do (next (← answer q)).run answer

/-- Running a sequence is running its parts one after the other. -/
theorem run_bind {m : Type → Type} [Monad m] [LawfulMonad m]
    (answer : (q : I.Question) → m (I.Answer q)) (p : Program I α) (f : α → Program I β) :
    (p.bind f).run answer = p.run answer >>= fun a => (f a).run answer := by
  induction p with
  | done a => simp [run]
  | ask q next ih => simp [run, ih]

end Program

end BlockFsck
