/-!
# Tasks

A task is a computation that now and then asks its surroundings for something and waits for the
answer: a line of input, the bytes of a module, a look at the clock.  What may be asked is the type
`ω` of *requests*; `ans o` is the type of answers to the request `o`.

A task does nothing by itself.  `Task.interpret` runs it, given a way to answer each request in some
monad: a script of answers, a simulated server, or the real world.  Between two requests a task is
atomic, so the requests are exactly the points where other activities may come in between.

A `SharedTask` works on a state that others use, too.  The state goes out with every request and
comes back with the answer; in between, whoever answers may have changed it.
-/

namespace GuestShell

/-- A computation that ends with a value or asks a request and goes on with its answer. -/
inductive Task (ω : Type) (ans : ω → Type) (α : Type) : Type where
  | done (a : α)
  | ask (o : ω) (next : ans o → Task ω ans α)

namespace Task

variable {ω ω' : Type} {ans : ω → Type} {ans' : ω' → Type} {α β σ : Type}

/-- First one task, then another that depends on its value. -/
def bind : Task ω ans α → (α → Task ω ans β) → Task ω ans β
  | done a, f => f a
  | ask o next, f => ask o fun r => (next r).bind f

instance : Monad (Task ω ans) where
  pure := done
  bind := bind

/-- The task that asks one request. -/
def request (o : ω) : Task ω ans (ans o) := ask o done

@[simp] theorem bind_done (a : α) (f : α → Task ω ans β) : (done a).bind f = f a := rfl

@[simp] theorem bind_ask (o : ω) (next : ans o → Task ω ans α) (f : α → Task ω ans β) :
    (ask o next).bind f = ask o fun r => (next r).bind f := rfl

theorem bind_pure (t : Task ω ans α) : t.bind done = t := by
  induction t with
  | done a => rfl
  | ask o next ih => simp [ih]

theorem bind_assoc {γ : Type} (t : Task ω ans α) (f : α → Task ω ans β) (g : β → Task ω ans γ) :
    (t.bind f).bind g = t.bind fun a => (f a).bind g := by
  induction t with
  | done a => rfl
  | ask o next ih => simp [ih]

instance : LawfulMonad (Task ω ans) :=
  LawfulMonad.mk' _ bind_pure (fun _ _ => rfl) bind_assoc

/-! ## Running -/

/-- Runs a task by answering each request in a monad. -/
def interpret {m : Type → Type} [Monad m] (answer : (o : ω) → m (ans o)) : Task ω ans α → m α
  | done a => pure a
  | ask o next => answer o >>= fun r => interpret answer (next r)

/-- Runs a task inside a task with other requests, carrying a state from request to request. -/
def within (answer : (o : ω) → σ → Task ω' ans' (ans o × σ)) :
    Task ω ans α → σ → Task ω' ans' (α × σ)
  | done a, s => done (a, s)
  | ask o next, s => (answer o s).bind fun r => within answer (next r.1) r.2

end Task

/-! ## Tasks on a shared state -/

/-- A task that hands its state out with each request and takes it back with the answer. -/
abbrev SharedTask (σ ω : Type) (ans : ω → Type) (α : Type) : Type :=
  StateT σ (Task (ω × σ) fun r => ans r.1 × σ) α

namespace SharedTask

variable {σ ω : Type} {ans : ω → Type} {α : Type}

/-- Asks one request. -/
def request (o : ω) : SharedTask σ ω ans (ans o) := fun s => Task.request (o, s)

/-- Runs a shared task inside a monad that has its state: `view` and `put` are how the monad reads
and changes it. -/
def interpret {m : Type → Type} [Monad m] (view : m σ) (put : σ → m Unit)
    (answer : (o : ω) → m (ans o)) (t : SharedTask σ ω ans α) : m α := do
  let (a, s) ← (t (← view)).interpret fun r => do
    put r.2
    let a ← answer r.1
    return (a, ← view)
  put s
  return a

end SharedTask

end GuestShell
