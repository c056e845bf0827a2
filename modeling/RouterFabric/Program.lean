import RouterFabric.Failure

/-!
# Programs that ask for words

A compound operation, such as a walk along a chain of headers, is a program: it asks for something,
receives words or a failure, and goes on from there. Whoever runs it decides how the requests are
met, so that the same program runs over a function from requests to replies and over the engine.

* `Program.result`, `Program.requests` : the run of a program over a function
* `Program.mapRequests` : the same program, asking in other terms
* `Program.recover` : a program that goes on after a failure
-/

namespace RouterFabric

/-- A computation of an `α` that makes requests of type `ρ`. -/
inductive Program (ρ α : Type) where
  | done (result : Outcome α)
  | ask (request : ρ) (next : Reply → Program ρ α)

namespace Program

variable {ρ σ α β : Type}

/-- A program that fails without asking. -/
def fail (failure : Failure) : Program ρ α :=
  .done (.error failure)

/-- Goes on with the value of a program; a failure ends the whole. -/
def bind : Program ρ α → (α → Program ρ β) → Program ρ β
  | .done (.ok a), f => f a
  | .done (.error failure), _ => .done (.error failure)
  | .ask request next, f => .ask request fun reply => (next reply).bind f

instance : Monad (Program ρ) where
  pure a := .done (.ok a)
  bind := Program.bind

/-- The words received for one request. -/
def request (request : ρ) : Program ρ (List UInt32) :=
  .ask request .done

/-- The value of a computation that asks for nothing. -/
def ofOutcome (result : Outcome α) : Program ρ α :=
  .done result

/-- Goes on with `handler` where the program fails. -/
def recover : Program ρ α → (Failure → Program ρ α) → Program ρ α
  | .done (.ok a), _ => .done (.ok a)
  | .done (.error failure), handler => handler failure
  | .ask request next, handler => .ask request fun reply => (next reply).recover handler

/-- The same program with every request restated. -/
def mapRequests (f : ρ → σ) : Program ρ α → Program σ α
  | .done result => .done result
  | .ask request next => .ask (f request) fun reply => (next reply).mapRequests f

/-- The result of the program when `reader` meets its requests. -/
def result (reader : ρ → Reply) : Program ρ α → Outcome α
  | .done result => result
  | .ask request next => (next (reader request)).result reader

/-- The requests the program makes, in order, when `reader` meets them. -/
def requests (reader : ρ → Reply) : Program ρ α → List ρ
  | .done _ => []
  | .ask request next => request :: (next (reader request)).requests reader

end Program

end RouterFabric
