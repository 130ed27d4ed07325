/-!
# Coroutines as trees of awaited calls

An `async` function runs on its own between two `await`s and hands the event
loop a call at each of them, so what another task can observe of it is exactly
the tree of calls it may make: which call comes first, and for every answer the
rest of the function. `Coro` is that tree. `C` is the type of calls, `R c` what
an answer to `c` is, `ε` the exceptions the function may end with.

Nothing here executes a call. That is the machine's business (`Machine.lean`),
and it is what lets one definition of a function be run under every
interleaving and every pattern of failures.
-/

namespace TradingBroker.Lib

/-- A function that returns, raises, or awaits a call and goes on with its
answer. -/
inductive Coro (C : Type) (R : C → Type) (ε α : Type) where
  | pure (a : α)
  | raise (e : ε)
  | call (c : C) (k : R c → Coro C R ε α)

namespace Coro

variable {C : Type} {R : C → Type} {ε α β : Type}

def bind : Coro C R ε α → (α → Coro C R ε β) → Coro C R ε β
  | .pure a, f => f a
  | .raise e, _ => .raise e
  | .call c k, f => .call c fun r => (k r).bind f

instance : Monad (Coro C R ε) where
  pure := .pure
  bind := bind

/-- `try` with both outcomes handed on as a value, so that the handler is a
`match` of the caller. -/
def attempt : Coro C R ε α → Coro C R ε (Except ε α)
  | .pure a => .pure (.ok a)
  | .raise e => .pure (.error e)
  | .call c k => .call c fun r => (k r).attempt

/-- A value or an exception, as an answer that may be either. -/
def ofExcept : Except ε α → Coro C R ε α
  | .ok a => .pure a
  | .error e => .raise e

/-- No call is left to make: the function has returned or raised. -/
def Done : Coro C R ε α → Prop
  | .call _ _ => False
  | _ => True

instance (p : Coro C R ε α) : Decidable p.Done :=
  match p with
  | .pure _ => isTrue trivial
  | .raise _ => isTrue trivial
  | .call _ _ => isFalse id

/-- The call the function awaits. -/
def next? : Coro C R ε α → Option C
  | .call c _ => some c
  | _ => none

end Coro

end TradingBroker.Lib
