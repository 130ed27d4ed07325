import TradingBroker.Lib.Coroutine

/-!
# What a coroutine does on every path

A path is a choice of answers to the calls of a coroutine. What holds on every one of
them, of how it ends and of how many calls of some kind it makes, is a fact about the
coroutine alone (`Ends`). One path is taken if every call is answered from a state it
may change (`run`).

The two say different things of a function: the first quantifies over answers no
state would give, and needs no invariant; the second is what a given world answers.
`Ends` composes, over `bind` and over a `try`, so a function is walked once.
-/

namespace TradingBroker.Lib.Coro

variable {C : Type} {R : C → Type} {ε α β σ : Type}

/-- On every path, `Q` holds of the number of calls of the kind `kind`, counted from `n`
on, and of how the function ends. -/
def Ends (kind : C → Bool) (Q : Nat → Except ε α → Prop) : Nat → Coro C R ε α → Prop
  | n, .pure a => Q n (.ok a)
  | n, .raise e => Q n (.error e)
  | n, .call c k => ∀ r, Ends kind Q (n + (kind c).toNat) (k r)

/-- The function never raises. -/
def Returns (p : Coro C R ε α) : Prop := Ends (fun _ => false) (fun _ r => r.toBool = true) 0 p

/-- Every path makes exactly one call of the kind. -/
def MakesOne (kind : C → Bool) (p : Coro C R ε α) : Prop := Ends kind (fun n _ => n = 1) 0 p

variable {kind : C → Bool} {Q : Nat → Except ε β → Prop} {Q' : Nat → Except ε α → Prop}
  {p : Coro C R ε α}

theorem Ends.mono {Q : Nat → Except ε α → Prop} (hQ : ∀ n r, Q' n r → Q n r) :
    ∀ {n : Nat}, Ends kind Q' n p → Ends kind Q n p := by
  induction p with
  | pure a => exact fun h => hQ _ _ h
  | raise e => exact fun h => hQ _ _ h
  | call c k ih => exact fun h r => ih r (h r)

/-- How a function ends has nothing to do with what is counted. -/
theorem Ends.returns : ∀ {n : Nat},
    Ends kind (fun _ r => r.toBool = true) n p → Returns p := by
  have hany : ∀ {n m : Nat}, Ends kind (fun _ (r : Except ε α) => r.toBool = true) n p →
      Ends (fun _ => false) (fun _ r => r.toBool = true) m p := by
    induction p with
    | pure a => exact fun h => h
    | raise e => exact fun h => h
    | call c k ih => exact fun h r => ih r (h r)
  intro n h
  exact hany h

theorem Ends.bind {f : α → Coro C R ε β} (hf : ∀ n a, Q' n (.ok a) → Ends kind Q n (f a))
    (he : ∀ n e, Q' n (.error e) → Q n (.error e)) :
    ∀ {n : Nat}, Ends kind Q' n p → Ends kind Q n (p >>= f) := by
  induction p with
  | pure a => exact fun h => hf _ a h
  | raise e => exact fun h => he _ e h
  | call c k ih => exact fun h r => ih r (h r)

theorem Ends.attempt {Q : Nat → Except ε (Except ε α) → Prop}
    (hQ : ∀ n r, Q' n r → Q n (.ok r)) :
    ∀ {n : Nat}, Ends kind Q' n p → Ends kind Q n p.attempt := by
  induction p with
  | pure a => exact fun h => hQ _ _ h
  | raise e => exact fun h => hQ _ _ h
  | call c k ih => exact fun h r => ih r (h r)

/-! ## One path -/

/-- The calls are answered from `s`, one after the other. -/
def run (exec : (c : C) → σ → R c × σ) : Coro C R ε α → σ → Except ε α × σ
  | .pure a, s => (.ok a, s)
  | .raise e, s => (.error e, s)
  | .call c k, s => (k (exec c s).1).run exec (exec c s).2

theorem run_bind (exec : (c : C) → σ → R c × σ) (f : α → Coro C R ε β) : ∀ s : σ,
    (p >>= f).run exec s =
      match p.run exec s with
      | (.ok a, s') => (f a).run exec s'
      | (.error e, s') => (.error e, s') := by
  induction p with
  | pure a => exact fun _ => rfl
  | raise e => exact fun _ => rfl
  | call c k ih => exact fun s => ih (exec c s).1 (exec c s).2

theorem run_attempt (exec : (c : C) → σ → R c × σ) : ∀ s : σ,
    p.attempt.run exec s = (.ok (p.run exec s).1, (p.run exec s).2) := by
  induction p with
  | pure a => exact fun _ => rfl
  | raise e => exact fun _ => rfl
  | call c k ih => exact fun s => ih (exec c s).1 (exec c s).2

/-- How the function ends and the calls it makes, if every call has its one answer. -/
def trace (answer : (c : C) → R c) (p : Coro C R ε α) : Except ε α × List C :=
  p.run (fun c made => (answer c, made ++ [c])) []

end TradingBroker.Lib.Coro
