import TradingBroker.Lib.Coroutine

/-!
# Requests in the order they came

A server runs any number of requests, each a coroutine that ends in its answer,
and between two calls of one it may go on with any other. The requests are kept
in the order they came, those that are answered too, so that what was answered
can be counted.

It is the machine to use where the order in which requests were answered matters
and which party served them does not: a request is its place in the list.
-/

namespace TradingBroker.Lib

/-- The shared state, and each request with what it still has to do. -/
structure Server (ρ σ C : Type) (R : C → Type) (ε α : Type) where
  shared : σ
  requests : List (ρ × Coro C R ε α)

/-- A request comes, or the next call of the `i`-th is executed. -/
inductive Server.Event (ρ χ : Type) where
  | request (r : ρ)
  | call (i : Nat) (x : χ)

namespace Server

variable {ρ σ χ C : Type} {R : C → Type} {ε α : Type}

def step (serve : ρ → Coro C R ε α) (exec : (c : C) → χ → σ → R c × σ)
    (s : Server ρ σ C R ε α) : Event ρ χ → Server ρ σ C R ε α
  | .request r => { s with requests := s.requests ++ [(r, serve r)] }
  | .call i x =>
      match s.requests[i]? with
      | some (r, .call c k) =>
          ⟨(exec c x s.shared).2, s.requests.set i (r, k (exec c x s.shared).1)⟩
      | _ => s

/-- Every request is answered. -/
def Answered (s : Server ρ σ C R ε α) : Prop := ∀ r ∈ s.requests, r.2.Done

instance (s : Server ρ σ C R ε α) : Decidable s.Answered :=
  inferInstanceAs (Decidable (∀ r ∈ s.requests, r.2.Done))

/-- A call goes to one request, and the others are as they were. -/
theorem step_call (serve : ρ → Coro C R ε α) (exec : (c : C) → χ → σ → R c × σ)
    (s : Server ρ σ C R ε α) (i : Nat) (x : χ) :
    s.step serve exec (.call i x) = s ∨
      ∃ pre post r c k, s.requests = pre ++ (r, .call c k) :: post ∧
        s.requests[i]? = some (r, .call c k) ∧
        s.step serve exec (.call i x) =
          ⟨(exec c x s.shared).2, pre ++ (r, k (exec c x s.shared).1) :: post⟩ := by
  simp only [step]
  split
  · next r c k h =>
      right
      obtain ⟨hi, hget⟩ := List.getElem?_eq_some_iff.mp h
      have hexists : ∃ pre post, s.requests = pre ++ s.requests[i] :: post ∧ pre.length = i ∧
          s.requests.set i (r, k (exec c x s.shared).1) =
            pre ++ (r, k (exec c x s.shared).1) :: post := List.exists_of_set hi
      obtain ⟨pre, post, hsplit, -, hset⟩ := hexists
      rw [hget] at hsplit
      exact ⟨pre, post, r, c, k, hsplit, h, by rw [hset]⟩
  · exact .inl rfl

end Server

end TradingBroker.Lib
