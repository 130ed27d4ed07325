/-!
# Runs as folds

A machine that handles one event after the other is a fold of its step. `Along`
says that every event of a run meets a condition in the state it finds, and one rule
carries an invariant of such steps over the whole run.

The conditions are on the state an event finds, so a condition on schedules and
outcomes is one of these, and a run that meets it is a list of events and
nothing more.
-/

namespace TradingBroker.Lib

variable {σ ε : Type}

/-- Every event of the run from `s` meets `cond` in the state it finds. -/
def Along (step : σ → ε → σ) (cond : σ → ε → Prop) : σ → List ε → Prop
  | _, [] => True
  | s, e :: es => cond s e ∧ Along step cond (step s e) es

instance Along.decidable {step : σ → ε → σ} {cond : σ → ε → Prop}
    [∀ s e, Decidable (cond s e)] : (s : σ) → (es : List ε) → Decidable (Along step cond s es)
  | _, [] => inferInstanceAs (Decidable True)
  | s, e :: es =>
      have : Decidable (Along step cond (step s e) es) := Along.decidable (step s e) es
      inferInstanceAs (Decidable (cond s e ∧ Along step cond (step s e) es))

namespace Along

variable {step : σ → ε → σ} {cond : σ → ε → Prop}

/-- An invariant of the steps that meet a condition holds after a run of them. -/
theorem invariant (inv : σ → Prop) (hstep : ∀ s e, inv s → cond s e → inv (step s e))
    {s : σ} {es : List ε} (h : Along step cond s es) (hs : inv s) : inv (es.foldl step s) := by
  induction es generalizing s with
  | nil => exact hs
  | cons e es ih => exact ih h.2 (hstep s e hs h.1)

end Along

end TradingBroker.Lib
