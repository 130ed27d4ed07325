import Mathlib.Logic.Function.Basic
import Mathlib.Logic.Relation
import TradingBroker.Lib.Coroutine

/-!
# A machine of coroutines over one shared state

Parties run coroutines against a state they share: a party's next call is
executed, the answer is handed to the rest of its coroutine, and between any
two calls any other party may move. Nothing else is assumed about scheduling,
so a theorem about every run is a theorem about every interleaving at the
granularity of single calls.

A move is labelled with what it does to the shared state alone (`Label`): which
call of which party was executed and how, which party was started, what the
environment did, which party was killed. The labels are what conditions on
runs are stated in, and `Machine.act` is the shared state's half of a move.

A party is named by an index and may be started again and again, with whatever
coroutine the machine gives it then; a pool is the shared state and what each
party has left to do. Executable runs are lists of moves (`replay`), and one
that comes through is a run.
-/

namespace TradingBroker.Lib

/-- What a call does (`exec`, which may refuse a call that has to wait), how a
party that is not running is given its next coroutine (`start`), what happens
around the parties (`env`), and what killing a running party leaves behind
(`crash`). A party carries a context of type `κ`, chosen when it is started. -/
structure Machine (ι κ σ χ η C : Type) (R : C → Type) (ε : Type) where
  exec : ι → κ → (c : C) → χ → σ → Option (R c × σ)
  start : ι → η → σ → Option (κ × Coro C R ε Unit × σ)
  env : η → σ → Option σ
  crash : ι → κ → σ → Option σ

inductive Label (ι κ χ η C : Type) where
  | call (i : ι) (k : κ) (c : C) (x : χ)
  | start (i : ι) (e : η)
  | env (e : η)
  | crash (i : ι) (k : κ)

/-- How a call to the outside goes: it succeeds, it fails without effect, or it
takes effect and is reported as failed. -/
inductive Outcome where
  | ok
  | failed
  | failedApplied
  deriving DecidableEq

/-- The shared state and, for each party, its context and what it still has to
do. -/
structure Pool (ι κ σ C : Type) (R : C → Type) (ε : Type) where
  shared : σ
  threads : ι → κ × Coro C R ε Unit

namespace Machine

variable {ι κ σ χ η C : Type} {R : C → Type} {ε : Type}

/-- The shared half of a labelled move. -/
def act (M : Machine ι κ σ χ η C R ε) : Label ι κ χ η C → σ → Option σ
  | .call i k c x, s => (M.exec i k c x s).map Prod.snd
  | .start i e, s => (M.start i e s).map fun r => r.2.2
  | .env e, s => M.env e s
  | .crash i k, s => M.crash i k s

/-- How a scheduler picks the next move: the label is determined by the pool. -/
inductive Move (ι χ η : Type) where
  | call (i : ι) (x : χ)
  | start (i : ι) (e : η)
  | env (e : η)
  | crash (i : ι)

variable [DecidableEq ι]

/-- One move of the pool, with its label. -/
def move (M : Machine ι κ σ χ η C R ε) (p : Pool ι κ σ C R ε) :
    Move ι χ η → Option (Label ι κ χ η C × Pool ι κ σ C R ε)
  | .call i x =>
      match (p.threads i).2 with
      | .call c k =>
          (M.exec i (p.threads i).1 c x p.shared).map fun r =>
            (.call i (p.threads i).1 c x,
              ⟨r.2, Function.update p.threads i ((p.threads i).1, k r.1)⟩)
      | _ => none
  | .start i e =>
      if (p.threads i).2.Done then
        (M.start i e p.shared).map fun r =>
          (.start i e, ⟨r.2.2, Function.update p.threads i (r.1, r.2.1)⟩)
      else none
  | .env e => (M.env e p.shared).map fun s => (.env e, ⟨s, p.threads⟩)
  | .crash i =>
      if (p.threads i).2.Done then none
      else (M.crash i (p.threads i).1 p.shared).map fun s =>
        (.crash i (p.threads i).1,
          ⟨s, Function.update p.threads i ((p.threads i).1, .pure ())⟩)

/-- `p` moves to `q` under label `l`. -/
def Step (M : Machine ι κ σ χ η C R ε) (p : Pool ι κ σ C R ε)
    (l : Label ι κ χ η C) (q : Pool ι κ σ C R ε) : Prop :=
  ∃ m, M.move p m = some (l, q)

/-- One move that meets `cond`, which sees the whole pool before it. -/
def StepIf (M : Machine ι κ σ χ η C R ε)
    (cond : Pool ι κ σ C R ε → Label ι κ χ η C → Prop) (p q : Pool ι κ σ C R ε) : Prop :=
  ∃ l, M.Step p l q ∧ cond p l

/-- The runs whose every move meets `cond`, which sees the shared state before
the move and its label. -/
inductive Reaches (M : Machine ι κ σ χ η C R ε)
    (cond : σ → Label ι κ χ η C → Prop) :
    Pool ι κ σ C R ε → Pool ι κ σ C R ε → Prop where
  | refl (p) : Reaches M cond p p
  | tail {p q r l} : Reaches M cond p q → M.Step q l r → cond q.shared l →
      Reaches M cond p r

/-- Every run: no condition on the moves. -/
abbrev Runs (M : Machine ι κ σ χ η C R ε) :
    Pool ι κ σ C R ε → Pool ι κ σ C R ε → Prop :=
  M.Reaches fun _ _ => True

/-- The moves a run makes, executed in order. -/
def replay (M : Machine ι κ σ χ η C R ε) :
    List (Move ι χ η) → Pool ι κ σ C R ε → Option (Pool ι κ σ C R ε)
  | [], p => some p
  | m :: ms, p => (M.move p m).bind fun r => M.replay ms r.2

/-- The same, as long as every move meets `ok`. -/
def replayIf (M : Machine ι κ σ χ η C R ε) (ok : σ → Label ι κ χ η C → Bool) :
    List (Move ι χ η) → Pool ι κ σ C R ε → Option (Pool ι κ σ C R ε)
  | [], p => some p
  | m :: ms, p =>
      (M.move p m).bind fun r => if ok p.shared r.1 then M.replayIf ok ms r.2 else none

/-- The same, where `ok` sees the whole pool. -/
def replayWhile (M : Machine ι κ σ χ η C R ε)
    (ok : Pool ι κ σ C R ε → Label ι κ χ η C → Bool) :
    List (Move ι χ η) → Pool ι κ σ C R ε → Option (Pool ι κ σ C R ε)
  | [], p => some p
  | m :: ms, p => (M.move p m).bind fun r => if ok p r.1 then M.replayWhile ok ms r.2 else none

variable {M : Machine ι κ σ χ η C R ε}

theorem Reaches.trans {cond : σ → Label ι κ χ η C → Prop} {p q r : Pool ι κ σ C R ε}
    (hpq : M.Reaches cond p q) (hqr : M.Reaches cond q r) : M.Reaches cond p r := by
  induction hqr with
  | refl => exact hpq
  | tail _ hs hc ih => exact .tail ih hs hc

theorem Reaches.mono {cond cond' : σ → Label ι κ χ η C → Prop}
    (himp : ∀ s l, cond s l → cond' s l) {p q : Pool ι κ σ C R ε}
    (h : M.Reaches cond p q) : M.Reaches cond' p q := by
  induction h with
  | refl => exact .refl _
  | tail _ hs hc ih => exact .tail ih hs (himp _ _ hc)

/-- Where an invariant holds a condition may say more. -/
theorem stepIf_of_invariant {cond cond' : Pool ι κ σ C R ε → Label ι κ χ η C → Prop}
    {inv : Pool ι κ σ C R ε → Prop}
    (hstep : ∀ p l q, inv p → cond p l → M.Step p l q → cond' p l ∧ inv q)
    {p q : Pool ι κ σ C R ε} (h : Relation.ReflTransGen (M.StepIf cond) p q) (hp : inv p) :
    Relation.ReflTransGen (M.StepIf cond') p q ∧ inv q := by
  induction h with
  | refl => exact ⟨.refl, hp⟩
  | tail _ hs ih =>
      obtain ⟨hrun, hinv⟩ := ih
      obtain ⟨l, hl, hc⟩ := hs
      obtain ⟨hc', hinv'⟩ := hstep _ _ _ hinv hc hl
      exact ⟨hrun.tail ⟨l, hl, hc'⟩, hinv'⟩

theorem runs_of_replay {ms : List (Move ι χ η)} : ∀ {p q : Pool ι κ σ C R ε},
    M.replay ms p = some q → M.Runs p q := by
  induction ms with
  | nil =>
      intro p q h
      simp only [replay, Option.some.injEq] at h
      subst h
      exact .refl _
  | cons m ms ih =>
      intro p q h
      simp only [replay] at h
      cases hm : M.move p m with
      | none => simp [hm] at h
      | some r =>
          simp only [hm, Option.bind_some] at h
          exact (Reaches.tail (.refl _) ⟨m, hm⟩ trivial).trans (ih h)

theorem reaches_of_replayIf {ok : σ → Label ι κ χ η C → Bool} {ms : List (Move ι χ η)} :
    ∀ {p q : Pool ι κ σ C R ε}, M.replayIf ok ms p = some q →
      M.Reaches (fun s l => ok s l = true) p q := by
  induction ms with
  | nil =>
      intro p q h
      simp only [replayIf, Option.some.injEq] at h
      subst h
      exact .refl _
  | cons m ms ih =>
      intro p q h
      simp only [replayIf] at h
      cases hm : M.move p m with
      | none => simp [hm] at h
      | some r =>
          simp only [hm, Option.bind_some] at h
          split at h
          · next hok => exact (Reaches.tail (.refl _) ⟨m, hm⟩ hok).trans (ih h)
          · cases h

theorem stepIf_of_replayWhile {ok : Pool ι κ σ C R ε → Label ι κ χ η C → Bool}
    {cond : Pool ι κ σ C R ε → Label ι κ χ η C → Prop}
    (hcond : ∀ p l, ok p l = true → cond p l) {ms : List (Move ι χ η)} :
    ∀ {p q : Pool ι κ σ C R ε}, M.replayWhile ok ms p = some q →
      Relation.ReflTransGen (M.StepIf cond) p q := by
  induction ms with
  | nil =>
      intro p q h
      simp only [replayWhile, Option.some.injEq] at h
      subst h
      exact .refl
  | cons m ms ih =>
      intro p q h
      simp only [replayWhile] at h
      cases hm : M.move p m with
      | none => simp [hm] at h
      | some r =>
          simp only [hm, Option.bind_some] at h
          split at h
          · next hok => exact .head ⟨r.1, ⟨m, hm⟩, hcond p r.1 hok⟩ (ih h)
          · cases h

/-- The party a scheduler moves. -/
def Move.party : Move ι χ η → Option ι
  | .call i _ => some i
  | .start i _ => some i
  | .env _ => none
  | .crash i => some i

/-- A party that is not moved goes on with what it was doing. -/
theorem move_other {m : Move ι χ η} {p q : Pool ι κ σ C R ε} {l : Label ι κ χ η C} {i : ι}
    (h : M.move p m = some (l, q)) (hi : m.party ≠ some i) : q.threads i = p.threads i := by
  have hne : ∀ {j : ι}, some j ≠ some i → i ≠ j := fun hj he => hj (congrArg some he.symm)
  cases m with
  | call j x =>
      simp only [move] at h
      split at h
      · simp only [Option.map_eq_some_iff, Prod.mk.injEq] at h
        obtain ⟨r, -, -, rfl⟩ := h
        exact Function.update_of_ne (hne hi) _ _
      · cases h
  | start j e =>
      simp only [move] at h
      split at h
      · simp only [Option.map_eq_some_iff, Prod.mk.injEq] at h
        obtain ⟨r, -, -, rfl⟩ := h
        exact Function.update_of_ne (hne hi) _ _
      · cases h
  | env e =>
      simp only [move, Option.map_eq_some_iff, Prod.mk.injEq] at h
      obtain ⟨s, -, -, rfl⟩ := h
      rfl
  | crash j =>
      simp only [move] at h
      split at h
      · cases h
      · simp only [Option.map_eq_some_iff, Prod.mk.injEq] at h
        obtain ⟨s, -, -, rfl⟩ := h
        exact Function.update_of_ne (hne hi) _ _

theorem replayWhile_other {ok : Pool ι κ σ C R ε → Label ι κ χ η C → Bool} {i : ι}
    {ms : List (Move ι χ η)} (hi : ∀ m ∈ ms, m.party ≠ some i) : ∀ {p q : Pool ι κ σ C R ε},
    M.replayWhile ok ms p = some q → q.threads i = p.threads i := by
  induction ms with
  | nil =>
      intro p q h
      simp only [replayWhile, Option.some.injEq] at h
      rw [h]
  | cons m ms ih =>
      intro p q h
      simp only [replayWhile] at h
      cases hm : M.move p m with
      | none => simp [hm] at h
      | some r =>
          simp only [hm, Option.bind_some] at h
          split at h
          · rw [ih (fun m' hm' => hi m' (List.mem_cons_of_mem _ hm')) h]
            exact move_other (l := r.1) hm (hi m List.mem_cons_self)
          · cases h

/-- A run may go on with the call a party awaits. -/
theorem Reaches.call {cond : σ → Label ι κ χ η C → Prop} {p₀ p : Pool ι κ σ C R ε} {i : ι}
    {k : κ} {c : C} {f : R c → Coro C R ε Unit} {x : χ} {r : R c} {s : σ}
    (hp : M.Reaches cond p₀ p) (hth : p.threads i = (k, .call c f))
    (hex : M.exec i k c x p.shared = some (r, s)) (hc : cond p.shared (.call i k c x)) :
    ∃ q, M.Reaches cond p₀ q ∧ q.shared = s ∧ q.threads i = (k, f r) := by
  refine ⟨⟨s, Function.update p.threads i (k, f r)⟩, .tail hp ⟨.call i x, ?_⟩ hc, rfl, ?_⟩
  · simp only [move, hth, hex, Option.map_some]
  · exact Function.update_self _ _ _

/-- A call that is awaited can be answered. -/
theorem step_of_next? {p : Pool ι κ σ C R ε} {i : ι} {c : C} {x : χ} {r : R c × σ}
    (hc : (p.threads i).2.next? = some c)
    (hex : M.exec i (p.threads i).1 c x p.shared = some r) :
    ∃ q, M.Step p (.call i (p.threads i).1 c x) q := by
  obtain ⟨f, hth⟩ : ∃ f, (p.threads i).2 = .call c f := by
    cases hp : (p.threads i).2 with
    | call c' f =>
        rw [hp] at hc
        cases hc
        exact ⟨f, rfl⟩
    | pure | raise =>
        rw [hp] at hc
        cases hc
  refine ⟨⟨r.2, Function.update p.threads i ((p.threads i).1, f r.1)⟩, .call i x, ?_⟩
  simp only [move, hth, hex, Option.map_some]

/-- The label of a call is the call that was awaited. -/
theorem move_call {p q : Pool ι κ σ C R ε} {l : Label ι κ χ η C} {i : ι} {x : χ} {c : C}
    (h : M.move p (.call i x) = some (l, q)) (hc : (p.threads i).2.next? = some c) :
    l = .call i (p.threads i).1 c x := by
  simp only [move] at h
  split at h
  · next c' k hk =>
      rw [hk] at hc
      cases hc
      simp only [Option.map_eq_some_iff, Prod.mk.injEq] at h
      obtain ⟨r, -, rfl, -⟩ := h
      rfl
  · cases h

/-- What a move is, case by case: the label fixes the move's kind, the shared
state moves by `act`, and only the labelled party's coroutine changes. -/
theorem Step.cases {p q : Pool ι κ σ C R ε} {l : Label ι κ χ η C} (h : M.Step p l q) :
    (∃ i x c k r, l = .call i (p.threads i).1 c x ∧ (p.threads i).2 = .call c k ∧
      M.exec i (p.threads i).1 c x p.shared = some r ∧
      q = ⟨r.2, Function.update p.threads i ((p.threads i).1, k r.1)⟩) ∨
    (∃ i e r, l = .start i e ∧ (p.threads i).2.Done ∧
      M.start i e p.shared = some r ∧
      q = ⟨r.2.2, Function.update p.threads i (r.1, r.2.1)⟩) ∨
    (∃ e s, l = .env e ∧ M.env e p.shared = some s ∧ q = ⟨s, p.threads⟩) ∨
    (∃ i s, l = .crash i (p.threads i).1 ∧ M.crash i (p.threads i).1 p.shared = some s ∧
      q = ⟨s, Function.update p.threads i ((p.threads i).1, .pure ())⟩) := by
  obtain ⟨m, hm⟩ := h
  cases m with
  | call i x =>
      left
      simp only [move] at hm
      split at hm
      · next c k hk =>
          simp only [Option.map_eq_some_iff, Prod.mk.injEq] at hm
          obtain ⟨r, hr, rfl, rfl⟩ := hm
          exact ⟨i, x, c, k, r, rfl, hk, hr, rfl⟩
      · cases hm
  | start i e =>
      right; left
      simp only [move] at hm
      split at hm
      · next hd =>
          simp only [Option.map_eq_some_iff, Prod.mk.injEq] at hm
          obtain ⟨r, hr, rfl, rfl⟩ := hm
          exact ⟨i, e, r, rfl, hd, hr, rfl⟩
      · cases hm
  | env e =>
      right; right; left
      simp only [move, Option.map_eq_some_iff, Prod.mk.injEq] at hm
      obtain ⟨s, hs, rfl, rfl⟩ := hm
      exact ⟨e, s, rfl, hs, rfl⟩
  | crash i =>
      right; right; right
      simp only [move] at hm
      split at hm
      · cases hm
      · simp only [Option.map_eq_some_iff, Prod.mk.injEq] at hm
        obtain ⟨s, hs, rfl, rfl⟩ := hm
        exact ⟨i, s, rfl, hs, rfl⟩

end Machine

end TradingBroker.Lib
