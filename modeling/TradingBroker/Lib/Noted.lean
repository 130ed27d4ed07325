import TradingBroker.Lib.Contract

/-!
# A machine with notes

Notes are taken beside a run: how often something has happened, or what a party
has read and when. They see each move, the shared state before it and the one
after, and nothing the machine does depends on them. So a condition on the order
of the moves can be stated of the notes, and says the same of the runs of the
machine itself: each of them is a run with notes (`noted_run`), and without its
notes each move of a run with notes is one of the machine (`plain_step`).
-/

namespace TradingBroker.Lib

structure Noted (σ ν : Type) where
  now : σ
  notes : ν

variable {ι κ σ ν χ η C : Type} {R : C → Type} {ε : Type}

/-- `note` says what a move from one state to another adds. -/
def Machine.noted (M : Machine ι κ σ χ η C R ε) (note : σ → Label ι κ χ η C → σ → ν → ν) :
    Machine ι κ (Noted σ ν) χ η C R ε where
  exec i k c x s :=
    (M.exec i k c x s.now).map fun r => (r.1, ⟨r.2, note s.now (.call i k c x) r.2 s.notes⟩)
  start i e s :=
    (M.start i e s.now).map fun r =>
      (r.1, r.2.1, ⟨r.2.2, note s.now (.start i e) r.2.2 s.notes⟩)
  env e s := (M.env e s.now).map fun t => ⟨t, note s.now (.env e) t s.notes⟩
  crash i k s := (M.crash i k s.now).map fun t => ⟨t, note s.now (.crash i k) t s.notes⟩

/-- The pool with these notes. -/
def Pool.noted (p : Pool ι κ σ C R ε) (n : ν) : Pool ι κ (Noted σ ν) C R ε :=
  ⟨⟨p.shared, n⟩, p.threads⟩

/-- The pool without its notes. -/
def Pool.plain (p : Pool ι κ (Noted σ ν) C R ε) : Pool ι κ σ C R ε := ⟨p.shared.now, p.threads⟩

namespace Machine

variable {M : Machine ι κ σ χ η C R ε} {note : σ → Label ι κ χ η C → σ → ν → ν}

theorem act_noted (l : Label ι κ χ η C) (s : Noted σ ν) :
    (M.noted note).act l s = (M.act l s.now).map fun t => ⟨t, note s.now l t s.notes⟩ := by
  cases l with
  | call i k c x =>
      simp only [act, noted, Option.map_map]
      rfl
  | start i e =>
      simp only [act, noted, Option.map_map]
      rfl
  | env e => rfl
  | crash i k => rfl

variable [DecidableEq ι]

/-- A move with notes is the same move. -/
theorem move_noted (p : Pool ι κ (Noted σ ν) C R ε) (m : Move ι χ η) :
    (M.noted note).move p m = (M.move p.plain m).map fun r =>
      (r.1, r.2.noted (note p.shared.now r.1 r.2.shared p.shared.notes)) := by
  cases m with
  | call i x =>
      simp only [move, Pool.plain]
      split
      · simp only [noted, Option.map_map]
        rfl
      · rfl
  | start i e =>
      simp only [move]
      by_cases hd : (p.threads i).2.Done
      · rw [if_pos hd, if_pos (show (p.plain.threads i).2.Done from hd)]
        simp only [noted, Option.map_map]
        rfl
      · rw [if_neg hd, if_neg (show ¬ (p.plain.threads i).2.Done from hd)]
        rfl
  | env e =>
      simp only [move, Pool.plain, noted, Option.map_map]
      rfl
  | crash i =>
      simp only [move]
      by_cases hd : (p.threads i).2.Done
      · rw [if_pos hd, if_pos (show (p.plain.threads i).2.Done from hd)]
        rfl
      · rw [if_neg hd, if_neg (show ¬ (p.plain.threads i).2.Done from hd)]
        simp only [noted, Option.map_map]
        rfl

theorem noted_step {p q : Pool ι κ σ C R ε} {l : Label ι κ χ η C} (h : M.Step p l q) (n : ν) :
    (M.noted note).Step (p.noted n) l (q.noted (note p.shared l q.shared n)) := by
  obtain ⟨m, hm⟩ := h
  refine ⟨m, ?_⟩
  have hplain : (p.noted n).plain = p := rfl
  rw [move_noted, hplain, hm, Option.map_some]
  rfl

theorem plain_step {p q : Pool ι κ (Noted σ ν) C R ε} {l : Label ι κ χ η C}
    (h : (M.noted note).Step p l q) :
    M.Step p.plain l q.plain ∧
      q.shared.notes = note p.shared.now l q.shared.now p.shared.notes := by
  obtain ⟨m, hm⟩ := h
  rw [move_noted, Option.map_eq_some_iff] at hm
  obtain ⟨r, hr, heq⟩ := hm
  cases heq
  exact ⟨⟨m, hr⟩, rfl⟩

/-- Every run of the machine can be noted. -/
theorem noted_run {cond : Pool ι κ σ C R ε → Label ι κ χ η C → Prop} {p q : Pool ι κ σ C R ε}
    (h : Relation.ReflTransGen (M.StepIf cond) p q) (n : ν) :
    ∃ n', Relation.ReflTransGen ((M.noted note).StepIf fun p l => cond p.plain l)
      (p.noted n) (q.noted n') := by
  induction h with
  | refl => exact ⟨n, .refl⟩
  | tail _ hs ih =>
      obtain ⟨n', hn⟩ := ih
      obtain ⟨l, hl, hc⟩ := hs
      exact ⟨_, hn.tail ⟨l, noted_step hl n', hc⟩⟩

end Machine

end TradingBroker.Lib
