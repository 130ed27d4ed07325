import TradingBroker.Lib.Machine

/-!
# Debts between coroutines

Several coroutines write to one place, and each of them afterwards announces
what it wrote. An announcement may come late, and in another order than the
writes did; what counts is that the last one is right.

A call may leave a debt behind (`incurs`): what has been announced no longer
agrees with what is written, and the function must still make a call that
`pays`. `Owes` says that it does so on every branch, `Honest` that it owes
whenever it has incurred. Suppose no payment leaves things wrong unless some
other party still owes. Then at any moment things are as they should be or
somebody owes (`Ledger.Kept`), and once every party is done nobody does.
-/

namespace TradingBroker.Lib

namespace Coro

variable {C : Type} {R : C → Type} {ε α β : Type}
  {ok : (c : C) → R c → Prop} {incurs pays : C → Prop}

/-- A call in `pays` is still to come, whatever is answered until then as long as
the answers meet `ok`. -/
inductive Owes (ok : (c : C) → R c → Prop) (pays : C → Prop) : Coro C R ε α → Prop where
  | now {c : C} {k : R c → Coro C R ε α} (h : pays c) : Owes ok pays (.call c k)
  | later {c : C} {k : R c → Coro C R ε α} (h : ∀ r, ok c r → Owes ok pays (k r)) :
      Owes ok pays (.call c k)

/-- After each call that incurs a debt, the function owes. -/
def Honest (ok : (c : C) → R c → Prop) (incurs pays : C → Prop) : Coro C R ε α → Prop
  | .call c k =>
      ∀ r, ok c r → (incurs c → Owes ok pays (k r)) ∧ Honest ok incurs pays (k r)
  | _ => True

theorem Owes.not_done {p : Coro C R ε α} (h : Owes ok pays p) : ¬ p.Done := by
  cases h <;> exact id

/-- The next call pays. -/
theorem Owes.of_next? {p : Coro C R ε α} {c : C} (hc : p.next? = some c) (h : pays c) :
    Owes ok pays p := by
  cases p with
  | call c' k =>
      cases hc
      exact .now h
  | pure | raise => cases hc

/-- A call that does not pay leaves the debt where it was. -/
theorem Owes.after {c : C} {k : R c → Coro C R ε α} (h : Owes ok pays (.call c k))
    (hp : ¬ pays c) {r : R c} (hr : ok c r) : Owes ok pays (k r) := by
  cases h with
  | now hc => exact absurd hc hp
  | later hk => exact hk r hr

theorem Owes.bind {p : Coro C R ε α} (h : Owes ok pays p) (f : α → Coro C R ε β) :
    Owes ok pays (p.bind f) := by
  induction h with
  | now hc => exact .now hc
  | later _ ih => exact .later ih

theorem Honest.bind {p : Coro C R ε α} {f : α → Coro C R ε β} (hp : Honest ok incurs pays p)
    (hf : ∀ a, Honest ok incurs pays (f a)) : Honest ok incurs pays (p.bind f) := by
  induction p with
  | pure a => exact hf a
  | raise e => exact trivial
  | call c k ih =>
      intro r hr
      obtain ⟨howes, hk⟩ := hp r hr
      exact ⟨fun hi => (howes hi).bind f, ih r hk⟩

end Coro

variable {ι κ σ χ η C : Type} {R : C → Type} {ε : Type}

/-- What `good` is kept by, in the runs whose labels are in `may`: starting a
party and the environment leave it alone, and so does a call that neither incurs
nor pays. -/
structure Ledger (M : Machine ι κ σ χ η C R ε) where
  inv : σ → Prop
  good : σ → Prop
  may : Label ι κ χ η C → Prop
  ok : (c : C) → R c → Prop
  incurs : C → Prop
  pays : C → Prop
  call : ∀ {i k c x s r}, inv s → may (.call i k c x) → M.exec i k c x s = some r →
    inv r.2 ∧ ok c r.1 ∧ (¬ incurs c → ¬ pays c → good s → good r.2)
  start : ∀ {i e s r}, inv s → M.start i e s = some r →
    inv r.2.2 ∧ r.2.1.Honest ok incurs pays ∧ (good s → good r.2.2)
  env : ∀ {e s s'}, inv s → M.env e s = some s' → inv s' ∧ (good s → good s')
  no_crash : ∀ i k, ¬ may (.crash i k)

namespace Ledger

variable [DecidableEq ι] {M : Machine ι κ σ χ η C R ε}

/-- The party still owes. -/
def Owing (L : Ledger M) (p : Pool ι κ σ C R ε) (i : ι) : Prop :=
  (p.threads i).2.Owes L.ok L.pays

/-- A payment made by this move is right, or it is not the last one. -/
def Fair (L : Ledger M) (p : Pool ι κ σ C R ε) : Label ι κ χ η C → Prop
  | .call i k c x =>
      L.pays c → (∀ r, M.exec i k c x p.shared = some r → L.good r.2) ∨
        ∃ j, j ≠ i ∧ L.Owing p j
  | _ => True

structure Kept (L : Ledger M) (p : Pool ι κ σ C R ε) : Prop where
  inv : L.inv p.shared
  honest : ∀ i, (p.threads i).2.Honest L.ok L.incurs L.pays
  good_or_owed : L.good p.shared ∨ ∃ i, L.Owing p i

variable {L : Ledger M} {p q : Pool ι κ σ C R ε}

omit [DecidableEq ι] in
theorem Owing.of_eq {i : ι} (h : L.Owing p i) (heq : q.threads i = p.threads i) :
    L.Owing q i := by
  rw [Owing, heq]
  exact h

/-- Only the party that moves has a new coroutine. -/
theorem honest_update {s : σ} {i : ι} {k : κ} {t : Coro C R ε Unit}
    (h : ∀ j, (p.threads j).2.Honest L.ok L.incurs L.pays)
    (ht : t.Honest L.ok L.incurs L.pays) (j : ι) :
    ((⟨s, Function.update p.threads i (k, t)⟩ : Pool ι κ σ C R ε).threads j).2.Honest
      L.ok L.incurs L.pays := by
  show (Function.update p.threads i (k, t) j).2.Honest L.ok L.incurs L.pays
  by_cases hj : j = i
  · subst hj
    rw [Function.update_self]
    exact ht
  · rw [Function.update_of_ne hj]
    exact h j

theorem owing_update {s : σ} {i : ι} {k : κ} {t : Coro C R ε Unit}
    (ht : t.Owes L.ok L.pays) : L.Owing ⟨s, Function.update p.threads i (k, t)⟩ i := by
  show (Function.update p.threads i (k, t) i).2.Owes L.ok L.pays
  rw [Function.update_self]
  exact ht

theorem Kept.step {l : Label ι κ χ η C} (h : L.Kept p) (hs : M.Step p l q) (hm : L.may l)
    (hf : L.Fair p l) : L.Kept q := by
  rcases hs.cases with ⟨i, x, c, k, r, rfl, hk, hr, rfl⟩ | ⟨i, e, r, rfl, hd, hr, rfl⟩ |
    ⟨e, s, rfl, hr, rfl⟩ | ⟨i, s, rfl, -, -⟩
  · obtain ⟨hinv, hok, hgood⟩ := L.call h.inv hm hr
    have hi := h.honest i
    rw [hk] at hi
    obtain ⟨howes, hrest⟩ := hi r.1 hok
    refine ⟨hinv, honest_update h.honest hrest, ?_⟩
    by_cases hp : L.pays c
    · rcases hf hp with hg | ⟨j, hj, ho⟩
      · exact .inl (hg r hr)
      · exact .inr ⟨j, ho.of_eq (Function.update_of_ne hj _ _)⟩
    · by_cases hc : L.incurs c
      · exact .inr ⟨i, owing_update (howes hc)⟩
      · rcases h.good_or_owed with hg | ⟨j, ho⟩
        · exact .inl (hgood hc hp hg)
        · by_cases hj : j = i
          · subst hj
            rw [Owing, hk] at ho
            exact .inr ⟨j, owing_update (ho.after hp hok)⟩
          · exact .inr ⟨j, ho.of_eq (Function.update_of_ne hj _ _)⟩
  · obtain ⟨hinv, hhonest, hgood⟩ := L.start h.inv hr
    refine ⟨hinv, honest_update h.honest hhonest, ?_⟩
    rcases h.good_or_owed with hg | ⟨j, ho⟩
    · exact .inl (hgood hg)
    · -- a party that was done owed nothing
      have hj : j ≠ i := by
        rintro rfl
        exact ho.not_done hd
      exact .inr ⟨j, ho.of_eq (Function.update_of_ne hj _ _)⟩
  · obtain ⟨hinv, hgood⟩ := L.env h.inv hr
    exact ⟨hinv, h.honest, h.good_or_owed.imp hgood id⟩
  · exact absurd hm (L.no_crash i _)

omit [DecidableEq ι] in
/-- Once every party is done nobody owes. -/
theorem Kept.good (h : L.Kept p) (hd : ∀ i, (p.threads i).2.Done) : L.good p.shared := by
  rcases h.good_or_owed with hg | ⟨i, ho⟩
  · exact hg
  · exact absurd (hd i) ho.not_done

end Ledger

end TradingBroker.Lib
