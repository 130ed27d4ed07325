import TradingBroker.Lib.Contract

/-!
# Coroutines under a monitor

A monitor follows a coroutine from answer to answer. Its state is what the
coroutine has been told so far, and on the strength of that it says of each call
whether it may be made. That a coroutine heeds a monitor is read off the code
alone (`Coro.Heeds`).

A machine is watched if the monitor's state of every party can be read off the
shared state, where only the party's own moves change it (`Watches`). Then in
every run each call is one the monitor lets through, and an invariant of the
shared state only has to be kept by such calls (`Watches.run`).
-/

namespace TradingBroker.Lib

/-- What is allowed on the strength of what was answered. Of the answers only those in
`answers` count, which is where what is known of the state a call is executed on comes
in. -/
structure Monitor (C : Type) (R : C → Type) (φ : Type) where
  answers : (c : C) → R c → Prop
  may : φ → C → Prop
  next : φ → (c : C) → R c → φ

variable {C : Type} {R : C → Type} {ε φ α β : Type}

namespace Coro

/-- From a state of the monitor on, the function makes only calls it may make, and if it returns
it does so in `Q`. -/
def Heeds (m : Monitor C R φ) : φ → Coro C R ε α → (α → φ → Prop) → Prop
  | f, .pure a, Q => Q a f
  | _, .raise _, _ => True
  | f, .call c k, Q => m.may f c ∧ ∀ r, m.answers c r → Heeds m (m.next f c r) (k r) Q

variable {m : Monitor C R φ}

theorem Heeds.bind {p : Coro C R ε α} {g : α → Coro C R ε β} {Q : β → φ → Prop} :
    ∀ {f : φ}, Heeds m f p (fun a f' => Heeds m f' (g a) Q) → Heeds m f (p >>= g) Q := by
  induction p with
  | pure a => exact fun h => h
  | raise e => exact fun h => h
  | call c k ih => exact fun h => ⟨h.1, fun r hr => ih r (h.2 r hr)⟩

theorem Heeds.mono {p : Coro C R ε α} {Q Q' : α → φ → Prop} (hQ : ∀ a f, Q a f → Q' a f) :
    ∀ {f : φ}, Heeds m f p Q → Heeds m f p Q' := by
  induction p with
  | pure a => exact fun h => hQ a _ h
  | raise e => exact fun h => h
  | call c k ih => exact fun h => ⟨h.1, fun r hr => ih r (h.2 r hr)⟩

/-- One function after the other. -/
theorem Heeds.andThen {f : φ} {p : Coro C R ε α} {g : α → Coro C R ε β} {Q : α → φ → Prop}
    {Q' : β → φ → Prop} (hp : Heeds m f p Q) (hg : ∀ a f', Q a f' → Heeds m f' (g a) Q') :
    Heeds m f (p >>= g) Q' :=
  (hp.mono hg).bind

/-- What a function that is tried ends with is nobody's business. -/
theorem Heeds.attempt {p : Coro C R ε α} : ∀ {f : φ}, Heeds m f p (fun _ _ => True) →
    Heeds m f p.attempt fun _ _ => True := by
  induction p with
  | pure a => exact fun _ => trivial
  | raise e => exact fun _ => trivial
  | call c k ih => exact fun h => ⟨h.1, fun r hr => ih r (h.2 r hr)⟩

end Coro

/-! ## Runs -/

variable {ι κ σ χ η : Type}

/-- The monitor's state of a party is its `phase`, which fits the context the party was started
with. -/
structure Watches (m : Monitor C R φ) (M : Machine ι κ σ χ η C R ε) (phase : ι → σ → φ)
    (fits : κ → φ → Prop) (cond : σ → Label ι κ χ η C → Prop) (inv : σ → Prop) : Prop where
  call : ∀ {i k c x s r}, inv s → cond s (.call i k c x) → M.exec i k c x s = some r →
    fits k (phase i s) → m.may (phase i s) c →
    m.answers c r.1 ∧ inv r.2 ∧ phase i r.2 = m.next (phase i s) c r.1 ∧ fits k (phase i r.2)
  start : ∀ {i e s r}, inv s → cond s (.start i e) → M.start i e s = some r →
    inv r.2.2 ∧ fits r.1 (phase i r.2.2) ∧ Coro.Heeds m (phase i r.2.2) r.2.1 fun _ _ => True
  env : ∀ {e s s'}, inv s → cond s (.env e) → M.env e s = some s' → inv s'
  crash : ∀ {i k s s'}, inv s → cond s (.crash i k) → M.crash i k s = some s' → inv s'
  other : ∀ {l s s' i}, M.act l s = some s' → l.party ≠ some i → phase i s' = phase i s

/-- The party is done, or what is left of its coroutine heeds the monitor. -/
def Heedful (m : Monitor C R φ) (phase : ι → σ → φ) (fits : κ → φ → Prop)
    (p : Pool ι κ σ C R ε) (i : ι) : Prop :=
  (p.threads i).2.Done ∨ fits (p.threads i).1 (phase i p.shared) ∧
    Coro.Heeds m (phase i p.shared) (p.threads i).2 fun _ _ => True

namespace Watches

variable {m : Monitor C R φ} {M : Machine ι κ σ χ η C R ε} {phase : ι → σ → φ}
  {fits : κ → φ → Prop} {cond : σ → Label ι κ χ η C → Prop} {inv : σ → Prop}
  {p q : Pool ι κ σ C R ε}

variable [DecidableEq ι]

/-- A party that does not move keeps its coroutine and its phase. -/
theorem heedful_other (W : Watches m M phase fits cond inv) {l : Label ι κ χ η C} {j : ι}
    {t : κ × Coro C R ε Unit} {i : ι} {s : σ} (h : Heedful m phase fits p j)
    (ha : M.act l p.shared = some s) (hparty : l.party = some i) (hj : j ≠ i) :
    Heedful m phase fits ⟨s, Function.update p.threads i t⟩ j := by
  have hphase : phase j s = phase j p.shared :=
    W.other ha fun he => hj (Option.some.inj (he.symm.trans hparty))
  have hthread : (⟨s, Function.update p.threads i t⟩ : Pool ι κ σ C R ε).threads j =
      p.threads j := Function.update_of_ne hj _ _
  unfold Heedful
  rw [hthread, hphase]
  exact h

theorem step (W : Watches m M phase fits cond inv) {l : Label ι κ χ η C} (hs : M.Step p l q)
    (hc : cond p.shared l) (hinv : inv p.shared) (hall : ∀ i, Heedful m phase fits p i) :
    inv q.shared ∧ ∀ i, Heedful m phase fits q i := by
  rcases hs.cases with ⟨i, x, c, f, r, rfl, hf, hex, rfl⟩ | ⟨i, e, r, rfl, -, hst, rfl⟩ |
    ⟨e, s, rfl, he, rfl⟩ | ⟨i, s, rfl, hcr, rfl⟩
  · have ha : M.act (.call i (p.threads i).1 c x) p.shared = some r.2 := by
      simp [Machine.act, hex]
    rcases hall i with hd | ⟨hfits, hheeds⟩
    · rw [hf] at hd
      exact hd.elim
    · rw [hf] at hheeds
      obtain ⟨hans, hinv', hphase, hfits'⟩ := W.call hinv hc hex hfits hheeds.1
      refine ⟨hinv', fun j => ?_⟩
      by_cases hj : j = i
      · subst hj
        have hrest := hheeds.2 r.1 hans
        rw [← hphase] at hrest
        exact .inr ⟨by simpa using hfits', by simpa using hrest⟩
      · exact W.heedful_other (hall j) ha rfl hj
  · have ha : M.act (.start i e) p.shared = some r.2.2 := by simp [Machine.act, hst]
    obtain ⟨hinv', hfits, hheeds⟩ := W.start hinv hc hst
    refine ⟨hinv', fun j => ?_⟩
    by_cases hj : j = i
    · subst hj
      exact .inr ⟨by simpa using hfits, by simpa using hheeds⟩
    · exact W.heedful_other (hall j) ha rfl hj
  · refine ⟨W.env hinv hc he, fun j => ?_⟩
    have hphase : phase j s = phase j p.shared :=
      W.other (l := .env e) he (by simp [Label.party])
    unfold Heedful
    rw [hphase]
    exact hall j
  · have ha : M.act (.crash i (p.threads i).1) p.shared = some s := hcr
    refine ⟨W.crash hinv hc hcr, fun j => ?_⟩
    by_cases hj : j = i
    · subst hj
      exact .inl (by simp [Coro.Done])
    · exact W.heedful_other (hall j) ha rfl hj

/-- Along every run whose moves meet `cond`. -/
theorem run (W : Watches m M phase fits cond inv) (h : M.Reaches cond p q) (hinv : inv p.shared)
    (hall : ∀ i, Heedful m phase fits p i) :
    inv q.shared ∧ ∀ i, Heedful m phase fits q i := by
  induction h with
  | refl => exact ⟨hinv, hall⟩
  | tail _ hs hc ih => exact W.step hs hc ih.1 ih.2

end Watches

/-- A call that is made is one the monitor lets through. -/
theorem Heedful.may {m : Monitor C R φ} {phase : ι → σ → φ} {fits : κ → φ → Prop}
    {p : Pool ι κ σ C R ε} {i : ι} {c : C} {k : R c → Coro C R ε Unit}
    (h : Heedful m phase fits p i) (hc : (p.threads i).2 = .call c k) :
    m.may (phase i p.shared) c := by
  rcases h with hd | ⟨-, hheeds⟩
  · rw [hc] at hd
    exact hd.elim
  · rw [hc] at hheeds
    exact hheeds.1

end TradingBroker.Lib
