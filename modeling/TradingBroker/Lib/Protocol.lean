import TradingBroker.Lib.Contract

/-!
# Coroutines that follow a protocol

A protocol is an automaton: in each phase it names the call that comes next, if
any, and an answer to it leads to another phase. A coroutine follows one if it
makes the calls the protocol names, whatever is answered (`Coro.Follows`). What
has to be proved of a function then is its control flow, once.

A machine conducts its parties by a protocol (`Conducts`) if every party is
started with a coroutine that follows it and the phase a party is in can be read
off the shared state, where only its own moves change it. Every run of such a
machine is, for the shared state, a run of the automata
(`Conducts.induct`): a party's call is the one its phase names, and a party that
is started was in a phase that names none.
-/

namespace TradingBroker.Lib

structure Protocol (C : Type) (R : C → Type) (φ : Type) where
  next? : φ → Option C
  after : φ → (c : C) → R c → φ

variable {C : Type} {R : C → Type} {ε φ α β : Type}

namespace Coro

/-- From a phase on, the function makes the calls the protocol names; it ends in a
phase that meets `Q` if it returns and `X` if it raises. -/
def Follows (A : Protocol C R φ) (Q : α → φ → Prop) (X : φ → Prop) :
    Coro C R ε α → φ → Prop
  | .pure a, f => Q a f
  | .raise _, f => X f
  | .call c k, f => A.next? f = some c ∧ ∀ r, Follows A Q X (k r) (A.after f c r)

variable {A : Protocol C R φ} {Q : α → φ → Prop} {X : φ → Prop}

theorem Follows.bind {Q' : β → φ → Prop} {p : Coro C R ε α} {g : α → Coro C R ε β}
    (hg : ∀ a f, Q a f → Follows A Q' X (g a) f) : ∀ {f : φ}, Follows A Q X p f →
      Follows A Q' X (p >>= g) f := by
  induction p with
  | pure a => exact fun h => hg a _ h
  | raise e => exact fun h => h
  | call c k ih => exact fun h => ⟨h.1, fun r => ih r (h.2 r)⟩

/-- Nothing comes next. -/
def AtRest (A : Protocol C R φ) (f : φ) : Prop := A.next? f = none

/-- The function follows the protocol to a phase where nothing comes next. -/
abbrev Carries (A : Protocol C R φ) (p : Coro C R ε α) (f : φ) : Prop :=
  Follows A (fun _ => AtRest A) (AtRest A) p f

end Coro

variable {ι κ σ χ η : Type}

/-- The phase of each party is in the shared state. A call moves its party to the phase
after the answer, a start gives it a coroutine that follows the protocol from the phase
it is then in, a crash leaves it at rest, and nobody else's move touches it. -/
structure Conducts (M : Machine ι κ σ χ η C R ε) (A : Protocol C R φ) (phase : ι → σ → φ) :
    Prop where
  call : ∀ {i k c x s r}, M.exec i k c x s = some r →
    phase i r.2 = A.after (phase i s) c r.1
  start : ∀ {i e s r}, M.start i e s = some r → Coro.Carries A r.2.1 (phase i r.2.2)
  crash : ∀ {i k s s'}, M.crash i k s = some s' → Coro.AtRest A (phase i s')
  other : ∀ {l s s'} {i : ι}, M.act l s = some s' → l.party ≠ some i →
    phase i s' = phase i s

/-- A call is the one that comes next for its party; a party is only started when
nothing does. -/
def Label.Due (A : Protocol C R φ) (phase : ι → σ → φ) (s : σ) : Label ι κ χ η C → Prop
  | .call i _ c _ => A.next? (phase i s) = some c
  | .start i _ => A.next? (phase i s) = none
  | _ => True

namespace Conducts

variable {M : Machine ι κ σ χ η C R ε} {A : Protocol C R φ} {phase : ι → σ → φ}

/-- A party makes the call its phase names. -/
def contract (_ : Conducts M A phase) : Contract M where
  inv _ := True
  pre i _ c s := A.next? (phase i s) = some c
  post i _ s := Coro.AtRest A (phase i s)
  keeps := fun _ _ _ => trivial

variable (h : Conducts M A phase)

theorem phase_drifts {i : ι} {s s' : σ} (hd : h.contract.Drifts i s s') :
    phase i s' = phase i s := by
  induction hd with
  | refl => rfl
  | tail _ hst ih =>
      obtain ⟨-, -, l, hp, -, ha⟩ := hst
      rw [h.other ha hp, ih]

theorem obeys {i : ι} {k : κ} {p : Coro C R ε Unit} : ∀ {s : σ},
    Coro.Carries A p (phase i s) →
      h.contract.Obeys i k (fun _ => h.contract.post i k) (fun _ => h.contract.post i k) p s := by
  induction p with
  | pure a =>
      intro s hf s' hd
      show Coro.AtRest A (phase i s')
      rw [h.phase_drifts hd]
      exact hf
  | raise e =>
      intro s hf s' hd
      show Coro.AtRest A (phase i s')
      rw [h.phase_drifts hd]
      exact hf
  | call c f ih =>
      intro s hf s' hd
      refine ⟨?_, fun x r s'' hx => ih r ?_⟩
      · show A.next? (phase i s') = some c
        rw [h.phase_drifts hd]
        exact hf.1
      · rw [h.call hx, h.phase_drifts hd]
        exact hf.2 r

theorem holds : h.contract.Holds where
  start := fun _ _ hs _ => h.obeys (h.start hs)
  crash := fun _ hs => h.crash hs
  stable := by
    rintro i k s s' ⟨-, -, l, hp, -, ha⟩ hs
    show Coro.AtRest A (phase i s')
    rw [h.other ha hp]
    exact hs

/-- A pool none of whose parties is running. -/
theorem good {s : σ} {th : ι → κ × Coro C R ε Unit} (hth : ∀ i, (th i).2 = .pure ())
    (hs : ∀ i, Coro.AtRest A (phase i s)) : h.contract.Good ⟨s, th⟩ := by
  refine ⟨trivial, fun i => ?_⟩
  show h.contract.Obeys i (th i).1 _ _ (th i).2 s
  rw [hth i]
  exact h.obeys (hs i)

variable [DecidableEq ι] {cond : σ → Label ι κ χ η C → Prop} {p q r : Pool ι κ σ C R ε}

/-- The induction along a run, one case for each kind of move. -/
theorem induct {J : σ → Prop} (hp : h.contract.Good p) (hr : M.Reaches cond p q)
    (h0 : J p.shared)
    (hstep : ∀ s l s', l.Due A phase s → cond s l → M.act l s = some s' → J s → J s') :
    J q.shared := by
  refine h.holds.induct hp hr h0 fun s l s' _ _ hl hrest hc ha hJ => hstep s l s' ?_ hc ha hJ
  cases l with
  | call i k c x => exact hl
  | start i e => exact hrest.choose_spec
  | env e => trivial
  | crash i k => trivial

theorem good_of_reaches (hp : h.contract.Good p) (hr : M.Reaches cond p q) :
    h.contract.Good q :=
  (h.holds.refines hp hr).1

/-- The next move of a run. -/
theorem step {l : Label ι κ χ η C} (hp : h.contract.Good p) (hr : M.Reaches cond p q)
    (hs : M.Step q l r) : l.Due A phase q.shared ∧ M.act l q.shared = some r.shared := by
  have hg := h.good_of_reaches hp hr
  obtain ⟨hl, ha, -⟩ := h.holds.step hg hs
  refine ⟨?_, ha⟩
  cases l with
  | call i k c x => exact hl
  | start i e =>
      rcases hs.cases with ⟨_, _, _, _, _, hl, -⟩ | ⟨j, e', r, hl, hd, -, -⟩ | ⟨_, _, hl, -⟩ |
        ⟨_, _, hl, -⟩
      · cases hl
      · cases hl
        exact hg.post hd
      · cases hl
      · cases hl
  | env e => trivial
  | crash i k => trivial

end Conducts

end TradingBroker.Lib
