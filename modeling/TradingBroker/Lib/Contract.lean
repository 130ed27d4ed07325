import TradingBroker.Lib.Machine

/-!
# Contracts: what every call is made with

A contract says of each call when a party may make it (`pre`), what the shared
state always satisfies (`inv`), and what holds whenever a party is not running
(`post`). Proving it is a walk over the coroutines, one `Spec` for each
function, in which an assertion may be carried across an `await` only if the
other parties cannot break it: `Stable` asks this of every move they can make,
and they too make only the calls the contract allows. The circle closes by
induction over the run (`Contract.Holds.refines`).

What comes out is that a run of the pool, seen from the shared state, is a run
of a much simpler system whose moves are single calls with their preconditions
met (`Trail`). Facts about whole runs are then proved there, one case per call,
without looking at a coroutine again.
-/

namespace TradingBroker.Lib

/-- The party a move belongs to; the environment's belong to nobody. -/
def Label.party {ι κ χ η C : Type} : Label ι κ χ η C → Option ι
  | .call i _ _ _ => some i
  | .start i _ => some i
  | .env _ => none
  | .crash i _ => some i

/-- A label's call meets its precondition; the other moves have none. -/
def Label.Allowed {ι κ σ χ η C : Type} (pre : ι → κ → C → σ → Prop) (s : σ) :
    Label ι κ χ η C → Prop
  | .call i k c _ => pre i k c s
  | _ => True

variable {ι κ σ χ η C : Type} {R : C → Type} {ε : Type}

structure Contract (M : Machine ι κ σ χ η C R ε) where
  inv : σ → Prop
  pre : ι → κ → C → σ → Prop
  post : ι → κ → σ → Prop
  keeps : ∀ {s l s'}, inv s → l.Allowed pre s → M.act l s = some s' → inv s'

namespace Contract

variable {M : Machine ι κ σ χ η C R ε} (K : Contract M)

/-- A move of somebody other than `i`, under the contract. -/
def Interferes (i : ι) (s s' : σ) : Prop :=
  K.inv s ∧ K.inv s' ∧ ∃ l, l.party ≠ some i ∧ l.Allowed K.pre s ∧ M.act l s = some s'

/-- What can happen to the shared state while `i` waits. -/
abbrev Drifts (i : ι) : σ → σ → Prop := Relation.ReflTransGen (K.Interferes i)

/-- `P` survives whatever the others do. -/
def Stable (i : ι) (P : σ → Prop) : Prop :=
  ∀ s s', K.Interferes i s s' → P s → P s'

/-- `P` survives every move, one's own included. -/
def Persistent (P : σ → Prop) : Prop :=
  ∀ s l s', K.inv s → K.inv s' → l.Allowed K.pre s → M.act l s = some s' → P s → P s'

/-- From `s` on, whatever the others do in between: `i` makes only calls the
contract allows, and ends in `Q` if it returns and in `X` if it raises. -/
def Obeys (i : ι) (k : κ) {α : Type} (Q : α → σ → Prop) (X : ε → σ → Prop) :
    Coro C R ε α → σ → Prop
  | .pure a, s => ∀ s', K.Drifts i s s' → Q a s'
  | .raise e, s => ∀ s', K.Drifts i s s' → X e s'
  | .call c f, s => ∀ s', K.Drifts i s s' →
      K.pre i k c s' ∧
        ∀ x r s'', M.exec i k c x s' = some (r, s'') → Obeys i k Q X (f r) s''

/-- The specification of a function: started where `P` holds, it obeys. -/
def Spec (i : ι) (k : κ) {α : Type} (P : σ → Prop) (p : Coro C R ε α)
    (Q : α → σ → Prop) (X : ε → σ → Prop) : Prop :=
  ∀ s, K.inv s → P s → K.Obeys i k Q X p s

variable {K} {i : ι} {k : κ} {α β : Type}

theorem Drifts.inv {s s' : σ} (h : K.Drifts i s s') (hs : K.inv s) : K.inv s' := by
  induction h with
  | refl => exact hs
  | tail _ hst _ => exact hst.2.1

theorem Stable.drifts {P : σ → Prop} (hP : K.Stable i P) {s s' : σ}
    (h : K.Drifts i s s') (hs : P s) : P s' := by
  induction h with
  | refl => exact hs
  | tail _ hst ih => exact hP _ _ hst ih

theorem Stable.and {P Q : σ → Prop} (hP : K.Stable i P) (hQ : K.Stable i Q) :
    K.Stable i fun s => P s ∧ Q s :=
  fun s s' h hs => ⟨hP s s' h hs.1, hQ s s' h hs.2⟩

theorem Stable.imp_left {a : Prop} {P : σ → Prop} (hP : a → K.Stable i P) :
    K.Stable i fun s => a → P s :=
  fun s s' h hs ha => hP ha s s' h (hs ha)

theorem Stable.const (a : Prop) : K.Stable i fun _ => a :=
  fun _ _ _ h => h

theorem Stable.or {P Q : σ → Prop} (hP : K.Stable i P) (hQ : K.Stable i Q) :
    K.Stable i fun s => P s ∨ Q s := by
  rintro s s' h (hs | hs)
  · exact .inl (hP s s' h hs)
  · exact .inr (hQ s s' h hs)

theorem Persistent.stable {P : σ → Prop} (hP : K.Persistent P) : K.Stable i P := by
  rintro s s' ⟨hs, hs', l, -, hl, ha⟩ h
  exact hP s l s' hs hs' hl ha h

theorem Persistent.forall {γ : Type} {P : γ → σ → Prop} (hP : ∀ a, K.Persistent (P a)) :
    K.Persistent fun s => ∀ a, P a s :=
  fun s l s' hs hs' hl ha h a => hP a s l s' hs hs' hl ha (h a)

theorem Persistent.imp_left {a : Prop} {P : σ → Prop} (hP : a → K.Persistent P) :
    K.Persistent fun s => a → P s :=
  fun s l s' hs hs' hl ha h hyp => hP hyp s l s' hs hs' hl ha (h hyp)

theorem Stable.exists {γ : Type} {P : γ → σ → Prop} (hP : ∀ a, K.Stable i (P a)) :
    K.Stable i fun s => ∃ a, P a s := by
  rintro s s' h ⟨a, hs⟩
  exact ⟨a, hP a s s' h hs⟩

theorem Obeys.drifts {Q : α → σ → Prop} {X : ε → σ → Prop} {p : Coro C R ε α} {s s' : σ}
    (hp : K.Obeys i k Q X p s) (h : K.Drifts i s s') : K.Obeys i k Q X p s' := by
  cases p with
  | pure a => exact fun t ht => hp t (h.trans ht)
  | raise e => exact fun t ht => hp t (h.trans ht)
  | call c f => exact fun t ht => hp t (h.trans ht)

/-! ## One rule for each way a function goes on -/

theorem Spec.pure {P : σ → Prop} {a : α} {Q : α → σ → Prop} {X : ε → σ → Prop}
    (hQ : K.Stable i (Q a)) (h : ∀ s, K.inv s → P s → Q a s) :
    K.Spec i k P (.pure a) Q X :=
  fun s hs hP _ hd => hQ.drifts hd (h s hs hP)

theorem Spec.raise {P : σ → Prop} {e : ε} {Q : α → σ → Prop} {X : ε → σ → Prop}
    (hX : K.Stable i (X e)) (h : ∀ s, K.inv s → P s → X e s) :
    K.Spec i k P (.raise e) Q X :=
  fun s hs hP _ hd => hX.drifts hd (h s hs hP)

/-- A call: its precondition holds where it is made, and every answer leads to
an assertion the rest starts from. -/
theorem Spec.call {P : σ → Prop} {c : C} {f : R c → Coro C R ε α} {Q : α → σ → Prop}
    {X : ε → σ → Prop} (P' : R c → σ → Prop) (hP : K.Stable i P)
    (hpre : ∀ s, K.inv s → P s → K.pre i k c s)
    (hexec : ∀ s x r s', K.inv s → P s → M.exec i k c x s = some (r, s') →
      K.inv s' → P' r s')
    (hf : ∀ r, K.Spec i k (P' r) (f r) Q X) : K.Spec i k P (.call c f) Q X := by
  intro s hs hPs t ht
  have hti := ht.inv hs
  have htP := hP.drifts ht hPs
  refine ⟨hpre t hti htP, fun x r u hu => ?_⟩
  have hui : K.inv u :=
    K.keeps (l := .call i k c x) hti (hpre t hti htP) (by simp [Machine.act, hu])
  exact hf r u hui (hexec t x r u hti htP hu hui)

theorem Spec.bind {P : σ → Prop} {p : Coro C R ε α} {f : α → Coro C R ε β}
    {Q : β → σ → Prop} {X : ε → σ → Prop} (Q' : α → σ → Prop)
    (hp : K.Spec i k P p Q' X) (hf : ∀ a, K.Spec i k (Q' a) (f a) Q X) :
    K.Spec i k P (p >>= f) Q X := by
  have main : ∀ (p : Coro C R ε α) (s : σ), K.inv s → K.Obeys i k Q' X p s →
      K.Obeys i k Q X (p.bind f) s := by
    intro p
    induction p with
    | pure a =>
        intro s hs h
        exact hf a s hs (h s .refl)
    | raise e =>
        intro s _ h
        exact h
    | call c g ih =>
        intro s hs h t ht
        obtain ⟨hpre, hg⟩ := h t ht
        refine ⟨hpre, fun x r u hu => ih r u ?_ (hg x r u hu)⟩
        exact K.keeps (l := .call i k c x) (ht.inv hs) hpre (by simp [Machine.act, hu])
  exact fun s hs hPs => main p s hs (hp s hs hPs)

theorem Spec.attempt {P : σ → Prop} {p : Coro C R ε α} {Q : α → σ → Prop}
    {X X' : ε → σ → Prop} (hp : K.Spec i k P p Q X) :
    K.Spec i k P p.attempt
      (fun r s => match r with
        | .ok a => Q a s
        | .error e => X e s) X' := by
  have main : ∀ (p : Coro C R ε α) (s : σ), K.Obeys i k Q X p s →
      K.Obeys i k (fun r s => match r with
        | .ok a => Q a s
        | .error e => X e s) X' p.attempt s := by
    intro p
    induction p with
    | pure a => exact fun _ h => h
    | raise e => exact fun _ h => h
    | call c g ih =>
        intro s h t ht
        obtain ⟨hpre, hg⟩ := h t ht
        exact ⟨hpre, fun x r u hu => ih r u (hg x r u hu)⟩
  exact fun s hs hPs => main p s (hp s hs hPs)

theorem Spec.mono {P P' : σ → Prop} {p : Coro C R ε α} {Q Q' : α → σ → Prop}
    {X X' : ε → σ → Prop} (hp : K.Spec i k P p Q X)
    (hP : ∀ s, K.inv s → P' s → P s) (hQ : ∀ a s, K.inv s → Q a s → Q' a s)
    (hX : ∀ e s, K.inv s → X e s → X' e s) : K.Spec i k P' p Q' X' := by
  have main : ∀ (p : Coro C R ε α) (s : σ), K.inv s → K.Obeys i k Q X p s →
      K.Obeys i k Q' X' p s := by
    intro p
    induction p with
    | pure a => exact fun s hs h t ht => hQ a t (ht.inv hs) (h t ht)
    | raise e => exact fun s hs h t ht => hX e t (ht.inv hs) (h t ht)
    | call c g ih =>
        intro s hs h t ht
        obtain ⟨hpre, hg⟩ := h t ht
        refine ⟨hpre, fun x r u hu => ih r u ?_ (hg x r u hu)⟩
        exact K.keeps (l := .call i k c x) (ht.inv hs) hpre (by simp [Machine.act, hu])
  exact fun s hs hPs => main p s hs (hp s hs (hP s hs hPs))

/-- A precondition may be weakened to what holds there. -/
theorem Spec.pre {P P' : σ → Prop} {p : Coro C R ε α} {Q : α → σ → Prop}
    {X : ε → σ → Prop} (hp : K.Spec i k P p Q X)
    (hP : ∀ s, K.inv s → P' s → P s) : K.Spec i k P' p Q X :=
  fun s hs h => hp s hs (hP s hs h)

/-- A persistent fact may be carried past any function. -/
theorem Spec.frame {P F : σ → Prop} {p : Coro C R ε α} {Q : α → σ → Prop}
    {X : ε → σ → Prop} (hF : K.Persistent F) (hp : K.Spec i k P p Q X) :
    K.Spec i k (fun s => P s ∧ F s) p (fun a s => Q a s ∧ F s) (fun e s => X e s ∧ F s) := by
  have main : ∀ (p : Coro C R ε α) (s : σ), K.inv s → F s → K.Obeys i k Q X p s →
      K.Obeys i k (fun a s => Q a s ∧ F s) (fun e s => X e s ∧ F s) p s := by
    intro p
    induction p with
    | pure a => exact fun s _ hs h t ht => ⟨h t ht, hF.stable.drifts ht hs⟩
    | raise e => exact fun s _ hs h t ht => ⟨h t ht, hF.stable.drifts ht hs⟩
    | call c g ih =>
        intro s hi hs h t ht
        obtain ⟨hpre, hg⟩ := h t ht
        refine ⟨hpre, fun x r u hu => ?_⟩
        have ha : M.act (.call i k c x) t = some u := by simp [Machine.act, hu]
        have hti := ht.inv hi
        have hui := K.keeps (l := .call i k c x) hti hpre ha
        exact ih r u hui (hF t (.call i k c x) u hti hui hpre ha (hF.stable.drifts ht hs))
          (hg x r u hu)
  exact fun s hs hPs => main p s hs hPs.2 (hp s hs hPs.1)

/-! ## From the coroutines to the run -/

/-- The walk over the parties' coroutines: whatever a party is started with
obeys, and a party that is not running, killed or not yet started, leaves its
`post` alone. -/
structure Holds (K : Contract M) : Prop where
  start : ∀ {i e s k₀ k p s'}, K.inv s → K.post i k₀ s →
    M.start i e s = some (k, p, s') → K.inv s' →
    K.Obeys i k (fun _ => K.post i k) (fun _ => K.post i k) p s'
  crash : ∀ {i k s s'}, K.inv s → M.crash i k s = some s' → K.post i k s'
  stable : ∀ i k, K.Stable i (K.post i k)

/-- The pool is where the contract wants it. -/
def Good (K : Contract M) (p : Pool ι κ σ C R ε) : Prop :=
  K.inv p.shared ∧ ∀ i, K.Obeys i (p.threads i).1 (fun _ => K.post i (p.threads i).1)
    (fun _ => K.post i (p.threads i).1) (p.threads i).2 p.shared

/-- A run of the shared state alone, every call made as the contract says and
every move meeting `cond`. -/
inductive Trail (K : Contract M) (cond : σ → Label ι κ χ η C → Prop) : σ → σ → Prop where
  | refl (s) : Trail K cond s s
  | tail {s t u l} : Trail K cond s t → K.inv t → K.inv u → l.Allowed K.pre t →
      cond t l → M.act l t = some u → Trail K cond s u

/-- The induction every fact about runs uses: it holds at the start and no
allowed move breaks it. -/
theorem Trail.induct {cond : σ → Label ι κ χ η C → Prop} {J : σ → Prop} {s u : σ}
    (h : Trail K cond s u) (h0 : J s)
    (hstep : ∀ t l u, K.inv t → K.inv u → l.Allowed K.pre t → cond t l →
      M.act l t = some u → J t → J u) : J u := by
  induction h with
  | refl => exact h0
  | tail _ ht hu hl hc ha ih => exact hstep _ _ _ ht hu hl hc ha ih

theorem Obeys.post {Q X : σ → Prop} {p : Coro C R ε Unit} {s : σ} (hd : p.Done)
    (h : K.Obeys i k (fun _ => Q) (fun _ => X) p s) : Q s ∨ X s := by
  cases p with
  | pure a => exact .inl (h s .refl)
  | raise e => exact .inr (h s .refl)
  | call c f => exact False.elim hd

/-- A party that is not running is where its contract leaves it. -/
theorem Good.post {p : Pool ι κ σ C R ε} (h : K.Good p) {i : ι}
    (hd : (p.threads i).2.Done) : K.post i (p.threads i).1 p.shared :=
  (Obeys.post hd (h.2 i)).elim id id

theorem Good.others {p : Pool ι κ σ C R ε} {l : Label ι κ χ η C} {s : σ} (h : K.Good p)
    (hl : l.Allowed K.pre p.shared) (hs : K.inv s) (ha : M.act l p.shared = some s)
    {j : ι} (hj : l.party ≠ some j) :
    K.Obeys j (p.threads j).1 (fun _ => K.post j (p.threads j).1)
      (fun _ => K.post j (p.threads j).1) (p.threads j).2 s :=
  (h.2 j).drifts (.single ⟨h.1, hs, l, hj, hl, ha⟩)

variable [DecidableEq ι]

theorem Holds.step (hK : K.Holds) {p q : Pool ι κ σ C R ε} {l : Label ι κ χ η C}
    (hp : K.Good p) (h : M.Step p l q) :
    l.Allowed K.pre p.shared ∧ M.act l p.shared = some q.shared ∧ K.Good q := by
  rcases h.cases with ⟨i, x, c, f, r, rfl, hf, hr, rfl⟩ | ⟨i, e, r, rfl, hd, hr, rfl⟩ |
    ⟨e, s, rfl, hs, rfl⟩ | ⟨i, s, rfl, hs, rfl⟩
  · have hi := hp.2 i
    rw [hf] at hi
    obtain ⟨hpre, hg⟩ := hi p.shared .refl
    have ha : M.act (.call i (p.threads i).1 c x) p.shared = some r.2 := by
      simp [Machine.act, hr]
    have hinv := K.keeps (l := .call i (p.threads i).1 c x) hp.1 hpre ha
    refine ⟨hpre, ha, hinv, fun j => ?_⟩
    by_cases hj : j = i
    · subst hj
      simpa using hg x r.1 r.2 hr
    · simpa [Function.update_of_ne hj] using
        hp.others (l := .call i (p.threads i).1 c x) hpre hinv ha
          (by simpa [Label.party] using Ne.symm hj)
  · have ha : M.act (.start i e) p.shared = some r.2.2 := by simp [Machine.act, hr]
    have hinv := K.keeps (l := .start i e) hp.1 trivial ha
    refine ⟨trivial, ha, hinv, fun j => ?_⟩
    by_cases hj : j = i
    · subst hj
      simpa using hK.start hp.1 (hp.post hd) hr hinv
    · simpa [Function.update_of_ne hj] using
        hp.others (l := .start i e) trivial hinv ha
          (by simpa [Label.party] using Ne.symm hj)
  · have ha : M.act (.env e) p.shared = some s := hs
    have hinv := K.keeps (l := .env e) hp.1 trivial ha
    exact ⟨trivial, ha, hinv, fun j =>
      hp.others (l := .env e) trivial hinv ha (by simp [Label.party])⟩
  · have ha : M.act (.crash i (p.threads i).1) p.shared = some s := hs
    have hinv := K.keeps (l := .crash i (p.threads i).1) hp.1 trivial ha
    refine ⟨trivial, ha, hinv, fun j => ?_⟩
    by_cases hj : j = i
    · subst hj
      simpa [Obeys] using fun t ht => (hK.stable j _).drifts ht (hK.crash hp.1 hs)
    · simpa [Function.update_of_ne hj] using
        hp.others (l := .crash i (p.threads i).1) trivial hinv ha
          (by simpa [Label.party] using Ne.symm hj)

/-- Every run of the pool is, for the shared state, a run of allowed calls. -/
theorem Holds.refines (hK : K.Holds) {cond : σ → Label ι κ χ η C → Prop}
    {p q : Pool ι κ σ C R ε} (hp : K.Good p) (h : M.Reaches cond p q) :
    K.Good q ∧ K.Trail cond p.shared q.shared := by
  induction h with
  | refl => exact ⟨hp, .refl _⟩
  | tail _ hs hc ih =>
      obtain ⟨hl, ha, hg⟩ := hK.step ih.1 hs
      exact ⟨hg, .tail ih.2 ih.1.1 hg.1 hl hc ha⟩

/-- A party that is started was not running. -/
def Label.Rested {ι κ σ χ η C : Type} (post : ι → κ → σ → Prop) (s : σ) :
    Label ι κ χ η C → Prop
  | .start i _ => ∃ k, post i k s
  | _ => True

/-- The induction along a run of the pool itself, for a fact that a start could
break if the party were in the middle of something. -/
theorem Holds.induct (hK : K.Holds) {cond : σ → Label ι κ χ η C → Prop} {J : σ → Prop}
    {p q : Pool ι κ σ C R ε} (hp : K.Good p) (h : M.Reaches cond p q) (h0 : J p.shared)
    (hstep : ∀ t l u, K.inv t → K.inv u → l.Allowed K.pre t → Label.Rested K.post t l →
      cond t l → M.act l t = some u → J t → J u) : J q.shared := by
  induction h with
  | refl => exact h0
  | tail hrun hs hc ih =>
      have hg := (hK.refines hp hrun).1
      obtain ⟨hl, ha, hg'⟩ := hK.step hg hs
      refine hstep _ _ _ hg.1 hg'.1 hl ?_ hc ha ih
      rcases hs.cases with ⟨i, x, c, f, r, rfl, -, -, -⟩ | ⟨i, e, r, rfl, hd, -, -⟩ |
        ⟨e, s, rfl, -, -⟩ | ⟨i, s, rfl, -, -⟩
      · trivial
      · exact ⟨_, hg.post hd⟩
      · trivial
      · trivial

/-- What is persistent holds to the end of the run. -/
theorem Persistent.reaches (hK : K.Holds) {F : σ → Prop} (hF : K.Persistent F)
    {cond : σ → Label ι κ χ η C → Prop} {p q : Pool ι κ σ C R ε} (hp : K.Good p)
    (h : M.Reaches cond p q) (hs : F p.shared) : F q.shared :=
  (hK.refines hp h).2.induct hs fun t l u ht hu hl _ ha hF' => hF t l u ht hu hl ha hF'

end Contract

end TradingBroker.Lib
