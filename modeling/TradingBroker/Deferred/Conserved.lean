import TradingBroker.Lib.Places
import TradingBroker.Deferred.Enqueuer

/-!
# An envelope is owed until it has gone somewhere

What `submit` took is in one place at any moment. The queue, the variable `_in_flight` and
the logs of what left are not all of them: a `stop` moves what is left into a list of its
own before it publishes any of it, and while it works through that list `pending` no
longer counts it. With the list among the places the count is exact. A step moves an
envelope from one place to another, and the only one that makes any is `submit`.

The tickets of the failed attempts are counted beside it, since whether the loop gives up
depends on `attempts` alone.

`Inv` says it of the whole state: all places together are a permutation of what was
submitted (`moved`), the tickets number it, and what the loop has in its hands is what
`_in_flight` says, having failed once less than it was tried or as often. That each
envelope lies in exactly one place is read off the permutation and the numbering
(`Lib.Places`).
-/

namespace TradingBroker.Deferred

open TradingBroker.Lib

inductive Place where
  | queue
  | inFlight
  | draining
  | accepted
  | gaveUp
  | dropped
  | flushed
  | lost
  deriving DecidableEq

namespace Place

def all : List Place :=
  [queue, inFlight, draining, accepted, gaveUp, dropped, flushed, lost]

theorem mem_all (p : Place) : p ∈ all := by
  cases p <;> decide

end Place

/-- What `_drain` has not settled yet. -/
def Stopping.rest : Stopping → List DeferredEnvelope
  | .draining rest _ => rest
  | _ => []

/-- An envelope as `submit` took it. -/
def DeferredEnvelope.fresh (item : DeferredEnvelope) : DeferredEnvelope :=
  { item with attempts := 0 }

namespace Enqueuer

def contents (s : Enqueuer) : Place → List DeferredEnvelope
  | .queue => s.queue
  | .inFlight => s.inFlight.toList
  | .draining => s.stopping.rest
  | .accepted => s.accepted
  | .gaveUp => s.gaveUp
  | .dropped => s.dropped
  | .flushed => s.flushed
  | .lost => s.lost

/-- The tickets in a place. -/
def held (s : Enqueuer) (p : Place) : List Nat := (s.contents p).map (·.ticket)

def everything (s : Enqueuer) : List DeferredEnvelope := Place.all.flatMap s.contents

/-- How many attempts an envelope gets: one is made before they are counted. -/
def budget (s : Enqueuer) : Int := max s.maxAttempts 1

/-- What is promised: every envelope that was taken lies in one place, once, as it was
taken; what was given up has failed as often as there are attempts; and `pending` counts
what lies in the queue or in flight. -/
structure Conserved (s : Enqueuer) : Prop where
  once : ∀ t < s.submitted.length, LiesOnce s.held t
  same : ∀ p, ∀ i ∈ s.contents p, s.submitted[i.ticket]? = some i.fresh
  spent : ∀ i ∈ s.gaveUp, (s.failures.count i.ticket : Int) = s.budget
  owed : s.pending =
    (List.range s.submitted.length).countP fun t => decide (t ∈ s.held .queue ++ s.held .inFlight)

/-! ## The invariant -/

/-- What the loop has in its hands is what `_in_flight` says, and it has failed as often
as it was tried. -/
def LoopHolds (s : Enqueuer) : Prop :=
  match s.task with
  | none | some .waiting => s.inFlight = none
  | some (.publishing i) =>
      s.inFlight = some i ∧ s.failures.count i.ticket + 1 = i.attempts ∧ i.attempts ≤ s.budget
  | some (.sleeping i) =>
      s.inFlight = some i ∧ s.failures.count i.ticket = i.attempts ∧ i.attempts < s.budget
  | some .done => s.stopping = .awaiting

/-- The invariant every step keeps. -/
structure Inv (s : Enqueuer) : Prop where
  moved : (s.everything.map (·.fresh)).Perm s.submitted
  numbered : s.submitted.map (·.ticket) = List.range s.submitted.length
  loop : s.LoopHolds
  queued : ∀ i ∈ s.queue, s.failures.count i.ticket = i.attempts ∧ i.attempts < s.budget
  spent : ∀ i ∈ s.gaveUp, (s.failures.count i.ticket : Int) = s.budget
  known : ∀ t ∈ s.failures, t < s.submitted.length

variable {s t : Enqueuer} {a : Action} {item : DeferredEnvelope}

theorem everything_held : s.everything.map (·.ticket) = Place.all.flatMap s.held := by
  simp only [everything, List.map_flatMap]
  rfl

theorem Inv.kept (h : s.Inv) : Kept s.held Place.all s.submitted.length := by
  have hperm := h.moved.map (·.ticket)
  rw [h.numbered, List.map_map] at hperm
  show (Place.all.flatMap s.held).Perm _
  rw [← everything_held]
  exact hperm

theorem mem_everything {p : Place} (hi : item ∈ s.contents p) : item ∈ s.everything :=
  List.mem_flatMap.2 ⟨p, p.mem_all, hi⟩

theorem Inv.ticket_lt (h : s.Inv) {p : Place} (hi : item ∈ s.contents p) :
    item.ticket < s.submitted.length :=
  h.kept.lt p.mem_all (List.mem_map_of_mem hi)

theorem Inv.same (h : s.Inv) {p : Place} (hi : item ∈ s.contents p) :
    s.submitted[item.ticket]? = some item.fresh := by
  have hmem : item.fresh ∈ s.submitted :=
    h.moved.mem_iff.1 (List.mem_map_of_mem (mem_everything hi))
  obtain ⟨k, hk, hget⟩ := List.getElem_of_mem hmem
  have hticket : (s.submitted.map (·.ticket))[k]? = some item.ticket := by
    rw [List.getElem?_map, List.getElem?_eq_getElem hk, hget]
    rfl
  rw [h.numbered, List.getElem?_range hk] at hticket
  rw [← Option.some.inj hticket, List.getElem?_eq_getElem hk, hget]

theorem Inv.conserved (h : s.Inv) : s.Conserved where
  once t ht := h.kept.liesOnce Place.mem_all ht
  same p i hi := h.same hi
  spent := h.spent
  owed := by
    rw [h.kept.countP_range Place.mem_all (by decide)]
    simp only [held, contents, List.length_map, pending]
    cases s.inFlight <;> simp

/-! ## A step -/

/-- How often an envelope is there, place by place. -/
theorem count_everything [DecidableEq DeferredEnvelope] (x : DeferredEnvelope) :
    (s.everything.map (·.fresh)).count x =
      (s.queue.map (·.fresh)).count x + (s.inFlight.toList.map (·.fresh)).count x +
        (s.stopping.rest.map (·.fresh)).count x + (s.accepted.map (·.fresh)).count x +
        (s.gaveUp.map (·.fresh)).count x + (s.dropped.map (·.fresh)).count x +
        (s.flushed.map (·.fresh)).count x + (s.lost.map (·.fresh)).count x := by
  simp only [everything, Place.all, contents, List.flatMap_cons, List.flatMap_nil, List.map_append,
    List.count_append, List.map_nil, List.count_nil]
  omega

@[simp] theorem rest_drainNext (l : List DeferredEnvelope) : (drainNext l).rest = l := by
  cases l <;> rfl

@[simp] theorem rest_draining (l : List DeferredEnvelope) (trying : Bool) :
    (Stopping.draining l trying).rest = l := rfl

@[simp] theorem fresh_attempts (n : Nat) : { item with attempts := n }.fresh = item.fresh := rfl

theorem Inv.waiting (h : s.Inv) (htask : s.task = some .waiting) : s.inFlight = none := by
  have hloop := h.loop
  rw [LoopHolds, htask] at hloop
  exact hloop

theorem Inv.publishing (h : s.Inv) (htask : s.task = some (.publishing item)) :
    s.inFlight = some item ∧ s.failures.count item.ticket + 1 = item.attempts ∧
      item.attempts ≤ s.budget := by
  have hloop := h.loop
  rw [LoopHolds, htask] at hloop
  exact hloop

theorem Inv.sleeping (h : s.Inv) (htask : s.task = some (.sleeping item)) :
    s.inFlight = some item ∧ s.failures.count item.ticket = item.attempts ∧
      item.attempts < s.budget := by
  have hloop := h.loop
  rw [LoopHolds, htask] at hloop
  exact hloop

/-- A step that makes no envelope only has to leave as many of each. -/
theorem Inv.moves (h : s.Inv)
    (hcount : ∀ [DecidableEq DeferredEnvelope] (x : DeferredEnvelope),
      (t.everything.map (·.fresh)).count x = (s.everything.map (·.fresh)).count x) :
    (t.everything.map (·.fresh)).Perm s.submitted := by
  classical
  exact (List.perm_iff_count.2 fun x => hcount x).trans h.moved

theorem Inv.moved_step (h : s.Inv) (hstep : Stepped s a t) :
    (t.everything.map (·.fresh)).Perm t.submitted := by
  cases hstep with
  | refused => exact h.moved
  | @submitted _ _ _ item hfull hitem =>
    classical
    have hfresh : item.fresh = item := by rw [hitem]; rfl
    refine List.Perm.trans (List.perm_iff_count.2 fun x => ?_) (h.moved.append_right [item])
    simp only [List.count_append, count_everything, List.map_append, List.map_cons, List.map_nil,
      hfresh]
    omega
  | running => exact h.moved
  | started => exact h.moves fun x => by simp only [count_everything]
  | take htask hqueue =>
    refine h.moves fun x => ?_
    simp only [count_everything, take, hqueue, h.waiting htask, Option.toList, List.map_cons,
      List.map_nil, List.count_cons, List.count_nil, fresh_attempts]
    omega
  | published htask =>
    refine h.moves fun x => ?_
    simp only [count_everything, published, (h.publishing htask).1, Option.toList, List.map_append,
      List.map_cons, List.map_nil, List.count_append, List.count_nil]
    omega
  | gaveUp htask =>
    refine h.moves fun x => ?_
    simp only [count_everything, (h.publishing htask).1, Option.toList, List.map_append,
      List.map_cons, List.map_nil, List.count_append, List.count_nil]
    omega
  | failed => exact h.moves fun x => by simp only [count_everything]
  | dropped htask =>
    refine h.moves fun x => ?_
    simp only [count_everything, (h.sleeping htask).1, Option.toList, List.map_append,
      List.map_cons, List.map_nil, List.count_append, List.count_nil]
    omega
  | requeued htask =>
    refine h.moves fun x => ?_
    simp only [count_everything, (h.sleeping htask).1, Option.toList, List.map_append,
      List.map_cons, List.map_nil, List.count_append, List.count_nil]
    omega
  | stop hidle => exact h.moves fun x => by simp only [count_everything, hidle, Stopping.rest]
  | cancelled => exact h.moves fun x => by simp only [count_everything]
  | collected hstop =>
    have hrest : s.stopping.rest = [] := by rcases hstop with hstop | hstop <;> rw [hstop] <;> rfl
    refine h.moves fun x => ?_
    simp only [count_everything, collect, rest_drainNext, hrest, Option.toList, List.map_append,
      List.map_nil, List.count_append, List.count_nil]
    omega
  | tryFlush hstop => exact h.moves fun x => by simp only [count_everything, hstop, rest_draining]
  | flushed hstop =>
    refine h.moves fun x => ?_
    simp only [count_everything, hstop, rest_draining, rest_drainNext, List.map_append,
      List.map_cons, List.map_nil, List.count_append, List.count_cons, List.count_nil]
    omega
  | lost hstop =>
    refine h.moves fun x => ?_
    simp only [count_everything, hstop, rest_draining, rest_drainNext, List.map_append,
      List.map_cons, List.map_nil, List.count_append, List.count_cons, List.count_nil]
    omega

theorem Inv.numbered_step (h : s.Inv) (hstep : Stepped s a t) :
    t.submitted.map (·.ticket) = List.range t.submitted.length := by
  cases hstep with
  | submitted hfull hitem =>
    simp only [List.map_append, List.map_cons, List.map_nil, List.length_append, List.length_cons,
      List.length_nil, h.numbered, hitem, List.range_succ]
  | take | published | collected => exact h.numbered
  | _ => exact h.numbered

/-- Tickets of the failed attempts are of envelopes that were taken. -/
theorem Inv.known_step (h : s.Inv) (hstep : Stepped s a t) :
    ∀ n ∈ t.failures, n < t.submitted.length := by
  have hadd {item : DeferredEnvelope} (hflight : s.inFlight = some item) :
      ∀ n ∈ s.failures ++ [item.ticket], n < s.submitted.length := by
    intro n hn
    rcases List.mem_append.1 hn with hn | hn
    · exact h.known n hn
    · rw [List.mem_singleton.1 hn]
      exact h.ticket_lt (p := .inFlight) (by simp [contents, hflight])
  cases hstep with
  | submitted =>
    intro n hn
    have := h.known n hn
    simp only [List.length_append]
    omega
  | gaveUp htask => exact hadd (h.publishing htask).1
  | failed htask => exact hadd (h.publishing htask).1
  | _ => exact h.known

/-- An envelope the loop holds is not the one that `i` is. -/
theorem Inv.ne_inFlight (h : s.Inv) (hflight : s.inFlight = some item) {p : Place}
    (hp : p ≠ .inFlight) {i : DeferredEnvelope} (hi : i ∈ s.contents p) :
    i.ticket ≠ item.ticket := by
  refine h.kept.ne Place.mem_all hp (List.mem_map_of_mem hi) (List.mem_map_of_mem ?_)
  simp only [contents, hflight, Option.toList, List.mem_singleton]

theorem Inv.queued_step (h : s.Inv) (hstep : Stepped s a t) :
    ∀ i ∈ t.queue, t.failures.count i.ticket = i.attempts ∧ i.attempts < t.budget := by
  have hfail {item : DeferredEnvelope} (hflight : s.inFlight = some item) : ∀ i ∈ s.queue,
      (s.failures ++ [item.ticket]).count i.ticket = i.attempts ∧ i.attempts < s.budget := by
    intro i hi
    have hne := h.ne_inFlight hflight (p := .queue) (by decide) hi
    rw [List.count_append, List.count_singleton, if_neg (by simpa using hne.symm)]
    exact h.queued i hi
  cases hstep with
  | @submitted _ _ _ item hfull hitem =>
    intro i hi
    rcases List.mem_append.1 hi with hi | hi
    · exact h.queued i hi
    · rw [List.mem_singleton.1 hi]
      have hnew : s.failures.count s.submitted.length = 0 :=
        List.count_eq_zero_of_not_mem fun hmem => Nat.lt_irrefl _ (h.known _ hmem)
      subst hitem
      refine ⟨hnew, ?_⟩
      show (0 : Int) < max s.maxAttempts 1
      omega
  | take htask hqueue =>
    intro i hi
    exact h.queued i (hqueue ▸ List.mem_cons_of_mem _ hi)
  | gaveUp htask => exact hfail (h.publishing htask).1
  | failed htask => exact hfail (h.publishing htask).1
  | requeued htask =>
    intro i hi
    rcases List.mem_append.1 hi with hi | hi
    · exact h.queued i hi
    · rw [List.mem_singleton.1 hi]
      exact (h.sleeping htask).2
  | collected =>
    intro i hi
    simp [collect] at hi
  | _ => exact h.queued

theorem Inv.spent_step (h : s.Inv) (hstep : Stepped s a t) :
    ∀ i ∈ t.gaveUp, (t.failures.count i.ticket : Int) = t.budget := by
  have hfail {item : DeferredEnvelope} (hflight : s.inFlight = some item) : ∀ i ∈ s.gaveUp,
      ((s.failures ++ [item.ticket]).count i.ticket : Int) = s.budget := by
    intro i hi
    have hne := h.ne_inFlight hflight (p := .gaveUp) (by decide) hi
    rw [List.count_append, List.count_singleton, if_neg (by simpa using hne.symm)]
    exact h.spent i hi
  cases hstep with
  | @gaveUp item htask hspent =>
    obtain ⟨hflight, hcount, hle⟩ := h.publishing htask
    intro i hi
    rcases List.mem_append.1 hi with hi | hi
    · exact hfail hflight i hi
    · rw [List.mem_singleton.1 hi]
      show ((s.failures ++ [item.ticket]).count item.ticket : Int) = max s.maxAttempts 1
      rw [List.count_append, List.count_singleton_self]
      have hbudget : (item.attempts : Int) ≤ max s.maxAttempts 1 := hle
      omega
  | failed htask => exact hfail (h.publishing htask).1
  | _ => exact h.spent

/-- What `stop` awaits matters to the loop only when that is its own end. -/
theorem LoopHolds.stopping (h : s.LoopHolds) (hstop : s.stopping ≠ .awaiting) {x : Stopping} :
    { s with stopping := x }.LoopHolds := by
  rw [LoopHolds] at h ⊢
  split at h
  · next htask => simpa only [htask] using h
  · next htask => simpa only [htask] using h
  · next htask => simpa only [htask, budget] using h
  · next htask => simpa only [htask, budget] using h
  · exact absurd h hstop

theorem Inv.loop_step (h : s.Inv) (hstep : Stepped s a t) : t.LoopHolds := by
  have hloop := h.loop
  cases hstep with
  | started hidle hrunning =>
    show s.inFlight = none
    rw [LoopHolds] at hloop
    rw [running] at hrunning
    split at hrunning
    · next htask =>
      rw [htask] at hloop
      exact hloop
    · next htask =>
      rw [htask, hidle] at hloop
      cases hloop
    · cases hrunning
  | @take item rest htask hqueue =>
    obtain ⟨hcount, hlt⟩ := h.queued item (hqueue ▸ List.mem_cons_self)
    refine ⟨rfl, ?_, ?_⟩
    · show s.failures.count item.ticket + 1 = item.attempts + 1
      rw [hcount]
    · show ((item.attempts + 1 : Nat) : Int) ≤ s.budget
      omega
  | published => exact rfl
  | gaveUp => exact rfl
  | @failed item htask hspent =>
    obtain ⟨hflight, hcount, -⟩ := h.publishing htask
    refine ⟨hflight, ?_, ?_⟩
    · show (s.failures ++ [item.ticket]).count item.ticket = item.attempts
      rw [List.count_append, List.count_singleton_self, hcount]
    · show (item.attempts : Int) < max s.maxAttempts 1
      omega
  | dropped => exact rfl
  | requeued => exact rfl
  | stop hidle => exact hloop.stopping (by rw [hidle]; simp)
  | cancelled hstop => exact hstop
  | collected => exact rfl
  | tryFlush hstop => exact hloop.stopping (by rw [hstop]; simp)
  | flushed hstop => exact hloop.stopping (by rw [hstop]; simp)
  | lost hstop => exact hloop.stopping (by rw [hstop]; simp)
  | _ => exact hloop

theorem Inv.step (h : s.Inv) (hstep : s.step a = some t) : t.Inv :=
  have hstep := step_cases hstep
  ⟨h.moved_step hstep, h.numbered_step hstep, h.loop_step hstep, h.queued_step hstep,
    h.spent_step hstep, h.known_step hstep⟩

/-! ## A run -/

variable {maxAttempts maxsize : Int} {acts : List Action}

theorem new_inv : (new maxAttempts maxsize).Inv where
  moved := by simp [everything, Place.all, contents, new, Stopping.rest]
  numbered := rfl
  loop := rfl
  queued i hi := by simp [new] at hi
  spent i hi := by simp [new] at hi
  known n hn := by simp [new] at hn

theorem Inv.run (h : s.Inv) (hrun : s.run acts = some t) : t.Inv := by
  induction acts generalizing s with
  | nil => exact Option.some.inj hrun ▸ h
  | cons a as ih =>
    rw [Enqueuer.run] at hrun
    obtain ⟨u, hstep, hrest⟩ := Option.bind_eq_some_iff.1 hrun
    exact ih (h.step hstep) hrest

/-- Nothing was ever left to a `stop`. -/
structure Unstopped (s : Enqueuer) : Prop where
  idle : s.stopping = .idle
  flushed : s.flushed = []
  lost : s.lost = []

theorem Unstopped.step (h : s.Unstopped) (hne : a ≠ .stop) (hstep : s.step a = some t) :
    t.Unstopped := by
  obtain ⟨hidle, hflushed, hlost⟩ := h
  have hstepped := step_cases hstep
  cases hstepped with
  | stop => exact absurd rfl hne
  | cancelled hstop => rw [hidle] at hstop; cases hstop
  | collected _ ha =>
    rcases ha with rfl | rfl
    · exact absurd rfl hne
    · simp only [Enqueuer.step, hidle] at hstep
      cases hstep
  | tryFlush hstop => rw [hidle] at hstop; cases hstop
  | flushed hstop => rw [hidle] at hstop; cases hstop
  | lost hstop => rw [hidle] at hstop; cases hstop
  | _ => exact ⟨hidle, hflushed, hlost⟩

theorem Unstopped.run (h : s.Unstopped) (hnot : Action.stop ∉ acts)
    (hrun : s.run acts = some t) : t.Unstopped := by
  induction acts generalizing s with
  | nil => exact Option.some.inj hrun ▸ h
  | cons a as ih =>
    rw [Enqueuer.run] at hrun
    obtain ⟨u, hstep, hrest⟩ := Option.bind_eq_some_iff.1 hrun
    rw [List.mem_cons, not_or] at hnot
    obtain ⟨hne, hnot⟩ := hnot
    exact ih (h.step (Ne.symm hne) hstep) hnot hrest

/-- Whatever was taken is in one place, once, as it was taken; what was given up had all
its attempts; `pending` counts what is queued or in flight; and only a `stop` drains. -/
theorem envelopes_conserved (hrun : (new maxAttempts maxsize).run acts = some s) :
    s.Conserved ∧
      (Action.stop ∉ acts → ∀ p ∈ [Place.draining, .flushed, .lost], s.contents p = []) := by
  refine ⟨(new_inv.run hrun).conserved, ?_⟩
  intro hnot p hp
  have h : s.Unstopped := Unstopped.run ⟨rfl, rfl, rfl⟩ hnot hrun
  simp only [List.mem_cons, List.not_mem_nil, or_false] at hp
  rcases hp with rfl | rfl | rfl
  · simp only [contents, h.idle, Stopping.rest]
  · exact h.flushed
  · exact h.lost

/-- An envelope cancelled in its first attempt and flushed. -/
theorem envelopes_conserved_flushed : ∃ s, (new 15 500).run
    [.submit "s" .null 0, .start, .take, .stop, .cancelled, .collect, .tryFlush, .flushed] =
      some s ∧ s.Conserved := by
  obtain ⟨s, hrun⟩ : ∃ s, (new 15 500).run [.submit "s" .null 0, .start, .take, .stop, .cancelled,
      .collect, .tryFlush, .flushed] = some s := ⟨_, rfl⟩
  exact ⟨s, hrun, (envelopes_conserved hrun).1⟩

/-! ## Without the list that `stop` drains -/

/-- Every envelope lies in one of the places other than the list: what would hold if
`stop` had no list of its own. -/
def OutsideDrain (s : Enqueuer) : Prop :=
  ∀ t < s.submitted.length, LiesOnce (fun p => if p = .draining then [] else s.held p) t

/-- `pending` as if what is on the list were still in flight. -/
def OwedWithDrain (s : Enqueuer) : Prop :=
  s.pending = (List.range s.submitted.length).countP fun t =>
    decide (t ∈ s.held .queue ++ s.held .inFlight ++ s.held .draining)

/-- Stopped during the first attempt of the only envelope. -/
theorem not_conserved_outside_drain :
    ¬ ∀ (acts : List Action) (s : Enqueuer), (new 15 500).run acts = some s →
      s.OutsideDrain ∨ s.OwedWithDrain := by
  intro h
  rcases h [.start, .submit "s" .null 0, .take, .stop, .cancelled, .collect] _ rfl with h | h
  · obtain ⟨p, hone, -⟩ := h 0 (by decide)
    cases p <;> exact absurd hone (by decide +kernel)
  · rw [OwedWithDrain] at h
    exact absurd h (by decide +kernel)

end Enqueuer

end TradingBroker.Deferred
