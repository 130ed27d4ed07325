import Mathlib.Tactic.Common

/-!
# A bounded queue and the task that drains it

`asyncio.Queue` as far as `put_nowait`, `get` and `task_done` go, and the loop every
background task of an event loop is written around: take the next message, handle it
whatever becomes of that, and say so to the queue. `put` is what callers do at any time,
`turn` is the loop going on where it last waited, and `cancel` is the `CancelledError`
the task finds there instead.

What was accepted and what the handling of it came to are kept beside the queue, so that
nothing is lost, doubled or overtaken can be said of any run: `Kept` is the invariant, and
each operation keeps it. How far the loop is gets measured in half messages, since it takes
one in one turn and is done with it in the next; puts do not change the measure, and every
turn adds to it while something is left of what was accepted.
-/

namespace TradingBroker.Lib

variable {α : Type}

/-- An `asyncio.Queue`. `unfinished` counts what no `task_done` was called for. -/
structure Queue (α : Type) where
  maxsize : Nat
  items : List α
  unfinished : Nat
  deriving DecidableEq

namespace Queue

def new (maxsize : Nat) : Queue α := ⟨maxsize, [], 0⟩

/-- A queue without a size is never full. -/
def full (q : Queue α) : Bool := 0 < q.maxsize && q.maxsize ≤ q.items.length

/-- `put_nowait`, which raises `QueueFull`. -/
def putNowait (q : Queue α) (x : α) : Option (Queue α) :=
  if q.full then none else some { q with items := q.items ++ [x], unfinished := q.unfinished + 1 }

/-- `get`, which waits while there is nothing. -/
def get (q : Queue α) : Option (α × Queue α) :=
  match q.items with
  | [] => none
  | x :: xs => some (x, { q with items := xs })

/-- `task_done`, which raises `ValueError` when it was called too often. -/
def taskDone (q : Queue α) : Option (Queue α) :=
  if q.unfinished = 0 then none else some { q with unfinished := q.unfinished - 1 }

/-- What `join` waits for. -/
def joins (q : Queue α) : Bool := q.unfinished == 0

end Queue

/-- Where a drain task is: at its `get`, or in the handling of a message. -/
inductive Draining (α : Type) where
  | waiting
  | handling (x : α)
  deriving DecidableEq

/-- The queue, the task if there is one, what was accepted, and each message whose handling
has ended, with whether it ended by itself. -/
structure Mailbox (α : Type) where
  queue : Queue α
  task : Option (Draining α)
  accepted : List α
  ended : List (α × Bool)
  deriving DecidableEq

namespace Mailbox

def new (maxsize : Nat) : Mailbox α := ⟨.new maxsize, none, [], []⟩

/-- Put a message, or find the queue full. -/
def put (b : Mailbox α) (x : α) : Option (Mailbox α) :=
  (b.queue.putNowait x).map fun q => { b with queue := q, accepted := b.accepted ++ [x] }

/-- Create the task unless there is one. -/
def start (b : Mailbox α) : Mailbox α :=
  match b.task with
  | some _ => b
  | none => { b with task := some .waiting }

/-- The loop goes on: it takes a message if there is one, or its handling has ended, by
itself or with an exception the loop swallows. -/
def turn (b : Mailbox α) : Mailbox α :=
  match b.task with
  | none => b
  | some .waiting =>
      match b.queue.get with
      | none => b
      | some (x, q) => { b with queue := q, task := some (.handling x) }
  | some (.handling x) =>
      match b.queue.taskDone with
      | none => { b with task := none, ended := b.ended ++ [(x, true)] }
      | some q => { b with queue := q, task := some .waiting, ended := b.ended ++ [(x, true)] }

/-- The task is cancelled where it waits. What it was handling is cut off, and its
`finally` still says so to the queue. -/
def cancel (b : Mailbox α) : Mailbox α :=
  match b.task with
  | none => b
  | some .waiting => { b with task := none }
  | some (.handling x) =>
      { b with
        queue := (b.queue.taskDone).getD b.queue
        task := none
        ended := b.ended ++ [(x, false)] }

/-- What is with the handler. -/
def handling (b : Mailbox α) : List α :=
  match b.task with
  | some (.handling x) => [x]
  | _ => []

/-- What the handler was given, in order. -/
def given (b : Mailbox α) : List α := b.ended.map Prod.fst ++ b.handling

/-- Everything accepted was given to the handler, in order, or waits in the queue, and
`join` counts what is not done with. -/
structure Kept (b : Mailbox α) : Prop where
  order : b.accepted = b.given ++ b.queue.items
  count : b.queue.unfinished = b.queue.items.length + b.handling.length
  bound : 0 < b.queue.maxsize → b.queue.items.length ≤ b.queue.maxsize

theorem kept_new (maxsize : Nat) : (new maxsize : Mailbox α).Kept where
  order := rfl
  count := rfl
  bound _ := Nat.zero_le _

variable {b b' : Mailbox α}

/-- A message is turned away exactly if there is no room. -/
theorem put_eq_none_iff {x : α} :
    b.put x = none ↔ 0 < b.queue.maxsize ∧ b.queue.maxsize ≤ b.queue.items.length := by
  rw [put, Option.map_eq_none_iff, Queue.putNowait]
  split
  · next hfull =>
      simp only [Queue.full, Bool.and_eq_true, decide_eq_true_eq] at hfull
      simp only [hfull, and_self]
  · next hfull =>
      simp only [Queue.full, Bool.and_eq_true, decide_eq_true_eq] at hfull
      simp only [reduceCtorEq, hfull]

theorem put_spec {x : α} (h : b.put x = some b') :
    b' = { b with
      queue := { b.queue with
        items := b.queue.items ++ [x], unfinished := b.queue.unfinished + 1 }
      accepted := b.accepted ++ [x] } := by
  obtain ⟨q, hq, rfl⟩ := Option.map_eq_some_iff.1 h
  rw [Queue.putNowait] at hq
  split at hq
  · cases hq
  · rw [← Option.some.inj hq]

theorem Kept.put {x : α} (hb : b.Kept) (h : b.put x = some b') : b'.Kept := by
  have hroom : ¬(0 < b.queue.maxsize ∧ b.queue.maxsize ≤ b.queue.items.length) := by
    rw [← put_eq_none_iff (x := x), h]
    exact Option.some_ne_none b'
  have hspec := put_spec h
  subst hspec
  have hcount := hb.count
  constructor
  · show b.accepted ++ [x] = b.given ++ (b.queue.items ++ [x])
    rw [hb.order, List.append_assoc]
  · show b.queue.unfinished + 1 = (b.queue.items ++ [x]).length + b.handling.length
    rw [List.length_append, List.length_singleton]
    omega
  · show 0 < b.queue.maxsize → (b.queue.items ++ [x]).length ≤ b.queue.maxsize
    intro hsize
    rw [List.length_append, List.length_singleton]
    omega

theorem Kept.start (hb : b.Kept) : b.start.Kept := by
  rw [Mailbox.start]
  split
  · exact hb
  · next htask =>
      have horder := hb.order
      have hcount := hb.count
      simp only [given, handling, htask] at horder hcount
      exact ⟨horder, hcount, hb.bound⟩

/-- What one turn of the loop does. -/
theorem turn_cases (hb : b.Kept) :
    (b.turn = b ∧ (b.task = none ∨ b.task = some .waiting ∧ b.queue.items = [])) ∨
    (∃ x xs, b.task = some .waiting ∧ b.queue.items = x :: xs ∧
      b.turn = { b with
        queue := { b.queue with items := xs }
        task := some (.handling x) }) ∨
    (∃ x, b.task = some (.handling x) ∧
      b.turn = { b with
        queue := { b.queue with unfinished := b.queue.items.length }
        task := some .waiting
        ended := b.ended ++ [(x, true)] }) := by
  cases htask : b.task with
  | none => exact .inl ⟨by simp only [turn, htask], .inl rfl⟩
  | some d =>
      cases d with
      | waiting =>
          cases hitems : b.queue.items with
          | nil => exact .inl ⟨by simp only [turn, htask, Queue.get, hitems], .inr ⟨rfl, rfl⟩⟩
          | cons x xs =>
              exact .inr (.inl ⟨x, xs, rfl, rfl, by simp only [turn, htask, Queue.get, hitems]⟩)
      | handling x =>
          refine .inr (.inr ⟨x, rfl, ?_⟩)
          have hcount := hb.count
          simp only [handling, htask, List.length_singleton] at hcount
          have hne : b.queue.unfinished ≠ 0 := by omega
          have hless : b.queue.unfinished - 1 = b.queue.items.length := by omega
          simp only [turn, htask, Queue.taskDone, if_neg hne, hless]

theorem Kept.turn (hb : b.Kept) : b.turn.Kept := by
  have horder := hb.order
  have hcount := hb.count
  have hbound := hb.bound
  rcases turn_cases hb with ⟨hsame, -⟩ | ⟨x, xs, htask, hitems, hturn⟩ | ⟨x, htask, hturn⟩
  · rw [hsame]
    exact hb
  · simp only [given, handling, htask, hitems, List.length_cons] at horder hcount hbound
    rw [hturn]
    constructor
    · show b.accepted = (b.ended.map Prod.fst ++ [x]) ++ xs
      rw [horder, List.append_nil, List.append_assoc, List.singleton_append]
    · exact hcount
    · intro hsize
      exact Nat.le_of_succ_le (hbound hsize)
  · simp only [given, handling, htask] at horder
    rw [hturn]
    constructor
    · show b.accepted = ((b.ended ++ [(x, true)]).map Prod.fst ++ []) ++ b.queue.items
      rw [horder, List.map_append, List.map_singleton, List.append_nil]
    · rfl
    · exact hbound

/-- A cancelled task leaves what waits where it is. -/
theorem cancel_cases (hb : b.Kept) :
    (b.handling = [] ∧ b.cancel = { b with task := none }) ∨
    (∃ x, b.task = some (.handling x) ∧
      b.cancel = { b with
        queue := { b.queue with unfinished := b.queue.items.length }
        task := none
        ended := b.ended ++ [(x, false)] }) := by
  cases htask : b.task with
  | none =>
      have hsame : b.cancel = b := by simp only [cancel, htask]
      exact .inl ⟨by simp only [handling, htask], by rw [hsame, ← htask]⟩
  | some d =>
      cases d with
      | waiting => exact .inl ⟨by simp only [handling, htask], by simp only [cancel, htask]⟩
      | handling x =>
          refine .inr ⟨x, rfl, ?_⟩
          have hcount := hb.count
          simp only [handling, htask, List.length_singleton] at hcount
          have hne : b.queue.unfinished ≠ 0 := by omega
          have hless : b.queue.unfinished - 1 = b.queue.items.length := by omega
          simp only [cancel, htask, Queue.taskDone, if_neg hne, hless, Option.getD_some]

theorem Kept.cancel (hb : b.Kept) : b.cancel.Kept := by
  have horder := hb.order
  have hcount := hb.count
  rcases cancel_cases hb with ⟨hnone, hcancel⟩ | ⟨x, htask, hcancel⟩
  · rw [given, hnone] at horder
    rw [hnone] at hcount
    rw [hcancel]
    exact ⟨horder, hcount, hb.bound⟩
  · simp only [given, handling, htask] at horder
    rw [hcancel]
    constructor
    · show b.accepted = ((b.ended ++ [(x, false)]).map Prod.fst ++ []) ++ b.queue.items
      rw [horder, List.map_append, List.map_singleton, List.append_nil]
    · rfl
    · exact hb.bound

theorem accepted_start (b : Mailbox α) : b.start.accepted = b.accepted := by
  rw [start]
  split <;> rfl

theorem accepted_turn (hb : b.Kept) : b.turn.accepted = b.accepted := by
  rcases turn_cases hb with ⟨hsame, -⟩ | ⟨_, _, -, -, hturn⟩ | ⟨_, -, hturn⟩
  · rw [hsame]
  · rw [hturn]
  · rw [hturn]

theorem accepted_cancel (hb : b.Kept) : b.cancel.accepted = b.accepted := by
  rcases cancel_cases hb with ⟨-, hcancel⟩ | ⟨_, -, hcancel⟩
  · rw [hcancel]
  · rw [hcancel]

theorem task_turn (hb : b.Kept) (htask : b.task ≠ none) : b.turn.task ≠ none := by
  rcases turn_cases hb with ⟨hsame, -⟩ | ⟨_, _, -, -, hturn⟩ | ⟨_, -, hturn⟩
  · rwa [hsame]
  · rw [hturn]
    exact Option.some_ne_none _
  · rw [hturn]
    exact Option.some_ne_none _

/-- When `join` comes back, the handling of everything accepted has ended. -/
theorem Kept.joins (hb : b.Kept) (h : b.queue.joins = true) :
    b.accepted = b.ended.map Prod.fst ∧ b.queue.items = [] ∧ b.handling = [] := by
  have hcount := hb.count
  rw [Queue.joins, beq_iff_eq] at h
  have hitems : b.queue.items = [] := List.eq_nil_of_length_eq_zero (by omega)
  have hhandling : b.handling = [] := List.eq_nil_of_length_eq_zero (by omega)
  have horder := hb.order
  rw [given, hitems, hhandling, List.append_nil, List.append_nil] at horder
  exact ⟨horder, hitems, hhandling⟩

/-! ## How far the loop is -/

/-- Two for every message done with, and one for the one taken. -/
def progress (b : Mailbox α) : Nat := 2 * b.ended.length + b.handling.length

theorem progress_put {x : α} (h : b.put x = some b') : b'.progress = b.progress := by
  rw [put_spec h]
  rfl

theorem progress_turn (hb : b.Kept) (htask : b.task ≠ none) :
    min (b.progress + 1) (2 * b.accepted.length) ≤ b.turn.progress := by
  have hlength := congrArg List.length hb.order
  simp only [given, List.length_append, List.length_map] at hlength
  rcases turn_cases hb with ⟨hsame, hwaits⟩ | ⟨x, xs, hwait, hitems, hturn⟩ | ⟨x, hhand, hturn⟩
  · rcases hwaits with hnone | ⟨hwait, hnil⟩
    · exact absurd hnone htask
    · rw [hsame]
      simp only [progress, handling, hwait, hnil, List.length_nil] at hlength ⊢
      omega
  · rw [hturn]
    simp only [progress, handling, hwait, List.length_nil, List.length_singleton]
    omega
  · rw [hturn]
    simp only [progress, handling, hhand, List.length_nil, List.length_append,
      List.length_singleton]
    omega

/-- Once the measure says so, what was accepted at some time is done with. -/
theorem Kept.ended_of_progress (hb : b.Kept) {before : List α} (hbefore : before <+: b.accepted)
    (h : 2 * before.length ≤ b.progress) : before <+: b.ended.map Prod.fst := by
  have hprefix : b.ended.map Prod.fst <+: b.accepted := by
    rw [hb.order, given, List.append_assoc]
    exact List.prefix_append _ _
  refine List.prefix_of_prefix_length_le hbefore hprefix ?_
  have hhandling : b.handling.length ≤ 1 := by
    rw [handling]
    split <;> simp
  rw [progress] at h
  rw [List.length_map]
  omega

end Mailbox

end TradingBroker.Lib
