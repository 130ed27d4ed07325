import TradingBroker.Schemas.Core

/-!
# The deferred enqueue

`DeferredEnqueuer` of `broker/services/signal_processing_service.py`. The webhook hands it
an envelope JetStream did not acknowledge in time, and one loop keeps trying: it takes the
oldest, publishes it, and after a failure waits out the interval with the envelope in its
hands before it puts it back. `stop` cancels the loop at whatever it awaits and publishes
what is left once more.

Between two awaits nothing else runs, so the machine's steps are what happens from one
await to the next: of the loop, of `stop`, and of whoever calls `submit`. How long anything
takes is not part of it. The logs are: every envelope that leaves is written down where it
went. `start` and `stop` are the two ends of the app's life, so one is not called while the
other is under way.

`step` answers nothing where an action is not possible, so a list of actions that runs is
a history of the enqueuer and nothing else. What a step can do is said once, by
`step_cases`, and everything that is kept through a run is shown from that.
-/

namespace TradingBroker.Deferred

/-- A `Nats-Msg-Id`: the 128 bits of a `uuid4`. -/
abbrev MsgId := Nat

/-- `_DeferredEnvelope`. `ticket` tells apart two of them that read the same: it is the
number of the `submit` that made this one. -/
structure DeferredEnvelope where
  ticket : Nat
  strategy : String
  envelope : Json
  msgId : MsgId
  attempts : Nat

/-- The loop, by what it awaits: the queue, a publish, or the interval. -/
inductive Loop where
  | waiting
  | publishing (item : DeferredEnvelope)
  | sleeping (item : DeferredEnvelope)
  | done

/-- `stop`, by what it awaits: the cancelled task, or the drain of what was left.
`trying` says that the first of the rest is being published. -/
inductive Stopping where
  | idle
  | awaiting
  | draining (rest : List DeferredEnvelope) (trying : Bool)

structure Enqueuer where
  maxAttempts : Int
  maxsize : Int
  queue : List DeferredEnvelope
  task : Option Loop
  inFlight : Option DeferredEnvelope
  stopping : Stopping
  /-- What `submit` has taken, in order. -/
  submitted : List DeferredEnvelope
  /-- The tickets of the attempts the loop saw fail. -/
  failures : List Nat
  accepted : List DeferredEnvelope
  gaveUp : List DeferredEnvelope
  dropped : List DeferredEnvelope
  flushed : List DeferredEnvelope
  lost : List DeferredEnvelope

def Enqueuer.new (maxAttempts maxsize : Int) : Enqueuer where
  maxAttempts
  maxsize
  queue := []
  task := none
  inFlight := none
  stopping := .idle
  submitted := []
  failures := []
  accepted := []
  gaveUp := []
  dropped := []
  flushed := []
  lost := []

inductive Action where
  | submit (strategy : String) (envelope : Json) (msgId : MsgId)
  | start
  | take
  | published
  | failed
  | woke
  | stop
  | cancelled
  | collect
  | tryFlush
  | flushed
  | lost

namespace Enqueuer

variable (s : Enqueuer)

/-- `Queue.full()`; a `maxsize` that is not positive is none. -/
def full : Bool := 0 < s.maxsize && s.maxsize ≤ s.queue.length

def pending : Nat := s.queue.length + if s.inFlight.isSome then 1 else 0

/-- `submit`: whether the envelope was taken. -/
def submit (strategy : String) (envelope : Json) (msgId : MsgId) : Bool × Enqueuer :=
  if s.full then (false, s)
  else
    let item := { ticket := s.submitted.length, strategy, envelope, msgId, attempts := 0 }
    (true, { s with queue := s.queue ++ [item], submitted := s.submitted ++ [item] })

def running : Bool :=
  match s.task with
  | none => false
  | some .done => false
  | some _ => true

/-- `start`. -/
def start : Enqueuer := if s.running then s else { s with task := some .waiting }

/-- `queue.get()` returned: the loop holds the envelope and publishes it. -/
def take (item : DeferredEnvelope) (rest : List DeferredEnvelope) : Enqueuer :=
  let item := { item with attempts := item.attempts + 1 }
  { s with queue := rest, inFlight := some item, task := some (.publishing item) }

/-- The publish returned. -/
def published (item : DeferredEnvelope) : Enqueuer :=
  { s with accepted := s.accepted ++ [item], inFlight := none, task := some .waiting }

/-- The publish raised: give up, or wait before the envelope is put back. -/
def failed (item : DeferredEnvelope) : Enqueuer :=
  let failures := s.failures ++ [item.ticket]
  if s.maxAttempts ≤ (item.attempts : Int) then
    { s with failures, gaveUp := s.gaveUp ++ [item], inFlight := none, task := some .waiting }
  else { s with failures, task := some (.sleeping item) }

/-- The interval is over: back on the queue, unless that is full by now. -/
def woke (item : DeferredEnvelope) : Enqueuer :=
  if s.full then
    { s with dropped := s.dropped ++ [item], inFlight := none, task := some .waiting }
  else { s with queue := s.queue ++ [item], inFlight := none, task := some .waiting }

/-- `_drain` goes on with the next, or is over. -/
def drainNext : List DeferredEnvelope → Stopping
  | [] => .idle
  | rest => .draining rest false

/-- What `stop` does once the task is over: whatever is left is its own from here. -/
def collect : Enqueuer :=
  { s with task := none, inFlight := none, queue := [],
           stopping := drainNext (s.inFlight.toList ++ s.queue) }

/-- One step; `none` where nothing awaits that. -/
def step : Action → Option Enqueuer
  | .submit strategy envelope msgId => some (s.submit strategy envelope msgId).2
  | .start =>
      match s.stopping with
      | .idle => some s.start
      | _ => none
  | .take =>
      match s.task, s.queue, s.stopping with
      | _, _, .awaiting => none
      | some .waiting, item :: rest, _ => some (s.take item rest)
      | _, _, _ => none
  | .published =>
      match s.task, s.stopping with
      | _, .awaiting => none
      | some (.publishing item), _ => some (s.published item)
      | _, _ => none
  | .failed =>
      match s.task, s.stopping with
      | _, .awaiting => none
      | some (.publishing item), _ => some (s.failed item)
      | _, _ => none
  | .woke =>
      match s.task, s.stopping with
      | _, .awaiting => none
      | some (.sleeping item), _ => some (s.woke item)
      | _, _ => none
  | .stop =>
      match s.stopping, s.task with
      | .idle, none => some s.collect
      | .idle, some _ => some { s with stopping := .awaiting }
      | _, _ => none
  | .cancelled =>
      match s.stopping, s.task with
      | .awaiting, some _ => some { s with task := some .done }
      | _, _ => none
  | .collect =>
      match s.stopping, s.task with
      | .awaiting, some .done => some s.collect
      | _, _ => none
  | .tryFlush =>
      match s.stopping with
      | .draining (item :: rest) false => some { s with stopping := .draining (item :: rest) true }
      | _ => none
  | .flushed =>
      match s.stopping with
      | .draining (item :: rest) true =>
          some { s with flushed := s.flushed ++ [item], stopping := drainNext rest }
      | _ => none
  | .lost =>
      match s.stopping with
      | .draining (item :: rest) _ =>
          some { s with lost := s.lost ++ [item], stopping := drainNext rest }
      | _ => none

/-- What a sequence of steps leads to. -/
def run (s : Enqueuer) : List Action → Option Enqueuer
  | [] => some s
  | a :: as => (s.step a).bind fun t => t.run as

/-- What a step was, and from where it was possible: `step` read backwards. Each
constructor has the guards of its branch and the whole state it leaves. -/
inductive Stepped (s : Enqueuer) : Action → Enqueuer → Prop where
  | refused {strategy envelope msgId} (hfull : s.full = true) :
      Stepped s (.submit strategy envelope msgId) s
  | submitted {strategy envelope msgId item} (hfull : s.full = false)
      (hitem : item = ⟨s.submitted.length, strategy, envelope, msgId, 0⟩) :
      Stepped s (.submit strategy envelope msgId)
        { s with queue := s.queue ++ [item], submitted := s.submitted ++ [item] }
  | running (hrunning : s.running = true) : Stepped s .start s
  | started (hidle : s.stopping = .idle) (hrunning : s.running = false) :
      Stepped s .start { s with task := some .waiting }
  | take {item rest} (htask : s.task = some .waiting) (hqueue : s.queue = item :: rest)
      (hstop : s.stopping ≠ .awaiting) : Stepped s .take (s.take item rest)
  | published {item} (htask : s.task = some (.publishing item)) :
      Stepped s .published (s.published item)
  | gaveUp {item} (htask : s.task = some (.publishing item))
      (hspent : s.maxAttempts ≤ item.attempts) :
      Stepped s .failed
        { s with failures := s.failures ++ [item.ticket], gaveUp := s.gaveUp ++ [item],
                 inFlight := none, task := some .waiting }
  | failed {item} (htask : s.task = some (.publishing item))
      (hspent : item.attempts < s.maxAttempts) :
      Stepped s .failed
        { s with failures := s.failures ++ [item.ticket], task := some (.sleeping item) }
  | dropped {item} (htask : s.task = some (.sleeping item)) (hfull : s.full = true) :
      Stepped s .woke
        { s with dropped := s.dropped ++ [item], inFlight := none, task := some .waiting }
  | requeued {item} (htask : s.task = some (.sleeping item)) (hfull : s.full = false) :
      Stepped s .woke
        { s with queue := s.queue ++ [item], inFlight := none, task := some .waiting }
  | stop {l} (hidle : s.stopping = .idle) (htask : s.task = some l) :
      Stepped s .stop { s with stopping := .awaiting }
  | cancelled {l} (hstop : s.stopping = .awaiting) (htask : s.task = some l) :
      Stepped s .cancelled { s with task := some .done }
  | collected {a} (hstop : s.stopping = .idle ∨ s.stopping = .awaiting)
      (ha : a = .stop ∨ a = .collect) : Stepped s a s.collect
  | tryFlush {item rest} (hstop : s.stopping = .draining (item :: rest) false) :
      Stepped s .tryFlush { s with stopping := .draining (item :: rest) true }
  | flushed {item rest} (hstop : s.stopping = .draining (item :: rest) true) :
      Stepped s .flushed
        { s with flushed := s.flushed ++ [item], stopping := drainNext rest }
  | lost {item rest trying} (hstop : s.stopping = .draining (item :: rest) trying) :
      Stepped s .lost { s with lost := s.lost ++ [item], stopping := drainNext rest }

variable {s : Enqueuer} {t : Enqueuer} {a : Action}

theorem submit_stepped (strategy : String) (envelope : Json) (msgId : MsgId) :
    Stepped s (.submit strategy envelope msgId) (s.submit strategy envelope msgId).2 := by
  unfold submit
  split
  · next hfull => exact .refused hfull
  · next hfull => exact .submitted (Bool.eq_false_iff.2 hfull) rfl

theorem start_stepped (hidle : s.stopping = .idle) : Stepped s .start s.start := by
  unfold start
  split
  · next hrunning => exact .running hrunning
  · next hrunning => exact .started hidle (Bool.eq_false_iff.2 hrunning)

theorem failed_stepped {item : DeferredEnvelope} (htask : s.task = some (.publishing item)) :
    Stepped s .failed (s.failed item) := by
  simp only [failed]
  split
  · next hspent => exact .gaveUp htask hspent
  · next hspent => exact .failed htask (Int.not_le.1 hspent)

theorem woke_stepped {item : DeferredEnvelope} (htask : s.task = some (.sleeping item)) :
    Stepped s .woke (s.woke item) := by
  unfold woke
  split
  · next hfull => exact .dropped htask hfull
  · next hfull => exact .requeued htask (Bool.eq_false_iff.2 hfull)

theorem step_cases (h : s.step a = some t) : Stepped s a t := by
  cases a with
  | submit strategy envelope msgId =>
    simp only [step, Option.some.injEq] at h
    exact h ▸ submit_stepped strategy envelope msgId
  | start =>
    simp only [step] at h
    split at h
    · next hidle => exact Option.some.inj h ▸ start_stepped hidle
    · cases h
  | take =>
    simp only [step] at h
    split at h
    · cases h
    · next htask hqueue hstop =>
      cases h
      exact .take htask hqueue hstop
    · cases h
  | published =>
    simp only [step] at h
    split at h
    · cases h
    · next htask _ =>
      cases h
      exact .published htask
    · cases h
  | failed =>
    simp only [step] at h
    split at h
    · cases h
    · next htask _ => exact Option.some.inj h ▸ failed_stepped htask
    · cases h
  | woke =>
    simp only [step] at h
    split at h
    · cases h
    · next htask _ => exact Option.some.inj h ▸ woke_stepped htask
    · cases h
  | stop =>
    simp only [step] at h
    split at h
    · next hidle _ =>
      cases h
      exact .collected (.inl hidle) (.inl rfl)
    · next hidle htask =>
      cases h
      exact .stop hidle htask
    · cases h
  | cancelled =>
    simp only [step] at h
    split at h
    · next hstop htask =>
      cases h
      exact .cancelled hstop htask
    · cases h
  | collect =>
    simp only [step] at h
    split at h
    · next hstop _ =>
      cases h
      exact .collected (.inr hstop) (.inr rfl)
    · cases h
  | tryFlush =>
    simp only [step] at h
    split at h
    · next hstop =>
      cases h
      exact .tryFlush hstop
    · cases h
  | flushed =>
    simp only [step] at h
    split at h
    · next hstop =>
      cases h
      exact .flushed hstop
    · cases h
  | lost =>
    simp only [step] at h
    split at h
    · next hstop =>
      cases h
      exact .lost hstop
    · cases h

end Enqueuer

end TradingBroker.Deferred
