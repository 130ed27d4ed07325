import TradingBroker.Lib.ExitStack

/-!
# Starting and stopping the broker

`lifespan` starts the broker's services one after the other, pushes each one's `stop` on an
`AsyncExitStack` once it has started, and lets the stack unwind when the application ends, or
when a start raises. So the order of starting is the contract of stopping: a consumer is stopped
before what it writes to, and the database and NATS last.

What can go wrong is in the awaits of the services' own `start` and `stop`. Each of them may raise
here, as `World` says. Most of what they raise is caught, and most of what they opened is closed
again; the theorems at the end say where it is not. One place matters: `BroadcastDispatcher.start`
starts its listener and then awaits a first sweep that nothing guards. The repository's methods
catch what the database raises, but a sweep also renders messages; if that raises, `stop` was
never pushed, and the listener's two tasks go on behind the failed startup.

Between its `start` and its `stop` a service is left alone, with two exceptions: the NATS
connection may be gone when the application ends, and the listener's supervisor, which looks
after its connection every half a minute, may find it lost and make another.

A service is a record of what it refers to and of what is alive, and the two may come
apart: `_connect` sets its field to `None` when the second of its awaits raises, and the
connection that the first opened lives on, known to nobody.
-/

namespace TradingBroker.Lifecycle

open Lib.ExitStack

/-- `BadRequestError` is the one exception a caller tells from the others. -/
inductive Error where
  | badRequest
  | other
  deriving DecidableEq

/-- The awaits of a `start` or a `stop` that may raise. -/
inductive Call where
  | createEngine | dispose
  | connect | addSignals | updateSignals | addTrades | updateTrades | closeFailed | drain | close
  | listen | addListener | removeListener | closeListener | firstSweep
  | pullTrades | unpullTrades | subscribeTrade | unsubscribeTrade
  | subscribeSystem | unsubscribeSystem | subscribeDemo | unsubscribeDemo
  | pullSignals | unpullSignals
  deriving DecidableEq

/-- What the two awaits of a `_connect` raise. -/
structure Attempt where
  listen : Option Error
  addListener : Option Error

/-- What befalls the listener's connection while its supervisor runs: it is lost, or the
supervisor looks after it, and makes an attempt if there is need. -/
inductive Watch where
  | lost
  | check (attempt : Attempt)

structure World where
  raises : Call → Option Error
  /-- Until `stop` cancels the supervisor or, without a `stop`, until the stack has unwound. An
  attempt that is cancelled in `connect` changes nothing, one in `add_listener` has the
  connection. -/
  watched : List Watch
  /-- The NATS connection is closed, for good, by the time the application ends. -/
  closed : Bool
  /-- What the application, or one of the two messages around it, ends with. -/
  ending : Option Error

/-- The listener's first, which `start` makes. -/
def World.firstAttempt (w : World) : Attempt := ⟨w.raises .listen, w.raises .addListener⟩

/-- What a service opens, or sets going; `stray` is a connection of the listener's that its field
does not refer to any more. -/
inductive Held where
  | engine | connection | listening | stray | subscription | coreSubscription
  | worker | drain | supervisor | sweeper
  deriving DecidableEq

def Held.isTask : Held → Bool
  | .worker | .drain | .supervisor | .sweeper => true
  | _ => false

/-- What a service's fields refer to, and what it opened and has not closed. -/
structure Part where
  refs : List Held
  live : List Held
  deriving DecidableEq

abbrev M := ExceptT Error (StateM Part)

section
variable (w : World)

def awaits : Option Error → M Unit
  | none => pure ()
  | some e => throw e

def call (c : Call) : M Unit := awaits (w.raises c)

def acquire (h : Held) : M Unit := modify fun p => ⟨h :: p.refs, h :: p.live⟩

def release (h : Held) : M Unit := modify fun p => ⟨p.refs, p.live.erase h⟩

/-- The field is set to `None`. -/
def forget (h : Held) : M Unit := modify fun p => ⟨p.refs.erase h, p.live⟩

/-- The field is set to what was just opened, whatever it referred to. -/
def assign (h : Held) : M Unit := modify fun p => ⟨p.refs.erase h ++ [h], p.live ++ [h]⟩

def whenHeld (h : Held) (m : M Unit) : M Unit := do
  if h ∈ (← get).refs then m

def logged (m : M Unit) : M Unit := tryCatch m fun _ => pure ()

/-! ## The services -/

/-- The task is set going, unless one is already. -/
def startTask : M Unit := do
  let p ← get
  unless Held.worker ∈ p.refs ∧ Held.worker ∈ p.live do
    acquire .worker

/-- The task is cancelled, or told to end, and awaited. -/
def stopTask : M Unit := whenHeld .worker do
  release .worker
  forget .worker

namespace TelegramLogHandler

def start : M Unit := startTask

def stop : M Unit := stopTask

end TelegramLogHandler

namespace QueuedNotifier

def start : M Unit := startTask

def stop : M Unit := stopTask

end QueuedNotifier

namespace TradeCardService

def start : M Unit := startTask

def stop : M Unit := stopTask

end TradeCardService

namespace DeferredEnqueuer

def start : M Unit := startTask

def stop : M Unit := stopTask

end DeferredEnqueuer

namespace SignalRetryJob

/-- Unlike the others it does not ask whether the task has ended. -/
def start : M Unit := do
  unless Held.worker ∈ (← get).refs do
    acquire .worker

def stop : M Unit := stopTask

end SignalRetryJob

def init_db : M Unit := do
  call w .createEngine
  acquire .engine

def close_db : M Unit := whenHeld .engine do
  call w .dispose
  release .engine

namespace NatsClient

/-- `_ensure_stream` -/
def ensureStream (add update : Call) : M Unit :=
  tryCatch (call w add) fun
    | .badRequest => logged (call w update)
    | e => throw e

def connect : M Unit := do
  call w .connect
  acquire .connection
  tryCatch
    (do
      ensureStream w .addSignals .updateSignals
      ensureStream w .addTrades .updateTrades)
    fun e => do
      call w .closeFailed
      release .connection
      forget .connection
      throw e

def close : M Unit := whenHeld .connection do
  -- `is_closed`
  if Held.connection ∈ (← get).live then
    call w .drain
    call w .close
    release .connection

end NatsClient

namespace PostgresChangeListener

/-- The field is set to `None`, and the connection it referred to goes on, if there is one. -/
def strand : M Unit := modify fun p =>
  ⟨p.refs.erase .listening, p.live.map fun h => if h = .listening then .stray else h⟩

/-- A failed connect is not fatal. The connection that was opened, if any, is let go of. -/
def connect (attempt : Attempt) : M Unit :=
  tryCatch
    (do
      awaits attempt.listen
      assign .listening
      awaits attempt.addListener)
    fun _ => strand

/-- `connected` -/
def connected : M Bool := do
  let p ← get
  pure (decide (Held.listening ∈ p.refs ∧ Held.listening ∈ p.live))

/-- A turn of `_supervise`, or what it is there for. -/
def watch : Watch → M Unit
  | .lost => release .listening
  | .check attempt => do
      unless ← connected do
        connect attempt

/-- `_supervise` -/
def supervise : List Watch → M Unit
  | [] => pure ()
  | x :: xs => do
      watch x
      supervise xs

/-- With all that the supervisor does before the next call: nobody else looks at the connection
until then. -/
def start : M Unit := do
  connect w.firstAttempt
  acquire .drain
  acquire .supervisor
  supervise w.watched

def disconnect : M Unit := whenHeld .listening do
  forget .listening
  if Held.listening ∈ (← get).live then
    logged (call w .removeListener)
    logged do
      call w .closeListener
      release .listening

def stop : M Unit := do
  whenHeld .drain do
    release .drain
    forget .drain
  whenHeld .supervisor do
    release .supervisor
    forget .supervisor
  disconnect w

end PostgresChangeListener

namespace BroadcastDispatcher

def start : M Unit := do
  PostgresChangeListener.start w
  call w .firstSweep
  acquire .sweeper

/-- The sweeper is cancelled as it is: there is no last pass. -/
def stop : M Unit := do
  whenHeld .sweeper do
    release .sweeper
    forget .sweeper
  PostgresChangeListener.stop w

end BroadcastDispatcher

namespace JetStreamPullWorker

def start (pull : Call) : M Unit := do
  call w pull
  acquire .subscription
  acquire .worker

def stop (unsubscribe : Call) : M Unit := do
  stopTask
  whenHeld .subscription do
    logged do
      call w unsubscribe
      release .subscription
    forget .subscription

end JetStreamPullWorker

namespace TradeEventConsumer

/-- Without the stream, `TRADE` is consumed over core NATS. -/
def start : M Unit :=
  tryCatch (JetStreamPullWorker.start w .pullTrades) fun _ => do
    call w .subscribeTrade
    acquire .coreSubscription

def stop : M Unit := do
  whenHeld .coreSubscription do
    logged do
      call w .unsubscribeTrade
      release .coreSubscription
    forget .coreSubscription
  JetStreamPullWorker.stop w .unpullTrades

end TradeEventConsumer

namespace SystemEventConsumer

def start : M Unit := do
  call w .subscribeSystem
  acquire .coreSubscription

/-- The field keeps the subscription. -/
def stop : M Unit := whenHeld .coreSubscription do
  logged do
    call w .unsubscribeSystem
    release .coreSubscription

end SystemEventConsumer

namespace DemoSignalConsumer

def start : M Unit := do
  call w .subscribeDemo
  acquire .coreSubscription

def stop : M Unit := whenHeld .coreSubscription do
  logged do
    call w .unsubscribeDemo
    release .coreSubscription
  forget .coreSubscription

end DemoSignalConsumer

namespace SignalWorker

def start : M Unit := JetStreamPullWorker.start w .pullSignals

def stop : M Unit := JetStreamPullWorker.stop w .unpullSignals

end SignalWorker

/-! ## The lifespan -/

inductive Name where
  | logHandler | database | natsNotifier | nats | tradeCards | signalsNotifier | deferred
  | demoNotifier | dispatcher | trades | system | demo | signals | retries
  deriving DecidableEq

def service : Name → Service Part Error
  | .logHandler => ⟨TelegramLogHandler.start, TelegramLogHandler.stop⟩
  | .database => ⟨init_db w, close_db w⟩
  | .natsNotifier => ⟨QueuedNotifier.start, QueuedNotifier.stop⟩
  | .nats => ⟨NatsClient.connect w, NatsClient.close w⟩
  | .tradeCards => ⟨TradeCardService.start, TradeCardService.stop⟩
  | .signalsNotifier => ⟨QueuedNotifier.start, QueuedNotifier.stop⟩
  | .deferred => ⟨DeferredEnqueuer.start, DeferredEnqueuer.stop⟩
  | .demoNotifier => ⟨QueuedNotifier.start, QueuedNotifier.stop⟩
  | .dispatcher => ⟨BroadcastDispatcher.start w, BroadcastDispatcher.stop w⟩
  | .trades => ⟨TradeEventConsumer.start w, TradeEventConsumer.stop w⟩
  | .system => ⟨SystemEventConsumer.start w, SystemEventConsumer.stop w⟩
  | .demo => ⟨DemoSignalConsumer.start w, DemoSignalConsumer.stop w⟩
  | .signals => ⟨SignalWorker.start w, SignalWorker.stop w⟩
  | .retries => ⟨SignalRetryJob.start, SignalRetryJob.stop⟩

/-- The log handler only where errors are sent to Telegram. -/
def order (logErrors : Bool) : List Name :=
  (if logErrors then [.logHandler] else []) ++
    [.database, .natsNotifier, .nats, .tradeCards, .signalsNotifier, .deferred, .demoNotifier,
      .dispatcher, .trades, .system, .demo, .signals, .retries]

/-- While all is up only the NATS connection may go; the listener's own is part of its `start`. -/
def body : Body Name Part Error where
  run i p := if i = .nats ∧ w.closed then ⟨p.refs, p.live.erase .connection⟩ else p
  raises := w.ending

def fresh : Name → Part := fun _ => ⟨[], []⟩

def lifespan (logErrors : Bool) : Option Error × State Name Part :=
  block (service w) (body w) (order logErrors) fresh

/-- Whom a service calls, or writes to, while it is up: its constructor's arguments in `lifespan`.
What the consumers record of a cycle is for the dispatcher to deliver. -/
def uses : Name → List Name
  | .nats => [.natsNotifier]
  | .tradeCards | .signalsNotifier | .dispatcher => [.database]
  | .deferred => [.nats]
  | .trades => [.database, .nats, .tradeCards, .dispatcher]
  | .system => [.database, .nats]
  | .demo => [.database, .nats, .demoNotifier, .dispatcher]
  | .signals | .retries => [.database, .nats, .signalsNotifier, .deferred, .dispatcher]
  | _ => []

end

/-! ## Who is up when -/

def startedOf (events : List (Event Name)) : List Name :=
  events.filterMap fun | .started i => some i | _ => none

def stoppedOf (events : List (Event Name)) : List Name :=
  events.filterMap fun | .stopped i => some i | _ => none

/-- A service that is up has all it uses; and each that was started was stopped once, the last
first. -/
structure Orderly (events : List (Event Name)) : Prop where
  supplied : ∀ es, es <+: events → ∀ i ∈ up es, ∀ j ∈ uses i, j ∈ up es
  stopped : stoppedOf events = (startedOf events).reverse
  once : (startedOf events).Nodup

theorem order_nodup (logErrors : Bool) : (order logErrors).Nodup := by
  cases logErrors <;> decide

theorem uses_mem (logErrors : Bool) (i : Name) : ∀ j ∈ uses i, j ∈ order logErrors := by
  cases logErrors <;> cases i <;> decide

/-- Nobody uses what is started after it. -/
theorem order_uses (logErrors : Bool) :
    (order logErrors).Pairwise fun i j => ¬ j ∈ uses i := by
  cases logErrors <;> decide

theorem startedOf_append (es fs : List (Event Name)) :
    startedOf (es ++ fs) = startedOf es ++ startedOf fs := List.filterMap_append

theorem stoppedOf_append (es fs : List (Event Name)) :
    stoppedOf (es ++ fs) = stoppedOf es ++ stoppedOf fs := List.filterMap_append

theorem startedOf_started (is : List Name) : startedOf (is.map .started) = is := by
  induction is with
  | nil => rfl
  | cons i is ih => exact congrArg (i :: ·) ih

theorem stoppedOf_stopped (is : List Name) : stoppedOf (is.map .stopped) = is := by
  induction is with
  | nil => rfl
  | cons i is ih => exact congrArg (i :: ·) ih

theorem startedOf_stopped (is : List Name) : startedOf (is.map .stopped) = [] := by
  induction is with
  | nil => rfl
  | cons i is ih => exact ih

theorem stoppedOf_started (is : List Name) : stoppedOf (is.map .started) = [] := by
  induction is with
  | nil => rfl
  | cons i is ih => exact ih

/-- Started in one order and stopped in the other, with one more event in between. -/
theorem stopped_startedOf (is : List Name) {e : Event Name}
    (he : startedOf [e] = [] ∧ stoppedOf [e] = []) :
    let events := is.map .started ++ (e :: is.reverse.map .stopped)
    startedOf events = is ∧ stoppedOf events = is.reverse := by
  intro events
  have hevents : events = is.map .started ++ ([e] ++ is.reverse.map .stopped) := rfl
  rw [hevents, startedOf_append, startedOf_append, stoppedOf_append, stoppedOf_append,
    startedOf_started, startedOf_stopped, stoppedOf_started, stoppedOf_stopped, he.1, he.2]
  simp

theorem orderly (w : World) (logErrors : Bool) : Orderly (lifespan w logErrors).2.events := by
  have hnodup := order_nodup logErrors
  have hnested : Nested (order logErrors) (lifespan w logErrors).2.events :=
    nested_block hnodup fresh
  have hsupplied : ∀ es, es <+: (lifespan w logErrors).2.events →
      ∀ i ∈ up es, ∀ j ∈ uses i, j ∈ up es := by
    intro es hes i hi j hj
    exact needed_up (order_uses logErrors) hnested hes hi (uses_mem logErrors i j hj) hj
  rcases block_cases (service w) (body w) hnodup fresh with h | ⟨before, k, behind, heq, h⟩
  · obtain ⟨hstarted, hstopped⟩ := stopped_startedOf (order logErrors) (e := .body) ⟨rfl, rfl⟩
    rw [← h.events] at hstarted hstopped
    refine ⟨hsupplied, ?_, ?_⟩
    · exact hstopped.trans (congrArg List.reverse hstarted.symm)
    · exact hstarted.symm ▸ hnodup
  · obtain ⟨hstarted, hstopped⟩ := stopped_startedOf before (e := .failed k) ⟨rfl, rfl⟩
    rw [← h.events] at hstarted hstopped
    refine ⟨hsupplied, ?_, ?_⟩
    · exact hstopped.trans (congrArg List.reverse hstarted.symm)
    · rw [heq] at hnodup
      exact hstarted.symm ▸ (List.nodup_append.1 hnodup).1

end TradingBroker.Lifecycle
