import TradingBroker.Lib.Contract
import TradingBroker.Trades.Consumer

/-!
# The consumer on the TRADES stream

One `TradeEventConsumer` against Postgres and JetStream. A call may succeed, fail
without effect, or take effect and be reported as failed; the broker may be killed
between any two calls. Nobody else writes to `trades`; everything else a report
touches may change at any time.

Of JetStream this assumes that a message is delivered again as long as no ack or
term of it has arrived, and that each delivery is counted, those included that were
lost with the process they went to.
-/

namespace TradingBroker.Trades

open TradingBroker.Lib
open TradingBroker.Broadcast (Execution Cycle)

/-- A delivery of a message: its place in the stream, its data, and the count. -/
structure Delivery where
  index : Nat
  data : MessageData
  count : Nat

/-- How a call goes, and what it draws. -/
structure Choice where
  outcome : Outcome
  draw : Draw

structure World where
  store : Store
  signals : String → Option SignalRow
  cycles : CycleKey → Option Cycle
  stream : List MessageData
  /-- How often JetStream has handed the message out. -/
  delivered : Nat → Nat
  /-- An ack or a term of the message has arrived. -/
  gone : Nat → Bool

/-! ## Calls -/

/-- The answer to a call. -/
def answer (x : Choice) (w : World) : (c : Call) → c.Result
  | .upsertByPositionEvent e =>
      match upsertByPositionEvent e x.draw w.store with
      | some r => if x.outcome = .ok then .ok r.1 else .error .unavailable
      | none => .error .unavailable
  | .handleEvent _ _ => if x.outcome = .ok then .ok () else .error .unavailable
  | .getById signalId => if x.outcome = .ok then w.signals signalId else none
  | .recordWorkerExecution _ _ => ()
  | .ack => ()
  | .nak => ()
  | .term => ()

/-- What a call that is carried out does. -/
def write (k : Delivery) (x : Choice) (w : World) : Call → World
  | .upsertByPositionEvent e =>
      match upsertByPositionEvent e x.draw w.store with
      | some r => { w with store := r.2 }
      | none => w
  | .recordWorkerExecution key ex =>
      let cycle := (w.cycles key).map fun c => c.recordExecution ex x.draw.now
      { w with cycles := Function.update w.cycles key cycle }
  | .ack => { w with gone := Function.update w.gone k.index true }
  | .term => { w with gone := Function.update w.gone k.index true }
  | _ => w

def effect (k : Delivery) (x : Choice) (w : World) (c : Call) : World :=
  if x.outcome = .failed then w else write k x w c

/-- A call is answered from the state it is made in, then has its effect. -/
def perform (k : Delivery) (x : Choice) (c : Call) (w : World) : c.Result × World :=
  (answer x w c, effect k x w c)

/-! ## The machine -/

/-- What the outside does: a report is published, a delivery is lost with the process it
went to; other parts of the broker write to their tables; a message is handed out. -/
inductive Event where
  | publish (data : MessageData)
  | lose (m : Nat)
  | others (accounts : List Account) (signals : String → Option SignalRow)
      (cycles : CycleKey → Option Cycle)
  | deliver (m : Nat)

def handOut (m : Nat) (w : World) : World :=
  { w with delivered := Function.update w.delivered m (w.delivered m + 1) }

/-- The message may be handed out. -/
def deliverable (w : World) (m : Nat) : Bool := m < w.stream.length && !w.gone m

def environment (w : World) : Event → Option World
  | .publish data => some { w with stream := w.stream ++ [data] }
  | .lose m => if deliverable w m then some (handOut m w) else none
  | .others accounts signals cycles =>
      (Store.commit accounts w.store.trades).map fun s => { w with store := s, signals, cycles }
  | .deliver _ => none

variable (cfg : Config) (schema : Schema)

def start (w : World) : Event → Option (Delivery × Prog Unit × World)
  | .deliver m =>
      match w.stream[m]? with
      | some data =>
          if deliverable w m then
            let k : Delivery := ⟨m, data, w.delivered m + 1⟩
            some (k, workerTask cfg schema k.data k.count, handOut m w)
          else none
      | none => none
  | _ => none

def consumer : Machine Unit Delivery World Choice Event Call Call.Result Fault where
  exec := fun _ k c x w => some (perform k x c w)
  start := fun _ e w => start cfg schema w e
  env := fun e w => environment w e
  crash := fun _ _ w => some w

/-- Nobody is running yet. -/
def idlePool (w : World) : Pool Unit Delivery World Call Call.Result Fault :=
  ⟨w, fun _ => (⟨0, .malformed, 0⟩, .pure ())⟩

end TradingBroker.Trades
