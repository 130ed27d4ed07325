import TradingBroker.Broadcast.Cycle
import TradingBroker.Lib.Paths
import TradingBroker.Signals.Service
import TradingBroker.Trades.Table

/-!
# The consumer of trade reports

`TradeEventConsumer` (`broker/services/nats_service.py`) on the message loop of
`broker/services/jetstream_service.py`, and `record_execution`
(`broker/services/broadcast_service.py`), which every report that is persisted is
handed to. Each function is the coroutine it is in the source.

A report that is persisted is acked, what is no report is given up, and a report to
be retried is NAK-ed until it has been delivered `TRADE_MAX_DELIVERIES` times. A
report is handed to the broadcast only after its trade is written, and what comes of
that does not change the answer, so the coroutine keeps the order of the calls and
nothing of their outcomes.
-/

namespace TradingBroker.Trades

open TradingBroker.Lib
open TradingBroker.Broadcast (Execution)

/-! ## Calls -/

/-- An exception of a call, or one that decoding a message ends with and the handler does
not name. -/
inductive Fault where
  | unavailable
  | undecodable
  deriving DecidableEq

/-- What identifies a cycle. -/
structure CycleKey where
  symbol : String
  strategy : String
  signalUxid : Uxid
  deriving DecidableEq

/-- What `record_execution` reads of a row of `signals`; a row without an uxid belongs to no
cycle. -/
structure SignalRow where
  symbol : String
  strategy : String
  signalUxid : Option Uxid

inductive Call where
  | upsertByPositionEvent (e : PositionEvent)
  | handleEvent (e : PositionEvent) (trade : Option Trade)
  | getById (signalId : String)
  | recordWorkerExecution (key : CycleKey) (x : Execution)
  | ack
  | nak
  | term

/-- What a call answers. `get_by_id` and `record_worker_execution` report a failure as a
`None`, the settle helpers not at all. -/
abbrev Call.Result : Call → Type
  | .upsertByPositionEvent _ => Except Fault (Option Trade)
  | .handleEvent _ _ => Except Fault Unit
  | .getById _ => Option SignalRow
  | _ => Unit

abbrev Prog := Coro Call Call.Result Fault

/-- What is wired into the consumer. -/
structure Config where
  hasCards : Bool
  hasBroadcast : Bool
  telegramEnabled : Bool
  hasSignals : Bool

/-! ## `SignalBroadcastService.record_execution` -/

/-- `event.gateway or trade.gateway`. -/
def gatewayOf (e : PositionEvent) (trade : Option Trade) : Option String :=
  match e.gateway with
  | some gateway => if gateway = "" then trade.bind Trade.gateway else some gateway
  | none => trade.bind Trade.gateway

/-- What is recorded on the cycle: the status of the report. -/
def execution (e : PositionEvent) (trade : Option Trade) (status : TradeStatus) : Execution where
  workerId := composeWorkerId e.market ((gatewayOf e trade).getD "") e.accountId
  accountId := e.accountId
  market := some e.market
  gateway := gatewayOf e trade
  latestStatus := status
  latestAction := some e.status
  rejectReason := e.rejectReason

section
variable (cfg : Config)

def recordExecution (e : PositionEvent) (trade : Option Trade) : Prog Unit :=
  if !(cfg.telegramEnabled && cfg.hasSignals) then pure ()
  else
    match e.signalId with
    | none => pure ()
    | some signalId =>
        if signalId = "" then pure ()
        else
          match TradeStatusPolicy.toTradeStatus e.status with
          | none => pure ()
          | some status =>
              .call (.getById signalId) fun
                | some ⟨symbol, strategy, some signalUxid⟩ =>
                    .call (.recordWorkerExecution ⟨symbol, strategy, signalUxid⟩
                      (execution e trade status)) fun _ => pure ()
                | _ => pure ()

/-! ## `TradeEventConsumer` -/

/-- `TradeOutcome`. -/
inductive TradeOutcome where
  | persisted
  | unreadable
  | retry
  deriving DecidableEq

/-- The live card of a trade; a card that fails is logged. -/
def updateCard (e : PositionEvent) (trade : Option Trade) : Prog Unit :=
  if cfg.hasCards then .call (.handleEvent e trade) fun _ => pure () else pure ()

/-- The execution table, likewise. -/
def updateCycle (e : PositionEvent) (trade : Option Trade) : Prog Unit :=
  if cfg.hasBroadcast then do
    let _ ← Coro.attempt (recordExecution cfg e trade)
    pure ()
  else pure ()

/-- What a report that is persisted is handed to: neither can undo it. -/
def fanOut (e : PositionEvent) (trade : Option Trade) : Prog Unit := do
  updateCard cfg e trade
  updateCycle cfg e trade

/-- `handle_subject_trade` from where the report is parsed. -/
def applyReport (e : PositionEvent) : Prog TradeOutcome :=
  .call (.upsertByPositionEvent e) fun
    | .error _ => pure .retry
    | .ok trade => do
        fanOut cfg e trade
        pure .persisted

/-- `PositionEvent(**data)` is pydantic's; `none` is its `ValidationError`. -/
abbrev Schema := JsonObject → Option PositionEvent

def parseReport (schema : Schema) : MessageData → Option PositionEvent
  | .json (.obj fields) => schema fields
  | _ => none

variable (schema : Schema)

def handleSubjectTrade (data : MessageData) : Prog TradeOutcome :=
  match data with
  | .unreadable => .raise .undecodable
  | .malformed => pure .unreadable
  | .json _ =>
      match parseReport schema data with
      | none => pure .unreadable
      | some e => applyReport cfg e

def tradeMaxDeliveries : Nat := 720

def ack : Prog Unit := .call .ack fun _ => pure ()

def nak : Prog Unit := .call .nak fun _ => pure ()

def term : Prog Unit := .call .term fun _ => pure ()

/-- How a message is settled. -/
def settle (deliveries : Nat) : TradeOutcome → Prog Unit
  | .persisted => ack
  | .unreadable => term
  | .retry => if tradeMaxDeliveries ≤ deliveries then term else nak

def handleOne (data : MessageData) (deliveries : Nat) : Prog Unit := do
  settle deliveries (← handleSubjectTrade cfg schema data)

/-- What `JetStreamPullWorker._run` does with one message. -/
def workerTask (data : MessageData) (deliveries : Nat) : Prog Unit := do
  match ← Coro.attempt (handleOne cfg schema data deliveries) with
  | .ok () => pure ()
  | .error _ => nak

end

end TradingBroker.Trades
