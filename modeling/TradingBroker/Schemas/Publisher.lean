import TradingBroker.Schemas.Webhook

/-!
# What goes out to the workers

`broker/schemas/publisher_schema.py`, `broker/helpers/signal_helper.py` and the
FLAT directive of `NatsPublisher.publish_flat`. A signal reaches a worker in one
of three shapes: a `TradingSignal` on the strategy subject, a FLAT directive on
the same subject, or a `TradingSignal` inside the `retry_signals` of a
`WORKER_CONNECTED_ACK`. All three carry the row's id and the cycle's.

A price, a quantity or a risk that is missing is zero here, and a symbol is put
in capitals, which is a parameter. A `TradingSignal` stamps itself with the time
at which it is built. Building it may raise, and so may the log line behind it,
and then nothing is published; a directive is always built.
-/

namespace TradingBroker

/-- The primary key of a row: the 128 bits of its UUID. `str(row.id)` and
`uuid.UUID(signal_id)` are inverse to each other and are left out. -/
abbrev RowId := Nat

structure TradingSignal where
  signalId : RowId
  signalUxid : Uxid
  timestamp : Int
  strategy : String
  action : SignalAction
  symbol : String
  price : PyFloat
  quantity : PyFloat
  sl : Option PyFloat
  tp1 : Option PyFloat
  tp2 : Option PyFloat
  tp1Percent : Option PyFloat
  moveSlToBe : Option Bool
  isRunning : Option Bool
  riskPercent : Option PyFloat
  useEquitySizing : Option Bool
  isScalePosition : Option Bool
  scaleStrategy : Option String
  scaling : Option ScalingSchema
  deriving DecidableEq

/-- The JSON object `publish_flat` sends. -/
structure FlatDirective where
  signalId : RowId
  signalUxid : Uxid
  strategy : String
  timestamp : String
  action : SignalAction
  symbol : String
  deriving DecidableEq

/-- A message on a strategy subject. -/
inductive WorkerMessage where
  | signal (s : TradingSignal)
  | flat (d : FlatDirective)
  deriving DecidableEq

def WorkerMessage.signalId : WorkerMessage → RowId
  | .signal s => s.signalId
  | .flat d => d.signalId

def WorkerMessage.signalUxid : WorkerMessage → Uxid
  | .signal s => s.signalUxid
  | .flat d => d.signalUxid

/-- What the signal pipeline takes from its libraries: pydantic's field
validation of a payload and of a `TradingSignal`, Python's Unicode upper-casing,
and the nesting pydantic's JSON serialiser puts up with. -/
structure Libraries where
  coerce : JsonObject → Option WebhookBody
  upper : String → String
  accepts : TradingSignal → Bool
  maxNesting : Nat

/-- `symbol.split(":")[-1].upper().strip()`. -/
def normalisedSymbol (lib : Libraries) (symbol : String) : String :=
  stripped (lib.upper (((pySplit ':' symbol).getLast?).getD ""))

/-- `position.risk_percent`, else `inputs.risk_percent`, else zero. -/
def WebhookBody.effectiveRiskPercent (p : WebhookBody) : PyFloat :=
  match p.position.riskPercent with
  | some x => x
  | none =>
      match p.inputs.bind InputsSchema.riskPercent with
      | some x => x
      | none => .finite 0

/-- What `parse_signal` hands to the `TradingSignal` constructor. -/
def tradingSignal (lib : Libraries) (payload : WebhookPayload) (signalId : RowId)
    (now : Int) : TradingSignal :=
  let position := payload.position
  let isScalePosition := position.isScalePosition
  { signalId
    signalUxid := payload.signalUxid
    timestamp := now
    strategy := payload.strategy
    action := position.action
    symbol := normalisedSymbol lib payload.symbol
    price := PyFloat.orZero position.price
    quantity := PyFloat.orZero position.quantity
    sl := position.sl
    tp1 := position.tp1
    tp2 := position.tp2
    tp1Percent := position.tp1Percent
    moveSlToBe := position.moveSlToBe
    isRunning := some (position.isRunning.getD false)
    riskPercent := some payload.effectiveRiskPercent
    useEquitySizing := position.useEquitySizing
    isScalePosition
    scaleStrategy := if isScalePosition = some true then position.scaleStrategy else none
    scaling := if isScalePosition = some true then position.scaling else none }

/-- `parse_signal` at the time `now`; `none` is the exception it raises when the
`TradingSignal` cannot be built or written to the log. -/
def parseSignal (lib : Libraries) (payload : WebhookPayload) (signalId : RowId) (now : Int) :
    Option TradingSignal :=
  let signal := tradingSignal lib payload signalId now
  if lib.accepts signal then some signal else none

/-- The directive `_publish_flat` hands to `publish_flat`. -/
def flatDirective (lib : Libraries) (payload : WebhookPayload) (signalId : RowId) :
    FlatDirective :=
  { signalId
    signalUxid := payload.signalUxid
    strategy := payload.strategy
    timestamp := payload.timestamp.isoformat
    action := .flat
    symbol := normalisedSymbol lib payload.symbol }

/-- A parsed signal carries both ids it was parsed for. -/
theorem parseSignal_ids {lib : Libraries} {payload : WebhookPayload} {signalId : RowId}
    {now : Int} {s : TradingSignal} (h : parseSignal lib payload signalId now = some s) :
    s.signalId = signalId ∧ s.signalUxid = payload.signalUxid := by
  simp only [parseSignal] at h
  split at h
  · simp only [Option.some.injEq] at h
    subst h
    exact ⟨rfl, rfl⟩
  · cases h

end TradingBroker
