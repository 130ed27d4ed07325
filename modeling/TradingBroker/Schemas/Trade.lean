import Mathlib.Tactic.SplitIfs
import TradingBroker.Schemas.Core

/-!
# Trades as workers report them

`broker/schemas/trade_schema.py`, `trade_event_schema.py` and the rules of
`broker/domain/trade_status.py`: how a worker's position status maps onto the
broker's trade lifecycle, and which way the lifecycle runs.

The policy is a table of texts: one that is not in it has no status, and is for
the callers to deal with. Its ranks are what every later statement about the
order of reports is made of. Two statuses may share one, and a status is a
downgrade only where its rank is lower.
-/

namespace TradingBroker

/-- `TradeStatusEnum`. -/
inductive TradeStatus where
  | opened | rejected | partiallyClosed | closed | flat
  deriving DecidableEq, Repr

def TradeStatus.value : TradeStatus → String
  | .opened => "OPENED"
  | .rejected => "REJECTED"
  | .partiallyClosed => "PARTIALLY_CLOSED"
  | .closed => "CLOSED"
  | .flat => "FLAT"

/-- A worker's report on one of its positions, as far as the broker reads it. -/
structure PositionEvent where
  market : MarketType
  strategy : String
  strategyCode : Option String
  signalId : Option String
  refSourceId : String
  symbol : String
  action : String
  volume : PyFloat
  sl : Option PyFloat
  tp1 : Option PyFloat
  tp2 : Option PyFloat
  riskPercent : PyFloat
  openedPrice : PyFloat
  closedPrice : Option PyFloat
  status : String
  rejectReason : Option String
  gatewayReturnCode : Option Int
  comment : Option String
  accountLeverage : Option Int
  accountBalance : Option PyFloat
  accountId : String
  accountName : Option String
  gateway : Option String

namespace TradeStatusPolicy

/-- `to_trade_status`; `none` for a status the broker does not know. -/
def toTradeStatus (positionStatus : String) : Option TradeStatus :=
  if positionStatus = "OPENED" then some .opened
  else if positionStatus = "REJECTED" then some .rejected
  else if positionStatus = "TP1" then some .partiallyClosed
  else if positionStatus = "TP2" then some .closed
  else if positionStatus = "SL" then some .closed
  else if positionStatus = "R_SL" then some .closed
  else if positionStatus = "TERMINAL_CLOSED" then some .closed
  else if positionStatus = "FORCED_CLOSED" then some .closed
  else if positionStatus = "FLATTED" then some .flat
  else none

/-- `to_last_action`. -/
def toLastAction (positionStatus : String) : Option String :=
  if (toTradeStatus positionStatus).isNone then none
  else if positionStatus = "FLATTED" then some "FLAT"
  else some positionStatus

def isOpen (positionStatus : String) : Bool :=
  positionStatus == "OPENED" || positionStatus == "TP1"

/-- `_STATUS_ORDER`. -/
def rank : TradeStatus → Int
  | .opened => 0
  | .partiallyClosed => 1
  | .closed => 2
  | .flat => 2
  | .rejected => -1

def isDowngrade (newStatus currentStatus : TradeStatus) : Bool :=
  rank newStatus < rank currentStatus

/-- A status runs exactly when its rank is that of an open or a partially closed
trade. -/
theorem isOpen_iff_rank {positionStatus : String} {status : TradeStatus}
    (h : toTradeStatus positionStatus = some status) :
    isOpen positionStatus = true ↔
      rank status = rank .opened ∨ rank status = rank .partiallyClosed := by
  -- one case for each status the broker knows
  unfold toTradeStatus at h
  split_ifs at h <;> cases h <;> subst_vars <;> decide

end TradeStatusPolicy

end TradingBroker
