import TradingBroker.Lib.Html
import TradingBroker.Helpers.Display
import TradingBroker.Cards.Service

/-!
# The two renderers of a trade card

`broker/helpers/trade_card.py` renders a row of `trades`, `bot/app/presenters/trade_card.py`
the `TradeResponse` the API makes of it, and each puts its own buttons under the card. A
number column is exact in its scale, and the floats on the wire are taken to be exact too.

Both sides take the same fields in the same order, and each has its own spelling of them,
so every helper stands here twice, once under `Broker` and once under `Bot`, as the two
files have it. What they share is named once: the escaping, the lines of the result, the
zone's label.
-/

namespace TradingBroker.Cards

open Lib Lib.Numerals Lib.Datetime Helpers
open TradingBroker.Trades (Trade)

/-! ## The row and its response -/

/-- A value of a `Numeric(precision, scale)` column, in units of its last place. -/
structure Numeric (precision scale : Nat) where
  units : Int
  fits : units.natAbs < tenPow precision

/-- The `Decimal` a row holds. -/
def Numeric.decimal {precision scale : Nat} (x : Numeric precision scale) : Decimal :=
  ⟨x.units < 0, x.units.natAbs, -(scale : Int)⟩

/-- The number itself. -/
def Numeric.value {precision scale : Nat} (x : Numeric precision scale) : Rat :=
  mkRat x.units (tenPow scale)

/-- A row of `trades`; its times are in UTC. -/
structure TradeRow where
  id : RowId
  accountId : String
  market : Option MarketType
  gateway : Option String
  accountLeverage : Option Int
  accountBalanceInit : Option (Numeric 20 8)
  accountBalance : Option (Numeric 20 8)
  strategy : String
  strategyCode : String
  refId : Option String
  symbol : String
  action : SignalAction
  price : Numeric 20 8
  quantity : Numeric 20 8
  sl : Option (Numeric 20 8)
  tp1 : Option (Numeric 20 8)
  tp2 : Option (Numeric 20 8)
  isRunning : Bool
  riskPercent : Numeric 10 4
  comment : Option String
  gatewayReturnCode : Option Int
  status : TradeStatus
  lastAction : Option String
  rejectReason : Option String
  createdAt : Civil
  updatedAt : Civil

/-- A column as a float. -/
def Numeric.float {precision scale : Nat} (x : Numeric precision scale) : PyFloat :=
  .finite x.value

/-- The row as the card service handles it. -/
def TradeRow.trade (r : TradeRow) : Trade where
  id := r.id
  accountId := r.accountId
  market := r.market
  gateway := r.gateway
  accountLeverage := r.accountLeverage
  accountBalanceInit := r.accountBalanceInit.map Numeric.float
  accountBalance := r.accountBalance.map Numeric.float
  strategy := r.strategy
  strategyCode := r.strategyCode
  refId := r.refId
  symbol := r.symbol
  action := r.action
  price := r.price.float
  quantity := r.quantity.float
  sl := r.sl.map Numeric.float
  tp1 := r.tp1.map Numeric.float
  tp2 := r.tp2.map Numeric.float
  isRunning := r.isRunning
  riskPercent := r.riskPercent.float
  comment := r.comment
  gatewayReturnCode := r.gatewayReturnCode
  status := r.status
  lastAction := r.lastAction
  rejectReason := r.rejectReason

/-- A `TradeResponse` as the bot decodes it: enumerations and times are texts, and `none`
is `null`. -/
structure TradeResponse where
  id : String
  accountId : String
  market : Option String
  gateway : Option String
  accountLeverage : Option Int
  accountBalanceInit : Option Rat
  accountBalance : Option Rat
  refId : Option String
  comment : Option String
  strategyCode : String
  gatewayReturnCode : Option Int
  strategy : String
  symbol : String
  action : String
  price : Rat
  quantity : Rat
  sl : Option Rat
  tp1 : Option Rat
  tp2 : Option Rat
  isRunning : Bool
  riskPercent : Rat
  status : String
  lastAction : Option String
  rejectReason : Option String
  createdAt : String
  updatedAt : String

/-- The JSON text of a time in UTC. -/
def jsonTime (c : Civil) : String := String.ofList (c.isoformat ++ ['Z'])

/-- `TradeResponse.model_validate(trade)`, as JSON. -/
def TradeRow.response (r : TradeRow) : TradeResponse where
  id := uuidText r.id
  accountId := r.accountId
  market := r.market.map MarketType.value
  gateway := r.gateway
  accountLeverage := r.accountLeverage
  accountBalanceInit := r.accountBalanceInit.map Numeric.value
  accountBalance := r.accountBalance.map Numeric.value
  refId := r.refId
  comment := r.comment
  strategyCode := r.strategyCode
  gatewayReturnCode := r.gatewayReturnCode
  strategy := r.strategy
  symbol := r.symbol
  action := r.action.value
  price := r.price.value
  quantity := r.quantity.value
  sl := r.sl.map Numeric.value
  tp1 := r.tp1.map Numeric.value
  tp2 := r.tp2.map Numeric.value
  isRunning := r.isRunning
  riskPercent := r.riskPercent.value
  status := r.status.value
  lastAction := r.lastAction
  rejectReason := r.rejectReason
  createdAt := jsonTime r.createdAt
  updatedAt := jsonTime r.updatedAt

/-! ## Both sides -/

/-- `_esc`. -/
def esc : Option String → String
  | some s => Html.escape s
  | none => "—"

/-- `_DIVIDER`. -/
def divider : String := "-----------"

/-- `"\n".join(lines)`. -/
def joinLines (lines : List String) : String := "\n".intercalate lines

/-- A line that is there if a text is, and not empty. -/
def optionalLine (before after : String) : Option String → List String
  | none => []
  | some s => if s = "" then [] else [before ++ esc (some s) ++ after]

/-- The footer, if there is one. -/
def footerLines : Option String → List String
  | none => []
  | some footer => if footer = "" then [] else ["", footer]

/-- The realised profit, with its sign. -/
def pnlLine (balance balanceInit : Rat) : String :=
  let pnl := balance.sub balanceInit
  "PnL: <b>" ++ (if 0 ≤ pnl.num then "+" else "") ++ formatFixed 2 pnl ++ "</b>"

/-! ## The broker -/

namespace Broker

/-- `_STATUS_EMOJI`. -/
def statusEmoji : TradeStatus → String
  | .opened => Emoji.tradeOpened
  | .partiallyClosed => Emoji.tradePartiallyClosed
  | .closed => Emoji.tradeClosed
  | .flat => Emoji.tradeFlat
  | .rejected => Emoji.tradeRejected

/-- `SignalActionEnum(word)`. -/
def actionOf (word : String) : Option SignalAction :=
  [SignalAction.long, .short, .tp1, .tp2, .rSl, .sl, .flat].find? fun a => a.value == word

/-- `_action_icon`. -/
def actionIcon (lastAction : String) (status : TradeStatus) : String :=
  match actionOf lastAction with
  | some action => actionToEmoji action
  | none => statusEmoji status

/-- `_header_status`. -/
def headerStatus (trade : TradeRow) : String × String :=
  if isTerminal trade.status then (closeIcon, "CLOSED")
  else if trade.status = .partiallyClosed ∨ trade.lastAction = some SignalAction.tp1.value then
    (Emoji.tp1, SignalAction.tp1.value)
  else (Emoji.cycleRunning, "RUNNING")

/-- `_last_action_block`. -/
def lastActionBlock (trade : TradeRow) : List String :=
  match trade.lastAction with
  | none => []
  | some lastAction =>
      if lastAction = "" ∨ lastAction = "OPENED" ∨ lastAction = trade.action.value then []
      else
        ["", "Actions:", divider,
          actionIcon lastAction trade.status ++ " " ++ esc (some lastAction), divider]

/-- `_enum_value` of the market: `str` of a column that is not set. -/
def marketWord : Option MarketType → String
  | some market => market.value
  | none => "None"

/-- The lines of every card, down to the levels. -/
def entryLines (trade : TradeRow) : List String :=
  let (statusIcon, statusWord) := headerStatus trade
  let priceLabel := if isTerminal trade.status then "Close price" else "Price"
  ["[" ++ statusIcon ++ statusWord ++ "]",
    actionToEmoji trade.action ++ " <b>" ++ esc (some trade.action.value) ++ "</b> <b>" ++
      esc (some trade.symbol) ++ "</b>",
    divider,
    priceLabel ++ ": <code>" ++ formatNumber (some trade.price.decimal) ++ "</code>",
    "Quantity: <code>" ++ formatNumber (some trade.quantity.decimal) ++ "</code> | Risk: <code>" ++
      formatNumber (some trade.riskPercent.decimal) ++ "%</code>",
    "SL: <code>" ++ formatNumber (trade.sl.map Numeric.decimal) ++ "</code> | TP1: <code>" ++
      formatNumber (trade.tp1.map Numeric.decimal) ++ "</code> | TP2: <code>" ++
      formatNumber (trade.tp2.map Numeric.decimal) ++ "</code>",
    divider]

def balanceLines (trade : TradeRow) : List String :=
  match trade.accountBalance with
  | none => []
  | some balance =>
      ("Balance: <b>" ++ formatNumber (some balance.decimal) ++ "</b>") ::
        match trade.accountBalanceInit with
        | none => []
        | some balanceInit => [pnlLine balance.value balanceInit.value]

def marketLine (trade : TradeRow) : String :=
  "Market: <b>" ++ esc (some (marketWord trade.market)) ++ "</b> / <b>" ++ esc trade.gateway ++
    "</b>"

def accountLines (trade : TradeRow) : List String :=
  ["", "Strategy: <b>" ++ esc (some trade.strategy) ++ "</b>",
    "Account: <code>" ++ esc (some trade.accountId) ++ "</code>"]

def referenceLines (trade : TradeRow) : List String :=
  optionalLine "Leverage: <b>" "</b>" (trade.accountLeverage.map toString) ++
    (optionalLine "Ref: <code>" "</code>" trade.refId ++
      (optionalLine "Comment: " "" trade.comment ++
        optionalLine "Reject reason: <b>" "</b>" trade.rejectReason))

/-- What the detailed view adds. -/
def detailLines (defaultHours : Hours) (trade : TradeRow) (timezone : Option String)
    (detailed : Bool) : Except TimeError (List String) :=
  if detailed then do
    let opened ← formatNotificationTime defaultHours (trade.createdAt, some 0) timezone
    return accountLines trade ++ (marketLine trade :: (referenceLines trade ++
      ["Opened: " ++ opened]))
  else .ok []

/-- `format_trade_card`. -/
def formatTradeCard (defaultHours : Hours) (trade : TradeRow) (timezone : Option String)
    (detailed : Bool) (footer : Option String) : Except TimeError String := do
  let details ← detailLines defaultHours trade timezone detailed
  let updated ← formatNotificationTime defaultHours (trade.updatedAt, some 0) timezone
  return joinLines (entryLines trade ++ (balanceLines trade ++ (details ++
    (("Updated: " ++ updated) :: (lastActionBlock trade ++ footerLines footer)))))

end Broker

/-! ## The bot -/

namespace Bot

/-- `TERMINAL_TRADE_STATUSES`. -/
def terminalTradeStatuses : List String := ["CLOSED", "FLAT", "REJECTED"]

/-- `_STATUS_EMOJI`. -/
def statusEmoji : List (String × String) :=
  [("OPENED", "🔵"), ("PARTIALLY_CLOSED", "🎯"), ("CLOSED", "🏁"), ("FLAT", "🏳️"),
    ("REJECTED", "🚫")]

/-- `_ACTION_EMOJI`. -/
def actionEmoji : List (String × String) :=
  [("LONG", "🟩"), ("SHORT", "🟥"), ("TP1", "🎯"), ("TP2", "🚀"), ("R_SL", "🛡️"), ("SL", "⭕"),
    ("FLAT", "🏳️")]

/-- `emojis.SATELLITE`. -/
def satellite : String := "📡"

/-- `d.get(key, default)`. -/
def getD (d : List (String × String)) (key default : String) : String :=
  ((d.find? fun kv => kv.1 == key).map Prod.snd).getD default

/-- `f"{number:.8f}".rstrip("0").rstrip(".")`. -/
def fixedText (number : Rat) : String := String.ofList (stripZeros (formatFixed 8 number).toList)

/-- `_num`. -/
def num : Option Rat → String
  | none => "—"
  | some number => if fixedText number = "" then "0" else fixedText number

/-- `_action_icon`. -/
def actionIcon (lastAction status : String) : String :=
  getD actionEmoji lastAction (getD statusEmoji status satellite)

/-- `_header_status`. -/
def headerStatus (trade : TradeResponse) : String × String :=
  if trade.status ∈ terminalTradeStatuses then ("🏁", "CLOSED")
  else if trade.status = "PARTIALLY_CLOSED" ∨ trade.lastAction = some "TP1" then ("🎯", "TP1")
  else ("⏳", "RUNNING")

/-- `_last_action_block`. -/
def lastActionBlock (trade : TradeResponse) : List String :=
  match trade.lastAction with
  | none => []
  | some lastAction =>
      if lastAction = "" ∨ lastAction = "OPENED" ∨ lastAction = trade.action then []
      else
        ["", "Actions:", divider,
          actionIcon lastAction trade.status ++ " " ++ esc (some lastAction), divider]

/-- `is_closed`. -/
def isClosed (trade : TradeResponse) : Bool := terminalTradeStatuses.contains trade.status

/-- `str(value).replace("Z", "+00:00")`. -/
def replaceZ (s : String) : List Char := s.toList.flatMap fun c => if c = 'Z' then utcText else [c]

/-- `format_local_time`. -/
def formatLocalTime (value : String) (offsetHours : Hours) : Except TimeError String :=
  match fromisoformat (replaceZ value) with
  | none => .ok (value ++ " (" ++ formatUtcLabel offsetHours ++ ")")
  | some t => do
      let utc ← toUtc t
      let shown ← astimezone utc offsetHours
      return showTime shown offsetHours

def entryLines (trade : TradeResponse) : List String :=
  let (statusIcon, statusWord) := headerStatus trade
  let priceLabel := if trade.status ∈ terminalTradeStatuses then "Close price" else "Price"
  ["[" ++ statusIcon ++ statusWord ++ "]",
    getD actionEmoji trade.action satellite ++ " <b>" ++ esc (some trade.action) ++ "</b> <b>" ++
      esc (some trade.symbol) ++ "</b>",
    divider,
    priceLabel ++ ": <code>" ++ num (some trade.price) ++ "</code>",
    "Quantity: <code>" ++ num (some trade.quantity) ++ "</code> | Risk: <code>" ++
      num (some trade.riskPercent) ++ "%</code>",
    "SL: <code>" ++ num trade.sl ++ "</code> | TP1: <code>" ++ num trade.tp1 ++
      "</code> | TP2: <code>" ++ num trade.tp2 ++ "</code>",
    divider]

def balanceLines (trade : TradeResponse) : List String :=
  match trade.accountBalance with
  | none => []
  | some balance =>
      ("Balance: <b>" ++ num (some balance) ++ "</b>") ::
        match trade.accountBalanceInit with
        | none => []
        | some balanceInit => [pnlLine balance balanceInit]

def marketLine (trade : TradeResponse) : String :=
  "Market: <b>" ++ esc trade.market ++ "</b> / <b>" ++ esc trade.gateway ++ "</b>"

def accountLines (trade : TradeResponse) : List String :=
  ["", "Strategy: <b>" ++ esc (some trade.strategy) ++ "</b>",
    "Account: <code>" ++ esc (some trade.accountId) ++ "</code>"]

def referenceLines (trade : TradeResponse) : List String :=
  optionalLine "Leverage: <b>" "</b>" (trade.accountLeverage.map toString) ++
    (optionalLine "Ref: <code>" "</code>" trade.refId ++
      (optionalLine "Comment: " "" trade.comment ++
        optionalLine "Reject reason: <b>" "</b>" trade.rejectReason))

def detailLines (trade : TradeResponse) (offsetHours : Hours) (detailed : Bool) :
    Except TimeError (List String) :=
  if detailed then do
    let opened ← formatLocalTime trade.createdAt offsetHours
    return accountLines trade ++ (marketLine trade :: (referenceLines trade ++
      ["Opened: " ++ opened]))
  else .ok []

/-- `format_trade_card`. -/
def formatTradeCard (trade : TradeResponse) (offsetHours : Hours) (detailed : Bool)
    (footer : Option String) : Except TimeError String := do
  let details ← detailLines trade offsetHours detailed
  let updated ← formatLocalTime trade.updatedAt offsetHours
  return joinLines (entryLines trade ++ (balanceLines trade ++ (details ++
    (("Updated: " ++ updated) :: (lastActionBlock trade ++ footerLines footer)))))

/-- `trade_card` of `bot/app/keyboards/inline.py`. -/
def tradeCard (tradeId : String) (detailed closed : Bool) : Option (List Button) :=
  if closed then none
  else
    some [if detailed then ⟨"⬆️ Summary", "tc:s" ++ ":" ++ tradeId⟩
      else ⟨"🔍 Detail", "tc:d" ++ ":" ++ tradeId⟩,
      ⟨"🏁 Close", "tc:x" ++ ":" ++ tradeId⟩]

/-- The keyboard `_render` puts under the card. -/
def keyboard (trade : TradeResponse) (detailed : Bool) : Option (List Button) :=
  tradeCard trade.id detailed (isClosed trade)

end Bot

/-! ## A trade for the runs below -/

namespace Sample

theorem day_isDate : isDate 2026 6 1 = true := by decide

theorem noon_clock : (12 : Nat) < 24 ∧ (0 : Nat) < 60 ∧ (0 : Nat) < 60 ∧ (0 : Nat) < 1000000 := by
  decide

def noon : Civil := ⟨2026, 6, 1, 12, 0, 0, 0, day_isDate, noon_clock⟩

theorem price_fits : (6500000000000 : Int).natAbs < tenPow 20 := by decide

theorem risk_fits : (10000 : Int).natAbs < tenPow 10 := by decide

/-- A trade that was stored before trades had a market. -/
def row : TradeRow where
  id := 7
  accountId := "MT5-12345678"
  market := none
  gateway := some "MT5"
  accountLeverage := some 100
  accountBalanceInit := none
  accountBalance := none
  strategy := "BTC-M15"
  strategyCode := "LONG|SIG-001"
  refId := none
  symbol := "BTCUSDT"
  action := .long
  price := ⟨6500000000000, price_fits⟩
  quantity := ⟨6500000000000, price_fits⟩
  sl := none
  tp1 := none
  tp2 := none
  isRunning := true
  riskPercent := ⟨10000, risk_fits⟩
  comment := none
  gatewayReturnCode := none
  status := .opened
  lastAction := none
  rejectReason := none
  createdAt := noon
  updatedAt := noon

end Sample

end TradingBroker.Cards
