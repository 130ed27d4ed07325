import TradingBroker.Lib.Rows
import TradingBroker.Schemas.Trade
import TradingBroker.Signals.Table

/-!
# Trades and the accounts they are of

The tables a worker's report is written to (`broker/db/models.py`), and
`broker/db/repository/trade.py` up to `upsert_by_position_event`: the account and
the trade of a report are looked up, then updated or inserted, in one
transaction. Postgres refuses a transaction that breaks a constraint, and then
the call raises and nothing has changed.

A text column takes what fits it, and of what does not it takes a text whose
excess is blank, cut to the column's length (`varchar`). So what is stored of a
report is not the report but its image in the columns (`Position.stored`,
`Trade.stored`), while a lookup compares with the report's own texts. Which of
the two a statement is about matters wherever a key may be cut.
-/

namespace TradingBroker.Trades

open TradingBroker.Lib

/-! ## Rows -/

/-- A row of `accounts`, as far as reports go. -/
structure Account where
  id : RowId
  accountId : String
  accountName : Option String
  accountBalance : Option PyFloat
  market : MarketType
  gateway : Option String
  lastActivityAt : Option Int

/-- A row of `trades`. -/
structure Trade where
  id : RowId
  accountId : String
  market : Option MarketType
  gateway : Option String
  accountLeverage : Option Int
  accountBalanceInit : Option PyFloat
  accountBalance : Option PyFloat
  strategy : String
  strategyCode : String
  refId : Option String
  symbol : String
  action : SignalAction
  price : PyFloat
  quantity : PyFloat
  sl : Option PyFloat
  tp1 : Option PyFloat
  tp2 : Option PyFloat
  isRunning : Bool
  riskPercent : PyFloat
  comment : Option String
  gatewayReturnCode : Option Int
  status : TradeStatus
  lastAction : Option String
  rejectReason : Option String

/-- The row as a write stores it: texts that are too long by blanks are cut. -/
def Account.stored (r : Account) : Account :=
  { r with
    accountId := varchar 50 r.accountId
    accountName := r.accountName.map (varchar 255)
    gateway := r.gateway.map (varchar 50) }

def Trade.stored (r : Trade) : Trade :=
  { r with
    accountId := varchar 50 r.accountId
    gateway := r.gateway.map (varchar 50)
    strategy := varchar 50 r.strategy
    strategyCode := varchar 255 r.strategyCode
    refId := r.refId.map (varchar 255)
    symbol := varchar 50 r.symbol
    comment := r.comment.map (varchar 255)
    lastAction := r.lastAction.map (varchar 20)
    rejectReason := r.rejectReason.map (varchar 255) }

/-- `String(n)`; Postgres has no NUL in a text. -/
def textFits (n : Nat) (s : String) : Bool :=
  varcharFits n s && s.toList.all fun c => c.toNat != 0

/-- `Integer`. -/
def integerFits (n : Int) : Bool := -(2 ^ 31) ≤ n && n < 2 ^ 31

def Account.fits (r : Account) : Bool :=
  textFits 50 r.accountId && r.accountName.all (textFits 255) &&
    r.accountBalance.all (numericFits 20 8) && r.gateway.all (textFits 50)

def Trade.fits (r : Trade) : Bool :=
  textFits 50 r.accountId && r.gateway.all (textFits 50) && r.accountLeverage.all integerFits &&
    r.accountBalanceInit.all (numericFits 20 8) && r.accountBalance.all (numericFits 20 8) &&
    textFits 50 r.strategy && textFits 255 r.strategyCode && r.refId.all (textFits 255) &&
    textFits 50 r.symbol && numericFits 20 8 r.price && numericFits 20 8 r.quantity &&
    r.sl.all (numericFits 20 8) && r.tp1.all (numericFits 20 8) &&
    r.tp2.all (numericFits 20 8) && numericFits 10 4 r.riskPercent &&
    r.comment.all (textFits 255) && r.gatewayReturnCode.all integerFits &&
    r.lastAction.all (textFits 20) && r.rejectReason.all (textFits 255)

/-- `uq_accounts_market_gateway_account_id`, in which a `NULL` is never a duplicate. -/
def Account.key (r : Account) : Option (MarketType × String × String) :=
  r.gateway.map fun gateway => (r.market, gateway, r.accountId)

/-- `uq_trades_market_gateway_account_ref`. -/
def Trade.key (r : Trade) : Option (MarketType × String × String × String) :=
  r.market.bind fun market => r.gateway.bind fun gateway => r.refId.map fun refId =>
    (market, gateway, r.accountId, refId)

def accountsOk (rows : List Account) : Bool :=
  rows.all Account.fits && decide (rows.map Account.id).Nodup &&
    decide (rows.filterMap Account.key).Nodup

def tradesOk (rows : List Trade) : Bool :=
  rows.all Trade.fits && decide (rows.map Trade.id).Nodup &&
    decide (rows.filterMap Trade.key).Nodup

/-- The two tables, whose rows meet the constraints. -/
structure Store where
  accounts : List Account
  trades : List Trade
  accounts_ok : accountsOk accounts = true
  trades_ok : tradesOk trades = true

/-- A transaction ends with these rows, or is refused. -/
def Store.commit (accounts : List Account) (trades : List Trade) : Option Store :=
  if h : accountsOk accounts = true ∧ tradesOk trades = true then
    some ⟨accounts, trades, h.1, h.2⟩
  else none

theorem commit_accounts {accounts : List Account} {trades : List Trade} {s : Store}
    (h : Store.commit accounts trades = some s) : s.accounts = accounts := by
  unfold Store.commit at h
  split at h
  · cases h
    rfl
  · cases h

theorem commit_trades {accounts : List Account} {trades : List Trade} {s : Store}
    (h : Store.commit accounts trades = some s) : s.trades = trades := by
  unfold Store.commit at h
  split at h
  · cases h
    rfl
  · cases h

theorem Store.account_fits {s : Store} {r : Account} (h : r ∈ s.accounts) : r.fits = true := by
  have hok := s.accounts_ok
  simp only [accountsOk, Bool.and_eq_true] at hok
  exact List.all_eq_true.1 hok.1.1 r h

theorem Store.trade_fits {s : Store} {r : Trade} (h : r ∈ s.trades) : r.fits = true := by
  have hok := s.trades_ok
  simp only [tradesOk, Bool.and_eq_true] at hok
  exact List.all_eq_true.1 hok.1.1 r h

/-! ## Reports -/

/-- What identifies a position. -/
structure Position where
  market : MarketType
  gateway : Option String
  accountId : String
  refSourceId : String
  deriving DecidableEq

/-- The position a report is on. -/
def position (e : PositionEvent) : Position := ⟨e.market, e.gateway, e.accountId, e.refSourceId⟩

/-- The position as a row of its first report has it, which is not as its next report looks for it
if a text is cut. -/
def Position.stored (p : Position) : Position :=
  { p with
    gateway := p.gateway.map (varchar 50)
    accountId := varchar 50 p.accountId
    refSourceId := varchar 255 p.refSourceId }

/-- The lookup of `_upsert_account`: on this gateway, or on none yet. -/
def Account.isOf (p : Position) (r : Account) : Bool :=
  r.accountId == p.accountId && r.market == p.market &&
    (r.gateway == p.gateway || r.gateway.isNone)

/-- The lookup of `upsert_by_position_event`. -/
def Trade.isOf (p : Position) (r : Trade) : Bool :=
  r.accountId == p.accountId && r.refId == some p.refSourceId && r.market == some p.market &&
    (r.gateway == p.gateway || r.gateway.isNone)

/-- The characters of `str.upper()` that are in ASCII; the names of the actions have no
others. -/
def upperChar (c : Char) : List Char :=
  match c.toNat with
  | 0xdf => ['S', 'S']
  | 0x131 => ['I']
  | 0x17f => ['S']
  | 0xfb00 => ['F', 'F']
  | 0xfb01 => ['F', 'I']
  | 0xfb02 => ['F', 'L']
  | 0xfb03 => ['F', 'F', 'I']
  | 0xfb04 => ['F', 'F', 'L']
  | 0xfb05 => ['S', 'T']
  | 0xfb06 => ['S', 'T']
  | _ => [c.toUpper]

def pyUpper (s : String) : String := String.ofList (s.toList.flatMap upperChar)

/-- The value of `Enum(SignalActionEnum)` with this name, if it has one. -/
def actionNamed (name : String) : Option SignalAction :=
  [SignalAction.long, .short, .tp1, .tp2, .rSl, .sl, .flat].find? fun a => a.value == name

/-- `event.closed_price if event.closed_price else event.opened_price`. -/
def tradePrice (e : PositionEvent) : PyFloat :=
  match e.closedPrice with
  | some x => if x = .finite 0 then e.openedPrice else x
  | none => e.openedPrice

def Account.update (e : PositionEvent) (now : Int) (r : Account) : Account :=
  { r with
    accountName := e.accountName.or r.accountName
    market := e.market
    gateway := e.gateway.or r.gateway
    accountBalance := e.accountBalance.or r.accountBalance
    lastActivityAt := some now }

def Account.ofEvent (e : PositionEvent) (id : RowId) (now : Int) : Account where
  id
  accountId := e.accountId
  accountName := e.accountName
  accountBalance := e.accountBalance
  market := e.market
  gateway := e.gateway
  lastActivityAt := some now

/-- `_upsert_account`. -/
def upsertAccount (e : PositionEvent) (id : RowId) (now : Int) (accounts : List Account) :
    List Account :=
  match accounts.find? (Account.isOf (position e)) with
  | some row => replaceFirst (Account.isOf (position e)) (row.update e now).stored accounts
  | none => accounts ++ [(Account.ofEvent e id now).stored]

def Trade.update (e : PositionEvent) (status : TradeStatus) (r : Trade) : Trade :=
  { r with
    status
    lastAction := TradeStatusPolicy.toLastAction e.status
    isRunning := TradeStatusPolicy.isOpen e.status
    price := tradePrice e
    quantity := e.volume
    market := some e.market
    gateway := e.gateway.or r.gateway
    rejectReason := e.rejectReason.or r.rejectReason
    comment := e.comment.or r.comment
    accountBalance := e.accountBalance.or r.accountBalance
    gatewayReturnCode := e.gatewayReturnCode.or r.gatewayReturnCode }

/-- The row of a first report; `none` if its action is no value of the column. -/
def Trade.ofEvent (e : PositionEvent) (status : TradeStatus) (id : RowId) : Option Trade :=
  (actionNamed (pyUpper e.action)).map fun action =>
    { id
      accountId := e.accountId
      market := some e.market
      gateway := e.gateway
      accountLeverage := e.accountLeverage
      accountBalanceInit := e.accountBalance
      accountBalance := e.accountBalance
      refId := some e.refSourceId
      comment := e.comment
      gatewayReturnCode := e.gatewayReturnCode
      strategy := e.strategy
      strategyCode := e.strategyCode.getD ""
      symbol := e.symbol
      action
      price := tradePrice e
      quantity := e.volume
      sl := e.sl
      tp1 := e.tp1
      tp2 := e.tp2
      isRunning := TradeStatusPolicy.isOpen e.status
      riskPercent := e.riskPercent
      status
      lastAction := TradeStatusPolicy.toLastAction e.status
      rejectReason := e.rejectReason }

/-- What a call draws from outside: the ids of rows it may insert, and the clock. -/
structure Draw where
  accountRow : RowId
  tradeRow : RowId
  now : Int

/-- `upsert_by_position_event`: what it returns and the tables it commits, or `none` if it
raises. -/
def upsertByPositionEvent (e : PositionEvent) (x : Draw) (s : Store) :
    Option (Option Trade × Store) :=
  match TradeStatusPolicy.toTradeStatus e.status with
  | none => some (none, s)
  | some status =>
      let accounts := upsertAccount e x.accountRow x.now s.accounts
      match s.trades.find? (Trade.isOf (position e)) with
      | some row =>
          if TradeStatusPolicy.isDowngrade status row.status then
            (Store.commit accounts s.trades).map fun s' => (some row, s')
          else
            let row' := (row.update e status).stored
            (Store.commit accounts (replaceFirst (Trade.isOf (position e)) row' s.trades)).map
              fun s' => (some row', s')
      | none =>
          (Trade.ofEvent e status x.tradeRow).bind fun row =>
            (Store.commit accounts (s.trades ++ [row.stored])).map fun s' => (some row.stored, s')

/-! ## What is stored -/

theorem varchar_of_textFits {n : Nat} {t : String} (h : textFits n t = true) : varchar n t = t :=
  varchar_of_fits (Bool.and_eq_true_iff.1 h).1

theorem map_varchar_of_textFits {n : Nat} {t : Option String} (h : t.all (textFits n) = true) :
    t.map (varchar n) = t := by
  cases t with
  | none => rfl
  | some t => exact congrArg some (varchar_of_textFits h)

/-- Nothing is cut of a row that fits. -/
theorem Trade.stored_of_fits {r : Trade} (h : r.fits = true) : r.stored = r := by
  simp only [Trade.fits, Bool.and_eq_true] at h
  simp only [Trade.stored, varchar_of_textFits, map_varchar_of_textFits, h]

theorem Account.stored_of_fits {r : Account} (h : r.fits = true) : r.stored = r := by
  simp only [Account.fits, Bool.and_eq_true] at h
  simp only [Account.stored, varchar_of_textFits, map_varchar_of_textFits, h]

/-- A row of the position is stored as one of the position as it is stored. -/
theorem Trade.isOf_stored {p : Position} {r : Trade} (h : r.isOf p = true) :
    r.stored.isOf p.stored = true := by
  simp only [Trade.isOf, Bool.and_eq_true, Bool.or_eq_true, beq_iff_eq,
    Option.isNone_iff_eq_none] at h ⊢
  obtain ⟨⟨⟨hid, href⟩, hmarket⟩, hgateway⟩ := h
  refine ⟨⟨⟨congrArg (varchar 50) hid, congrArg (Option.map (varchar 255)) href⟩, hmarket⟩, ?_⟩
  exact hgateway.imp (congrArg (Option.map (varchar 50))) (congrArg (Option.map (varchar 50)))

theorem Account.isOf_stored {p : Position} {r : Account} (h : r.isOf p = true) :
    r.stored.isOf p.stored = true := by
  simp only [Account.isOf, Bool.and_eq_true, Bool.or_eq_true, beq_iff_eq,
    Option.isNone_iff_eq_none] at h ⊢
  obtain ⟨⟨hid, hmarket⟩, hgateway⟩ := h
  refine ⟨⟨congrArg (varchar 50) hid, hmarket⟩, ?_⟩
  exact hgateway.imp (congrArg (Option.map (varchar 50))) (congrArg (Option.map (varchar 50)))

/-! ## What a call does -/

variable {e : PositionEvent} {x : Draw} {s s' : Store} {status : TradeStatus}
  {answer : Option Trade}

/-- A report of a status the policy does not know writes nothing. -/
theorem upsert_unknown (h : TradeStatusPolicy.toTradeStatus e.status = none) :
    upsertByPositionEvent e x s = some (none, s) := by
  rw [upsertByPositionEvent, h]

/-- A report of a known status ends with a row: the one that was there, if the status is a
downgrade of it, its new version, or the first. -/
theorem upsert_cases (hstatus : TradeStatusPolicy.toTradeStatus e.status = some status)
    (h : upsertByPositionEvent e x s = some (answer, s')) :
    ∃ row, answer = some row ∧
      ((s.trades.find? (Trade.isOf (position e)) = some row ∧
          TradeStatusPolicy.isDowngrade status row.status = true ∧ s'.trades = s.trades) ∨
        (∃ old, s.trades.find? (Trade.isOf (position e)) = some old ∧
          TradeStatusPolicy.isDowngrade status old.status = false ∧
          row = (old.update e status).stored ∧
          s'.trades = replaceFirst (Trade.isOf (position e)) row s.trades) ∨
        (s.trades.find? (Trade.isOf (position e)) = none ∧
          (Trade.ofEvent e status x.tradeRow).map Trade.stored = some row ∧
          s'.trades = s.trades ++ [row])) := by
  rw [upsertByPositionEvent, hstatus] at h
  dsimp only at h
  split at h
  · next old hold =>
      split at h
      · next hdown =>
          obtain ⟨s₁, hcommit, hs⟩ := Option.map_eq_some_iff.1 h
          cases hs
          exact ⟨old, rfl, .inl ⟨hold, hdown, commit_trades hcommit⟩⟩
      · next hup =>
          obtain ⟨s₁, hcommit, hs⟩ := Option.map_eq_some_iff.1 h
          cases hs
          exact ⟨_, rfl, .inr (.inl ⟨old, hold, by simpa using hup, rfl, commit_trades hcommit⟩)⟩
  · next hnone =>
      obtain ⟨row, hrow, h⟩ := Option.bind_eq_some_iff.1 h
      obtain ⟨s₁, hcommit, hs⟩ := Option.map_eq_some_iff.1 h
      cases hs
      exact ⟨row.stored, rfl, .inr (.inr ⟨hnone, by rw [hrow]; rfl, commit_trades hcommit⟩)⟩

/-- The account of a report of a known status is written too, downgrade or not. -/
theorem upsert_accounts (hstatus : TradeStatusPolicy.toTradeStatus e.status = some status)
    (h : upsertByPositionEvent e x s = some (answer, s')) :
    s'.accounts = upsertAccount e x.accountRow x.now s.accounts := by
  rw [upsertByPositionEvent, hstatus] at h
  dsimp only at h
  split at h
  · split at h
    · obtain ⟨s₁, hcommit, hs⟩ := Option.map_eq_some_iff.1 h
      cases hs
      exact commit_accounts hcommit
    · obtain ⟨s₁, hcommit, hs⟩ := Option.map_eq_some_iff.1 h
      cases hs
      exact commit_accounts hcommit
  · obtain ⟨row, -, h⟩ := Option.bind_eq_some_iff.1 h
    obtain ⟨s₁, hcommit, hs⟩ := Option.map_eq_some_iff.1 h
    cases hs
    exact commit_accounts hcommit

end TradingBroker.Trades
