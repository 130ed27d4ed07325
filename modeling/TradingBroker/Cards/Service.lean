import Mathlib.Logic.Function.Basic
import TradingBroker.Trades.Lifecycle

/-!
# Live trade cards

`broker/services/trade_card_service.py` with the table it keeps
(`broker/db/repository/trade_notification.py`): a report that is persisted hands
the row it left to a bounded queue, and one background task brings the cards of
that trade up to date, first those that were posted before, then one for every
subscriber who has none. What happens between two cards is up to everybody else;
the edit of one card, or its first send, and the note of it in the table are one
step here, since nobody else writes the table.

A job goes through its cards one at a time (`State.refresh`, `State.post`), so
what others do in between is part of every run, a restart among it. A report
that finds the queue full is dropped and its row stays where it is; the next
report of the trade brings a later row. Beside the table stand what Telegram
shows of every message, as far as its buttons go, and the edits that were asked
for: the code reads neither, and some of what is promised is about them.
-/

namespace TradingBroker.Cards

open TradingBroker.Lib
open TradingBroker.Trades (Trade Account)

/-! ## The keyboard -/

/-- `TERMINAL_STATUSES`. -/
def isTerminal : TradeStatus → Bool
  | .closed => true
  | .flat => true
  | .rejected => true
  | _ => false

structure Button where
  text : String
  callbackData : String
  deriving DecidableEq

def detailIcon : String := "🔍"
def collapseIcon : String := "⬆️"
def closeIcon : String := "🏁"

/-- A UUID, as text. -/
def uuidText (id : RowId) : String := toString id

/-- `_button`. -/
def button (text callback : String) (id : RowId) : Button := ⟨text, callback ++ ":" ++ uuidText id⟩

/-- The two buttons of a running trade. -/
def runningKeyboard (id : RowId) (detailed : Bool) : List Button :=
  [if detailed then button (collapseIcon ++ " Summary") "tc:s" id
    else button (detailIcon ++ " Detail") "tc:d" id,
    button (closeIcon ++ " Close") "tc:x" id]

/-- `trade_card_keyboard`. -/
def tradeCardKeyboard (trade : Trade) (detailed : Bool) : Option (List Button) :=
  if isTerminal trade.status then none else some (runningKeyboard trade.id detailed)

/-! ## The table -/

/-- A row of `trade_notifications`. -/
structure Card where
  id : RowId
  tradeId : RowId
  chatId : String
  messageId : Int
  status : TradeStatus
  deriving DecidableEq

/-- `list_for_trade`. -/
def listForTrade (tradeId : RowId) (cards : List Card) : List Card :=
  cards.filter fun c => c.tradeId == tradeId

def Card.isOf (tradeId : RowId) (chatId : String) (c : Card) : Bool :=
  c.tradeId == tradeId && c.chatId == chatId

/-- `record`; `id` is for a row that is inserted. -/
def record (tradeId : RowId) (chatId : String) (messageId : Int) (status : TradeStatus)
    (id : RowId) (cards : List Card) : List Card :=
  match cards.find? (Card.isOf tradeId chatId) with
  | some c => replaceFirst (Card.isOf tradeId chatId) { c with messageId, status } cards
  | none => cards ++ [⟨id, tradeId, chatId, messageId, status⟩]

/-- `mark_status`. -/
def markStatus (id : RowId) (status : TradeStatus) (cards : List Card) : List Card :=
  cards.map fun c => if c.id = id then { c with status } else c

/-- `delete`. -/
def delete (id : RowId) (cards : List Card) : List Card := cards.filter fun c => c.id != id

/-! ## The service -/

/-- `EditOutcome`. -/
inductive EditOutcome where
  | ok | missing | failed
  deriving DecidableEq

/-- An edit that is sent: the status the card is recorded at, and the one that is applied. -/
structure Edit where
  recorded : Option TradeStatus
  applied : TradeStatus
  deriving DecidableEq

/-- What `_apply` still has to do for a snapshot of a trade. -/
structure Job where
  trade : Trade
  cards : List Card
  chats : List String

/-- The tables; the row a report left that is not handed over yet; the queue; the background
task; every message the service has sent, with the buttons it last gave it; the edits. -/
structure State where
  store : Trades.Store
  handing : Option Trade
  queue : List Trade
  job : Option Job
  cards : List Card
  shown : String × Int → Option (Option (List Button))
  edits : List Edit

/-- `_QUEUE_MAXSIZE`. -/
def queueMaxsize : Nat := 200

namespace State

variable (s : State)

/-- `handle_event`, of the row a report left. -/
def handOver : State :=
  match s.handing with
  | some trade =>
      { s with
        handing := none
        queue := if s.queue.length < queueMaxsize then s.queue ++ [trade] else s.queue }
  | none => s

/-- A report reaches `upsert_by_position_event`, and the row it leaves is handed on. -/
def report (a : Trades.Attempt) : State :=
  match s.handing, a.commits s.store with
  | none, some store =>
      { s with
        store
        handing :=
          if a.outcome = .ok then
            (Trades.upsertByPositionEvent a.event a.draw s.store).bind Prod.fst
          else none }
  | _, _ => s

/-- `_apply` up to the loops; `subscribers` are the broadcast targets. -/
def take (subscribers : List String) : State :=
  match s.job, s.queue with
  | none, trade :: queue =>
      let existing := listForTrade trade.id s.cards
      let carded := existing.map Card.chatId
      { s with
        queue
        job := some ⟨trade, existing, subscribers.filter fun chat => !carded.contains chat⟩ }
  | _, _ => s

/-- A message's buttons, once it is sent or edited. -/
def display (chatId : String) (messageId : Int) (markup : Option (List Button)) : State :=
  { s with shown := Function.update s.shown (chatId, messageId) (some markup) }

/-- `_refresh`. -/
def refresh (trade : Trade) (card : Card) (outcome : EditOutcome) : State :=
  if card.status = trade.status then s
  else
    let recorded := (s.cards.find? fun c => c.id == card.id).map Card.status
    let s := { s with edits := s.edits ++ [⟨recorded, trade.status⟩] }
    match outcome with
    | .ok =>
        { s.display card.chatId card.messageId (tradeCardKeyboard trade false) with
          cards := markStatus card.id trade.status s.cards }
    | .missing => { s with cards := delete card.id s.cards }
    | .failed => s

/-- Telegram gives every message of a chat a number of its own, and a row that is inserted has
a new id. -/
def canPost (chatId : String) (messageId : Int) (row : RowId) : Bool :=
  (s.shown (chatId, messageId)).isNone && s.cards.all fun c => c.id != row

/-- `_post`; a send without an answer leaves nothing to record. -/
def post (trade : Trade) (chatId : String) (messageId : Option Int) (row : RowId) : State :=
  match messageId with
  | none => s
  | some messageId =>
      { s.display chatId messageId (tradeCardKeyboard trade false) with
        cards := record trade.id chatId messageId trade.status row s.cards }

end State

/-- What happens: a report arrives, its row is handed over, the background task takes the next
snapshot or goes on with the one it has, somebody else writes to the accounts, the broker is
restarted. -/
inductive Event where
  | report (a : Trades.Attempt)
  | handOver
  | take (subscribers : List String)
  | refresh (outcome : EditOutcome)
  | post (messageId : Option Int) (row : RowId)
  | finish
  | accounts (rows : List Account)
  | restart

def State.step (s : State) : Event → State
  | .report a => s.report a
  | .handOver => s.handOver
  | .take subscribers => s.take subscribers
  | .refresh outcome =>
      match s.job with
      | some ⟨trade, card :: cards, chats⟩ =>
          { s.refresh trade card outcome with job := some ⟨trade, cards, chats⟩ }
      | _ => s
  | .post messageId row =>
      match s.job with
      | some ⟨trade, [], chat :: chats⟩ =>
          if messageId.all fun m => s.canPost chat m row then
            { s.post trade chat messageId row with job := some ⟨trade, [], chats⟩ }
          else s
      | _ => s
  | .finish =>
      match s.job with
      | some ⟨_, [], []⟩ => { s with job := none }
      | _ => s
  | .accounts rows =>
      match Trades.Store.commit rows s.store.trades with
      | some store => { s with store }
      | none => s
  | .restart => { s with handing := none, queue := [], job := none }

def State.run (s : State) (es : List Event) : State := es.foldl State.step s

/-- No card was ever posted. -/
def State.start (store : Trades.Store) : State := ⟨store, none, [], none, [], fun _ => none, []⟩

end TradingBroker.Cards
