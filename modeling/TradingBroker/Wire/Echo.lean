import TradingBroker.Handshake.Replayed
import TradingBroker.Lib.Subjects
import TradingBroker.Trades.Consumer
import TradingBroker.Wire.MagicMap

/-!
# What the broker hears of itself

The broker publishes and listens on one connection, and the server gives a message to every
subscription its subject is covered by, the publisher's own among them. A strategy's signals go
out on the strategy's name, and a reply to whatever inbox a worker named, so there is nothing a
subject of the broker's cannot be: a strategy called `TRADE`, or an inbox `SIGNALS.x`, has the
broker listening to itself.

Here are all the messages of `NatsPublisher` with their subjects and their fields, the four
subscriptions, and `DemoSignalConsumer`, of `broker/services/demo_signal_service.py`. Only an
alert on its way to the stream is taken for what it says, and only by the signal worker.
Whatever else comes back is given up or passed over, at once and without a call that changes
anything: each consumer looks for a field that no message of the broker's has, or for an action
that none of them names.
-/

namespace TradingBroker.Wire

open TradingBroker.Lib TradingBroker.Lib.Subjects
open TradingBroker.Settings (AdminAction AccountSettings composeAdminSubject)
open TradingBroker.Handshake (CryptoLeverageConfig WorkerConnectedAck WorkerConnectedError)

/-! ## What is published -/

/-- `AdminSignal`. -/
structure AdminSignal where
  action : AdminAction
  timestamp : Int
  strategy : Option String
  symbol : Option String
  accountId : Option String
  market : Option MarketType
  gateway : Option String
  refId : Option String
  addressed : accountId.isSome = true → market.isSome = true ∧ gateway.isSome = true

/-- `SystemCryptoLeverageInitSignal`. -/
structure CryptoLeverageInit where
  accountId : String
  timestamp : Int
  symbols : Option (List String)
  defaultLeverage : Option Int

/-- `SystemWorkerSettingsUpdateSignal`. -/
structure SettingsUpdate where
  accountId : String
  timestamp : Int
  settings : AccountSettings

/-- A message of `NatsPublisher`; an answer goes to an inbox, of which an empty one is none. -/
inductive Published where
  | webhookEvent (p : WebhookPayload)
  | signal (s : TradingSignal)
  | flat (d : FlatDirective)
  | admin (a : AdminSignal)
  | cryptoLeverageInit (m : CryptoLeverageInit)
  | settingsUpdate (m : SettingsUpdate)
  | ack (inbox : String) (a : WorkerConnectedAck)
  | error (inbox : String) (e : WorkerConnectedError)

def AdminSignal.subject (a : AdminSignal) : String :=
  if h : a.accountId.isSome = true then
    composeAdminSubject (a.market.get (a.addressed h).1) (a.gateway.get (a.addressed h).2)
      (a.accountId.get h)
  else "ADMIN"

namespace Published

def subject : Published → String
  | webhookEvent p => "SIGNALS" ++ "." ++ p.strategy
  | signal s => s.strategy
  | flat d => d.strategy
  | admin a => a.subject
  | cryptoLeverageInit _ => "SYSTEM"
  | settingsUpdate _ => "SYSTEM"
  | ack inbox _ => if inbox = "" then "SYSTEM" else inbox
  | error inbox _ => inbox

end Published

/-! ### As objects -/

/-- The texts of a row's id and of an instant. -/
structure Texts where
  id : RowId → PyStr
  instant : Int → PyStr

section
variable (x : Texts)

def wireJson : WireValue → Json
  | .id n => .str (x.id n)
  | .instant t => .str (x.instant t)
  | .json v => v

def wireObject (fields : List (String × WireValue)) : JsonObject :=
  fields.map fun field => (pyStr field.1, wireJson x field.2)

def AccountSettings.wire (s : AccountSettings) : Json :=
  .obj [(pyStr "signal_blocked", .bool s.signalBlocked),
    (pyStr "max_open_orders", dumpOpt (fun n => .int (n : Nat)) s.maxOpenOrders)]

def CryptoLeverageConfig.wire (c : CryptoLeverageConfig) : Json :=
  .obj [(pyStr "symbols", .arr (c.symbols.map dumpStr)),
    (pyStr "default_leverage", .int c.defaultLeverage)]

def AdminSignal.wire (a : AdminSignal) : List (String × WireValue) :=
  [("action", .json (dumpStr a.action.value)),
    ("timestamp", .instant a.timestamp),
    ("strategy", .json (dumpOpt dumpStr a.strategy)),
    ("symbol", .json (dumpOpt dumpStr a.symbol)),
    ("account_id", .json (dumpOpt dumpStr a.accountId)),
    ("market", .json (dumpOpt (fun m => dumpStr m.value) a.market)),
    ("gateway", .json (dumpOpt dumpStr a.gateway)),
    ("ref_id", .json (dumpOpt dumpStr a.refId))]

def CryptoLeverageInit.wire (m : CryptoLeverageInit) : List (String × WireValue) :=
  [("action", .json (dumpStr "CRYPTO_LEVERAGE_INIT")),
    ("account_id", .json (dumpStr m.accountId)),
    ("timestamp", .instant m.timestamp),
    ("symbols", .json (dumpOpt (fun symbols => .arr (symbols.map dumpStr)) m.symbols)),
    ("default_leverage", .json (dumpOpt Json.int m.defaultLeverage))]

def SettingsUpdate.wire (m : SettingsUpdate) : List (String × WireValue) :=
  [("action", .json (dumpStr "WORKER_SETTINGS_UPDATE")),
    ("account_id", .json (dumpStr m.accountId)),
    ("timestamp", .instant m.timestamp),
    ("settings", .json (AccountSettings.wire m.settings))]

def WorkerConnectedAck.wire (a : WorkerConnectedAck) : List (String × WireValue) :=
  [("action", .json (dumpStr "WORKER_CONNECTED_ACK")),
    ("account_id", .json (dumpStr a.accountId)),
    ("timestamp", .instant a.timestamp),
    ("strategy_magic_map",
      .json (.obj (a.strategyMagicMap.map fun item => (pyStr item.1, .int item.2)))),
    ("retry_signals", .json (.arr (a.retrySignals.map fun s => .obj (wireObject x s.wire)))),
    ("settings", .json (AccountSettings.wire a.settings)),
    ("crypto_leverage_init", .json (dumpOpt CryptoLeverageConfig.wire a.cryptoLeverageInit))]

def WorkerConnectedError.wire (e : WorkerConnectedError) : List (String × WireValue) :=
  [("action", .json (dumpStr "WORKER_CONNECTED_ERROR")),
    ("account_id", .json (dumpOpt dumpStr e.accountId)),
    ("timestamp", .instant e.timestamp),
    ("reason", .json (dumpStr e.reason))]

/-- The object a message is the text of. -/
def Published.body : Published → JsonObject
  | .webhookEvent p => wireObject x [("payload", .json (.obj p.dump))]
  | .signal s => wireObject x s.wire
  | .flat d => wireObject x d.wire
  | .admin a => wireObject x a.wire
  | .cryptoLeverageInit m => wireObject x m.wire
  | .settingsUpdate m => wireObject x m.wire
  | .ack _ a => wireObject x (WorkerConnectedAck.wire x a)
  | .error _ e => wireObject x (WorkerConnectedError.wire e)

end

/-! ## Who listens -/

inductive Listener where
  | signalWorker
  | tradeEventConsumer
  | systemEventConsumer
  | demoSignalConsumer
  deriving DecidableEq

namespace Listener

/-- What it is subscribed to; a stream captures what its subscription does. -/
def filter : Listener → String
  | signalWorker => "SIGNALS.>"
  | tradeEventConsumer => "TRADE"
  | systemEventConsumer => "SYSTEM"
  | demoSignalConsumer => "SIGNALS_DEMO.>"

def hears (l : Listener) (subject : String) : Bool := Subjects.hears l.filter subject

end Listener

/-- `PositionEventType`, which nothing reads. -/
def readPositionEventType : Json → Option Unit
  | .str s => if s = pyStr "CREATED" ∨ s = pyStr "UPDATED" then some () else none
  | _ => none

/-- `PositionEvent(**data)`. -/
def PositionEvent.ofFields (co : LaxReads) (kvs : JsonObject) : Option PositionEvent := do
  let _ ← requiredField readPositionEventType kvs "event"
  let market ← requiredField Handshake.readMarket kvs "market"
  let strategy ← requiredField readStr kvs "strategy"
  let strategyCode ← optionalField readStr kvs "strategy_code"
  let _ ← requiredField co.readInt kvs "id"
  let signalId ← optionalField readStr kvs "signal_id"
  let refSourceId ← requiredField readStr kvs "ref_source_id"
  let _ ← requiredField readStr kvs "ref_id"
  let symbol ← requiredField readStr kvs "symbol"
  let action ← requiredField readStr kvs "action"
  let volume ← requiredField co.readFloat kvs "volume"
  let sl ← optionalField co.readFloat kvs "sl"
  let tp1 ← optionalField co.readFloat kvs "tp1"
  let tp2 ← optionalField co.readFloat kvs "tp2"
  let riskPercent ← Handshake.defaultedField co.readFloat (.finite 0) kvs "risk_percent"
  let openedPrice ← requiredField co.readFloat kvs "opened_price"
  let closedPrice ← optionalField co.readFloat kvs "closed_price"
  let status ← requiredField readStr kvs "status"
  let rejectReason ← optionalField readStr kvs "reject_reason"
  let gatewayReturnCode ← optionalField co.readInt kvs "gateway_return_code"
  let comment ← optionalField readStr kvs "comment"
  let _ ← optionalField readStr kvs "message"
  let _ ← optionalField readStr kvs "created_at"
  let _ ← optionalField readStr kvs "updated_at"
  let _ ← optionalField readStr kvs "sync_status"
  let _ ← optionalField readStr kvs "sync_time"
  let accountLeverage ← optionalField co.readInt kvs "account_leverage"
  let accountBalance ← optionalField co.readFloat kvs "account_balance"
  let accountId ← requiredField readStr kvs "account_id"
  let accountName ← optionalField readStr kvs "account_name"
  let gateway ← optionalField readStr kvs "gateway"
  return { market, strategy, strategyCode, signalId, refSourceId, symbol, action, volume, sl,
           tp1, tp2, riskPercent, openedPrice, closedPrice, status, rejectReason,
           gatewayReturnCode, comment, accountLeverage, accountBalance, accountId, accountName,
           gateway }

/-! ### The drill -/

namespace Demo

inductive Call where
  | newUxid
  | broadcast (p : WebhookPayload)
  | sendMessage (p : WebhookPayload)

/-- An exception that `_parse` does not name, or one of the two steps. -/
inductive Fault where
  | unreadable
  | failed

abbrev Call.Result : Call → Type
  | .newUxid => Uxid
  | .broadcast _ => Except Fault Unit
  | .sendMessage _ => Except Fault Bool

abbrev Prog := Coro Call Call.Result Fault

/-- What is wired into the consumer. -/
structure Config where
  hasBroadcaster : Bool
  hasNotifier : Bool

section
variable (lib : Libraries) (cfg : Config)

/-- `_parse`. -/
def parse (data : MessageData) : Prog (Option WebhookPayload) :=
  match data with
  | .unreadable => .raise .unreadable
  | .malformed => pure none
  | .json envelope =>
      match rawPayload envelope with
      | none => pure none
      | some raw =>
          .call .newUxid fun minted => pure (WebhookPayload.validate lib.coerce raw minted)

/-- `_broadcast`; an exception is logged. -/
def broadcast (p : WebhookPayload) : Prog Unit :=
  if cfg.hasBroadcaster then .call (.broadcast p) fun _ => pure () else pure ()

/-- `_notify`, likewise. -/
def notify (p : WebhookPayload) : Prog Unit :=
  if cfg.hasNotifier then .call (.sendMessage p) fun _ => pure () else pure ()

def handleDemoSignal (data : MessageData) : Prog Unit := do
  match ← parse lib data with
  | none => pure ()
  | some p => do
      broadcast cfg p
      notify cfg p

end

end Demo

/-! ### What is passed over -/

/-- The consumers as they are wired. -/
structure Broker where
  lib : Libraries
  reads : LaxReads
  signals : Config
  trades : Trades.Config
  system : Handshake.Config
  demo : Demo.Config

/-- The listener makes nothing of a message with this object for its data: a message of a stream
it gives up for good, any other it returns from at once. -/
def Broker.Ignores (b : Broker) (body : JsonObject) : Listener → Prop
  | .signalWorker => ∀ msg deliveries, msg.data = .json (.obj body) →
      handleOne b.lib b.signals msg deliveries = JetStreamPullWorker.term
  | .tradeEventConsumer => ∀ deliveries,
      Trades.handleOne b.trades (PositionEvent.ofFields b.reads) (.json (.obj body)) deliveries =
        Trades.term
  | .systemEventConsumer => ∀ reply,
      Handshake.handleSubjectSystem b.system ⟨.json (.obj body), reply⟩ = pure ()
  | .demoSignalConsumer => Demo.handleDemoSignal b.lib b.demo (.json (.obj body)) = pure ()

/-! ## Nothing comes back -/

theorem get?_wireObject (x : Texts) (fields : List (String × WireValue)) (name : String) :
    (wireObject x fields).get? name = (fields.lookup name).map (wireJson x) := by
  induction fields with
  | nil => rfl
  | cons field fields ih =>
      obtain ⟨key, v⟩ := field
      rw [wireObject, List.map_cons, get?_eq_lookup, lookup_cons, ← get?_eq_lookup,
        List.lookup_cons]
      by_cases hkey : key = name
      · rw [hkey, if_pos rfl, beq_self_eq_true]
        rfl
      · rw [if_neg fun heq => hkey (pyStr_inj heq), beq_eq_false_iff_ne.2 fun heq => hkey heq.symm]
        exact ih

section
variable {x : Texts} {m : Published}

/-- The action a message names, as every message but an alert names one. -/
theorem announces_wireObject {fields : List (String × WireValue)} {action : String}
    (hlookup : fields.lookup "action" = some (.json (dumpStr action)))
    (hne : action ≠ "WORKER_CONNECTED") : Handshake.announces (wireObject x fields) = false := by
  rw [Handshake.announces, get?_wireObject, hlookup]
  exact beq_eq_false_iff_ne.2 fun heq => hne (pyStr_inj heq)

/-- A message that is no alert has no payload, is no position's, and announces nobody. -/
theorem body_apart (hm : ∀ p, m ≠ .webhookEvent p) :
    (m.body x).get? "payload" = none ∧ (m.body x).get? "event" = none ∧
      Handshake.announces (m.body x) = false := by
  have hfields : ∀ {fields : List (String × WireValue)} {action : String},
      fields.lookup "payload" = none → fields.lookup "event" = none →
      fields.lookup "action" = some (.json (dumpStr action)) → action ≠ "WORKER_CONNECTED" →
      (wireObject x fields).get? "payload" = none ∧ (wireObject x fields).get? "event" = none ∧
        Handshake.announces (wireObject x fields) = false := by
    intro fields action hpayload hevent haction hne
    refine ⟨?_, ?_, announces_wireObject haction hne⟩
    · rw [get?_wireObject, hpayload, Option.map_none]
    · rw [get?_wireObject, hevent, Option.map_none]
  have haction : ∀ action : SignalAction, action.value ≠ "WORKER_CONNECTED" := by
    intro action
    cases action <;> decide
  cases m with
  | webhookEvent p => exact absurd rfl (hm p)
  | signal s => exact hfields rfl rfl rfl (haction s.action)
  | flat d => exact hfields rfl rfl rfl (haction d.action)
  | admin a =>
      refine hfields rfl rfl rfl ?_
      cases a.action <;> decide
  | cryptoLeverageInit m => exact hfields rfl rfl rfl (by decide)
  | settingsUpdate m => exact hfields rfl rfl rfl (by decide)
  | ack inbox a => exact hfields rfl rfl rfl (by decide)
  | error inbox e => exact hfields rfl rfl rfl (by decide)

end

section
variable {b : Broker} {body : JsonObject}

theorem rawPayload_eq_none (h : body.get? "payload" = none) : rawPayload (.obj body) = none := by
  rw [rawPayload, h]

/-- What all four look for. -/
theorem ignores_of_apart (hpayload : body.get? "payload" = none)
    (hevent : body.get? "event" = none) (hannounces : Handshake.announces body = false)
    (l : Listener) : b.Ignores body l := by
  have hraw := rawPayload_eq_none hpayload
  cases l with
  | signalWorker =>
      intro msg deliveries hdata
      rw [handleOne, hdata]
      simp only [hraw]
  | tradeEventConsumer =>
      intro deliveries
      have hnone : PositionEvent.ofFields b.reads body = none := by
        rw [PositionEvent.ofFields, requiredField, hevent]
        rfl
      have hparse : Trades.parseReport (PositionEvent.ofFields b.reads) (.json (.obj body)) =
          none := hnone
      rw [Trades.handleOne, Trades.handleSubjectTrade]
      simp only [hparse]
      rfl
  | systemEventConsumer =>
      intro reply
      simp only [Handshake.handleSubjectSystem, hannounces, Bool.false_eq_true, if_false]
  | demoSignalConsumer =>
      rw [Broker.Ignores, Demo.handleDemoSignal, Demo.parse]
      simp only [hraw]
      rfl

end

/-! ## Who hears what -/

namespace Listener

/-- The token its subscription begins with. -/
def first : Listener → String
  | signalWorker => "SIGNALS"
  | tradeEventConsumer => "TRADE"
  | systemEventConsumer => "SYSTEM"
  | demoSignalConsumer => "SIGNALS_DEMO"

variable {l l' : Listener} {subject : String}

theorem tokens_filter (l : Listener) :
    Literal l.first.toList ∧ ∃ rest, tokens l.filter = l.first.toList :: rest := by
  cases l with
  | signalWorker => exact ⟨by decide, [['>']], by decide⟩
  | tradeEventConsumer => exact ⟨by decide, [], by decide⟩
  | systemEventConsumer => exact ⟨by decide, [], by decide⟩
  | demoSignalConsumer => exact ⟨by decide, [['>']], by decide⟩

theorem head_of_hears (h : l.hears subject = true) :
    (tokens subject).head? = some l.first.toList := by
  obtain ⟨hliteral, rest, hrest⟩ := tokens_filter l
  exact Subjects.head_of_hears hrest hliteral h

/-- A message is given to one of them at most. -/
theorem heard_once (h : l.hears subject = true) (h' : l'.hears subject = true) : l = l' := by
  have hhead := head_of_hears h
  rw [head_of_hears h', Option.some.injEq, String.toList_inj] at hhead
  cases l <;> cases l' <;> first | rfl | exact absurd hhead (by decide)

/-- Every strategy's alerts are in the stream. -/
theorem hears_webhookEvent (p : WebhookPayload) :
    signalWorker.hears (Published.webhookEvent p).subject = true :=
  hears_below (by decide) (by decide) (by decide) p.strategy

end Listener

/-- Of all the broker publishes, an alert is heard, and by the signal worker alone; the drill's
subscription never hears what is on the stream. Nothing else is more than passed over by the
listener that is given it, whatever strategies, gateways, accounts and inboxes are called. -/
theorem own_messages_ignored (b : Broker) (x : Texts) (m : Published) (l : Listener)
    (h : l.hears m.subject = true) :
    (∃ p, m = .webhookEvent p ∧ l = .signalWorker ∧
      rawPayload (.obj (m.body x)) = some p.dump) ∨ b.Ignores (m.body x) l := by
  by_cases hm : ∃ p, m = .webhookEvent p
  · obtain ⟨p, rfl⟩ := hm
    refine .inl ⟨p, rfl, Listener.heard_once h (Listener.hears_webhookEvent p), ?_⟩
    rw [rawPayload, Published.body, get?_wireObject]
    rfl
  · obtain ⟨hpayload, hevent, hannounces⟩ := body_apart (x := x) fun p hp => hm ⟨p, hp⟩
    exact .inr (ignores_of_apart hpayload hevent hannounces l)

/-! A strategy that is called what the reports of workers are published on. -/

namespace Named

def broker : Broker where
  lib := ⟨fun _ => none, id, fun _ => true, 100⟩
  reads := Handshake.Sample.cfg.reads
  signals := ⟨3, inlineRetryDelaysSeconds, 60, true, true⟩
  trades := ⟨true, true, true, true⟩
  system := Handshake.Sample.cfg
  demo := ⟨true, true⟩

def texts : Texts := ⟨fun n => pyStr (toString n), fun t => pyStr (toString t)⟩

def directive : FlatDirective where
  signalId := 7
  signalUxid := Broadcast.Sample.uxid
  strategy := "TRADE"
  timestamp := "2026-04-10T22:55:00"
  action := .flat
  symbol := "XAUUSD"

end Named

/-- The consumer of the reports is given its signal, and gives it up. -/
theorem own_messages_ignored_named : ∃ l : Listener, l.hears Named.directive.strategy = true ∧
    ((∃ p, Published.flat Named.directive = .webhookEvent p ∧ l = .signalWorker ∧
      rawPayload (.obj ((Published.flat Named.directive).body Named.texts)) = some p.dump) ∨
        Named.broker.Ignores ((Published.flat Named.directive).body Named.texts) l) := by
  have h : Listener.tradeEventConsumer.hears Named.directive.strategy = true := by decide
  exact ⟨_, h, own_messages_ignored Named.broker Named.texts (.flat Named.directive)
    .tradeEventConsumer h⟩

end TradingBroker.Wire
