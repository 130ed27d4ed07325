import TradingBroker.Lib.Paths
import TradingBroker.Schemas.Coerce
import TradingBroker.Schemas.Publisher
import TradingBroker.Settings.Service

/-!
# The handshake

`SystemEventConsumer` of `broker/services/nats_service.py`. A worker that has connected
announces itself on `SYSTEM`, and what it may trade on comes back in one message: its part
of the magic map, the signals it missed, its account's settings and, for a crypto worker,
the leverage block. `handleSubjectSystem` is the coroutine that assembles it, with its
lookups in the order of the source and with what it makes of each that fails. The two short
caches outlive the message, so they are read and written by calls of their own.

A settings read never raises: the repository reports a failed one as a missing row. An
exception that leaves the callback goes to the client's error handler, and nobody is told.

What the handler is given is a message as `json.loads` leaves it, with its reply inbox,
and what it does is the list of calls it makes: lookups, reads and writes of the caches,
and publishes. What `parse_signal` makes of a row that is replayed is that of the other
modules.
-/

namespace TradingBroker.Handshake

open TradingBroker.Lib

/-- The exceptions: of a lookup or a publish, and those the callback ends with. -/
inductive Fault where
  | unavailable
  | unreadable

/-! ## What is received -/

/-- What decoding a message's data comes to: `malformed` is a `JSONDecodeError`,
`unreadable` anything else (no UTF-8, an integer of too many digits, too deep a
nesting). -/
inductive SystemData where
  | json (data : Json)
  | malformed
  | unreadable

/-- A message on `SYSTEM`; an empty `reply` is none. -/
structure SystemMessage where
  data : SystemData
  reply : String

/-- `SystemWorkerConnectedSignal`, less its `action` and its `timestamp`, which nothing
reads. -/
structure WorkerConnected where
  accountId : String
  market : MarketType
  gateway : String
  strategies : List String
  deriving DecidableEq

/-- `MarketEnum(value)`. -/
def readMarket : Json → Option MarketType
  | .str s => [MarketType.forex, .crypto].find? fun m => pyStr m.value == s
  | _ => none

/-- A field with a default, which `null` is not. -/
def defaultedField {α : Type} (read : Json → Option α) (default : α) (data : JsonObject)
    (name : String) : Option α :=
  match data.get? name with
  | none => some default
  | some v => read v

/-- `SystemWorkerConnectedSignal(**data)`, where `action` is the one it has to be. -/
def WorkerConnected.ofFields (co : LaxReads) (data : JsonObject) : Option WorkerConnected := do
  let accountId ← requiredField readStr data "account_id"
  let _ ← defaultedField (fun v => (co.datetime v).map some) none data "timestamp"
  let market ← requiredField readMarket data "market"
  let gateway ← requiredField readStr data "gateway"
  let strategies ← defaultedField readStrs [] data "strategies"
  return { accountId, market, gateway, strategies }

/-- `data.get("action") == "WORKER_CONNECTED"`. -/
def announces (data : JsonObject) : Bool :=
  match data.get? "action" with
  | some (.str s) => s == pyStr "WORKER_CONNECTED"
  | _ => false

/-- `decompose_worker_id`. -/
def decomposeWorkerId (workerId : String) (market : MarketType) (gateway : String) : String :=
  let head := (market.value ++ "-" ++ gateway ++ "-").toList
  if head.isPrefixOf workerId.toList then String.ofList (workerId.toList.drop head.length)
  else workerId

/-! ## What is answered -/

structure CryptoLeverageConfig where
  symbols : List String
  defaultLeverage : Int
  deriving DecidableEq

/-- `SystemWorkerConnectedAck`. -/
structure WorkerConnectedAck where
  accountId : String
  timestamp : Int
  strategyMagicMap : List (String × Int)
  retrySignals : List TradingSignal
  settings : Settings.AccountSettings
  cryptoLeverageInit : Option CryptoLeverageConfig
  deriving DecidableEq

/-- `SystemWorkerConnectedError`. -/
structure WorkerConnectedError where
  accountId : Option String
  timestamp : Int
  reason : String
  deriving DecidableEq

inductive Answer where
  | ack (a : WorkerConnectedAck)
  | error (e : WorkerConnectedError)
  deriving DecidableEq

/-! ## The calls -/

/-- The values of `crypto_allowed_symbol` and `crypto_max_leverage`. -/
abbrev CryptoSettings := Option String × Option String

/-- A strategy's magic number. -/
abbrev MagicMap := List (PyStr × Int)

inductive Call where
  | upsertGateway (accountId : String) (market : MarketType) (gateway : String)
  | getSettings (accountId : String) (market : MarketType) (gateway : String)
  | get (key : String)
  | getMany (keys : List String)
  | listRecentByStrategies (strategies : List String) (sinceSeconds : Int)
  | cryptoCache
  | cacheCrypto (values : CryptoSettings) (at_ : Rat)
  | magicMapCache
  | cacheMagicMap (values : MagicMap) (at_ : Rat)
  | monotonic
  | utcnow
  | newUxid
  | publish (subject : String) (answer : Answer)

abbrev Call.Result : Call → Type
  | .upsertGateway _ _ _ => Except Fault Unit
  | .getSettings _ _ _ => Except Fault Json
  | .get _ => Option String
  | .getMany _ => List (String × String)
  | .listRecentByStrategies _ _ => Except Fault (List (RowId × Json))
  | .cryptoCache => Option (CryptoSettings × Rat)
  | .magicMapCache => Option (MagicMap × Rat)
  | .monotonic => Rat
  | .utcnow => Int
  | .newUxid => Uxid
  | .publish _ _ => Except Fault Unit
  | _ => Unit

abbrev Prog := Coro Call Call.Result Fault

/-- `json.loads(text)`: `raises` is an exception that is no `JSONDecodeError`. -/
inductive Loaded where
  | value (v : Json)
  | decodeError
  | raises

/-- What the consumer takes from its libraries, and whether it has a `SignalRepository`. -/
structure Config where
  reads : LaxReads
  lib : Libraries
  loads : String → Loaded
  hasSignals : Bool

def cryptoAllowedSymbolKey : String := "crypto_allowed_symbol"
def cryptoMaxLeverageKey : String := "crypto_max_leverage"
def strategyMagicMapKey : String := "strategy_magic_map"
def maxRetryTimeoutKey : String := "max_retry_timeout"
def defaultMaxRetryTimeoutSeconds : Int := 60
def cryptoSettingsCacheTtlSeconds : Rat := 30

/-! ## Replies -/

/-- `_reply_error`. The reply is validated like any other model: an `account_id` that is
neither `None` nor a string it accepts leaves nothing to publish. -/
def replyError (replyTo : String) (accountId : Json) (reason : String) : Prog Unit :=
  if replyTo = "" then pure ()
  else
    match optionalField readStr [(pyStr "account_id", accountId)] "account_id" with
    | none => pure ()
    | some accountId =>
        .call .utcnow fun timestamp =>
          .call (.publish replyTo (.error { accountId, timestamp, reason })) fun _ => pure ()

/-- `_reply_ack`. -/
def replyAck (replyTo accountId : String) (strategyMagicMap : List (String × Int))
    (retrySignals : List TradingSignal) (settings : Settings.AccountSettings)
    (cryptoLeverageInit : Option CryptoLeverageConfig) : Prog Unit :=
  .call .utcnow fun timestamp =>
    .call (.publish (if replyTo = "" then "SYSTEM" else replyTo)
      (.ack { accountId, timestamp, strategyMagicMap, retrySignals, settings,
              cryptoLeverageInit })) fun _ => pure ()

/-! ## Settings -/

/-- The values of a cache that is still fresh. -/
def cached {α : Type} (cache : Option (α × Rat)) (now : Rat) : Option α :=
  match cache with
  | some (values, at_) => if now - at_ < cryptoSettingsCacheTtlSeconds then some values else none
  | none => none

/-- `_get_crypto_settings` past its cache. -/
def fetchCryptoSettings (now : Rat) : Prog CryptoSettings :=
  .call (.getMany [cryptoAllowedSymbolKey, cryptoMaxLeverageKey]) fun rows =>
    let values := (rows.lookup cryptoAllowedSymbolKey, rows.lookup cryptoMaxLeverageKey)
    .call (.cacheCrypto values now) fun _ => pure values

/-- `_get_crypto_settings`. -/
def getCryptoSettings : Prog CryptoSettings :=
  .call .monotonic fun now =>
    .call .cryptoCache fun cache =>
      match cached cache now with
      | some values => pure values
      | none => fetchCryptoSettings now

/-- `_parse_strategy_magic_map`; a `bool` is no magic number, and neither is a float. -/
def parseStrategyMagicMap (loads : String → Loaded) : Option String → Except Fault MagicMap
  | none => .ok []
  | some raw =>
      if raw = "" then .ok []
      else
        match loads raw with
        | .decodeError => .ok []
        | .raises => .error .unreadable
        | .value (.obj items) =>
            .ok (items.filterMap fun item =>
              match item.2 with
              | .int n => some (item.1, n)
              | _ => none)
        | .value _ => .ok []

/-- `_get_strategy_magic_map` past its cache. -/
def fetchStrategyMagicMap (cfg : Config) (now : Rat) : Prog MagicMap :=
  .call (.get strategyMagicMapKey) fun raw =>
    match parseStrategyMagicMap cfg.loads raw with
    | .error e => .raise e
    | .ok values => .call (.cacheMagicMap values now) fun _ => pure values

/-- `_get_strategy_magic_map`. -/
def getStrategyMagicMap (cfg : Config) : Prog MagicMap :=
  .call .monotonic fun now =>
    .call .magicMapCache fun cache =>
      match cached cache now with
      | some values => pure values
      | none => fetchStrategyMagicMap cfg now

/-- `_build_strategy_magic_map`. -/
def buildStrategyMagicMap (cfg : Config) (strategies : List String) :
    Prog (List (String × Int)) :=
  if strategies.isEmpty then pure []
  else do
    let magicMap ← getStrategyMagicMap cfg
    return magicMap.filterMap fun item =>
      (strategies.find? fun s => pyStr s == item.1).map fun s => (s, item.2)

/-- `[s.strip() for s in text.split(",") if s.strip()]`. -/
def splitSymbols (text : String) : List String :=
  ((pySplit ',' text).map stripped).filter (· ≠ "")

/-- `_build_crypto_leverage`: `none` once the worker has been told why. -/
def buildCryptoLeverage (accountId replyTo : String) : Prog (Option CryptoLeverageConfig) := do
  match ← getCryptoSettings with
  | (some symbolsRaw, some leverageRaw) =>
      match pyInt leverageRaw with
      | none => do
          replyError replyTo (dumpStr accountId) (cryptoMaxLeverageKey ++ " is not an integer")
          return none
      | some defaultLeverage =>
          if defaultLeverage ≤ 0 then do
            replyError replyTo (dumpStr accountId)
              (cryptoMaxLeverageKey ++ " must be a positive integer")
            return none
          else return some { symbols := splitSymbols symbolsRaw, defaultLeverage }
  | _ => do
      replyError replyTo (dumpStr accountId) "crypto settings not configured"
      return none

/-- `_build_account_settings`. -/
def buildAccountSettings (cfg : Config) (event : WorkerConnected) :
    Prog Settings.AccountSettings :=
  let accountId := decomposeWorkerId event.accountId event.market event.gateway
  let coercions : Settings.Coercions :=
    { bool := cfg.reads.readBool, int := cfg.reads.readInt }
  .call (.getSettings accountId event.market event.gateway) fun found =>
    let raw := match found with
      | .ok raw => raw
      | .error _ => .null
    .call (.get Settings.maxOpenOrdersKey) fun text =>
      pure (Settings.resolveAccountSettings (Settings.parseAccountSettings coercions raw)
        (Settings.parseGlobalMaxOpenOrders text))

/-! ## The replay -/

/-- `_get_max_retry_timeout_seconds`. -/
def getMaxRetryTimeoutSeconds : Prog Int :=
  .call (.get maxRetryTimeoutKey) fun raw =>
    match raw.bind pyInt with
    | none => pure defaultMaxRetryTimeoutSeconds
    | some value => pure (if value ≤ 0 then defaultMaxRetryTimeoutSeconds else value)

/-- The loop of `_build_retry_signals`: a row that cannot be rebuilt is skipped. -/
def replay (cfg : Config) : List (RowId × Json) → Prog (List TradingSignal)
  | [] => pure []
  | (signalId, .obj raw) :: envelopes =>
      .call .newUxid fun minted =>
        match WebhookPayload.validate cfg.lib.coerce raw minted with
        | none => replay cfg envelopes
        | some payload =>
            .call .utcnow fun now =>
              match parseSignal cfg.lib payload signalId now with
              | none => replay cfg envelopes
              | some signal => do return signal :: (← replay cfg envelopes)
  | _ :: envelopes => replay cfg envelopes

/-- `_build_retry_signals`. -/
def buildRetrySignals (cfg : Config) (strategies : List String) : Prog (List TradingSignal) :=
  if !cfg.hasSignals || strategies.isEmpty then pure []
  else do
    let window ← getMaxRetryTimeoutSeconds
    .call (.listRecentByStrategies strategies window) fun found =>
      match found with
      | .error _ => pure []
      | .ok envelopes => replay cfg envelopes

/-! ## The callback -/

/-- `_remember_worker`: a failure must not cost the worker its reply. -/
def rememberWorker (event : WorkerConnected) : Prog Unit :=
  let accountId := decomposeWorkerId event.accountId event.market event.gateway
  .call (.upsertGateway accountId event.market event.gateway) fun _ => pure ()

/-- The rest of the answer, and the ACK it goes into. -/
def acknowledge (cfg : Config) (replyTo : String) (event : WorkerConnected)
    (cryptoLeverage : Option CryptoLeverageConfig) : Prog Unit := do
  let magicMap ← buildStrategyMagicMap cfg event.strategies
  let retrySignals ← buildRetrySignals cfg event.strategies
  let accountSettings ← buildAccountSettings cfg event
  replyAck replyTo event.accountId magicMap retrySignals accountSettings cryptoLeverage

def answerWorker (cfg : Config) (replyTo : String) (event : WorkerConnected) : Prog Unit := do
  rememberWorker event
  match event.market with
  | .crypto =>
      match ← buildCryptoLeverage event.accountId replyTo with
      | none => pure ()
      | some leverage => acknowledge cfg replyTo event (some leverage)
  | .forex => acknowledge cfg replyTo event none

/-- `handle_subject_system`. -/
def handleSubjectSystem (cfg : Config) (msg : SystemMessage) : Prog Unit :=
  match msg.data with
  | .unreadable => .raise .unreadable
  | .malformed => replyError msg.reply .null "malformed JSON"
  | .json (.obj data) =>
      if announces data then
        match WorkerConnected.ofFields cfg.reads data with
        | none =>
            replyError msg.reply ((JsonObject.get? data "account_id").getD .null)
              "invalid WORKER_CONNECTED payload"
        | some event => answerWorker cfg msg.reply event
      else pure ()
  | .json _ => replyError msg.reply .null "malformed JSON"

end TradingBroker.Handshake
