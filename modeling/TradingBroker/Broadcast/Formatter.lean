import TradingBroker.Lib.Markup
import TradingBroker.Helpers.Display
import TradingBroker.Broadcast.Cycle

/-!
# The message of a cycle

`broker/helpers/message_formatter.py`: the body of a cycle's message, rendered from the
row, its events and its workers, and the notice of one event. A text keeps apart what the
formatter writes itself and what it takes over from a webhook or a worker; numbers,
times and the words of an enumeration count as its own. `none` is an exception: a number
that is none, or a time no zone can show.

The private chats are shown the workers, the raw payload if that is switched on, and what
is meant for the operators; the public ones none of these. Each block of the source is
one definition here, and their order is the source's.
-/

namespace TradingBroker.Broadcast

open Lib.Markup Lib.Numerals Lib.Datetime Helpers

def BroadcastStatus.value : BroadcastStatus → String
  | .running => "RUNNING"
  | .tp1 => "TP1"
  | .closed => "CLOSED"

/-- `_STATUS_ICONS`. -/
def statusIcon : BroadcastStatus → String
  | .running => Emoji.cycleRunning
  | .tp1 => Emoji.tp1
  | .closed => Emoji.cycleClosed

/-- The bracketed line both texts begin with. -/
def statusLine (status : BroadcastStatus) : String :=
  "[" ++ statusIcon status ++ status.value ++ "]"

/-- `_BROADCAST_DIVIDER`. -/
def divider : Text := lit "-----------"

def newline : Text := lit "\n"

def bar : Text := lit " | "

/-! ## Status -/

/-- The round of `_status_through` for one event. -/
def foldStatus (status : Option BroadcastStatus) (e : BroadcastEvent) : Option BroadcastStatus :=
  match status with
  | none => some (statusForAction e.action)
  | some status => some (mergeStatus status (statusForAction e.action))

/-- `_status_through`. -/
def statusThrough (events : List BroadcastEvent) (index : Nat) (fallback : BroadcastStatus) :
    BroadcastStatus :=
  ((events.take (index + 1)).foldl foldStatus none).getD fallback

/-- The status in the header: the row's, and the events'. -/
def headerStatus (record : BroadcastMessage) : BroadcastStatus :=
  if record.events.isEmpty then record.status
  else
    mergeStatus record.status
      (statusThrough record.events (record.events.length - 1) record.status)

/-! ## Pieces -/

/-- A labelled number, if the event has it. -/
def field (env : Env) (label : String) (value : Option PyFloat) (unit : String) :
    Option (List Text) :=
  match value with
  | none => some []
  | some x => (formatFloat env.spell x).map fun s => [lit (label ++ s ++ unit)]

/-- A labelled flag, if the event has it. -/
def flag (label : String) : Option Bool → List Text
  | none => []
  | some b => [lit (label ++ if b then Emoji.flagOn else Emoji.flagOff)]

/-- A line of parts, if there are any. -/
def line (parts : List Text) : List Text := if parts.isEmpty then [] else [join bar parts]

/-- A text, if there is any. -/
def kept (t : Text) : List Text := if t.isEmpty then [] else [t]

/-- The name of the scale-in rule behind its flag. -/
def scaleName : Option String → Text
  | none => []
  | some s => if s = "" then [] else lit " " ++ data (pyStr s)

def scaleFlag (e : BroadcastEvent) : List Text :=
  match e.isScalePosition with
  | none => []
  | some b =>
      [lit ("Scale: " ++ if b then Emoji.flagOn else Emoji.flagOff) ++ scaleName e.scaleStrategy]

/-- `_broadcast_flags_line`. -/
def broadcastFlagsLine (env : Env) (e : BroadcastEvent) : Option Text := do
  let tp1Percent ← field env "TP1%: " e.tp1Percent "%"
  return join bar (tp1Percent ++ (flag "SL→BE: " e.moveSlToBe ++
    (flag "Running: " e.isRunning ++ scaleFlag e)))

/-- `_format_entry_block`. -/
def formatEntryBlock (env : Env) (e : BroadcastEvent) : Option Text := do
  let price ← field env "Price: " e.price ""
  let quantity ← field env "Quantity: " e.quantity ""
  let risk ← field env "Risk: " e.riskPercent "%"
  let sl ← field env "SL: " e.sl ""
  let tp1 ← field env "TP1: " e.tp1 ""
  let tp2 ← field env "TP2: " e.tp2 ""
  return join newline (price ++ (line (quantity ++ risk) ++ line (sl ++ (tp1 ++ tp2))))

/-- `_event_time`. -/
def eventTime (env : Env) (timezone : Option String) (timestamp : String) : Option Text :=
  match fromisoformat timestamp.toList with
  | none => some (data (pyStr timestamp))
  | some t =>
      match formatNotificationTime env.defaultHours t timezone with
      | .ok shown => some (lit shown)
      | .error .value => some (data (pyStr timestamp))
      | .error .overflow => none

def attemptNote : Option Int → Text
  | none => []
  | some n => if n = 0 then [] else lit (" " ++ Emoji.cycleRetry ++ " attempt " ++ toString n)

/-- The glyph and the word of an event's action. -/
def actionLine (e : BroadcastEvent) : Text :=
  lit (actionToEmoji e.action ++ " " ++ e.action.value)

/-- `_format_action_block`. -/
def formatActionBlock (env : Env) (timezone : Option String) (e : BroadcastEvent) :
    Option Text := do
  let price ← field env "Price: " e.price ""
  let quantity ← field env "Quantity: " e.quantity ""
  let risk ← field env "Risk: " e.riskPercent "%"
  let stamp ← eventTime env timezone e.timestamp
  let time := if stamp.isEmpty then [] else [stamp ++ attemptNote e.attempt]
  return join newline (actionLine e :: (line (price ++ (quantity ++ risk)) ++ time))

/-! ## Workers -/

/-- An account number, masked. -/
def maskedAccount (accountId : String) : Text :=
  let id := pyStr accountId
  if 10 < id.length then data (id.take 4) ++ (lit "****" ++ data (id.drop (id.length - 4)))
  else if 4 < id.length then lit "****" ++ data (id.drop (id.length - 4))
  else if id.isEmpty then lit "?" else data id

/-- The gateway, or else the market. -/
def workerGateway (w : BroadcastWorker) : Text :=
  match w.gateway with
  | some gateway =>
      if gateway = "" then lit ((w.market.map MarketType.value).getD "") else data (pyStr gateway)
  | none => lit ((w.market.map MarketType.value).getD "")

/-- `worker_label`. -/
def workerLabel (w : BroadcastWorker) : Text :=
  strip isPySpace (workerGateway w ++ (lit " " ++ maskedAccount w.accountId))

def tableWidth (workers : List BroadcastWorker) : Nat :=
  Nat.max ((workers.map fun w => (workerLabel w).length).foldl Nat.max 0) 2

/-- `_format_worker_table`. -/
def formatWorkerTable (workers : List BroadcastWorker) : Text :=
  if workers.isEmpty then []
  else
    lit ("Workers (" ++ toString workers.length ++ ")\n") ++
      (ljust (tableWidth workers) (lit "Name") ++ (lit "  Status\n" ++
        join newline (workers.map fun w =>
          ljust (tableWidth workers) (workerLabel w) ++ lit ("  " ++ w.latestStatus.value))))

/-! ## Raw values -/

/-- The bytes of a text. -/
def utf8Length (t : PyStr) : Nat :=
  t.foldl (fun n c =>
    n + if c < 0x80 then 1 else if c < 0x800 then 2 else if c < 0x10000 then 3 else 4) 0

def codesLe : PyStr → PyStr → Bool
  | [], _ => true
  | _ :: _, [] => false
  | a :: s, b :: t => a < b || (a == b && codesLe s t)

/-- The order in which JSONB keeps an object's keys: the short ones first. -/
def jsonbLe (a b : PyStr × Json) : Bool :=
  utf8Length a.1 < utf8Length b.1 || (utf8Length a.1 == utf8Length b.1 && codesLe a.1 b.1)

mutual

/-- A value as a JSONB column gives it back. -/
def jsonb : Json → Json
  | .arr xs => .arr (jsonbList xs)
  | .obj kvs => .obj ((jsonbFields kvs).mergeSort jsonbLe)
  | v => v

def jsonbList : List Json → List Json
  | [] => []
  | x :: xs => jsonb x :: jsonbList xs

def jsonbFields : List (PyStr × Json) → List (PyStr × Json)
  | [] => []
  | (k, v) :: kvs => (k, jsonb v) :: jsonbFields kvs

end

/-- `str` of a float that was stored: from `10 ^ 16` on it comes back as an `int`. -/
def floatText (env : Env) : PyFloat → String
  | .finite q =>
      let d := env.spell q
      if 16 < (digits d.int).length + d.exp then signed d.sign (digits (d.int * tenPow d.exp.toNat))
      else d.repr
  | .nan => "nan"
  | .posInf => "inf"
  | .negInf => "-inf"

/-- The last `n` hex digits of `v`. -/
def hexDigits : Nat → Nat → List Char
  | 0, _ => []
  | n + 1, v => hexDigits n (v / 16) ++ [Nat.digitChar (v % 16)]

def hexEscape (letter : String) (n c : Nat) : Text :=
  lit ("\\" ++ letter) ++ lit (String.ofList (hexDigits n c))

/-- A character of a string in `repr`. -/
def reprChar (env : Env) (quote c : Nat) : Text :=
  if c = quote ∨ c = 0x5c then lit "\\" ++ data [c]
  else if c = 0x0a then lit "\\n"
  else if c = 0x0d then lit "\\r"
  else if c = 0x09 then lit "\\t"
  else if c < 0x20 then hexEscape "x" 2 c
  else if c < 0x7f then data [c]
  else if c ≠ 0x7f ∧ env.printable c = true then data [c]
  else if c ≤ 0xff then hexEscape "x" 2 c
  else if c ≤ 0xffff then hexEscape "u" 4 c
  else hexEscape "U" 8 c

/-- The quotes `repr` puts around a string. -/
def reprQuote (s : PyStr) : Nat := if s.contains 0x27 && !s.contains 0x22 then 0x22 else 0x27

def reprStr (env : Env) (s : PyStr) : Text :=
  lit (if reprQuote s = 0x22 then "\"" else "'") ++ (s.flatMap (reprChar env (reprQuote s)) ++
    lit (if reprQuote s = 0x22 then "\"" else "'"))

mutual

/-- `repr`. -/
def reprJson (env : Env) : Json → Text
  | .null => lit "None"
  | .bool b => lit (if b then "True" else "False")
  | .int n => lit (toString n)
  | .float x => lit (floatText env x)
  | .str s => reprStr env s
  | .arr xs => lit "[" ++ (join (lit ", ") (reprList env xs) ++ lit "]")
  | .obj kvs => lit "\x7b" ++ (join (lit ", ") (reprFields env kvs) ++ lit "\x7d")

def reprList (env : Env) : List Json → List Text
  | [] => []
  | x :: xs => reprJson env x :: reprList env xs

def reprFields (env : Env) : List (PyStr × Json) → List Text
  | [] => []
  | (k, v) :: kvs => (reprStr env k ++ (lit ": " ++ reprJson env v)) :: reprFields env kvs

end

/-- `str`. -/
def strJson (env : Env) : Json → Text
  | .str s => data s
  | v => reprJson env v

def isNull : Json → Bool
  | .null => true
  | _ => false

/-- The items of a dict that are shown. -/
def shownItems : Json → JsonObject
  | .obj kvs => kvs.filter fun kv => !isNull kv.2
  | _ => []

def rawBlock (env : Env) (title : String) (v : Json) : List Text :=
  if (shownItems v).isEmpty then []
  else
    [lit (title ++ ":\n") ++ join newline ((shownItems v).map fun kv =>
      lit "  " ++ (data kv.1 ++ (lit ": " ++ strJson env kv.2)))]

/-- The two objects as the row holds them. -/
def rawIndicators (e : BroadcastEvent) : Json := jsonb (dumpOpt IndicatorsSchema.dump e.indicators)

def rawInputs (e : BroadcastEvent) : Json := jsonb (dumpOpt InputsSchema.dump e.inputs)

/-- `_format_raw_dicts`. -/
def formatRawDicts (env : Env) (indicators inputs : Json) : Text :=
  let parts := rawBlock env "Indicators" indicators ++ rawBlock env "Inputs" inputs
  if parts.isEmpty then [] else newline ++ join newline parts

/-! ## The message -/

/-- `format_timeframe`. -/
def formatTimeframe (minutes : String) : Text :=
  match pyInt minutes with
  | none => data (pyStr minutes)
  | some m =>
      lit (if m ≤ 0 then "M" ++ toString m
        else if m % 1440 = 0 then "D" ++ toString (m / 1440)
        else if m % 60 = 0 then "H" ++ toString (m / 60)
        else "M" ++ toString m)

def timeframeNote : Option String → Text
  | none => []
  | some timeframe =>
      if timeframe = "" then [] else lit " (" ++ (formatTimeframe timeframe ++ lit ")")

/-- The line of the entry. -/
def entryLine (record : BroadcastMessage) : Text :=
  let subject := data (pyStr record.symbol) ++ timeframeNote record.timeframe
  match record.events.head? with
  | none => lit (Emoji.defaultSignal ++ " ") ++ subject
  | some entry => lit (actionToEmoji entry.action ++ " " ++ entry.action.value ++ " ") ++ subject

/-- A block about the entry, if there is one. -/
def ofEntry (record : BroadcastMessage) (block : BroadcastEvent → Option Text) : Option Text :=
  match record.events.head? with
  | none => some []
  | some entry => block entry

def positionBox (env : Env) (record : BroadcastMessage) (includeMeta : Bool) : Option Text := do
  let block ← ofEntry record (formatEntryBlock env)
  let signal :=
    if includeMeta then [] else [lit "Signal: " ++ data record.signalUxid.1, divider]
  return lit (statusLine (headerStatus record)) ++ (newline ++
    join newline (entryLine record :: divider :: (kept block ++ divider :: signal)))

/-- The end of one box and the start of the next. -/
def nextBox : Text := lit "\n</pre>\n<pre>"

/-- `None` is an exception; no box is `some []`. -/
def actionsBox (env : Env) (record : BroadcastMessage) (timezone : Option String) :
    Option (List Text) :=
  if record.events.tail.isEmpty then some []
  else do
    let blocks ← record.events.tail.mapM (formatActionBlock env timezone)
    return [join newline [lit "Actions:", divider, join (lit "\n\n") blocks, divider]]

/-- The raw dump of the last event, without the newlines in front. -/
def rawLines (env : Env) (record : BroadcastMessage) (includeRaw : Bool) : List Text :=
  match record.events.getLast? with
  | none => []
  | some last =>
      let raw := formatRawDicts env (rawIndicators last) (rawInputs last)
      if includeRaw ∧ ¬ raw.isEmpty then [raw.dropWhile fun g => g.code == 0x0a, divider] else []

def settingsBox (env : Env) (record : BroadcastMessage) (includeRaw : Bool) : Option Text := do
  let flags ← ofEntry record (broadcastFlagsLine env)
  let settings :=
    if flags.isEmpty then []
    else [lit (Emoji.barChart ++ "Settings:"), divider, flags, divider]
  return join newline ([lit "Signal info:", divider,
    lit "Strategy: " ++ data (pyStr record.strategy),
    lit "Signal: " ++ data record.signalUxid.1, divider] ++
      (settings ++ rawLines env record includeRaw))

/-- The boxes behind the first. -/
def furtherBoxes (env : Env) (record : BroadcastMessage) (workers : List BroadcastWorker)
    (timezone : Option String) (includeRaw includeMeta : Bool) : Option (List Text) := do
  let actions ← actionsBox env record timezone
  if includeMeta then
    let settings ← settingsBox env record includeRaw
    return actions ++ settings :: kept (formatWorkerTable workers)
  else return actions

/-- `format_broadcast_message`. -/
def formatBroadcastMessage (env : Env) (record : BroadcastMessage)
    (workers : List BroadcastWorker) (timezone : Option String)
    (includeRaw includeMeta : Bool) : Option Text := do
  let position ← positionBox env record includeMeta
  let boxes ← furtherBoxes env record workers timezone includeRaw includeMeta
  return position ++ boxes.flatMap fun box => nextBox ++ box

/-- `format_broadcast_update_notice`. -/
def formatBroadcastUpdateNotice (record : BroadcastMessage) (index : Nat) : Option Text :=
  (record.events[index]?).map fun e =>
    rstrip isPySpace (lit (statusLine (statusThrough record.events index record.status)) ++
      (newline ++ actionLine e))

/-- The body `_deliver_all` renders for an audience. -/
def audienceBody (env : Env) (c : Cycle) (timezone : Option String) (includeRaw : Bool) :
    Audience → Option Text
  | .privateChats => formatBroadcastMessage env c.message c.workers timezone includeRaw true
  | .publicChats => formatBroadcastMessage env c.message [] timezone false false

/-- `_box`. -/
def box (t : Text) : Text := lit "<pre>" ++ (strip isPySpace t ++ lit "</pre>")

end TradingBroker.Broadcast
