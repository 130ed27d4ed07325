import TradingBroker.Schemas.Trade
import TradingBroker.Schemas.Webhook

/-!
# A signal cycle and its write log

The tables behind the one message per cycle (`broker/db/models.py`), the
lifecycle rules of `broker/domain/broadcast_status.py`, and what `record_event`
and `record_worker_execution` do to the rows of one cycle once they hold its
lock (`broker/db/repository/broadcast_message.py`). Transactions of different
cycles share no row and no lock, so everything here is about one
`(symbol, strategy, signal_uxid)`; a log entry is named by its sequence number,
which is unique within the cycle.

The write log is the outbox: an entry is inserted with the change it tells of,
in one transaction, and waits there for a dispatcher. So `recordEvent` and its
sibling are functions on the row, its chats, workers and log, all at once, and a
cycle's history is a fold of them over what was recorded. `Cycle.Agrees` says
that row and log tell the same history, after any of them.
-/

namespace TradingBroker.Broadcast

/-! ## Status -/

/-- `BroadcastStatusEnum`. -/
inductive BroadcastStatus where
  | running | tp1 | closed
  deriving DecidableEq, Repr

/-- `_STATUS_ORDER`. -/
def BroadcastStatus.rank : BroadcastStatus → Nat
  | .running => 0
  | .tp1 => 1
  | .closed => 2

def statusForAction : SignalAction → BroadcastStatus
  | .tp2 => .closed
  | .sl => .closed
  | .rSl => .closed
  | .flat => .closed
  | .tp1 => .tp1
  | .long => .running
  | .short => .running

def mergeStatus (current incoming : BroadcastStatus) : BroadcastStatus :=
  if incoming.rank < current.rank then current else incoming

theorem rank_mergeStatus (current incoming : BroadcastStatus) :
    (mergeStatus current incoming).rank = max current.rank incoming.rank := by
  unfold mergeStatus
  split <;> omega

theorem mergeStatus_eq (current incoming : BroadcastStatus) :
    mergeStatus current incoming = current ∨ mergeStatus current incoming = incoming := by
  unfold mergeStatus
  split
  · exact .inl rfl
  · exact .inr rfl

/-! ## Rows -/

/-- The JSONB entry of `build_broadcast_event`. -/
structure BroadcastEvent where
  action : SignalAction
  price : Option PyFloat
  quantity : Option PyFloat
  sl : Option PyFloat
  tp1 : Option PyFloat
  tp2 : Option PyFloat
  riskPercent : Option PyFloat
  tp1Percent : Option PyFloat
  moveSlToBe : Option Bool
  useEquitySizing : Option Bool
  isRunning : Option Bool
  isScalePosition : Option Bool
  scaleStrategy : Option String
  timestamp : String
  attempt : Option Int
  indicators : Option IndicatorsSchema
  inputs : Option InputsSchema

def buildBroadcastEvent (payload : WebhookPayload) (attemptNumber : Option Int) :
    BroadcastEvent :=
  let pos := payload.position
  { action := pos.action
    price := pos.price
    quantity := pos.quantity
    sl := pos.sl
    tp1 := pos.tp1
    tp2 := pos.tp2
    riskPercent :=
      match pos.riskPercent with
      | some x => some x
      | none => payload.inputs.bind InputsSchema.riskPercent
    tp1Percent := pos.tp1Percent
    moveSlToBe := pos.moveSlToBe
    useEquitySizing := pos.useEquitySizing
    isRunning := pos.isRunning
    isScalePosition := pos.isScalePosition
    scaleStrategy := pos.scaleStrategy
    timestamp := payload.timestamp.isoformat
    attempt := attemptNumber
    indicators := payload.indicators
    inputs := payload.inputs }

/-- What identifies one alert: its action and its payload's timestamp. -/
def BroadcastEvent.key (e : BroadcastEvent) : SignalAction × String := (e.action, e.timestamp)

/-- A row of `broadcast_messages`. -/
structure BroadcastMessage where
  strategy : String
  signalUxid : Uxid
  symbol : String
  timeframe : Option String
  actions : String
  latestAction : SignalAction
  status : BroadcastStatus
  events : List BroadcastEvent
  lastSeq : Nat
  lastBroadcastAt : Option Int

inductive LogPayload where
  | signal (event : BroadcastEvent)
  | execution (workerId accountId : String) (status : TradeStatus) (action : Option String)

/-- `BroadcastLogStatusEnum`. -/
inductive LogStatus where
  | pending | sending | delivered | failed
  deriving DecidableEq, Repr

/-- A row of `broadcast_message_logs`; its kind is its payload's. -/
structure LogEntry where
  seq : Nat
  payload : LogPayload
  status : LogStatus
  attempts : Nat
  lastError : Option String
  deliveredAt : Option Int
  updatedAt : Int

/-- The event of a `SIGNAL` entry. -/
def LogPayload.event? : LogPayload → Option BroadcastEvent
  | .signal event => some event
  | .execution _ _ _ _ => none

/-- A row of `broadcast_message_workers`. -/
structure BroadcastWorker where
  workerId : String
  accountId : String
  market : Option MarketType
  gateway : Option String
  latestStatus : TradeStatus
  latestAction : Option String
  rejectReason : Option String
  lastEventAt : Int

/-- `BroadcastAudienceEnum`. -/
inductive Audience where
  | privateChats
  | publicChats
  deriving DecidableEq, Repr

/-- Telegram's id of a message; the text it is stored as is left out. -/
abbrev MessageId := Nat

/-- A row of `broadcast_message_chats`. -/
structure BroadcastChat where
  audience : Audience
  chatId : String
  messageId : Option MessageId
  message : Option String
  deliveredSeq : Nat
  notifiedEventCount : Option Nat
  lastError : Option String

/-- The rows of one cycle. -/
structure Cycle where
  message : BroadcastMessage
  logs : List LogEntry
  workers : List BroadcastWorker
  chats : List BroadcastChat

/-! ## Writers -/

/-- `_log_entry`. -/
def logEntry (seq : Nat) (payload : LogPayload) (now : Int) : LogEntry :=
  ⟨seq, payload, .pending, 0, none, none, now⟩

/-- `_is_duplicate_event`. -/
def isDuplicateEvent (events : List BroadcastEvent) (event : BroadcastEvent) : Bool :=
  match events.getLast? with
  | none => false
  | some last => last.key == event.key

/-- The arguments of `record_event`; the action is the event's. -/
structure EventRecord where
  strategy : String
  signalUxid : Uxid
  symbol : String
  timeframe : Option String
  event : BroadcastEvent

/-- The row of the first event of a cycle. -/
def EventRecord.message (r : EventRecord) : BroadcastMessage where
  strategy := r.strategy
  signalUxid := r.signalUxid
  symbol := r.symbol
  timeframe := r.timeframe
  actions := r.event.action.value
  latestAction := r.event.action
  status := statusForAction r.event.action
  events := [r.event]
  lastSeq := 1
  lastBroadcastAt := none

/-- The create branch of `record_event`. -/
def EventRecord.opened (r : EventRecord) (now : Int) : Cycle :=
  ⟨r.message, [logEntry 1 (.signal r.event) now], [], []⟩

/-- The action trail with one more action. -/
def appendAction (actions : String) (action : SignalAction) : String :=
  pyJoin ',' ((pySplit ',' actions).filter (· ≠ "") ++ [action.value])

/-- The row after one more event. -/
def BroadcastMessage.append (m : BroadcastMessage) (event : BroadcastEvent) : BroadcastMessage :=
  { m with
    events := m.events ++ [event]
    actions := appendAction m.actions event.action
    latestAction := event.action
    status := mergeStatus m.status (statusForAction event.action)
    lastSeq := m.lastSeq + 1 }

/-- What a transaction writes: the row's new values, its log entry, and the row of
a worker, inserted or replaced. -/
structure Change where
  message : BroadcastMessage
  entry : LogEntry
  worker : Option BroadcastWorker

def Change.upsert (workers : List BroadcastWorker) (w : BroadcastWorker) :
    List BroadcastWorker :=
  if workers.any fun v => v.workerId == w.workerId then
    workers.map fun v => if v.workerId = w.workerId then w else v
  else workers ++ [w]

def Change.apply (d : Change) (c : Cycle) : Cycle :=
  { c with
    message := d.message
    logs := c.logs ++ [d.entry]
    workers := d.worker.elim c.workers (Change.upsert c.workers) }

/-- The append branch of `record_event`, for the row it read. -/
def EventRecord.change (r : EventRecord) (row : BroadcastMessage) (now : Int) : Change where
  message := row.append r.event
  entry := logEntry (row.lastSeq + 1) (.signal r.event) now
  worker := none

/-- The arguments of `record_worker_execution` that do not name the cycle. -/
structure Execution where
  workerId : String
  accountId : String
  market : Option MarketType
  gateway : Option String
  latestStatus : TradeStatus
  latestAction : Option String
  rejectReason : Option String

def Cycle.worker? (c : Cycle) (workerId : String) : Option BroadcastWorker :=
  c.workers.find? fun w => w.workerId == workerId

def Execution.unchanged (x : Execution) (w : BroadcastWorker) : Bool :=
  w.latestStatus == x.latestStatus && w.latestAction == x.latestAction

/-- The worker's row after the execution: the one that was read, or a new one. -/
def Execution.worker (x : Execution) (now : Int) : Option BroadcastWorker → BroadcastWorker
  | some w =>
      { w with
        latestStatus := x.latestStatus
        latestAction := x.latestAction
        rejectReason := x.rejectReason
        lastEventAt := now
        market := x.market.or w.market
        gateway := x.gateway.or w.gateway }
  | none =>
      ⟨x.workerId, x.accountId, x.market, x.gateway, x.latestStatus, x.latestAction,
        x.rejectReason, now⟩

/-- The branches of `record_worker_execution` that log a change, for the rows it
read. -/
def Execution.change (x : Execution) (row : BroadcastMessage) (w : Option BroadcastWorker)
    (now : Int) : Change where
  message := { row with lastSeq := row.lastSeq + 1 }
  entry := logEntry (row.lastSeq + 1)
    (.execution x.workerId x.accountId x.latestStatus x.latestAction) now
  worker := some (x.worker now w)

/-- `record_event` on a cycle that exists, as one step. -/
def Cycle.recordEvent (c : Cycle) (r : EventRecord) (now : Int) : Cycle :=
  if isDuplicateEvent c.message.events r.event then c
  else (r.change c.message now).apply c

/-- `record_worker_execution` on it, as one step. -/
def Cycle.recordExecution (c : Cycle) (x : Execution) (now : Int) : Cycle :=
  if (c.worker? x.workerId).any x.unchanged then c
  else (x.change c.message (c.worker? x.workerId) now).apply c

/-- A call of a writer. -/
inductive Request where
  | event (r : EventRecord) (now : Int)
  | execution (x : Execution) (now : Int)

/-- What the caller wants logged. -/
def Request.payload : Request → LogPayload
  | .event r _ => .signal r.event
  | .execution x _ => .execution x.workerId x.accountId x.latestStatus x.latestAction

/-- The call as one step, on a cycle that may not exist yet. -/
def Request.run (e : Request) : Option Cycle → Option Cycle
  | none =>
      match e with
      | .event r now => some (r.opened now)
      | .execution _ _ => none
  | some c =>
      match e with
      | .event r now => some (c.recordEvent r now)
      | .execution x now => some (c.recordExecution x now)

/-- What a cycle's calls, one after the other, make of it. -/
def history (es : List Request) : Option Cycle := es.foldl (fun c e => e.run c) none

theorem history_concat (es : List Request) (e : Request) :
    history (es ++ [e]) = e.run (history es) := by
  rw [history, List.foldl_append]
  rfl

/-! ## One history, several views of it -/

/-- The row, its events and its write log tell the same history: the sequence numbers
are those up to the last, the events and their actions are those of the log, the latest
action is the last one's, and the status is the furthest of what the events stand for.
-/
structure Cycle.Agrees (c : Cycle) : Prop where
  seqs : c.logs.map LogEntry.seq = List.range' 1 c.message.lastSeq
  events : c.logs.filterMap (fun e => e.payload.event?) = c.message.events
  actions : pySplit ',' c.message.actions = c.message.events.map fun e => e.action.value
  latest : (c.message.events.getLast?).map BroadcastEvent.action = some c.message.latestAction
  status_le : ∀ e ∈ c.message.events,
    (statusForAction e.action).rank ≤ c.message.status.rank
  status_mem : ∃ e ∈ c.message.events, statusForAction e.action = c.message.status

theorem toList_value (a : SignalAction) : ',' ∉ a.value.toList ∧ a.value ≠ "" := by
  cases a <;> decide

theorem pySplit_pyJoin {parts : List String} (hne : parts ≠ [])
    (h : ∀ p ∈ parts, ',' ∉ p.toList) : pySplit ',' (pyJoin ',' parts) = parts := by
  have hsplit : ([','].intercalate (parts.map String.toList)).splitOn ',' =
      parts.map String.toList :=
    List.splitOn_intercalate ',' (by simpa using h) (by simpa using hne)
  rw [pySplit, pyJoin, String.toList_ofList, hsplit, List.map_map]
  simp

theorem pySplit_appendAction {actions : String} {events : List BroadcastEvent}
    (h : pySplit ',' actions = events.map fun e => e.action.value) (action : SignalAction) :
    pySplit ',' (appendAction actions action) =
      (events.map fun e => e.action.value) ++ [action.value] := by
  have hkeep : (pySplit ',' actions).filter (· ≠ "") = events.map fun e => e.action.value := by
    rw [h, List.filter_eq_self]
    intro p hp
    obtain ⟨e, -, rfl⟩ := List.mem_map.1 hp
    simpa using (toList_value e.action).2
  rw [appendAction, hkeep]
  refine pySplit_pyJoin (by simp) fun p hp => ?_
  rcases List.mem_append.1 hp with hp | hp
  · obtain ⟨e, -, rfl⟩ := List.mem_map.1 hp
    exact (toList_value e.action).1
  · rw [List.mem_singleton.1 hp]
    exact (toList_value action).1

theorem agrees_opened (r : EventRecord) (now : Int) : (r.opened now).Agrees where
  seqs := rfl
  events := rfl
  actions := by
    show pySplit ',' r.event.action.value = [r.event.action.value]
    cases r.event.action <;> decide
  latest := rfl
  status_le := by
    intro e he
    rw [List.mem_singleton.1 he]
    exact Nat.le_refl _
  status_mem := ⟨r.event, List.mem_singleton.2 rfl, rfl⟩

theorem Cycle.Agrees.event {c : Cycle} (h : c.Agrees) (r : EventRecord) (now : Int) :
    ((r.change c.message now).apply c).Agrees where
  seqs := by
    show (c.logs ++ [logEntry (c.message.lastSeq + 1) (.signal r.event) now]).map LogEntry.seq =
      List.range' 1 (c.message.lastSeq + 1)
    rw [List.map_append, h.seqs, List.range'_1_concat]
    simp [logEntry, Nat.add_comm]
  events := by
    show (c.logs ++ [logEntry _ (.signal r.event) now]).filterMap _ =
      c.message.events ++ [r.event]
    rw [List.filterMap_append, h.events]
    rfl
  actions := by
    show pySplit ',' (appendAction c.message.actions r.event.action) =
      (c.message.events ++ [r.event]).map fun e => e.action.value
    rw [pySplit_appendAction h.actions, List.map_append]
    rfl
  latest := by
    show ((c.message.events ++ [r.event]).getLast?).map _ = some r.event.action
    rw [List.getLast?_concat]
    rfl
  status_le := by
    intro e he
    show _ ≤ (mergeStatus c.message.status (statusForAction r.event.action)).rank
    rw [rank_mergeStatus]
    rcases List.mem_append.1 he with he | he
    · have hle := h.status_le e he
      omega
    · rw [List.mem_singleton.1 he]
      omega
  status_mem := by
    show ∃ e ∈ c.message.events ++ [r.event],
      statusForAction e.action = mergeStatus c.message.status (statusForAction r.event.action)
    rcases mergeStatus_eq c.message.status (statusForAction r.event.action) with hm | hm
    · obtain ⟨e, he, hs⟩ := h.status_mem
      exact ⟨e, List.mem_append_left _ he, hs.trans hm.symm⟩
    · exact ⟨r.event, List.mem_append_right _ (List.mem_singleton.2 rfl), hm.symm⟩

theorem Cycle.Agrees.execution {c : Cycle} (h : c.Agrees) (x : Execution)
    (w : Option BroadcastWorker) (now : Int) : ((x.change c.message w now).apply c).Agrees where
  seqs := by
    show (c.logs ++ [logEntry (c.message.lastSeq + 1) _ now]).map LogEntry.seq =
      List.range' 1 (c.message.lastSeq + 1)
    rw [List.map_append, h.seqs, List.range'_1_concat]
    simp [logEntry, Nat.add_comm]
  events := by
    show (c.logs ++ [logEntry _ _ now]).filterMap _ = c.message.events
    rw [List.filterMap_append, h.events]
    exact List.append_nil _
  actions := h.actions
  latest := h.latest
  status_le := h.status_le
  status_mem := h.status_mem

theorem Cycle.Agrees.recordEvent {c : Cycle} (h : c.Agrees) (r : EventRecord) (now : Int) :
    (c.recordEvent r now).Agrees := by
  unfold Cycle.recordEvent
  split
  · exact h
  · exact h.event r now

theorem Cycle.Agrees.recordExecution {c : Cycle} (h : c.Agrees) (x : Execution) (now : Int) :
    (c.recordExecution x now).Agrees := by
  unfold Cycle.recordExecution
  split
  · exact h
  · exact h.execution x _ now

theorem agrees_run {e : Request} {c : Option Cycle} (h : ∀ d, c = some d → d.Agrees) {d : Cycle}
    (hd : e.run c = some d) : d.Agrees := by
  cases c with
  | none =>
      cases e with
      | event r now =>
          cases hd
          exact agrees_opened r now
      | execution x now => cases hd
  | some c =>
      cases e with
      | event r now =>
          cases hd
          exact (h c rfl).recordEvent r now
      | execution x now =>
          cases hd
          exact (h c rfl).recordExecution x now

theorem agrees_foldl (es : List Request) : ∀ {start : Option Cycle} {c : Cycle},
    (∀ d, start = some d → d.Agrees) → es.foldl (fun c e => e.run c) start = some c →
      c.Agrees := by
  induction es with
  | nil => exact fun hstart h => hstart _ h
  | cons e es ih => exact fun hstart h => ih (fun _ hd => agrees_run hstart hd) h

theorem agrees_history {es : List Request} {c : Cycle} (h : history es = some c) : c.Agrees :=
  agrees_foldl es (fun _ hd => absurd hd.symm (Option.some_ne_none _)) h

/-! ## Events for the runs below -/

namespace Sample

def event (action : SignalAction) (timestamp : String) : BroadcastEvent :=
  ⟨action, none, none, none, none, none, none, none, none, none, none, none, none, timestamp,
    none, none, none⟩

theorem uxid_valid : isValidUxid (pyStr "0123456789ABCDEF") = true := by decide

def uxid : Uxid := ⟨pyStr "0123456789ABCDEF", uxid_valid⟩

def record (action : SignalAction) (timestamp : String) : EventRecord :=
  ⟨"S", uxid, "ETHUSD", none, event action timestamp⟩

end Sample

end TradingBroker.Broadcast
