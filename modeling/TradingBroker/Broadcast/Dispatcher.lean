import TradingBroker.Broadcast.Targets
import TradingBroker.Lib.Machine

/-!
# The dispatcher of one cycle

The reader half of `broker/services/broadcast_service.py`: `_dispatch_locked` and
what it calls, one call for each repository or Telegram request, and the sweeper's
two calls. The repository's side (`broker/db/repository/broadcast_message.py`) is
a function on the rows of the cycle; a failed read answers nothing, as its
`except` branches do, and a write may fail, or take effect and be reported as
failed.

A process runs one pass of a cycle at a time, next to its sweeper: that is the
lock around `_dispatch_locked`. A body and a notice carry what they were rendered
from, which nothing in the code reads.

Rendering may raise, at a time that no zone can show or at a number that is none,
and then the pass ends there like one that was killed (`Config.renders`): nothing
is shown and nothing is marked.
-/

namespace TradingBroker.Broadcast

/-! ## The repository -/

/-- `BroadcastCycleView`. -/
structure CycleView where
  message : BroadcastMessage
  chats : List BroadcastChat
  workers : List BroadcastWorker

def Cycle.view (c : Cycle) : CycleView := ⟨c.message, c.chats, c.workers⟩

/-- A column of 255 characters that may be `NULL`. -/
def clip (text : String) : Option String :=
  let head := String.ofList (text.toList.take 255)
  if head = "" then none else some head

def LogEntry.claimable (maxAttempts : Nat) (e : LogEntry) : Bool :=
  e.status == .pending && decide (e.attempts < maxAttempts)

def LogEntry.claim (now : Int) (e : LogEntry) : LogEntry :=
  { e with
    status := .sending
    attempts := e.attempts + 1
    updatedAt := now }

/-- The rows `claim_pending_logs` returns; the log is kept in the order of `seq`. -/
def Cycle.claimed (maxAttempts : Nat) (now : Int) (c : Cycle) : List LogEntry :=
  (c.logs.filter (LogEntry.claimable maxAttempts)).map (LogEntry.claim now)

def Cycle.claimPendingLogs (maxAttempts : Nat) (now : Int) (c : Cycle) : Cycle :=
  { c with logs := c.logs.map fun e => if e.claimable maxAttempts then e.claim now else e }

/-- The arguments of `finish_logs` besides the ids. -/
structure Finish where
  delivered : Bool
  error : Option String
  maxAttempts : Option Nat

def LogEntry.finish (f : Finish) (now : Int) (e : LogEntry) : LogEntry :=
  if f.delivered then
    { e with status := .delivered, deliveredAt := some now, lastError := none, updatedAt := now }
  else
    { e with
      lastError := clip (f.error.getD "")
      status := if f.maxAttempts.any fun n => decide (n ≤ e.attempts) then .failed else .pending
      updatedAt := now }

def Cycle.finishLogs (ids : List Nat) (f : Finish) (now : Int) (c : Cycle) : Cycle :=
  { c with logs := c.logs.map fun e => if e.seq ∈ ids then e.finish f now else e }

def LogEntry.defer (reason : String) (now : Int) (e : LogEntry) : LogEntry :=
  { e with
    status := .pending
    attempts := e.attempts - 1
    lastError := clip reason
    updatedAt := now }

def Cycle.deferLogs (ids : List Nat) (reason : String) (now : Int) (c : Cycle) : Cycle :=
  { c with logs := c.logs.map fun e => if e.seq ∈ ids then e.defer reason now else e }

/-- In `SENDING`, and not touched for `stale_after_seconds`. -/
def LogEntry.stale (staleAfter : Nat) (now : Int) (e : LogEntry) : Bool :=
  e.status == .sending && decide (e.updatedAt < now - staleAfter)

def LogEntry.reclaim (now : Int) (e : LogEntry) : LogEntry :=
  { e with
    status := .pending
    updatedAt := now }

def Cycle.reclaimStaleLogs (staleAfter : Nat) (now : Int) (c : Cycle) : Cycle :=
  { c with logs := c.logs.map fun e => if e.stale staleAfter now then e.reclaim now else e }

/-- `list_cycles_with_pending_logs` would return the cycle. -/
def Cycle.hasPendingLogs (maxAttempts staleAfter : Nat) (now : Int) (c : Cycle) : Bool :=
  c.logs.any fun e =>
    decide (e.attempts < maxAttempts) && (e.status == .pending || e.stale staleAfter now)

/-- The arguments of `upsert_chat`. -/
structure ChatUpsert where
  audience : Audience
  chatId : String
  messageId : Option MessageId
  message : Option String
  deliveredSeq : Option Nat
  notifiedEventCount : Option Nat
  lastError : Option String

def ChatUpsert.insert (u : ChatUpsert) : BroadcastChat :=
  ⟨u.audience, u.chatId, u.messageId, u.message, u.deliveredSeq.getD 0, u.notifiedEventCount,
    u.lastError⟩

def ChatUpsert.update (u : ChatUpsert) (row : BroadcastChat) : BroadcastChat :=
  { row with
    audience := u.audience
    messageId := u.messageId.or row.messageId
    message := u.message.or row.message
    deliveredSeq :=
      match u.deliveredSeq with
      | some seq => if row.deliveredSeq < seq then seq else row.deliveredSeq
      | none => row.deliveredSeq
    notifiedEventCount :=
      match u.notifiedEventCount with
      | some count =>
          if row.notifiedEventCount.getD 0 < count then some count else row.notifiedEventCount
      | none => row.notifiedEventCount
    lastError := u.lastError }

/-- The row of a chat. -/
def chat? (chats : List BroadcastChat) (chatId : String) : Option BroadcastChat :=
  chats.find? fun row => row.chatId == chatId

def Cycle.upsertChat (u : ChatUpsert) (c : Cycle) : Cycle :=
  { c with
    chats :=
      match chat? c.chats u.chatId with
      | none => c.chats ++ [u.insert]
      | some _ => c.chats.map fun row => if row.chatId = u.chatId then u.update row else row }

def Cycle.markBroadcast (now : Int) (c : Cycle) : Cycle :=
  { c with message := { c.message with lastBroadcastAt := some now } }

/-- What `get_many` returns for the six keys of a pass. -/
structure SettingValues where
  silentSignal : Option String
  timezone : Option String
  includeSignalRaw : Option String
  publicChatIds : Option String
  privateReplyNotify : Option String
  publicReplyNotify : Option String

/-- The empty `dict`. -/
def SettingValues.empty : SettingValues := ⟨none, none, none, none, none, none⟩

def SettingValues.silent (v : SettingValues) : Bool := v.silentSignal == some "1"

def SettingValues.replyEnabled (v : SettingValues) : Audience → Bool
  | .privateChats => v.privateReplyNotify != some "0"
  | .publicChats => v.publicReplyNotify != some "0"

/-! ## Telegram -/

/-- A rendered message, with the sequence it was rendered from. -/
structure Body where
  seq : Nat
  text : String

/-- A reply notice, with the index of its event. -/
structure Notice where
  index : Nat
  text : String

inductive EditOutcome where
  | ok | missing | failed
  deriving DecidableEq

inductive SendOutcome where
  | ok | failed | unknown
  deriving DecidableEq

structure SendResult where
  outcome : SendOutcome
  messageId : Option MessageId

/-- `format_broadcast_message` and `format_broadcast_update_notice`: the row, the
workers if they are shown, the time zone, and the two flags. No body is an exception, no
notice is none to give. -/
structure Formatter where
  message : BroadcastMessage → Option (List BroadcastWorker) → Option String → Bool → Bool →
    Option String
  notice : BroadcastMessage → Nat → Option String

structure Config where
  maxAttempts : Nat
  attempts_pos : 0 < maxAttempts
  staleAfter : Nat
  privateChatIds : String
  format : Formatter

/-! ## A pass -/

inductive Call where
  | claimPendingLogs
  | loadCycle
  | getMany
  | editMessage (chat : ChatTarget) (messageId : MessageId) (body : Body)
  | sendMessage (chat : ChatTarget) (body : Body)
  | replyMessage (chat : ChatTarget) (messageId : MessageId) (notice : Notice)
  | upsertChat (u : ChatUpsert)
  | finishLogs (ids : List Nat) (f : Finish)
  | deferLogs (ids : List Nat) (reason : String)
  | markBroadcast
  | reclaimStaleLogs
  | listCycle

abbrev Call.Result : Call → Type
  | .claimPendingLogs => List LogEntry
  | .loadCycle => Option CycleView
  | .getMany => SettingValues
  | .editMessage _ _ _ => EditOutcome
  | .sendMessage _ _ => SendResult
  | .reclaimStaleLogs => Nat
  | _ => Bool

/-- `int()` of a topic id raises, or a body cannot be rendered. -/
inductive Fault where
  | valueError
  | notRendered

open TradingBroker.Lib

abbrev Prog := Coro Call Call.Result Fault

/-- Chat rows holding a posted message older than the cycle's latest seq. -/
def chatsBehind (view : CycleView) : List BroadcastChat :=
  view.chats.filter fun chat =>
    chat.messageId.isSome && decide (chat.deliveredSeq < view.message.lastSeq)

/-- The write of `_park` for one chat behind. -/
def catchUp (view : CycleView) (reason : String) (chat : BroadcastChat) : ChatUpsert where
  audience := chat.audience
  chatId := chat.chatId
  messageId := none
  message := none
  deliveredSeq := none
  notifiedEventCount := some view.message.events.length
  lastError := some ("parked: " ++ reason)

def catchUpAll (view : CycleView) (reason : String) : List BroadcastChat → Prog Unit
  | [] => pure ()
  | chat :: rest => .call (.upsertChat (catchUp view reason chat)) fun _ =>
      catchUpAll view reason rest

def delivered : Finish := ⟨true, none, none⟩

def park (view : CycleView) (ids : List Nat) (reason : String) : Prog Unit :=
  if (chatsBehind view).isEmpty then .call (.finishLogs ids delivered) fun _ => pure ()
  else do
    catchUpAll view reason (chatsBehind view)
    .call (.deferLogs ids reason) fun _ => pure ()

/-- The arguments of `_deliver`; its `seq` is the body's. -/
structure Delivery where
  audience : Audience
  chat : ChatTarget
  body : Body
  notices : List (Option Notice)
  existing : Option BroadcastChat
  notifyEnabled : Bool

/-- The chat was already shown a body at least this new. -/
def Delivery.upToDate (d : Delivery) : Bool :=
  d.existing.any fun row => decide (d.body.seq ≤ row.deliveredSeq)

def Delivery.messageId (d : Delivery) : Option MessageId :=
  d.existing.bind BroadcastChat.messageId

def Delivery.alreadyNotified (d : Delivery) : Option Nat :=
  d.existing.bind BroadcastChat.notifiedEventCount

/-- The loop of `_notify_updates`, `sent` notices being announced. -/
def announce (chat : ChatTarget) (messageId : MessageId) (sent : Nat) :
    List (Option Notice) → Prog Nat
  | [] => pure sent
  | none :: rest => announce chat messageId (sent + 1) rest
  | some notice :: rest => .call (.replyMessage chat messageId notice) fun
      | true => announce chat messageId (sent + 1) rest
      | false => pure sent

def notifyUpdates (d : Delivery) (messageId : MessageId) : Prog Nat :=
  match d.alreadyNotified with
  | none => pure d.notices.length
  | some already =>
      if d.notifyEnabled then announce d.chat messageId already (d.notices.drop already)
      else pure d.notices.length

/-- After an edit that landed. -/
def Delivery.edited (d : Delivery) (messageId : MessageId) (notified : Nat) : ChatUpsert :=
  ⟨d.audience, d.chat.rawId, some messageId, some d.body.text, some d.body.seq, some notified,
    none⟩

/-- After a call Telegram refused. -/
def Delivery.refused (d : Delivery) (error : String) : ChatUpsert :=
  ⟨d.audience, d.chat.rawId, none, none, none, none, some error⟩

/-- After a send Telegram never answered. -/
def Delivery.unanswered (d : Delivery) : ChatUpsert :=
  ⟨d.audience, d.chat.rawId, none, some d.body.text, some d.body.seq, some d.notices.length,
    some "send outcome unknown"⟩

def Delivery.posted (d : Delivery) (messageId : MessageId) : ChatUpsert :=
  ⟨d.audience, d.chat.rawId, some messageId, some d.body.text, some d.body.seq,
    some d.notices.length, none⟩

/-- What `_deliver` records of a send. -/
def Delivery.sent (d : Delivery) (r : SendResult) : ChatUpsert :=
  if r.outcome = .unknown then d.unanswered
  else
    match r.messageId with
    | none => d.refused "send failed"
    | some messageId => d.posted messageId

/-- Whether it counts as delivered. -/
def SendResult.landed (r : SendResult) : Bool :=
  decide (r.outcome ≠ .unknown) && r.messageId.isSome

/-- The part of `_deliver` that posts a new message. -/
def post (d : Delivery) : Prog Bool :=
  .call (.sendMessage d.chat d.body) fun r =>
    .call (.upsertChat (d.sent r)) fun _ => pure r.landed

def deliver (d : Delivery) : Prog Bool :=
  if d.upToDate then pure true
  else
    match d.messageId with
    | some messageId => .call (.editMessage d.chat messageId d.body) fun
        | .ok => do
            let notified ← notifyUpdates d messageId
            .call (.upsertChat (d.edited messageId notified)) fun _ => pure true
        | .failed => .call (.upsertChat (d.refused "edit failed")) fun _ => pure false
        | .missing => post d
    | none => post d

section
variable (cfg : Config)

/-- `bodies` of `_deliver_all`. -/
def bodyText (view : CycleView) (values : SettingValues) : Audience → Option String
  | .privateChats =>
      cfg.format.message view.message (some view.workers) values.timezone
        (values.includeSignalRaw == some "1") true
  | .publicChats => cfg.format.message view.message none values.timezone false false

/-- Both bodies are rendered, before the first chat. -/
def Config.renders (view : CycleView) (values : SettingValues) : Bool :=
  (bodyText cfg view values .privateChats).isSome &&
    (bodyText cfg view values .publicChats).isSome

def notices (view : CycleView) : List (Option Notice) :=
  (List.range view.message.events.length).map fun index =>
    (cfg.format.notice view.message index).map (Notice.mk index)

/-- The arguments `_deliver_all` calls `_deliver` with for a target. -/
def delivery (view : CycleView) (values : SettingValues) (t : Target) : Delivery where
  audience := t.audience
  chat := t.chat
  body := ⟨view.message.lastSeq, (bodyText cfg view values t.audience).getD ""⟩
  notices := notices cfg view
  existing := chat? view.chats t.rawId
  notifyEnabled := values.replyEnabled t.audience

def deliverAll (view : CycleView) (values : SettingValues) : List Target → Prog Bool
  | [] => pure true
  | t :: rest => do
      let ok ← deliver (delivery cfg view values t)
      let oks ← deliverAll view values rest
      pure (ok && oks)

def Config.targets (v : SettingValues) : Option (List Target) :=
  Broadcast.targets cfg.privateChatIds v.publicChatIds

/-- No two chats that are configured go by one id. -/
def Config.Distinct (v : SettingValues) : Prop :=
  ∀ ts, cfg.targets v = some ts → (ts.map Target.rawId).Nodup

instance (v : SettingValues) : Decidable (cfg.Distinct v) :=
  decidable_of_iff (∀ ts ∈ (cfg.targets v).toList, (ts.map Target.rawId).Nodup)
    ⟨fun h ts hts => h ts (Option.mem_toList.2 hts), fun h ts hts => h ts (Option.mem_toList.1 hts)⟩

/-- How a pass finishes its entries after delivering. -/
def Config.finish (ok : Bool) : Finish :=
  ⟨ok, if ok then none else some "delivery failed", some cfg.maxAttempts⟩

def dispatchLocked : Prog Unit :=
  .call .claimPendingLogs fun claimed =>
    if claimed.isEmpty then pure ()
    else
      let ids := claimed.map LogEntry.seq
      .call .loadCycle fun
        | none => .call (.finishLogs ids delivered) fun _ => pure ()
        | some view =>
            .call .getMany fun values =>
              if values.silent then park view ids "silenced"
              else
                match cfg.targets values with
                | none => .raise .valueError
                | some [] => park view ids "no broadcast chats configured"
                | some ts =>
                    if cfg.renders view values then do
                      let ok ← deliverAll cfg view values ts
                      .call (.finishLogs ids (cfg.finish ok)) fun _ =>
                        .call .markBroadcast fun _ => pure ()
                    else .raise .notRendered

end

/-- `sweep`, up to the dispatches it goes on to. -/
def sweep : Prog Unit :=
  .call .reclaimStaleLogs fun _ => .call .listCycle fun _ => pure ()

end TradingBroker.Broadcast
