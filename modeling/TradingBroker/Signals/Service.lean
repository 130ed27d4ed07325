import TradingBroker.Lib.Coroutine
import TradingBroker.Signals.Table

/-!
# The signal pipeline

`broker/services/signal_processing_service.py` from `handle_enqueued` on, the
guard of `jetstream_service.py` around it, `signal_retry_job.py`, and the replay
a `WORKER_CONNECTED` handshake is answered with (`nats_service.py`). Every
function is the coroutine it is in the source: what it awaits, in which order,
and what it does with each answer, exceptions included.

Three of the calls are not awaited in the source but drawn from the outside all
the same: a fresh uxid, the clock, and the two marks. A mark does nothing; it
says that a fan-out starts or that `handle_enqueued` has answered, which is what
statements about runs are about.

A coroutine is a tree of its calls (`Lib.Coroutine`), an exception one of its
answers, so that `try` and `except` are functions on trees. Nothing is said here
about who else is at work.
-/

namespace TradingBroker

open TradingBroker.Lib

/-- The exceptions the pipeline tells apart: a call that raised,
`SignalParseError`, and the four `RuntimeError`s `handle_enqueued` ends with. -/
inductive Fault where
  | unavailable
  | signalParse
  | blockedNotMarked
  | notPersisted
  | unparseableNotMarked (signalId : RowId)
  | attemptNotRecorded (signalId : RowId)

/-- The `status` a function of the service returns, and what goes with it. -/
inductive Answer where
  | blocked
  | duplicate (signalId : RowId)
  | notFound
  | skipped (signalId : RowId)
  | invalid (signalId : RowId)
  | retryScheduled (signalId : RowId) (attemptsBefore : Int)
  | accepted (signalId : RowId) (timestamp : String)

inductive Mark where
  | fanout (signalId : RowId)
  | answered (answer : Answer)

/-- What decoding a message's data comes to: `malformed` is a
`UnicodeDecodeError` or a `JSONDecodeError`, `unreadable` any other exception
`json.loads` ends with (an integer of too many digits, too deep a nesting). -/
inductive MessageData where
  | json (envelope : Json)
  | malformed
  | unreadable

/-- A JetStream message: its place in the stream, which JetStream counts in 64
bits, when the stream stored it, and its data. -/
structure Message where
  seq : Nat
  timestamp : Timestamp
  data : MessageData
  seq_lt : seq < 2 ^ 64

inductive Call where
  | getStrict (key : String)
  | get (key : String)
  | notifyBlocked (payload : WebhookPayload)
  | getByDeliveryKey (deliveryKey : String)
  | logSignal (payload : WebhookPayload) (deliveryKey : Option String) (attempts : Int)
  | markPublished (signalId : RowId)
  | markFailed (signalId : RowId)
  | recordAttemptFailure (signalId : RowId)
  | getById (signalId : RowId)
  | listRetryable (retryInterval : Int)
  | listRecentByStrategies (strategies : List String) (sinceSeconds : Int)
  | publish (message : WorkerMessage)
  | broadcast (payload : WebhookPayload) (attemptNumber : Option Int)
  | replyAck (retrySignals : List TradingSignal)
  | inProgress
  | sleep (seconds : Rat)
  | ack
  | nak
  | term
  | newUxid
  | utcnow
  | mark (m : Mark)

/-- What a call answers. The repository's own methods report a failure in their
result; the others raise. -/
abbrev Call.Result : Call → Type
  | .getStrict _ => Except Fault (Option String)
  | .get _ => Option String
  | .notifyBlocked _ => Except Fault Unit
  | .getByDeliveryKey _ => Except Fault (Option Signal)
  | .logSignal _ _ _ => Option RowId
  | .markPublished _ => Bool
  | .markFailed _ => Bool
  | .recordAttemptFailure _ => Option Signal
  | .getById _ => Option Signal
  | .listRetryable _ => List Signal
  | .listRecentByStrategies _ _ => List (RowId × Json)
  | .publish _ => Except Fault Unit
  | .broadcast _ _ => Except Fault Unit
  | .replyAck _ => Except Fault Unit
  | .newUxid => Uxid
  | .utcnow => Int
  | _ => Unit

abbrev Prog := Coro Call Call.Result Fault

/-- The tunables of the pipeline, and what is wired into it. -/
structure Config where
  maxAttempts : Int
  inlineRetryDelays : List Rat
  retryInterval : Int
  hasBroadcaster : Bool
  hasSignals : Bool

def inlineRetryDelaysSeconds : List Rat := [1 / 2, 1, 2, 4]

/-! ## `SignalProcessingService` -/

section
variable (lib : Libraries) (cfg : Config)

def attemptNumberForNotification (attemptsBefore maxAttempts : Int) : Option Int :=
  if attemptsBefore > 2 then none else some (maxAttempts - attemptsBefore + 1)

def isBlocked (payload : WebhookPayload) : Prog Bool :=
  .call (.getStrict "signal_blocked") fun
    | .error e => .raise e
    | .ok value =>
        if value ≠ some "1" then pure false
        else .call (.notifyBlocked payload) fun _ => pure true

def publishFlat (payload : WebhookPayload) (signalId : RowId) : Prog Unit :=
  .call (.publish (.flat (flatDirective lib payload signalId))) .ofExcept

def publishSignal (payload : WebhookPayload) (signalId : RowId) : Prog Unit :=
  .call .utcnow fun now =>
    match parseSignal lib payload signalId now with
    | none => .raise .signalParse
    | some signal => .call (.publish (.signal signal)) .ofExcept

def broadcast (payload : WebhookPayload) (attemptsBefore : Int) : Prog Unit :=
  if cfg.hasBroadcaster then
    .call (.broadcast payload (attemptNumberForNotification attemptsBefore cfg.maxAttempts))
      fun _ => pure ()
  else pure ()

/-- The fan-out's answer to a `SignalParseError`, which no retry would fare better
with. -/
def giveUp (signalId : RowId) : Prog Answer :=
  .call (.markFailed signalId) fun marked =>
    if marked then pure (.invalid signalId) else .raise (.unparseableNotMarked signalId)

/-- Its answer to any other exception of the publish. -/
def leaveToRetryJob (signalId : RowId) (attemptsBefore : Int) : Prog Answer :=
  .call (.recordAttemptFailure signalId) fun row =>
    match row with
    | none => .raise (.attemptNotRecorded signalId)
    | some _ => pure (.retryScheduled signalId attemptsBefore)

/-- Broadcast and bookkeeping after a publish: neither can undo it. -/
def confirm (signalId : RowId) (payload : WebhookPayload) (attemptsBefore : Int) :
    Prog Answer := do
  broadcast cfg payload attemptsBefore
  .call (.markPublished signalId) fun _ =>
    pure (.accepted signalId payload.timestamp.isoformat)

def fanout (signalId : RowId) (payload : WebhookPayload) (attemptsBefore : Int) :
    Prog Answer := do
  .call (.mark (.fanout signalId)) fun _ => pure ()
  match ← Coro.attempt
    (if payload.position.action = .flat then publishFlat lib payload signalId
    else publishSignal lib payload signalId) with
  | .error .signalParse => giveUp signalId
  | .error _ => leaveToRetryJob signalId attemptsBefore
  | .ok () => confirm cfg signalId payload attemptsBefore

def handleRedelivery (row : Signal) (payload : WebhookPayload) : Prog Answer :=
  if row.firstFanoutUnconfirmed then fanout lib cfg row.id payload row.attempts
  else pure (.duplicate row.id)

/-- The lookup a message that may have been seen before starts with. -/
def findExisting (deliveryKey : Option String) (redelivered : Bool) : Prog (Option Signal) :=
  match deliveryKey with
  | some key => if redelivered then .call (.getByDeliveryKey key) .ofExcept else pure none
  | none => pure none

/-- What a closed gate does with the row of an interrupted first fan-out. -/
def closeBlocked (existing : Option Signal) : Prog Answer :=
  match existing with
  | some row =>
      if row.firstFanoutUnconfirmed then
        .call (.markFailed row.id) fun marked =>
          if marked then pure .blocked else .raise .blockedNotMarked
      else pure .blocked
  | none => pure .blocked

def persistAndFanout (payload : WebhookPayload) (deliveryKey : Option String) :
    Prog Answer :=
  .call (.logSignal payload deliveryKey cfg.maxAttempts) fun
    | none => .raise .notPersisted
    | some signalId => fanout lib cfg signalId payload cfg.maxAttempts

def handleEnqueued (payload : WebhookPayload) (deliveryKey : Option String)
    (redelivered : Bool) : Prog Answer := do
  let existing ← findExisting deliveryKey redelivered
  if ← isBlocked payload then closeBlocked existing
  else
    match existing with
    | some row => handleRedelivery lib cfg row payload
    | none => persistAndFanout lib cfg payload deliveryKey

def retrySignal (signalId : RowId) : Prog Answer :=
  .call (.getById signalId) fun
    | none => pure .notFound
    | some row =>
        if row.status ≠ .queued ∨ row.attempts ≤ 0 then pure (.skipped signalId)
        else
          match row.raw with
          | .obj raw =>
              .call .newUxid fun minted =>
                match WebhookPayload.validate lib.coerce raw minted with
                | none =>
                    .call (.recordAttemptFailure signalId) fun _ => pure (.invalid signalId)
                | some payload => fanout lib cfg signalId payload row.attempts
          | _ => .call (.recordAttemptFailure signalId) fun _ => pure (.invalid signalId)

/-! ## `SignalWorker` -/

def jetstreamSignalStream : String := "SIGNALS"

/-- `delivery_key_for` of a message with metadata, as every delivered one has. -/
def deliveryKeyFor (msg : Message) : String :=
  "seq:" ++ jetstreamSignalStream ++ ":" ++ toString msg.seq ++ "@" ++ msg.timestamp.isoformat

/-- The key names the stored message: neither the digits of a sequence number nor
an `isoformat()` holds an `@`. -/
theorem deliveryKeyFor_inj {a b : Message} (h : deliveryKeyFor a = deliveryKeyFor b) :
    a.seq = b.seq ∧ a.timestamp.isoformat = b.timestamp.isoformat := by
  have hdigits : '@' ∉ Nat.toDigits 10 a.seq := by
    intro hn
    have := Nat.isDigit_of_mem_toDigits (by omega) (by omega) hn
    simp [Char.isDigit] at this
  have hiso : '@' ∉ a.timestamp.isoformat.toList := by
    intro hn
    have := List.all_eq_true.1 a.timestamp.iso_chars _ hn
    simp [isIsoChar, Char.isDigit] at this
  have hl := congrArg String.toList h
  simp only [deliveryKeyFor, String.toList_append, List.append_assoc, List.append_cancel_left_eq,
    Nat.toString_eq_repr, Nat.toList_repr] at hl
  have hl' : Nat.toDigits 10 a.seq ++ '@' :: a.timestamp.isoformat.toList =
      Nat.toDigits 10 b.seq ++ '@' :: b.timestamp.isoformat.toList := hl
  obtain ⟨hseq, -, htime⟩ := (List.append_cons_inj_of_notMem hdigits hiso).1 hl'
  refine ⟨?_, String.toList_inj.1 htime⟩
  have hd := congrArg (fun ds => Nat.ofDigitChars 10 ds 0) hseq
  simpa only [Nat.ofDigitChars_ten_toDigits] using hd

/-- `envelope.get("payload")`, where both are objects. -/
def rawPayload (envelope : Json) : Option JsonObject :=
  match envelope with
  | .obj fields =>
      match JsonObject.get? fields "payload" with
      | some (.obj raw) => some raw
      | _ => none
  | _ => none

def JetStreamPullWorker.ack : Prog Unit := .call .ack fun _ => pure ()

def JetStreamPullWorker.nak : Prog Unit := .call .nak fun _ => pure ()

def JetStreamPullWorker.term : Prog Unit := .call .term fun _ => pure ()

open JetStreamPullWorker

/-- The loop of `_handle_one`: in place while delays are left, then a NAK. -/
def handleInPlace (payload : WebhookPayload) (deliveryKey : String) :
    List Rat → Bool → Prog Unit
  | [], redelivered => do
      match ← Coro.attempt (handleEnqueued lib cfg payload (some deliveryKey) redelivered) with
      | .ok answer => .call (.mark (.answered answer)) fun _ => ack
      | .error _ => nak
  | delay :: delays, redelivered => do
      match ← Coro.attempt (handleEnqueued lib cfg payload (some deliveryKey) redelivered) with
      | .ok answer => .call (.mark (.answered answer)) fun _ => ack
      | .error _ =>
          .call .inProgress fun _ => .call (.sleep delay) fun _ =>
            -- The failed attempt may have written the row before it raised.
            handleInPlace payload deliveryKey delays true

def handleOne (msg : Message) (deliveryCount : Nat) : Prog Unit :=
  match msg.data with
  | .unreadable => .raise .unavailable
  | .malformed => term
  | .json envelope =>
      match rawPayload envelope with
      | none => term
      | some raw =>
          .call .newUxid fun minted =>
            match WebhookPayload.validate lib.coerce raw minted with
            | none => term
            | some payload =>
                handleInPlace lib cfg payload (deliveryKeyFor msg) cfg.inlineRetryDelays
                  (1 < deliveryCount)

/-- What `JetStreamPullWorker._run` does with one message. -/
def workerTask (msg : Message) (deliveryCount : Nat) : Prog Unit := do
  match ← Coro.attempt (handleOne lib cfg msg deliveryCount) with
  | .ok () => pure ()
  | .error _ => nak

/-! ## `SignalRetryJob` -/

def retryRows : List Signal → Prog Unit
  | [] => pure ()
  | row :: rows => do
      let _ ← Coro.attempt (retrySignal lib cfg row.id)
      retryRows rows

def tickOnce : Prog Unit :=
  .call (.listRetryable cfg.retryInterval) fun rows => retryRows lib cfg rows

/-! ## The handshake's replay -/

def defaultMaxRetryTimeoutSeconds : Int := 60

def getMaxRetryTimeoutSeconds : Prog Int :=
  .call (.get "max_retry_timeout") fun raw =>
    match raw.bind pyInt with
    | none => pure defaultMaxRetryTimeoutSeconds
    | some value => pure (if value ≤ 0 then defaultMaxRetryTimeoutSeconds else value)

/-- The envelopes in order; one that cannot be rebuilt is skipped. -/
def parseReplay : List (RowId × Json) → Prog (List TradingSignal)
  | [] => pure []
  | (signalId, .obj raw) :: envelopes =>
      .call .newUxid fun minted =>
        match WebhookPayload.validate lib.coerce raw minted with
        | none => parseReplay envelopes
        | some payload =>
            .call .utcnow fun now =>
              match parseSignal lib payload signalId now with
              | none => parseReplay envelopes
              | some signal => do return signal :: (← parseReplay envelopes)
  | _ :: envelopes => parseReplay envelopes

def buildRetrySignals (strategies : List String) : Prog (List TradingSignal) :=
  if !cfg.hasSignals || strategies.isEmpty then pure []
  else do
    let window ← getMaxRetryTimeoutSeconds
    .call (.listRecentByStrategies strategies window) fun envelopes =>
      parseReplay lib envelopes

/-- A `WORKER_CONNECTED` event, as far as the replay goes. -/
def answerHandshake (strategies : List String) : Prog Unit := do
  let retrySignals ← buildRetrySignals lib cfg strategies
  .call (.replyAck retrySignals) fun _ => pure ()

end

end TradingBroker
