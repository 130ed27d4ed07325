import TradingBroker.Signals.System

/-!
# What every call of the pipeline is made with

The pipeline has no lock. What keeps the worker and the retry job off each
other's rows is one column: while `last_attempt` is `NULL` a queued row is the
worker's, from the first recorded failure on it is the retry job's, and neither
changes, or publishes, a row that is not its own. This file states that as a
contract (`pipelineContract`), call by call, together with what the table always
satisfies; `Service` proves that the coroutines keep it.

`May` is the contract: for each party, which call it may make in which state. It
is written so that it can be checked where the call is made, from what the party
has read in this delivery or in this tick, and so that it says enough to be used
far away from there: whoever publishes for a row is entitled to it, whoever
records a failure has a fan-out to end, and the worker acks only a message whose
signal is answered for. `Inv` is what every state satisfies on the way, and
nothing in it refers to a coroutine.
-/

namespace TradingBroker

open TradingBroker.Lib

/-- The row was written for this message. -/
def Signal.isOf (r : Signal) (msg : Message) : Prop :=
  r.deliveryKey = some (deliveryKeyFor msg)

/-- The rows a party may change and publish. -/
def Entitled : Party → Signal → Prop
  | .worker, r => r.firstFanoutUnconfirmed = true
  | .retryJob, r => r.awaitsRetry = true
  | .handshake _, _ => False

/-- The gate was read open for this delivery, which has not been answered. -/
def Activity.Admitted (a : Activity) : Prop :=
  a.answer = .none ∧ ∃ value, a.gate = some value ∧ value ≠ some "1"

/-- The gate was last read closed. -/
def Activity.Shut (a : Activity) : Prop := a.gate = some (some "1")

/-- Nothing more is owed to the signal of this row but what the retry job will
do. -/
def Done (s : Shared) (r : Signal) : Prop :=
  Sent s r.id ∨ r.status = .failed ∨ r.awaitsRetry = true

/-- The worker is at work on message `m`, which is `msg`, and has got as far as
`a` says. -/
structure AtWork (m : Nat) (msg : Message) (a : Activity) (s : Shared) : Prop where
  activity : activity .worker s.trace = a
  message : a.message = some m
  stored : s.stream[m]? = some msg
  pending : s.gone m = false

/-- The call reported that it did not do what it was made for, in a way its caller
answers with an exception. -/
def Call.refused : (c : Call) → c.Result → Bool
  | .getStrict _, .error _ => true
  | .getByDeliveryKey _, .error _ => true
  | .logSignal _ _ _, none => true
  | .markFailed _, false => true
  | .recordAttemptFailure _, none => true
  | _, _ => false

/-- Some call the party made in this delivery was refused. It is the licence for a retry
in place, and for the NAK of a message that can be read. -/
def Troubled (i : Party) (k : Context) (s : Shared) : Prop :=
  ∃ c r, Entry.call i k c r ∈ s.trace ∧ c.refused r = true

/-- A delivery of the message has come to its end. -/
def Concluded (m : Nat) (s : Shared) : Prop :=
  ∃ c r, Entry.call .worker (some m) c r ∈ s.trace ∧ (c = .ack ∨ c = .term ∨ c = .nak)

section
variable (lib : Libraries) (cfg : Config)

/-- The calls of a fan-out of row `r`, for a payload of the given cycle. -/
def FanoutCall (r : Signal) (a : Activity) (uxid : Uxid) (s : Shared) : Call → Prop
  | .mark (.fanout id) => id = r.id ∧ a.flight = .idle
  | .publish w => w.signalId = r.id ∧ a.flight = .started r.id ∧ w.signalUxid = uxid
  | .broadcast payload n =>
      a.flight = .published r.id ∧ payload.signalUxid = uxid ∧
        n = attemptNumberForNotification r.attempts cfg.maxAttempts
  | .markPublished id => id = r.id ∧ a.flight = .published r.id ∧ Sent s r.id
  | .markFailed id => id = r.id ∧ a.flight = .started r.id
  | .recordAttemptFailure id => id = r.id ∧ a.flight = .published r.id
  | _ => False

/-- The other calls of the worker. -/
def WorkerCall (msg : Message) (a : Activity) (s : Shared) : Call → Prop
  | .newUxid => a.minted = .none
  | .getStrict key => key = "signal_blocked"
  | .notifyBlocked _ => True
  | .getByDeliveryKey _ => True
  | .utcnow => True
  | .inProgress => Troubled .worker a.message s
  | .sleep _ => True
  | .nak => msg.data = .unreadable ∨ Troubled .worker a.message s
  | .term => ∀ minted, msg.payload? lib minted = none
  | .logSignal payload key attempts =>
      a.Admitted ∧ a.flight = .idle ∧ key = some (deliveryKeyFor msg) ∧
        attempts = cfg.maxAttempts ∧ (∀ r ∈ s.rows, ¬ r.isOf msg) ∧
        ∃ minted, a.minted = some minted ∧ msg.payload? lib minted = some payload
  | .markFailed id =>
      a.Shut ∧ a.flight = .idle ∧
        ∃ r ∈ s.rows, r.id = id ∧ r.isOf msg ∧ r.firstFanoutUnconfirmed = true
  | .mark (.answered answer) =>
      answer = .blocked →
        a.Shut ∧ ∀ r ∈ s.rows, r.isOf msg → r.firstFanoutUnconfirmed = false
  | .ack => a.Shut ∧ a.answer = some .blocked ∨ ∃ r ∈ s.rows, r.isOf msg ∧ Done s r
  | _ => False

/-- The other calls of the retry job. -/
def RetryCall (a : Activity) (s : Shared) : Call → Prop
  | .listRetryable _ => True
  | .getById _ => True
  | .newUxid => True
  | .utcnow => True
  | .recordAttemptFailure id =>
      a.flight = .idle ∧ ∃ r ∈ s.rows, r.id = id ∧ r.awaitsRetry = true
  | _ => False

/-- A handshake reads, and replies with signals of rows. -/
def HandshakeCall (s : Shared) : Call → Prop
  | .get _ => True
  | .listRecentByStrategies _ _ => True
  | .newUxid => True
  | .utcnow => True
  | .replyAck signals =>
      ∀ signal ∈ signals, ∃ r ∈ s.rows, r.id = signal.signalId ∧
        r.signalUxid = signal.signalUxid
  | _ => False

/-- When a party may make a call. -/
def May : Party → Context → Call → Shared → Prop
  | .worker, some m, c, s =>
      ∃ msg a, AtWork m msg a s ∧
        (WorkerCall lib cfg msg a s c ∨
          a.Admitted ∧ ∃ r ∈ s.rows, r.isOf msg ∧ r.firstFanoutUnconfirmed = true ∧
            ∃ minted payload, a.minted = some minted ∧ msg.payload? lib minted = some payload ∧
              FanoutCall cfg r a payload.signalUxid s c)
  | .worker, none, _, _ => False
  | .retryJob, _, c, s =>
      RetryCall (activity .retryJob s.trace) s c ∨
        ∃ r ∈ s.rows, r.awaitsRetry = true ∧
          FanoutCall cfg r (activity .retryJob s.trace) r.signalUxid s c
  | .handshake _, _, c, s => HandshakeCall s c

end

/-- Where a party is that is not running. The retry job ends every fan-out it
starts, and the worker concludes the delivery it was given, unless they are
killed. -/
def AtRest : Party → Context → Shared → Prop
  | .worker, k, s =>
      ∀ m, k = some m → (activity .worker s.trace).message = some m → Concluded m s
  | .retryJob, _, s => (activity .retryJob s.trace).flight = .idle
  | .handshake _, _, _ => True

/-! ## What the table always satisfies -/

/-- A row that was written as the pipeline writes rows: for a message of the stream that
was delivered before, from a payload of the row's own cycle, and with a status that says
nothing the trace does not. What happens to the row later never undoes any of it. -/
structure Sound (s : Shared) (r : Signal) : Prop where
  message : ∃ m msg, s.stream[m]? = some msg ∧ r.isOf msg ∧ 0 < s.delivered m
  attempts : r.awaitsRetry = true → 0 < r.attempts
  published : r.status = .published → Sent s r.id
  raw : ∃ payload : WebhookPayload, r.raw = .obj payload.dump ∧
    payload.signalUxid = r.signalUxid

/-- What is true of the table and the stream in every state. Ids, delivery keys and the
messages behind them each name one thing; a message the worker has in hands was
delivered; and every row is sound. -/
structure Inv (s : Shared) : Prop where
  ids : (s.rows.map Signal.id).Nodup
  keys : (s.rows.map Signal.deliveryKey).Nodup
  stream : (s.stream.map deliveryKeyFor).Nodup
  handed : ∀ m, (activity .worker s.trace).message = some m → 0 < s.delivered m
  rows : ∀ r ∈ s.rows, Sound s r

end TradingBroker
