import TradingBroker.Lib.Contract
import TradingBroker.Signals.Service

/-!
# The pipeline as one system

One `SignalWorker`, one `SignalRetryJob` and any number of handshakes, running
their coroutines against Postgres and JetStream. Between two calls of one party
any other may move; a call may succeed, fail without effect, or take effect and
be reported as failed; a party may be killed between any two of its calls; the
clock only goes forward.

Of JetStream this assumes: a message keeps its sequence number and the time it
was stored; messages are first delivered in stream order; a message is delivered
again only while no ack or term of it has arrived, and each delivery is counted,
those included that were lost with the process they went to.
-/

namespace TradingBroker

open TradingBroker.Lib

inductive Party where
  | worker
  | retryJob
  | handshake (n : Nat)
  deriving DecidableEq

/-- The message a party is at work on, by its place in the stream. -/
abbrev Context := Option Nat

/-- How a call goes: its outcome, and what the outside would draw for it. -/
structure Choice where
  outcome : Outcome
  id : RowId
  uxid : Uxid

inductive Event where
  | deliver (m : Nat)
  | tick
  | handshake (strategies : List String)
  | store (msg : Message)
  | set (key : String) (value : Option String)
  | pass (elapsed : Nat)
  | lose (m : Nat)

/-- One entry of the trace: what happened, newest first. -/
inductive Entry where
  | call (i : Party) (k : Context) (c : Call) (r : c.Result)
  | start (i : Party) (e : Event)
  | crash (i : Party)

structure Shared where
  now : Int
  settings : String → Option String
  rows : List Signal
  stream : List Message
  /-- How often JetStream has handed the message out. -/
  delivered : Nat → Nat
  /-- An ack or a term of the message has arrived. -/
  gone : Nat → Bool
  trace : List Entry

def Shared.log (s : Shared) (e : Entry) : Shared := { s with trace := e :: s.trace }

@[simp] theorem Shared.log_now (s : Shared) (e : Entry) : (s.log e).now = s.now := rfl
@[simp] theorem Shared.log_settings (s : Shared) (e : Entry) :
    (s.log e).settings = s.settings := rfl
@[simp] theorem Shared.log_rows (s : Shared) (e : Entry) : (s.log e).rows = s.rows := rfl
@[simp] theorem Shared.log_stream (s : Shared) (e : Entry) : (s.log e).stream = s.stream := rfl
@[simp] theorem Shared.log_delivered (s : Shared) (e : Entry) :
    (s.log e).delivered = s.delivered := rfl
@[simp] theorem Shared.log_gone (s : Shared) (e : Entry) : (s.log e).gone = s.gone := rfl
@[simp] theorem Shared.log_trace (s : Shared) (e : Entry) : (s.log e).trace = e :: s.trace := rfl

/-- The broker is started over an empty table and an empty stream. -/
def Shared.initial (now : Int) (settings : String → Option String) : Shared :=
  { now, settings, rows := [], stream := [], delivered := fun _ => 0, gone := fun _ => false,
    trace := [] }

/-! ## Calls -/

def Choice.reports (x : Choice) : Bool := x.outcome == .ok

def Choice.applies (x : Choice) : Bool := x.outcome != .failed

/-- An answer that is only had when the call reports success. -/
def Choice.orRaise {α : Type} (x : Choice) (a : α) : Except Fault α :=
  if x.reports then .ok a else .error .unavailable

section
variable (lib : Libraries)

/-- The row a `log_signal` would insert now. -/
def newRow (payload : WebhookPayload) (deliveryKey : Option String) (attempts : Int)
    (x : Choice) (s : Shared) : Signal :=
  (Signal.ofPayload payload x.id s.now deliveryKey attempts).stored

/-- The answer to a call. -/
def respond (x : Choice) (s : Shared) : (c : Call) → c.Result
  | .getStrict key => x.orRaise (s.settings key)
  | .get key => if x.reports then s.settings key else none
  | .notifyBlocked _ => x.orRaise ()
  | .getByDeliveryKey key => x.orRaise (Signal.byDeliveryKey s.rows key)
  | .logSignal payload key attempts =>
      if x.reports && Signal.insertable lib s.rows (newRow payload key attempts x s) then
        some x.id
      else none
  | .markPublished id => x.reports && (Signal.byId s.rows id).isSome
  | .markFailed id => x.reports && (Signal.byId s.rows id).isSome
  | .recordAttemptFailure id =>
      if x.reports then (Signal.byId s.rows id).map (Signal.recordAttemptFailure s.now) else none
  | .getById id => if x.reports then Signal.byId s.rows id else none
  | .listRetryable interval =>
      if x.reports then Signal.listRetryable s.rows s.now interval else []
  | .listRecentByStrategies strategies since =>
      if x.reports then Signal.listRecentByStrategies s.rows s.now strategies since else []
  | .publish _ => x.orRaise ()
  | .broadcast _ _ => x.orRaise ()
  | .replyAck _ => x.orRaise ()
  | .newUxid => x.uxid
  | .utcnow => s.now
  | .inProgress => ()
  | .sleep _ => ()
  | .ack => ()
  | .nak => ()
  | .term => ()
  | .mark _ => ()

/-- What a call that is carried out does to the table. -/
def writeRows (x : Choice) (s : Shared) : Call → List Signal
  | .logSignal payload key attempts =>
      let row := newRow payload key attempts x s
      if Signal.insertable lib s.rows row then s.rows ++ [row] else s.rows
  | .markPublished id => Signal.update s.rows id Signal.markPublished
  | .markFailed id => Signal.update s.rows id (Signal.markFailed s.now)
  | .recordAttemptFailure id => Signal.update s.rows id (Signal.recordAttemptFailure s.now)
  | _ => s.rows

/-- What a call that is carried out does to the stream. -/
def settle (k : Context) (s : Shared) : Call → Nat → Bool
  | .ack => fun m => s.gone m || k == some m
  | .term => fun m => s.gone m || k == some m
  | _ => s.gone

def effect (k : Context) (c : Call) (x : Choice) (s : Shared) : Shared :=
  if x.applies then { s with rows := writeRows lib x s c, gone := settle k s c } else s

/-- A call is answered from the state it is made in, then has its effect. -/
def exec (i : Party) (k : Context) (c : Call) (x : Choice) (s : Shared) :
    Option (c.Result × Shared) :=
  let r := respond lib x s c
  some (r, (effect lib k c x s).log (.call i k c r))

/-! ## Starts, kills and the rest of the world -/

/-- The message may be handed out: it is stored and not settled, and every
earlier one has been handed out before. -/
def deliverable (s : Shared) (m : Nat) : Bool :=
  m < s.stream.length && !s.gone m && (List.range m).all fun j => 0 < s.delivered j

def handOut (s : Shared) (m : Nat) : Shared :=
  { s with delivered := fun j => if j = m then s.delivered m + 1 else s.delivered j }

variable (cfg : Config)

def start (i : Party) (e : Event) (s : Shared) : Option (Context × Prog Unit × Shared) :=
  match i, e with
  | .worker, .deliver m =>
      match s.stream[m]? with
      | some msg =>
          if deliverable s m then
            some (some m, workerTask lib cfg msg (s.delivered m + 1),
              (handOut s m).log (.start i e))
          else none
      | none => none
  | .retryJob, .tick => some (none, tickOnce lib cfg, s.log (.start i e))
  | .handshake _, .handshake strategies =>
      some (none, answerHandshake lib cfg strategies, s.log (.start i e))
  | _, _ => none

/-- A stored message's identity is its own: no other has the same sequence
number and the same time. -/
def storable (s : Shared) (msg : Message) : Bool :=
  s.stream.all fun old => old.seq != msg.seq || old.timestamp.isoformat != msg.timestamp.isoformat

def environment (e : Event) (s : Shared) : Option Shared :=
  match e with
  | .store msg => if storable s msg then some { s with stream := s.stream ++ [msg] } else none
  | .set key value =>
      some { s with settings := fun key' => if key' = key then value else s.settings key' }
  | .pass elapsed => some { s with now := s.now + elapsed }
  | .lose m => if deliverable s m then some (handOut s m) else none
  | _ => none

def crash (i : Party) (_ : Context) (s : Shared) : Option Shared := some (s.log (.crash i))

def pipeline : Machine Party Context Shared Choice Event Call Call.Result Fault where
  exec := exec lib
  start := start lib cfg
  env := environment
  crash := crash

end

/-- Nobody is running yet. -/
def idlePool (s : Shared) : Pool Party Context Shared Call Call.Result Fault :=
  ⟨s, fun _ => (none, .pure ())⟩

/-! ## What the trace says a party is doing -/

/-- Where a party is in a fan-out: `published` from the moment the publisher has
been called, whatever came of it. -/
inductive Flight where
  | idle
  | started (signalId : RowId)
  | published (signalId : RowId)
  deriving DecidableEq

def Flight.signalId? : Flight → Option RowId
  | .idle => none
  | .started id => some id
  | .published id => some id

def Flight.publish : Flight → Flight
  | .started id => .published id
  | f => f

/-- What a party has done since it was last started: the message it was given,
the uxid drawn for it, the value the block gate was last read to have, the
answer of `handle_enqueued`, the fan-out it is in. -/
structure Activity where
  message : Option Nat
  minted : Option Uxid
  gate : Option (Option String)
  answer : Option Answer
  flight : Flight

def Activity.none : Activity := ⟨.none, .none, .none, .none, .idle⟩

def Activity.started : Event → Activity
  | .deliver m => { Activity.none with message := some m }
  | _ => Activity.none

/-- One more call. The calls that end a fan-out are its last. -/
def Activity.after (a : Activity) : (c : Call) → c.Result → Activity
  | .newUxid, u => { a with minted := some u }
  | .getStrict _, .ok value => { a with gate := some value }
  | .getStrict _, .error _ => { a with gate := .none }
  | .mark (.fanout id), _ => { a with flight := .started id }
  | .mark (.answered answer), _ => { a with answer := some answer }
  | .publish _, _ => { a with flight := a.flight.publish }
  | .markPublished _, _ => { a with flight := .idle }
  | .markFailed _, _ => { a with flight := .idle }
  | .recordAttemptFailure _, _ => { a with flight := .idle }
  | _, _ => a

def activity (i : Party) : List Entry → Activity
  | [] => Activity.none
  | .call j _ c r :: t => if j = i then (activity i t).after c r else activity i t
  | .start j e :: t => if j = i then Activity.started e else activity i t
  | .crash j :: t => if j = i then Activity.none else activity i t

/-- The party an entry is of. -/
def Entry.party : Entry → Party
  | .call i _ _ _ => i
  | .start i _ => i
  | .crash i => i

theorem activity_other {i : Party} {e : Entry} {t : List Entry} (h : e.party ≠ i) :
    activity i (e :: t) = activity i t := by
  cases e <;> simp only [Entry.party] at h <;> simp only [activity, if_neg h]

@[simp] theorem activity_call (i : Party) (k : Context) (c : Call) (r : c.Result)
    (t : List Entry) : activity i (.call i k c r :: t) = (activity i t).after c r := by
  simp only [activity, if_pos]

@[simp] theorem activity_start (i : Party) (e : Event) (t : List Entry) :
    activity i (.start i e :: t) = Activity.started e := by
  simp only [activity, if_pos]

@[simp] theorem activity_crash (i : Party) (t : List Entry) :
    activity i (.crash i :: t) = Activity.none := by
  simp only [activity, if_pos]

/-- The payload of the envelope, if it has one: `minted` is what a parse that
needs a fresh uxid would draw. -/
def Message.payload? (lib : Libraries) (msg : Message) (minted : Uxid) :
    Option WebhookPayload :=
  match msg.data with
  | .json envelope =>
      (rawPayload envelope).bind fun raw => WebhookPayload.validate lib.coerce raw minted
  | _ => none

/-- The signal an entry delivers to the workers for certain: a publish that
returned. -/
def Entry.sends : Entry → Option RowId
  | .call _ _ (.publish w) (.ok ()) => some w.signalId
  | _ => none

/-- The ids successfully published, oldest first. -/
def sends (t : List Entry) : List RowId := (t.filterMap Entry.sends).reverse

def Sent (s : Shared) (id : RowId) : Prop := id ∈ sends s.trace

instance (s : Shared) (id : RowId) : Decidable (Sent s id) := by
  unfold Sent
  exact inferInstance

end TradingBroker
