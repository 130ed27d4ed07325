import TradingBroker.Deferred.Enqueuer

/-!
# Enqueues against a clock

`SignalProcessingService.enqueue` publishes an alert under a `Nats-Msg-Id` of its own and
gives the stream a second to acknowledge it; what takes longer, or fails, goes to the
`DeferredEnqueuer` with the same id. Here both run against one clock, in milliseconds, and
against a stream that drops a message whose id it stored less than its duplicate window
ago.

A message reaches the stream while its publish is under way or not at all, and at most
once. Whether the acknowledgement then comes in time is another matter: a publish may fail
though its message is stored. Only waiting takes time, so the clock stands still as long
as somebody can go on without waiting. The parties are the enqueues of the webhook, any
number at once, and the loop or the drain of one enqueuer with the default settings.

A message that is late is the interesting one: it is in the stream, its alert has been
refused an acknowledgement, and the deferred retry publishes it again under the same id.
Everything then turns on when the retry lands, which is why the clock is part of the state
and the durations are those of the source.
-/

namespace TradingBroker.Deferred

/-- `ENQUEUE_TIMEOUT`. -/
def enqueueTimeout : Nat := 1000

/-- `DEFERRED_ENQUEUE_INTERVAL`. -/
def deferredEnqueueInterval : Nat := 2000

/-- `DEFERRED_ENQUEUE_MAX_ATTEMPTS`. -/
def deferredEnqueueMaxAttempts : Int := 15

/-- `DEFERRED_QUEUE_MAXSIZE`. -/
def deferredQueueMaxsize : Int := 500

/-- `JETSTREAM_DUPLICATE_WINDOW_SECONDS`. -/
def jetstreamDuplicateWindow : Nat := 120000

/-- How long a publish waits for its PubAck when it is not told. -/
def ackTimeout : Nat := 5000

/-- `drain_timeout` of `stop`. -/
def drainTimeout : Nat := 5000

/-- A message in the stream. -/
structure Stored where
  msgId : MsgId
  storedAt : Nat
  deriving DecidableEq

/-- An `enqueue` that waits for its PubAck, until `due` at the latest. `landed` says that
its message has reached the stream. -/
structure Post where
  strategy : String
  envelope : Json
  msgId : MsgId
  due : Nat
  landed : Bool

structure World where
  now : Nat
  /-- How many alerts there have been. -/
  alerts : Nat
  posts : List Post
  enqueuer : Enqueuer
  /-- The attempt of the loop or of the drain: until when it may last, and whether its
  message has reached the stream. While the loop sleeps, when that is over. -/
  due : Nat
  landed : Bool
  /-- `deadline` of `_drain`. -/
  deadline : Nat
  stream : List Stored
  /-- The alerts that were not refused, by their message ids. -/
  accepted : List MsgId

def World.new : World where
  now := 0
  alerts := 0
  posts := []
  enqueuer := .new deferredEnqueueMaxAttempts deferredQueueMaxsize
  due := 0
  landed := false
  deadline := 0
  stream := []
  accepted := []

inductive Event where
  | passes (ms : Nat)
  | alert (strategy : String) (envelope : Json)
  | lands (post : Nat)
  | acked (post : Nat)
  | raised (post : Nat)
  | attemptLands
  | deferred (a : Action)

/-- What is being published by the loop or by the drain. -/
def Enqueuer.attempted (s : Enqueuer) : Option DeferredEnvelope :=
  match s.task, s.stopping with
  | some (.publishing item), _ => some item
  | _, .draining (item :: _) true => some item
  | _, _ => none

namespace World

variable (w : World)

/-- A message reaches the stream, which drops it or stores it. -/
def offer (msgId : MsgId) : List Stored :=
  if w.stream.any fun x => x.msgId == msgId && w.now < x.storedAt + jetstreamDuplicateWindow then
    w.stream
  else w.stream ++ [⟨msgId, w.now⟩]

/-- Whether everybody waits that long. -/
def idleUntil (time : Nat) : Bool :=
  w.posts.all (time ≤ ·.due) &&
    match w.enqueuer.stopping, w.enqueuer.task with
    | .awaiting, _ => false
    | .draining _ trying, _ => trying && time ≤ w.due
    | .idle, some .waiting => w.enqueuer.queue.isEmpty
    | .idle, some (.publishing _) => time ≤ w.due
    | .idle, some (.sleeping _) => time ≤ w.due
    | .idle, _ => true

/-- `enqueue`, up to its wait. -/
def alert (msgId : MsgId) (strategy : String) (envelope : Json) : World :=
  let post := { strategy, envelope, msgId, due := w.now + enqueueTimeout, landed := false }
  { w with alerts := w.alerts + 1, posts := w.posts ++ [post] }

/-- `_defer`: the backlog takes the envelope, or the webhook answers 503. -/
def defer (post : Post) : World :=
  let (taken, enqueuer) := w.enqueuer.submit post.strategy post.envelope post.msgId
  { w with enqueuer, accepted := if taken then w.accepted ++ [post.msgId] else w.accepted }

/-- What the clock and the stream allow the enqueuer to do. -/
def permits : Action → Bool
  | .submit .. => false
  | .published => w.landed
  | .flushed => w.landed
  | .woke => w.now == w.due
  | .tryFlush => w.now < w.deadline
  | .lost =>
      match w.enqueuer.stopping with
      | .draining _ trying => trying || w.deadline ≤ w.now
      | _ => false
  | _ => true

/-- When the attempt that `a` begins is over at the latest. -/
def attemptDue : Action → Nat
  | .tryFlush => min (w.now + ackTimeout) w.deadline
  | _ => w.now + ackTimeout

/-- The clock's side of a step of the enqueuer. -/
def timed (a : Action) (enqueuer : Enqueuer) : World :=
  match a with
  | .take => { w with enqueuer, due := w.attemptDue a, landed := false }
  | .tryFlush => { w with enqueuer, due := w.attemptDue a, landed := false }
  | .failed => { w with enqueuer, due := w.now + deferredEnqueueInterval }
  | .stop => { w with enqueuer, deadline := w.now + drainTimeout }
  | .collect => { w with enqueuer, deadline := w.now + drainTimeout }
  | _ => { w with enqueuer }

@[simp] theorem timed_enqueuer (a : Action) (s : Enqueuer) : (w.timed a s).enqueuer = s := by
  cases a <;> rfl

@[simp] theorem timed_stream (a : Action) (s : Enqueuer) : (w.timed a s).stream = w.stream := by
  cases a <;> rfl

@[simp] theorem timed_posts (a : Action) (s : Enqueuer) : (w.timed a s).posts = w.posts := by
  cases a <;> rfl

@[simp] theorem timed_alerts (a : Action) (s : Enqueuer) : (w.timed a s).alerts = w.alerts := by
  cases a <;> rfl

@[simp] theorem timed_now (a : Action) (s : Enqueuer) : (w.timed a s).now = w.now := by
  cases a <;> rfl

/-- One event; `uuid` is what `uuid4` answers, call by call. -/
def step (uuid : Nat → MsgId) : Event → Option World
  | .passes ms =>
      if w.idleUntil (w.now + ms) then some { w with now := w.now + ms } else none
  | .alert strategy envelope => some (w.alert (uuid w.alerts) strategy envelope)
  | .lands k =>
      match w.posts[k]? with
      | some post =>
          if post.landed then none
          else
            some { w with stream := w.offer post.msgId,
                          posts := w.posts.set k { post with landed := true } }
      | none => none
  | .acked k =>
      match w.posts[k]? with
      | some post =>
          if post.landed then
            some { w with posts := w.posts.eraseIdx k, accepted := w.accepted ++ [post.msgId] }
          else none
      | none => none
  | .raised k =>
      match w.posts[k]? with
      | some post => some ({ w with posts := w.posts.eraseIdx k }.defer post)
      | none => none
  | .attemptLands =>
      match w.enqueuer.attempted with
      | some item =>
          if w.landed then none
          else some { w with stream := w.offer item.msgId, landed := true }
      | none => none
  | .deferred a =>
      if w.permits a then (w.enqueuer.step a).map (w.timed a) else none

def run (uuid : Nat → MsgId) (w : World) : List Event → Option World
  | [] => some w
  | e :: es => (w.step uuid e).bind fun v => v.run uuid es

/-- How often an alert is in the stream. -/
def copies (msgId : MsgId) : Nat := (w.stream.map (·.msgId)).count msgId

end World

end TradingBroker.Deferred
