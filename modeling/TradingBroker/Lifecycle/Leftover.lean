import TradingBroker.Lifecycle.Lifespan

/-!
# What a lifespan leaves behind

Which services start is read off the awaits that raise, and so is what each of them leaves open
or running when the stack has unwound. A handle that is left was opened, and nothing closes it.

Of the tasks only the listener's two can be left, and just when the startup came as far as the
dispatcher and its first sweep raised. Of the rest, the engine and the NATS connection go with
their own closing calls. The listener has one connection after the other: which attempts its
supervisor makes follows from when the connection is lost and which attempts came off
(`attempts`, `isUp`), and each one that was connected but refused its `LISTEN` leaves a
connection that nobody knows of.

Everything is decided by `World`, so all of this is an equivalence: a service is reached
if those before it started, it starts if its own awaits allow it, and what it leaves is a
condition on its own awaits again. `mem_left` puts the three together for every service
and every handle.
-/

namespace TradingBroker.Lifecycle

open Lib.ExitStack

/-! ## How a service's program runs -/

section
variable {α β : Type} (w : World)

/-- What a program makes of the one before it. -/
def andThen : Except Error α × Part → (α → M β) → Except Error β × Part
  | (.ok a, p), f => f a p
  | (.error e, p), _ => (.error e, p)

/-- What a handler does. -/
def orElse : Except Error α × Part → (Error → M α) → Except Error α × Part
  | (.ok a, p), _ => (.ok a, p)
  | (.error e, p), f => f e p

def outcome : Option Error → Except Error Unit
  | none => .ok ()
  | some e => .error e

theorem bind_apply (m : M α) (f : α → M β) (p : Part) : (m >>= f) p = andThen (m p) f := by
  simp only [bind, ExceptT.bind, ExceptT.mk, StateT.bind]
  rcases m p with ⟨_ | _, p'⟩ <;> rfl

theorem catch_apply (m : M α) (f : Error → M α) (p : Part) :
    (tryCatch m f) p = orElse (m p) f := by
  simp only [tryCatch, tryCatchThe, MonadExceptOf.tryCatch, ExceptT.tryCatch, ExceptT.mk, bind,
    StateT.bind]
  rcases m p with ⟨_ | _, p'⟩ <;> rfl

theorem pure_apply (a : α) (p : Part) : (pure a : M α) p = (.ok a, p) := rfl

theorem get_apply (p : Part) : (get : M Part) p = (.ok p, p) := rfl

theorem throw_apply (e : Error) (p : Part) : (throw e : M α) p = (.error e, p) := rfl

theorem acquire_apply (h : Held) (p : Part) :
    acquire h p = (.ok (), ⟨h :: p.refs, h :: p.live⟩) := rfl

theorem release_apply (h : Held) (p : Part) :
    release h p = (.ok (), ⟨p.refs, p.live.erase h⟩) := rfl

theorem forget_apply (h : Held) (p : Part) :
    forget h p = (.ok (), ⟨p.refs.erase h, p.live⟩) := rfl

theorem whenHeld_apply (h : Held) (m : M Unit) (p : Part) :
    whenHeld h m p = if h ∈ p.refs then m p else (.ok (), p) := by
  rw [whenHeld, bind_apply]
  show (if h ∈ p.refs then m else pure ()) p = _
  split <;> rfl

theorem assign_apply (h : Held) (p : Part) :
    assign h p = (.ok (), ⟨p.refs.erase h ++ [h], p.live ++ [h]⟩) := rfl

theorem awaits_apply (e : Option Error) (p : Part) : awaits e p = (outcome e, p) := by
  cases e <;> rfl

theorem call_apply (c : Call) (p : Part) : call w c p = (outcome (w.raises c), p) :=
  awaits_apply _ p

theorem call_ok {c : Call} (h : w.raises c = none) (p : Part) : call w c p = (.ok (), p) := by
  rw [call_apply, h]
  rfl

theorem call_error {c : Call} {e : Error} (h : w.raises c = some e) (p : Part) :
    call w c p = (.error e, p) := by
  rw [call_apply, h]
  rfl

theorem logged_apply (m : M Unit) (p : Part) : logged m p = (.ok (), (m p).2) := by
  rw [logged, catch_apply]
  rcases m p with ⟨_ | _, p'⟩ <;> rfl

def Ensured (add : Call) : Prop := w.raises add = none ∨ w.raises add = some .badRequest

instance (add : Call) : Decidable (Ensured w add) := inferInstanceAs (Decidable (_ ∨ _))

theorem ensureStream_ok {add : Call} (update : Call) (h : Ensured w add) (p : Part) :
    NatsClient.ensureStream w add update p = (.ok (), p) := by
  rw [NatsClient.ensureStream, catch_apply]
  rcases h with h | h
  · rw [call_ok w h]
    rfl
  · rw [call_error w h]
    refine (logged_apply _ p).trans ?_
    rw [call_apply]

theorem ensureStream_error {add : Call} (update : Call) (h : ¬ Ensured w add) (p : Part) :
    NatsClient.ensureStream w add update p = (.error .other, p) := by
  rw [NatsClient.ensureStream, catch_apply]
  cases hadd : w.raises add with
  | none => exact absurd (.inl hadd) h
  | some e =>
      rw [call_error w hadd]
      cases e with
      | badRequest => exact absurd (.inr hadd) h
      | other => rfl

/-! ## What each start needs -/

def NatsStarts : Prop :=
  w.raises .connect = none ∧ Ensured w .addSignals ∧ Ensured w .addTrades

def TradesStarts : Prop := w.raises .pullTrades = none ∨ w.raises .subscribeTrade = none

instance : Decidable (NatsStarts w) := inferInstanceAs (Decidable (_ ∧ _))

instance : Decidable (TradesStarts w) := inferInstanceAs (Decidable (_ ∨ _))

/-- What each service's `start` needs from the world. -/
def Starting : Name → Prop
  | .database => w.raises .createEngine = none
  | .nats => NatsStarts w
  | .dispatcher => w.raises .firstSweep = none
  | .trades => TradesStarts w
  | .system => w.raises .subscribeSystem = none
  | .demo => w.raises .subscribeDemo = none
  | .signals => w.raises .pullSignals = none
  | _ => True

attribute [local simp] andThen orElse outcome pure_apply get_apply bind_apply catch_apply
  throw_apply acquire_apply release_apply forget_apply assign_apply whenHeld_apply logged_apply
  awaits_apply call_apply fresh Except.isOk Except.toBool

theorem nats_start (h : NatsStarts w) :
    NatsClient.connect w ⟨[], []⟩ = (.ok (), ⟨[.connection], [.connection]⟩) := by
  simp [NatsClient.connect, ensureStream_ok, h.1, h.2]

/-- Without its streams the connection is closed again, if it can be. -/
theorem nats_failed (hconnect : w.raises .connect = none) (h : ¬ NatsStarts w) :
    (NatsClient.connect w ⟨[], []⟩).2.live =
      if w.raises .closeFailed = none then [] else [.connection] := by
  have hnot : ¬ (Ensured w .addSignals ∧ Ensured w .addTrades) := fun hs => h ⟨hconnect, hs⟩
  by_cases hs : Ensured w .addSignals <;> by_cases ht : Ensured w .addTrades <;>
    cases hc : w.raises .closeFailed <;>
    simp_all [NatsClient.connect, ensureStream_ok, ensureStream_error]

theorem nats_stop_closed :
    NatsClient.close w ⟨[.connection], []⟩ = (.ok (), ⟨[.connection], []⟩) := by
  simp [NatsClient.close]

theorem nats_stop : (NatsClient.close w ⟨[.connection], [.connection]⟩).2.live =
    if w.raises .drain = none ∧ w.raises .close = none then [] else [.connection] := by
  cases hd : w.raises .drain <;> cases hc : w.raises .close <;> simp [NatsClient.close, hd, hc]

theorem nats_stops : (NatsClient.close w ⟨[.connection], [.connection]⟩).1.isOk = true ↔
    w.raises .drain = none ∧ w.raises .close = none := by
  cases hd : w.raises .drain <;> cases hc : w.raises .close <;> simp [NatsClient.close, hd, hc]

/-! ## The listener's connection -/

/-- The attempt ends with the field set. -/
def Attempt.Subscribes (a : Attempt) : Prop := a.listen = none ∧ a.addListener = none

instance (a : Attempt) : Decidable a.Subscribes := inferInstanceAs (Decidable (_ ∧ _))

/-- The attempt is connected, and its `LISTEN` refused. -/
def Attempt.Strands (a : Attempt) : Prop := a.listen = none ∧ a.addListener ≠ none

instance (a : Attempt) : Decidable a.Strands := inferInstanceAs (Decidable (_ ∧ _))

/-- The attempts the supervisor makes, by whether the connection is up before. -/
def attempts : Bool → List Watch → List Attempt
  | _, [] => []
  | _, .lost :: ws => attempts false ws
  | true, .check _ :: ws => attempts true ws
  | false, .check a :: ws => a :: attempts a.Subscribes ws

/-- Whether the connection is up in the end. -/
def isUp : Bool → List Watch → Bool
  | up, [] => up
  | _, .lost :: ws => isUp false ws
  | true, .check _ :: ws => isUp true ws
  | false, .check a :: ws => isUp a.Subscribes ws

/-- The listener's part while its tasks run: whether its field refers to a connection, whether
that is up, and how many it has lost sight of. -/
def watching (held up : Bool) (strays : Nat) : Part where
  refs := [.supervisor, .drain] ++ if held then [.listening] else []
  live := [.supervisor, .drain] ++ (List.replicate strays .stray ++ if up then [.listening] else [])

theorem strand_apply (p : Part) : PostgresChangeListener.strand p =
    (.ok (), ⟨p.refs.erase .listening,
      p.live.map fun h => if h = .listening then .stray else h⟩) := rfl

/-- A connection that is up when the field is set to `None` is one more that has gone astray. -/
theorem strand_watching (held up : Bool) (strays : Nat) :
    PostgresChangeListener.strand (watching held up strays) =
      (.ok (), watching false false (strays + up.toNat)) := by
  cases held <;> cases up <;>
    simp [strand_apply, watching, List.replicate_succ', List.map_replicate]

theorem assign_watching (held : Bool) (strays : Nat) :
    assign .listening (watching held false strays) = (.ok (), watching true true strays) := by
  cases held <;> simp [watching]

theorem connect_watching (held : Bool) (strays : Nat) (attempt : Attempt) :
    PostgresChangeListener.connect attempt (watching held false strays) =
      (.ok (), watching attempt.Subscribes attempt.Subscribes
        (strays + if attempt.Strands then 1 else 0)) := by
  obtain ⟨l, a⟩ := attempt
  rw [PostgresChangeListener.connect, catch_apply, bind_apply, awaits_apply]
  cases l with
  | some e => simp [strand_watching, Attempt.Subscribes, Attempt.Strands]
  | none =>
      simp only [outcome, andThen, bind_apply, assign_watching, awaits_apply]
      cases a <;> simp [strand_watching, Attempt.Subscribes, Attempt.Strands]

theorem watch_lost (held up : Bool) (strays : Nat) :
    PostgresChangeListener.watch .lost (watching held up strays) =
      (.ok (), watching held false strays) := by
  have hnone : Held.listening ∉ List.replicate strays Held.stray := fun h => by
    cases (List.mem_replicate.1 h).2
  cases up <;> simp [PostgresChangeListener.watch, watching, List.erase_append, hnone]

theorem connected_watching {held up : Bool} (hup : up = true → held = true) (strays : Nat) :
    PostgresChangeListener.connected (watching held up strays) =
      (.ok up, watching held up strays) := by
  rw [PostgresChangeListener.connected, bind_apply, get_apply]
  cases up <;> cases held <;> simp_all [watching, List.mem_replicate]

theorem watch_check {held up : Bool} (hup : up = true → held = true) (strays : Nat)
    (attempt : Attempt) :
    PostgresChangeListener.watch (.check attempt) (watching held up strays) =
      if up then (.ok (), watching held up strays)
      else (.ok (), watching attempt.Subscribes attempt.Subscribes
        (strays + if attempt.Strands then 1 else 0)) := by
  rw [PostgresChangeListener.watch, bind_apply, connected_watching hup]
  cases up with
  | true => rfl
  | false => exact connect_watching held strays attempt

/-- How many connections the attempts lose sight of. -/
def strayed (as : List Attempt) : Nat :=
  as.countP fun attempt => attempt.Strands

theorem supervise_watching (ws : List Watch) (held up : Bool) (hup : up = true → held = true)
    (strays : Nat) :
    ∃ held', (isUp up ws = true → held' = true) ∧
      PostgresChangeListener.supervise ws (watching held up strays) =
        (.ok (), watching held' (isUp up ws) (strays + strayed (attempts up ws))) := by
  induction ws generalizing held up strays with
  | nil => exact ⟨held, hup, rfl⟩
  | cons x ws ih =>
      rw [PostgresChangeListener.supervise, bind_apply]
      cases x with
      | lost =>
          rw [watch_lost, andThen]
          cases up
          all_goals exact ih held false (fun h => by cases h) strays
      | check a =>
          rw [watch_check hup strays a]
          cases up with
          | true => exact ih held true hup strays
          | false =>
              have hstrayed : strays + strayed (attempts false (.check a :: ws)) =
                  (strays + if a.Strands then 1 else 0) +
                    strayed (attempts a.Subscribes ws) := by
                rw [attempts, strayed, List.countP_cons, strayed]
                simp only [decide_eq_true_eq]
                omega
              rw [hstrayed]
              exact ih _ _ id _

/-- All attempts of a lifespan. -/
def allAttempts : List Attempt :=
  w.firstAttempt :: attempts w.firstAttempt.Subscribes w.watched

/-- Whether the connection is up when the supervisor ends. -/
def endsUp : Bool := isUp w.firstAttempt.Subscribes w.watched

theorem listener_start : ∃ held, (endsUp w = true → held = true) ∧
    PostgresChangeListener.start w ⟨[], []⟩ =
      (.ok (), watching held (endsUp w) (strayed (allAttempts w))) := by
  obtain ⟨held, hheld, hrest⟩ := supervise_watching w.watched w.firstAttempt.Subscribes
    w.firstAttempt.Subscribes id (if w.firstAttempt.Strands then 1 else 0)
  have hstrayed : strayed (allAttempts w) = (if w.firstAttempt.Strands then 1 else 0) +
      strayed (attempts w.firstAttempt.Subscribes w.watched) := by
    rw [allAttempts, strayed, List.countP_cons, Nat.add_comm, strayed]
    simp only [decide_eq_true_eq]
  refine ⟨held, hheld, ?_⟩
  rw [hstrayed]
  refine Eq.trans ?_ hrest
  cases hl : w.raises .listen <;> cases ha : w.raises .addListener <;>
    simp [PostgresChangeListener.start, PostgresChangeListener.connect, strand_apply, watching,
      World.firstAttempt, Attempt.Subscribes, Attempt.Strands, hl, ha]

theorem listener_stop {held up : Bool} (hup : up = true → held = true) (strays : Nat) :
    PostgresChangeListener.stop w (watching held up strays) =
      (.ok (), ⟨[], List.replicate strays .stray ++
        if up = true ∧ w.raises .closeListener ≠ none then [.listening] else []⟩) := by
  have hnone : Held.listening ∉ List.replicate strays Held.stray := fun h => by
    cases (List.mem_replicate.1 h).2
  cases hc : w.raises .closeListener <;> cases up <;> cases held <;>
    simp_all [watching, PostgresChangeListener.stop, PostgresChangeListener.disconnect,
      List.erase_append]

theorem dispatcher_start (h : w.raises .firstSweep = none) :
    ∃ held, (endsUp w = true → held = true) ∧
      BroadcastDispatcher.start w ⟨[], []⟩ =
        (.ok (), ⟨.sweeper :: (watching held (endsUp w) (strayed (allAttempts w))).refs,
          .sweeper :: (watching held (endsUp w) (strayed (allAttempts w))).live⟩) := by
  obtain ⟨held, hheld, hstart⟩ := listener_start w
  exact ⟨held, hheld, by simp [BroadcastDispatcher.start, hstart, h]⟩

theorem dispatcher_failed {e : Error} (h : w.raises .firstSweep = some e) :
    ∃ held, BroadcastDispatcher.start w ⟨[], []⟩ =
      (.error e, watching held (endsUp w) (strayed (allAttempts w))) := by
  obtain ⟨held, -, hstart⟩ := listener_start w
  exact ⟨held, by simp [BroadcastDispatcher.start, hstart, h]⟩

theorem dispatcher_stop (p : Part) :
    BroadcastDispatcher.stop w ⟨.sweeper :: p.refs, .sweeper :: p.live⟩ =
      PostgresChangeListener.stop w p := by
  simp [BroadcastDispatcher.stop]

/-- What is up of the listener while its tasks run. -/
theorem mem_watching {held up : Bool} {strays : Nat} {h : Held} :
    h ∈ (watching held up strays).live ↔
      h = .supervisor ∨ h = .drain ∨ (h = .stray ∧ strays ≠ 0) ∨ (h = .listening ∧ up = true) := by
  cases up <;> simp [watching, List.mem_replicate, and_comm]

theorem strayed_ne_zero (as : List Attempt) :
    strayed as ≠ 0 ↔ ∃ attempt ∈ as, attempt.Strands := by
  rw [strayed, Nat.ne_zero_iff_zero_lt, List.countP_pos_iff]
  simp only [decide_eq_true_eq]

/-! ## Which services start -/

/-- A worker's part once it is started. -/
def pulling : Part := ⟨[.worker, .subscription], [.worker, .subscription]⟩

theorem pull_start {pull : Call} (h : w.raises pull = none) :
    JetStreamPullWorker.start w pull ⟨[], []⟩ = (.ok (), pulling) := by
  simp [JetStreamPullWorker.start, pulling, h]

theorem pull_failed {pull : Call} {e : Error} (h : w.raises pull = some e) :
    JetStreamPullWorker.start w pull ⟨[], []⟩ = (.error e, ⟨[], []⟩) := by
  simp [JetStreamPullWorker.start, h]

theorem pull_stop (unsubscribe : Call) :
    JetStreamPullWorker.stop w unsubscribe pulling =
      (.ok (), ⟨[], if w.raises unsubscribe = none then [] else [.subscription]⟩) := by
  cases h : w.raises unsubscribe <;>
    simp [JetStreamPullWorker.stop, stopTask, pulling, h]

theorem trades_start_pulling (h : w.raises .pullTrades = none) :
    TradeEventConsumer.start w ⟨[], []⟩ = (.ok (), pulling) := by
  simp [TradeEventConsumer.start, pull_start w h]

theorem trades_start_core {e : Error} (hp : w.raises .pullTrades = some e)
    (hs : w.raises .subscribeTrade = none) :
    TradeEventConsumer.start w ⟨[], []⟩ =
      (.ok (), ⟨[.coreSubscription], [.coreSubscription]⟩) := by
  simp [TradeEventConsumer.start, pull_failed w hp, hs]

theorem trades_failed {e e' : Error} (hp : w.raises .pullTrades = some e)
    (hs : w.raises .subscribeTrade = some e') :
    TradeEventConsumer.start w ⟨[], []⟩ = (.error e', ⟨[], []⟩) := by
  simp [TradeEventConsumer.start, pull_failed w hp, hs]

theorem trades_stop_pulling :
    TradeEventConsumer.stop w pulling = JetStreamPullWorker.stop w .unpullTrades pulling := by
  simp [TradeEventConsumer.stop, pulling]

theorem trades_stop_core :
    TradeEventConsumer.stop w ⟨[.coreSubscription], [.coreSubscription]⟩ =
      (.ok (), ⟨[], if w.raises .unsubscribeTrade = none then [] else [.coreSubscription]⟩) := by
  cases h : w.raises .unsubscribeTrade <;>
    simp [TradeEventConsumer.stop, JetStreamPullWorker.stop, stopTask, h]

theorem starts_iff (i : Name) : Starts (service w) fresh i ↔ Starting w i := by
  cases i with
  | logHandler | natsNotifier | tradeCards | signalsNotifier | deferred | demoNotifier | retries =>
      exact iff_of_true rfl trivial
  | database =>
      cases h : w.raises .createEngine <;> simp [Starts, Starting, service, init_db, h]
  | nats =>
      by_cases hs : Ensured w .addSignals <;> by_cases ht : Ensured w .addTrades <;>
        cases h : w.raises .connect <;> cases hc : w.raises .closeFailed <;>
        simp [Starts, Starting, NatsStarts, service, NatsClient.connect, ensureStream_ok,
          ensureStream_error, h, hs, ht, hc]
  | dispatcher =>
      cases h : w.raises .firstSweep with
      | none =>
          obtain ⟨held, -, hstart⟩ := dispatcher_start w h
          simp [Starts, Starting, service, hstart, h]
      | some e =>
          obtain ⟨held, hfailed⟩ := dispatcher_failed w h
          simp [Starts, Starting, service, hfailed, h]
  | trades =>
      cases hp : w.raises .pullTrades with
      | none => simp [Starts, Starting, TradesStarts, service, trades_start_pulling, hp]
      | some e =>
          cases hs : w.raises .subscribeTrade with
          | none =>
              simp [Starts, Starting, TradesStarts, service, trades_start_core w hp hs, hp, hs]
          | some e' => simp [Starts, Starting, TradesStarts, service, trades_failed w hp hs, hp, hs]
  | system =>
      cases h : w.raises .subscribeSystem <;>
        simp [Starts, Starting, service, SystemEventConsumer.start, h]
  | demo =>
      cases h : w.raises .subscribeDemo <;>
        simp [Starts, Starting, service, DemoSignalConsumer.start, h]
  | signals =>
      cases h : w.raises .pullSignals with
      | none => simp [Starts, Starting, service, SignalWorker.start, pull_start, h]
      | some e => simp [Starts, Starting, service, SignalWorker.start, pull_failed w h, h]

variable {w} in
theorem subscribeTrade_of {e : Error} (h : TradesStarts w) (hp : w.raises .pullTrades = some e) :
    w.raises .subscribeTrade = none := by
  rcases h with h | h
  · rw [hp] at h
    cases h
  · exact h

/-! ## How far the startup comes -/

def DatabaseUp : Prop := Starting w .database

def NatsUp : Prop := DatabaseUp w ∧ Starting w .nats

def DispatcherUp : Prop := NatsUp w ∧ Starting w .dispatcher

def TradesUp : Prop := DispatcherUp w ∧ Starting w .trades

def SystemUp : Prop := TradesUp w ∧ Starting w .system

def DemoUp : Prop := SystemUp w ∧ Starting w .demo

def SignalsUp : Prop := DemoUp w ∧ Starting w .signals

/-- All before the service have started. -/
def Before : Name → Prop
  | .logHandler | .database => True
  | .natsNotifier | .nats => DatabaseUp w
  | .tradeCards | .signalsNotifier | .deferred | .demoNotifier | .dispatcher => NatsUp w
  | .trades => DispatcherUp w
  | .system => TradesUp w
  | .demo => SystemUp w
  | .signals => DemoUp w
  | .retries => SignalsUp w

theorem reached_iff {logErrors : Bool} {i : Name} (hi : i ∈ order logErrors) :
    Reached (service w) fresh (order logErrors) i ↔ Before w i := by
  cases logErrors <;> cases i <;>
    simp_all [Reached, order, Before, starts_iff, Starting, List.takeWhile, DatabaseUp, NatsUp,
      DispatcherUp, TradesUp, SystemUp, DemoUp, SignalsUp, and_assoc]

theorem all_start_iff (logErrors : Bool) :
    (∀ j ∈ order logErrors, Starts (service w) fresh j) ↔ SignalsUp w := by
  cases logErrors <;>
    simp [order, starts_iff, Starting, DatabaseUp, NatsUp, DispatcherUp, TradesUp, SystemUp,
      DemoUp, SignalsUp, and_assoc]

/-! ## What is left open, or running -/

/-- What the service opened and nothing has closed, when the lifespan is over. -/
def left (logErrors : Bool) (i : Name) : List Held := ((lifespan w logErrors).2.parts i).live

theorem left_unreached {logErrors : Bool} {i : Name} (h : i ∈ order logErrors → ¬ Before w i) :
    left w logErrors i = [] := by
  by_cases hi : i ∈ order logErrors
  · have hreached : ¬ Reached (service w) fresh (order logErrors) i := fun hr =>
      h hi ((reached_iff w hi).1 hr)
    rw [left, lifespan, part_block (order_nodup logErrors) hi, leaves, if_neg hreached]
    rfl
  · have hother : i ≠ .nats := by
      intro heq
      subst heq
      exact hi (by cases logErrors <;> decide)
    have hbody : ∀ p, (body w).run i p = p := fun p => if_neg fun hc => hother hc.1
    rw [left, lifespan, part_block_other (order_nodup logErrors) hi hbody]
    rfl

theorem left_reached {logErrors : Bool} {i : Name} (hi : i ∈ order logErrors)
    (hbefore : Before w i) :
    left w logErrors i = if Starts (service w) fresh i then
      ((service w i).stop (if ∀ j ∈ order logErrors, Starts (service w) fresh j then
        (body w).run i ((service w i).start (fresh i)).2
        else ((service w i).start (fresh i)).2)).2.live
      else ((service w i).start (fresh i)).2.live := by
  rw [left, lifespan, part_block (order_nodup logErrors) hi, leaves,
    if_pos ((reached_iff w hi).2 hbefore)]
  split <;> rfl

/-- A service leaves what its own `start` and `stop` leave, if it is reached. -/
theorem mem_left_of {logErrors : Bool} {i : Name} {h : Held} {P : Prop}
    (hi : i ∈ order logErrors) (hn : i ≠ .nats)
    (hstop : Starting w i →
      (h ∈ ((service w i).stop ((service w i).start (fresh i)).2).2.live ↔ P))
    (hfail : ¬ Starting w i → (h ∈ ((service w i).start (fresh i)).2.live ↔ P)) :
    h ∈ left w logErrors i ↔ Before w i ∧ P := by
  by_cases hbefore : Before w i
  · rw [left_reached w hi hbefore, and_iff_right hbefore]
    by_cases hs : Starting w i
    · have hbody : ∀ p, (body w).run i p = p := fun p => if_neg fun hc => hn hc.1
      rw [if_pos ((starts_iff w i).2 hs), hbody, ite_self]
      exact hstop hs
    · rw [if_neg fun h => hs ((starts_iff w i).1 h)]
      exact hfail hs
  · rw [left_unreached w fun _ => hbefore]
    exact iff_of_false List.not_mem_nil fun h => hbefore h.1

/-- When a service that is reached leaves something. -/
def Spoiled : Name → Held → Prop
  | .database, .engine => w.raises .createEngine = none ∧ w.raises .dispose ≠ none
  | .nats, .connection =>
      w.raises .connect = none ∧
        if Ensured w .addSignals ∧ Ensured w .addTrades then
          (w.raises .drain ≠ none ∨ w.raises .close ≠ none) ∧ ¬ (SignalsUp w ∧ w.closed)
        else w.raises .closeFailed ≠ none
  | .dispatcher, .drain | .dispatcher, .supervisor => w.raises .firstSweep ≠ none
  | .dispatcher, .listening =>
      endsUp w = true ∧ (w.raises .firstSweep ≠ none ∨ w.raises .closeListener ≠ none)
  | .dispatcher, .stray => ∃ attempt ∈ allAttempts w, attempt.Strands
  | .trades, .subscription => w.raises .pullTrades = none ∧ w.raises .unpullTrades ≠ none
  | .trades, .coreSubscription =>
      w.raises .pullTrades ≠ none ∧ w.raises .subscribeTrade = none ∧
        w.raises .unsubscribeTrade ≠ none
  | .system, .coreSubscription =>
      w.raises .subscribeSystem = none ∧ w.raises .unsubscribeSystem ≠ none
  | .demo, .coreSubscription =>
      w.raises .subscribeDemo = none ∧ w.raises .unsubscribeDemo ≠ none
  | .signals, .subscription => w.raises .pullSignals = none ∧ w.raises .unpullSignals ≠ none
  | _, _ => False

theorem mem_left_nats {logErrors : Bool} {h : Held} :
    h ∈ left w logErrors .nats ↔ Before w .nats ∧ Spoiled w .nats h := by
  have hi : Name.nats ∈ order logErrors := by cases logErrors <;> decide
  by_cases hbefore : Before w .nats
  · rw [left_reached w hi hbefore, and_iff_right hbefore]
    by_cases hn : NatsStarts w
    · rw [if_pos ((starts_iff w .nats).2 hn)]
      simp only [service, fresh, nats_start w hn]
      have hspoiled : ∀ h, Spoiled w .nats h ↔ h = .connection ∧
          ((w.raises .drain ≠ none ∨ w.raises .close ≠ none) ∧ ¬ (SignalsUp w ∧ w.closed)) := by
        intro h
        cases h <;> simp [Spoiled, hn.1, hn.2]
      rw [hspoiled]
      by_cases hup : SignalsUp w ∧ w.closed
      · rw [if_pos ((all_start_iff w logErrors).2 hup.1)]
        have hbody : (body w).run .nats ⟨[.connection], [.connection]⟩ = ⟨[.connection], []⟩ :=
          if_pos ⟨rfl, hup.2⟩
        simp [hbody, nats_stop_closed, hup]
      · have hbody : SignalsUp w → (body w).run .nats ⟨[.connection], [.connection]⟩ =
            ⟨[.connection], [.connection]⟩ := fun hall => if_neg fun hc => hup ⟨hall, hc.2⟩
        have hpart : (if ∀ j ∈ order logErrors, Starts (service w) fresh j then
            (body w).run .nats ⟨[.connection], [.connection]⟩
            else ⟨[.connection], [.connection]⟩) = ⟨[.connection], [.connection]⟩ := by
          split
          · next hall => exact hbody ((all_start_iff w logErrors).1 hall)
          · rfl
        rw [hpart, nats_stop]
        by_cases hd : w.raises .drain = none <;> by_cases hc : w.raises .close = none <;>
          simp [hd, hc, hup]
    · rw [if_neg fun h => hn ((starts_iff w .nats).1 h)]
      cases hconnect : w.raises .connect with
      | some e => cases h <;> simp [Spoiled, service, NatsClient.connect, hconnect]
      | none =>
          have hnot : ¬ (Ensured w .addSignals ∧ Ensured w .addTrades) := fun h =>
            hn ⟨hconnect, h⟩
          simp only [service, fresh, nats_failed w hconnect hn]
          cases h <;> simp [Spoiled, hconnect, hnot]
  · rw [left_unreached w fun _ => hbefore]
    exact iff_of_false List.not_mem_nil fun h => hbefore h.1

/-- `left`, exactly. -/
theorem mem_left (logErrors : Bool) (i : Name) (h : Held) :
    h ∈ left w logErrors i ↔ Before w i ∧ Spoiled w i h := by
  have hi : i = .logHandler ∨ i ∈ order logErrors := by cases logErrors <;> cases i <;> decide
  cases i with
  | logHandler =>
      cases logErrors with
      | false =>
          rw [left_unreached w fun hi => absurd hi (by decide)]
          cases h <;> simp [Spoiled]
      | true =>
          exact mem_left_of w (by decide) (by decide)
            (fun _ => iff_of_false List.not_mem_nil (by cases h <;> exact id))
            fun hs => absurd trivial hs
  | natsNotifier | tradeCards | signalsNotifier | deferred | demoNotifier | retries =>
      exact mem_left_of w (hi.resolve_left (by decide)) (by decide)
        (fun _ => iff_of_false List.not_mem_nil (by cases h <;> exact id))
        fun hs => absurd trivial hs
  | nats => exact mem_left_nats w
  | database =>
      refine mem_left_of w (hi.resolve_left (by decide)) (by decide) (fun hs => ?_) fun hs => ?_
      · simp only [Starting] at hs
        cases hd : w.raises .dispose <;> cases h <;>
          simp [Spoiled, service, init_db, close_db, hs, hd]
      · obtain ⟨e, he⟩ := Option.ne_none_iff_exists'.1 hs
        cases h <;> simp [Spoiled, service, init_db, he]
  | dispatcher =>
      refine mem_left_of w (hi.resolve_left (by decide)) (by decide) (fun hs => ?_) fun hs => ?_
      · simp only [Starting] at hs
        obtain ⟨held, hheld, hstart⟩ := dispatcher_start w hs
        simp only [service, fresh, hstart, dispatcher_stop, listener_stop w hheld]
        cases h <;> simp [Spoiled, hs, List.mem_replicate, strayed_ne_zero]
      · obtain ⟨e, he⟩ := Option.ne_none_iff_exists'.1 hs
        obtain ⟨held, hfailed⟩ := dispatcher_failed w he
        simp only [service, fresh, hfailed, mem_watching, strayed_ne_zero]
        cases h <;> simp [Spoiled, he]
  | trades =>
      refine mem_left_of w (hi.resolve_left (by decide)) (by decide) (fun hs => ?_) fun hs => ?_
      · cases hp : w.raises .pullTrades with
        | none =>
            simp only [service, fresh, trades_start_pulling w hp, trades_stop_pulling, pull_stop]
            cases h <;> simp [Spoiled, hp]
        | some e =>
            have hsub := subscribeTrade_of hs hp
            simp only [service, fresh, trades_start_core w hp hsub, trades_stop_core]
            cases h <;> simp [Spoiled, hp, hsub]
      · obtain ⟨hp, hsub⟩ := not_or.1 hs
        obtain ⟨e, he⟩ := Option.ne_none_iff_exists'.1 hp
        obtain ⟨e', he'⟩ := Option.ne_none_iff_exists'.1 hsub
        simp only [service, fresh, trades_failed w he he']
        cases h <;> simp [Spoiled, he, he']
  | system =>
      refine mem_left_of w (hi.resolve_left (by decide)) (by decide) (fun hs => ?_) fun hs => ?_
      · simp only [Starting] at hs
        cases hu : w.raises .unsubscribeSystem <;> cases h <;>
          simp [Spoiled, service, SystemEventConsumer.start, SystemEventConsumer.stop, hs, hu]
      · obtain ⟨e, he⟩ := Option.ne_none_iff_exists'.1 hs
        cases h <;> simp [Spoiled, service, SystemEventConsumer.start, he]
  | demo =>
      refine mem_left_of w (hi.resolve_left (by decide)) (by decide) (fun hs => ?_) fun hs => ?_
      · simp only [Starting] at hs
        cases hu : w.raises .unsubscribeDemo <;> cases h <;>
          simp [Spoiled, service, DemoSignalConsumer.start, DemoSignalConsumer.stop, hs, hu]
      · obtain ⟨e, he⟩ := Option.ne_none_iff_exists'.1 hs
        cases h <;> simp [Spoiled, service, DemoSignalConsumer.start, he]
  | signals =>
      refine mem_left_of w (hi.resolve_left (by decide)) (by decide) (fun hs => ?_) fun hs => ?_
      · simp only [Starting] at hs
        simp only [service, fresh, SignalWorker.start, SignalWorker.stop, pull_start w hs,
          pull_stop]
        cases h <;> simp [Spoiled, hs]
      · obtain ⟨e, he⟩ := Option.ne_none_iff_exists'.1 hs
        simp only [service, fresh, SignalWorker.start, pull_failed w he]
        cases h <;> simp [Spoiled, he]

/-! ## What the lifespan ends with -/

theorem stops_other {i : Name} (hn : i ≠ .nats) (hd : i ≠ .database) (hs : Starting w i) :
    Stops (service w) (fun i => (body w).run i ((service w i).start (fresh i)).2) i := by
  have hbody : ∀ p, (body w).run i p = p := fun p => if_neg fun hc => hn hc.1
  rw [Stops, hbody]
  cases i with
  | nats => exact absurd rfl hn
  | database => exact absurd rfl hd
  | logHandler | natsNotifier | tradeCards | signalsNotifier | deferred | demoNotifier | retries =>
      rfl
  | dispatcher =>
      obtain ⟨held, hheld, hstart⟩ := dispatcher_start w hs
      simp only [service, fresh, hstart, dispatcher_stop, listener_stop w hheld]
      rfl
  | trades =>
      cases hp : w.raises .pullTrades with
      | none =>
          simp only [service, fresh, trades_start_pulling w hp, trades_stop_pulling, pull_stop]
          rfl
      | some e =>
          simp only [service, fresh, trades_start_core w hp (subscribeTrade_of hs hp),
            trades_stop_core]
          rfl
  | system =>
      simp only [Starting] at hs
      simp [service, SystemEventConsumer.start, SystemEventConsumer.stop, hs]
  | demo =>
      simp only [Starting] at hs
      simp [service, DemoSignalConsumer.start, DemoSignalConsumer.stop, hs]
  | signals =>
      simp only [Starting] at hs
      simp only [service, fresh, SignalWorker.start, SignalWorker.stop, pull_start w hs, pull_stop]
      rfl

theorem stops_database (hs : Starting w .database) :
    Stops (service w) (fun i => (body w).run i ((service w i).start (fresh i)).2) .database ↔
      w.raises .dispose = none := by
  simp only [Starting] at hs
  cases hd : w.raises .dispose <;> simp [Stops, body, service, init_db, close_db, hs, hd]

theorem stops_nats (hs : Starting w .nats) :
    Stops (service w) (fun i => (body w).run i ((service w i).start (fresh i)).2) .nats ↔
      w.closed ∨ w.raises .drain = none ∧ w.raises .close = none := by
  simp only [Stops, service, fresh, nats_start w hs]
  by_cases hclosed : w.closed = true
  · have hbody : (body w).run .nats ⟨[.connection], [.connection]⟩ = ⟨[.connection], []⟩ :=
      if_pos ⟨rfl, hclosed⟩
    rw [hbody, nats_stop_closed]
    exact iff_of_true rfl (.inl hclosed)
  · have hbody : (body w).run .nats ⟨[.connection], [.connection]⟩ =
        ⟨[.connection], [.connection]⟩ := if_neg fun hc => hclosed hc.2
    rw [hbody, nats_stops, or_iff_right hclosed]

theorem lifespan_none (logErrors : Bool) :
    (lifespan w logErrors).1 = none ↔
      SignalsUp w ∧ w.ending = none ∧ w.raises .dispose = none ∧
        (w.closed ∨ w.raises .drain = none ∧ w.raises .close = none) := by
  rw [lifespan, block_none (order_nodup logErrors), all_start_iff]
  refine and_congr_right fun hup => and_congr_right fun _ => ?_
  have hstarting : ∀ i, Starting w i := by
    obtain ⟨⟨⟨⟨⟨⟨hd, hn⟩, hb⟩, ht⟩, hs⟩, hm⟩, hg⟩ := hup
    intro i
    cases i <;> trivial
  rw [← stops_database w (hstarting _), ← stops_nats w (hstarting _)]
  constructor
  · intro h
    exact ⟨h .database (by cases logErrors <;> decide), h .nats (by cases logErrors <;> decide)⟩
  · rintro ⟨hd, hn⟩ i -
    by_cases hin : i = .nats
    · exact hin ▸ hn
    · by_cases hid : i = .database
      · exact hid ▸ hd
      · exact stops_other w hin hid (hstarting i)

/-- How a lifespan ends. -/
structure Ended (logErrors : Bool) : Prop where
  left : ∀ i h, h ∈ left w logErrors i ↔ Before w i ∧ Spoiled w i h
  tasks : (∃ i h, h.isTask ∧ h ∈ Lifecycle.left w logErrors i) ↔
    NatsUp w ∧ w.raises .firstSweep ≠ none
  clean : (lifespan w logErrors).1 = none ↔
    SignalsUp w ∧ w.ending = none ∧ w.raises .dispose = none ∧
      (w.closed ∨ w.raises .drain = none ∧ w.raises .close = none)

theorem ended (logErrors : Bool) : Ended w logErrors := by
  refine ⟨mem_left w logErrors, ?_, lifespan_none w logErrors⟩
  simp only [mem_left]
  constructor
  · rintro ⟨i, h, htask, hbefore, hspoiled⟩
    have hi : i = .dispatcher ∧ w.raises .firstSweep ≠ none := by
      cases i <;> cases h <;> simp_all [Spoiled, Held.isTask]
    obtain ⟨rfl, hsweep⟩ := hi
    exact ⟨hbefore, hsweep⟩
  · rintro ⟨hup, hsweep⟩
    exact ⟨.dispatcher, .drain, rfl, hup, hsweep⟩

end

end TradingBroker.Lifecycle
