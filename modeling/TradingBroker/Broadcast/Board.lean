import TradingBroker.Broadcast.Rows

/-!
# Dispatchers at work on a cycle

The rows of the cycle, the broker settings and the clock, with any number of
dispatcher processes reading and writing them one call at a time. Events and
worker executions are recorded in one step each, which is what their transactions
come to (`Serial`); the cycle may be deleted, settings may change, time passes,
and a process may be killed between any two calls. Telegram answers as it likes.

The trace keeps every call with its answer. Where a pass stands, and what a chat
shows, are read off it and not kept in the state, so no step can set them wrong.
A call's `Choice` is what the tables do not determine of it; `respond` and
`effect` read it alike, which is how a write can take effect and be reported as
failed.
-/

namespace TradingBroker.Broadcast

open TradingBroker.Lib

/-- The tasks of a dispatcher process. -/
inductive Party (D : Type) where
  | pass (d : D)
  | sweep (d : D)
  deriving DecidableEq

/-- What has happened, newest first. -/
inductive Entry (D : Type) where
  | started (i : Party D)
  | call (i : Party D) (c : Call) (r : c.Result)
  | died (i : Party D)

structure Board (D : Type) where
  cycle : Option Cycle
  settings : SettingValues
  now : Int
  nextMessageId : MessageId
  trace : List (Entry D)

/-- How a call goes, as far as the rows do not determine it. -/
structure Choice where
  db : Outcome
  edit : EditOutcome
  send : SendOutcome
  reply : Bool
  listed : Bool

inductive Event where
  | wake
  | record (e : Request)
  | set (v : SettingValues)
  | pass (seconds : Nat)
  | delete

variable {D : Type}

section
variable (cfg : Config)

/-- The answer to a call. -/
def respond (x : Choice) (s : Board D) : (c : Call) → c.Result
  | .claimPendingLogs =>
      if x.db = .ok then s.cycle.elim [] (Cycle.claimed cfg.maxAttempts s.now) else []
  | .loadCycle => if x.db = .ok then s.cycle.map Cycle.view else none
  | .getMany => if x.db = .ok then s.settings else .empty
  | .editMessage _ _ _ => x.edit
  | .sendMessage _ _ => ⟨x.send, if x.send = .ok then some s.nextMessageId else none⟩
  | .replyMessage _ _ _ => x.reply
  | .upsertChat _ => decide (x.db = .ok) && s.cycle.isSome
  | .finishLogs _ _ => decide (x.db = .ok)
  | .deferLogs _ _ => decide (x.db = .ok)
  | .markBroadcast => decide (x.db = .ok) && s.cycle.isSome
  | .reclaimStaleLogs =>
      if x.db = .ok then s.cycle.elim 0 fun c => c.logs.countP (LogEntry.stale cfg.staleAfter s.now)
      else 0
  | .listCycle =>
      decide (x.db = .ok) && x.listed &&
        s.cycle.any (Cycle.hasPendingLogs cfg.maxAttempts cfg.staleAfter s.now)

/-- What a call does: a message that Telegram took has an id. -/
def effect (x : Choice) (s : Board D) (c : Call) : Board D :=
  match c with
  | .sendMessage _ _ =>
      { s with nextMessageId := if x.send = .failed then s.nextMessageId else s.nextMessageId + 1 }
  | c =>
      { s with cycle := if x.db = .failed then s.cycle else s.cycle.map (c.write cfg s.now) }

def Board.log (s : Board D) (e : Entry D) : Board D := { s with trace := e :: s.trace }

def Board.event (s : Board D) : Event → Option (Board D)
  | .wake => none
  | .record e => s.cycle.map fun c => { s with cycle := e.run (some c) }
  | .set v => some { s with settings := v }
  | .pass seconds => some { s with now := s.now + seconds }
  | .delete => some { s with cycle := none }

abbrev World (D : Type) := Pool (Party D) Unit (Board D) Call Call.Result Fault

abbrev Step (D : Type) := Label (Party D) Unit Choice Event Call

def dispatchers (D : Type) :
    Machine (Party D) Unit (Board D) Choice Event Call Call.Result Fault where
  exec i _ c x s := some (respond cfg x s c, (effect cfg x s c).log (.call i c (respond cfg x s c)))
  start i e s :=
    match i, e with
    | .pass _, .wake => some ((), dispatchLocked cfg, s.log (.started i))
    | .sweep _, .wake => some ((), sweep, s.log (.started i))
    | _, _ => none
  env e s := s.event e
  crash i _ s := some (s.log (.died i))

end

/-- A cycle that was just opened, and that no dispatcher has seen. -/
def Board.opened (r : EventRecord) (now : Int) (v : SettingValues) : Board D :=
  ⟨some (r.opened now), v, now, 1, []⟩

def opened (r : EventRecord) (now : Int) (v : SettingValues) : World D :=
  ⟨Board.opened r now v, fun _ => ((), .pure ())⟩

/-! ## What a move does -/

@[simp] theorem Board.log_cycle (s : Board D) (e : Entry D) : (s.log e).cycle = s.cycle := rfl

@[simp] theorem Board.log_settings (s : Board D) (e : Entry D) :
    (s.log e).settings = s.settings := rfl

@[simp] theorem Board.log_now (s : Board D) (e : Entry D) : (s.log e).now = s.now := rfl

@[simp] theorem Board.log_trace (s : Board D) (e : Entry D) :
    (s.log e).trace = e :: s.trace := rfl

variable {cfg : Config} {x : Choice} {s s' : Board D} {c : Call}

theorem effect_settings : (effect cfg x s c).settings = s.settings := by
  cases c <;> rfl

theorem effect_now : (effect cfg x s c).now = s.now := by
  cases c <;> rfl

theorem effect_trace : (effect cfg x s c).trace = s.trace := by
  cases c <;> rfl

theorem effect_cycle : (effect cfg x s c).cycle =
    if x.db = .failed then s.cycle else s.cycle.map (c.write cfg s.now) := by
  cases c with
  | sendMessage chat body =>
      show s.cycle = if x.db = .failed then s.cycle else s.cycle.map id
      rw [Option.map_id, id, ite_self]
  | _ => rfl

/-- A call either leaves the rows alone or makes its write. -/
theorem effect_cycle_cases : (effect cfg x s c).cycle = s.cycle ∨
    (effect cfg x s c).cycle = s.cycle.map (c.write cfg s.now) := by
  rw [effect_cycle]
  split
  · exact .inl rfl
  · exact .inr rfl

theorem act_call {i : Party D} {k : Unit}
    (h : (dispatchers cfg D).act (.call i k c x) s = some s') :
    s' = (effect cfg x s c).log (.call i c (respond cfg x s c)) := by
  simp only [Machine.act, dispatchers, Option.map_some, Option.some.injEq] at h
  exact h.symm

theorem act_start {i : Party D} {e : Event}
    (h : (dispatchers cfg D).act (.start i e) s = some s') : s' = s.log (.started i) := by
  simp only [Machine.act, dispatchers] at h
  split at h
  · cases h
    rfl
  · cases h
    rfl
  · cases h

theorem act_env {e : Event} (h : (dispatchers cfg D).act (.env e) s = some s') :
    s.event e = some s' := h

theorem act_crash {i : Party D} {k : Unit}
    (h : (dispatchers cfg D).act (.crash i k) s = some s') : s' = s.log (.died i) := by
  cases h
  rfl

theorem event_trace {e : Event} (h : s.event e = some s') : s'.trace = s.trace := by
  cases e with
  | wake => cases h
  | record e =>
      simp only [Board.event, Option.map_eq_some_iff] at h
      obtain ⟨c, -, rfl⟩ := h
      rfl
  | set v => cases h; rfl
  | pass n => cases h; rfl
  | delete => cases h; rfl

/-! ## A deployment for the runs below -/

namespace Sample

/-- One private chat. -/
def config : Config :=
  ⟨5, by decide, 60, "7", ⟨fun m _ _ _ _ => some m.actions, fun _ _ => some "notice"⟩⟩

def ok : Choice := ⟨.ok, .ok, .ok, true, true⟩

/-- The database is not reached. -/
def unreached : Choice := { ok with db := .failed }

def calls {D : Type} (i : Party D) (n : Nat) : List (Machine.Move (Party D) Choice Event) :=
  List.replicate n (.call i ok)

end Sample

end TradingBroker.Broadcast
