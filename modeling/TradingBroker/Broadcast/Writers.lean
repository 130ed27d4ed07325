import TradingBroker.Broadcast.Cycle
import TradingBroker.Lib.Contract

/-!
# Writers of one cycle

`record_event` and `record_worker_execution` as the transactions they are, one
call for each statement, against the rows of one cycle. Of Postgres this
assumes: a `SELECT .. FOR UPDATE` waits for the row's holder and then reads what
is committed; an insert waits for an uncommitted one of the same key, and raises
once that is committed; a transaction's writes become visible, and its locks are
dropped, when it commits; a statement may fail, and so may a commit, which may
also take effect and be reported as failed.

A table is what is committed together with what each open transaction has
written and holds, so a read inside a transaction sees its own writes and nobody
else's. The first event of a cycle finds no row to lock, and there the key takes
the lock's part: of two writers that both insert, the second one waits, raises
`IntegrityError` and starts over with the row there.
-/

namespace TradingBroker.Broadcast.Writers

open TradingBroker.Lib

/-- The exceptions `record_event` tells apart. -/
inductive Fault where
  | integrity
  | unavailable
  deriving DecidableEq

/-- The statements, and two marks: a replay was recognised, the caller was
answered. -/
inductive Call where
  | lockedCycle
  | insertMessage (m : BroadcastMessage)
  | selectWorker (workerId : String)
  | flush (d : Change)
  | refresh
  | commit
  | rollback
  | replayIgnored
  | answered (row : Option BroadcastMessage)

abbrev Call.Result : Call → Type
  | .lockedCycle => Except Fault (Option BroadcastMessage)
  | .insertMessage _ => Except Fault Unit
  | .selectWorker _ => Except Fault (Option BroadcastWorker)
  | .flush _ => Except Fault Unit
  | .refresh => Except Fault Unit
  | .commit => Except Fault Unit
  | _ => Unit

abbrev Prog := Coro Call Call.Result Fault

/-! ## The repository -/

/-- `get_session`: commit on the way out, roll back and raise again on an
exception. -/
def session {α : Type} (body : Prog α) : Prog α := do
  match ← body.attempt with
  | .error e => .call .rollback fun _ => .raise e
  | .ok a =>
      .call .commit fun
        | .ok () => pure a
        | .error e => .call .rollback fun _ => .raise e

/-- Write, flush and read back. -/
def store (d : Change) : Prog BroadcastMessage :=
  .call (.flush d) fun
    | .error e => .raise e
    | .ok () =>
        .call .refresh fun
          | .error e => .raise e
          | .ok () => pure d.message

/-- The body of `record_event`'s loop. -/
def recordOnce (r : EventRecord) (now : Int) : Prog BroadcastMessage :=
  session (.call .lockedCycle fun
    | .error e => .raise e
    | .ok none =>
        .call (.insertMessage r.message) fun
          | .error e => .raise e
          | .ok () => store ⟨r.message, logEntry 1 (.signal r.event) now, none⟩
    | .ok (some row) =>
        if isDuplicateEvent row.events r.event then .call .replayIgnored fun _ => pure row
        else store (r.change row now))

/-- `record_event`: a lost race for the insert is tried once more. -/
def recordEvent (r : EventRecord) (now : Int) : Prog (Option BroadcastMessage) := do
  match ← (recordOnce r now).attempt with
  | .ok row => pure (some row)
  | .error .unavailable => pure none
  | .error .integrity =>
      match ← (recordOnce r now).attempt with
      | .ok row => pure (some row)
      | .error _ => pure none

def recordWorkerExecution (x : Execution) (now : Int) : Prog (Option BroadcastMessage) := do
  match ← (session (.call .lockedCycle fun
      | .error e => .raise e
      | .ok none => pure none
      | .ok (some row) =>
          .call (.selectWorker x.workerId) fun
            | .error e => .raise e
            | .ok worker =>
                if worker.any x.unchanged then .call .replayIgnored fun _ => pure (some row)
                else do
                  let row ← store (x.change row worker now)
                  pure (some row)) : Prog (Option BroadcastMessage)).attempt with
  | .ok row => pure row
  | .error _ => pure none

def serve : Request → Prog Unit
  | .event r now => do
      let row ← recordEvent r now
      .call (.answered row) fun _ => pure ()
  | .execution x now => do
      let row ← recordWorkerExecution x now
      .call (.answered row) fun _ => pure ()

/-! ## The rows, and who is writing them -/

/-- What has happened, newest first: a call was made, it recognised a replay, it
committed an entry, it was answered. -/
inductive Entry where
  | started (i : Nat) (e : Request)
  | replayed (i : Nat)
  | appended (i : Nat) (payload : LogPayload)
  | answered (i : Nat) (row : Option BroadcastMessage)

def Entry.writer : Entry → Nat
  | .started i _ => i
  | .replayed i => i
  | .appended i _ => i
  | .answered i _ => i

structure Table where
  committed : Option Cycle
  /-- Who holds the lock of the committed row. -/
  holder : Option Nat
  /-- Who has inserted the row without having committed it. -/
  inserting : Option Nat
  /-- What a transaction would commit, if it has written anything. -/
  pending : Nat → Option Cycle
  trace : List Entry

def Table.empty : Table := ⟨none, none, none, fun _ => none, []⟩

/-- The transaction ends: what it held is free again. -/
def Table.release (i : Nat) (s : Table) : Table :=
  { s with
    holder := if s.holder = some i then none else s.holder
    inserting := if s.inserting = some i then none else s.inserting
    pending := Function.update s.pending i none }

/-- The entry a commit leaves in the trace. -/
def Table.commitEntry (i : Nat) (s : Table) : List Entry :=
  match (s.pending i).bind fun c => c.logs.getLast? with
  | some e => [.appended i e.payload]
  | none => []

def Table.commit (i : Nat) (s : Table) : Table :=
  { s.release i with
    committed := (s.pending i).or s.committed
    trace := s.commitEntry i ++ s.trace }

def fails {α : Type} (x : Outcome) (go : Option (Except Fault α × Table)) (s : Table) :
    Option (Except Fault α × Table) :=
  if x = .ok then go else some (.error .unavailable, s)

/-- What a statement of writer `i` does; `none` while it waits. -/
def exec (i : Nat) (x : Outcome) (s : Table) : (c : Call) → Option (c.Result × Table)
  | .lockedCycle =>
      fails x
        (match s.committed with
          | none => some (.ok none, s)
          | some c =>
              if s.holder = none ∨ s.holder = some i then
                some (.ok (some c.message), { s with holder := some i })
              else none) s
  | .insertMessage m =>
      fails x
        (if s.committed.isSome then some (.error .integrity, s)
        else if s.inserting = none then
          some (.ok (), { s with
            inserting := some i
            pending := Function.update s.pending i (some ⟨m, [], [], []⟩) })
        else none) s
  | .selectWorker workerId =>
      fails x (some (.ok (((s.pending i).or s.committed).bind fun c => c.worker? workerId), s)) s
  | .flush d =>
      fails x
        (match (s.pending i).or s.committed with
          | none => some (.error .integrity, s)
          | some c =>
              if d.entry.seq ∈ c.logs.map LogEntry.seq then some (.error .integrity, s)
              else some (.ok (), { s with
                pending := Function.update s.pending i (some (d.apply c)) })) s
  | .refresh => fails x (some (.ok (), s)) s
  | .commit =>
      match x with
      | .ok => some (.ok (), s.commit i)
      | .failed => some (.error .unavailable, s)
      | .failedApplied => some (.error .unavailable, s.commit i)
  | .rollback => some ((), s.release i)
  | .replayIgnored => some ((), { s with trace := .replayed i :: s.trace })
  | .answered row => some ((), { s with trace := .answered i row :: s.trace })

abbrev World := Pool Nat Unit Table Call Call.Result Fault

abbrev Step := Label Nat Unit Outcome Request Call

/-- Every party makes one call, and may be killed in the middle of it. -/
def writers : Machine Nat Unit Table Outcome Request Call Call.Result Fault where
  exec i _ c x s := exec i x s c
  start i e s :=
    if s.trace.any fun entry => entry.writer == i then none
    else some ((), serve e, { s with trace := .started i e :: s.trace })
  env _ _ := none
  crash i _ s := some (s.release i)

/-- Nobody has written anything. -/
def idle : World := ⟨Table.empty, fun _ => ((), .pure ())⟩

end TradingBroker.Broadcast.Writers
