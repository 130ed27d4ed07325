import TradingBroker.Signals.Coroutines

/-!
# Runs of the pipeline

A run starts with an empty table, an empty stream and nobody at work, and every
run keeps the contract: at each of its steps the call made is one its caller may
make. The facts about runs that follow in the other files are inductions over
`Trail`, the same run with the coroutines forgotten.

The last section is one small world to evaluate runs in: two alerts of one cycle,
and libraries that behave on them as the real ones do.

Three facts are kept through every run and used by all of them: the ids of the
rows are pairwise different and so are their delivery keys (`Inv`), a message has
one row at most, and only what has a row is sent (`SentRows`).
-/

namespace TradingBroker

open TradingBroker.Lib TradingBroker.Lib.Contract TradingBroker.Lib.Machine

section
variable {lib : Libraries} {cfg : Config} {now : Int} {settings : String → Option String}
  {cond : Shared → Label Party Context Choice Event Call → Prop}
  {p q : Pool Party Context Shared Call Call.Result Fault}
  {l : Label Party Context Choice Event Call}

/-- The pool every run starts from. -/
abbrev startPool (now : Int) (settings : String → Option String) :
    Pool Party Context Shared Call Call.Result Fault :=
  idlePool (Shared.initial now settings)

theorem inv_initial : Inv (Shared.initial now settings) where
  ids := List.nodup_nil
  keys := List.nodup_nil
  stream := List.nodup_nil
  handed := fun m h => by cases h
  rows := fun r h => by cases h

theorem good_initial : (pipelineContract lib cfg).Good (startPool now settings) := by
  refine ⟨inv_initial, fun i s' hd => (stable_atRest i _).drifts hd ?_⟩
  cases i with
  | retryJob => rfl
  | worker => exact fun m hm => by cases hm
  | handshake n => trivial

theorem reaches_good (h : (pipeline lib cfg).Reaches cond (startPool now settings) p) :
    (pipelineContract lib cfg).Good p ∧
      (pipelineContract lib cfg).Trail cond (Shared.initial now settings) p.shared :=
  pipeline_holds.refines good_initial h

theorem reaches_inv (h : (pipeline lib cfg).Reaches cond (startPool now settings) p) :
    Inv p.shared :=
  (reaches_good h).1.1

/-- In every run, every step is one its party may take. -/
theorem reaches_step (h : (pipeline lib cfg).Reaches cond (startPool now settings) p)
    (hs : (pipeline lib cfg).Step p l q) :
    l.Allowed (May lib cfg) p.shared ∧ (pipeline lib cfg).act l p.shared = some q.shared := by
  obtain ⟨hl, ha, -⟩ := pipeline_holds.step (reaches_good h).1 hs
  exact ⟨hl, ha⟩

/-- A call that is awaited can be made, whatever comes of it. -/
theorem step_next {i : Party} {c : Call} {x : Choice} (h : (p.threads i).2.next? = some c) :
    ∃ q, (pipeline lib cfg).Step p (.call i (p.threads i).1 c x) q := by
  cases hp : (p.threads i).2 with
  | call c' f =>
      rw [hp] at h
      cases h
      let r := respond lib x p.shared c
      refine ⟨⟨(effect lib (p.threads i).1 c x p.shared).log (.call i (p.threads i).1 c r),
        Function.update p.threads i ((p.threads i).1, f r)⟩, .call i x, ?_⟩
      simp only [Machine.move, hp]
      rfl
  | pure a => simp [hp, Coro.next?] at h
  | raise e => simp [hp, Coro.next?] at h

end

/-! ## A message and its row -/

/-- The row of the stream's message `m`. -/
def IsRowOf (s : Shared) (m : Nat) (r : Signal) : Prop :=
  r ∈ s.rows ∧ ∃ msg, s.stream[m]? = some msg ∧ r.isOf msg

/-- The row of the stream's message `m`, looked up. -/
def rowOf (s : Shared) (m : Nat) : Option Signal :=
  s.stream[m]?.bind fun msg => Signal.byDeliveryKey s.rows (deliveryKeyFor msg)

section
variable {lib : Libraries} {cfg : Config} {s t u : Shared} {m : Nat} {r r' : Signal}
  {l : Label Party Context Choice Event Call}

theorem IsRowOf.unique (hinv : Inv s) (h : IsRowOf s m r) (h' : IsRowOf s m r') : r = r' := by
  obtain ⟨hr, msg, hm, hof⟩ := h
  obtain ⟨hr', msg', hm', hof'⟩ := h'
  rw [hm] at hm'
  cases hm'
  exact Signal.eq_of_deliveryKey hinv.keys hr hr' (hof.trans hof'.symm)

theorem rowOf_eq_some (hinv : Inv s) : rowOf s m = some r ↔ IsRowOf s m r := by
  have hsome : ∀ q, rowOf s m = some q → IsRowOf s m q := by
    intro q hq
    rw [rowOf, Option.bind_eq_some_iff] at hq
    obtain ⟨msg, hm, hq⟩ := hq
    obtain ⟨hmem, hof⟩ := Signal.byDeliveryKey_some hq
    exact ⟨hmem, msg, hm, hof⟩
  refine ⟨hsome r, fun h => ?_⟩
  cases hrow : rowOf s m with
  | none =>
      obtain ⟨hr, msg, hm, hof⟩ := h
      rw [rowOf, hm, Option.bind_some] at hrow
      exact absurd hof (Signal.byDeliveryKey_none hrow hr)
  | some q => rw [(hsome q hrow).unique hinv h]

theorem rowOf_eq_none (hinv : Inv s) : rowOf s m = none ↔ ∀ r, ¬ IsRowOf s m r := by
  constructor
  · intro h r hr
    rw [(rowOf_eq_some hinv).2 hr] at h
    cases h
  · intro h
    cases hrow : rowOf s m with
    | none => rfl
    | some r => exact absurd ((rowOf_eq_some hinv).1 hrow) (h r)

theorem IsRowOf.forward (hinv : Inv t) (hl : l.Allowed (May lib cfg) t)
    (ha : (pipeline lib cfg).act l t = some u) (h : IsRowOf t m r) :
    ∃ r', IsRowOf u m r' ∧ RowStep l t r r' := by
  obtain ⟨hr, msg, hm, hof⟩ := h
  obtain ⟨r', hr', hs⟩ := rows_forward hinv hl ha hr
  exact ⟨r', ⟨hr', msg, (act_grows ha).stream m msg hm, hs.isOf.2 hof⟩, hs⟩

/-- A row of `m` was one before the step, or is the one the step inserts. -/
theorem IsRowOf.backward (hinv : Inv t) (hinv' : Inv u) (hl : l.Allowed (May lib cfg) t)
    (ha : (pipeline lib cfg).act l t = some u) (h : IsRowOf u m r') :
    (∃ r, IsRowOf t m r ∧ RowStep l t r r') ∨ Inserts lib cfg l t r' := by
  obtain ⟨hr', msg, hm, hof⟩ := h
  rcases rows_backward hinv hl ha hr' with ⟨r, hr, hs⟩ | hins
  · left
    obtain ⟨m', msg', hm', hof', -⟩ := (hinv.rows r hr).message
    have hmu := (act_grows ha).stream m' msg' hm'
    have hkey := isOf_unique hof' (hs.isOf.1 hof)
    have hmm : m' = m := hinv'.place_unique hmu hm hkey
    subst hmm
    exact ⟨r, ⟨hr, msg', hm', hof'⟩, hs⟩
  · exact .inr hins

/-- The label is a publish of the row that returns. -/
def publishes (id : RowId) : Label Party Context Choice Event Call → Bool
  | .call _ _ (.publish w) x => x.reports && w.signalId == id
  | _ => false

/-- What a step sends, if anything. -/
theorem sends_step (ha : (pipeline lib cfg).act l t = some u) :
    sends u.trace = sends t.trace ∨
      ∃ id, publishes id l = true ∧ sends u.trace = sends t.trace ++ [id] := by
  rw [act_trace ha]
  cases l with
  | call i k c x =>
      cases c with
      | publish w =>
          simp only [traced, respond, Choice.orRaise]
          cases hx : x.reports with
          | false =>
              left
              rw [if_neg (by simp), List.singleton_append, sends_cons]
              exact List.append_nil _
          | true =>
              right
              refine ⟨w.signalId, by simp [publishes, hx], ?_⟩
              rw [if_pos rfl, List.singleton_append, sends_cons]
              rfl
      | _ =>
          left
          rw [traced, List.singleton_append, sends_cons]
          exact List.append_nil _
  | env e => exact .inl rfl
  | _ =>
      left
      rw [traced, List.singleton_append, sends_cons]
      exact List.append_nil _

theorem sent_step (ha : (pipeline lib cfg).act l t = some u) {id : RowId} (h : Sent u id) :
    Sent t id ∨ publishes id l = true := by
  unfold Sent at h ⊢
  rcases sends_step ha with he | ⟨id', hp, he⟩
  · rw [he] at h
    exact .inl h
  · rw [he, List.mem_append, List.mem_singleton] at h
    rcases h with h | rfl
    · exact .inl h
    · exact .inr hp

/-- Only rows are sent. -/
def SentRows (s : Shared) : Prop := ∀ id, Sent s id → ∃ r ∈ s.rows, r.id = id

theorem SentRows.step (hinv : Inv t) (hl : l.Allowed (May lib cfg) t)
    (ha : (pipeline lib cfg).act l t = some u) (h : SentRows t) : SentRows u := by
  intro id hs
  have hold : ∃ r ∈ t.rows, r.id = id := by
    rcases sent_step ha hs with hs' | hp
    · exact h id hs'
    · cases l with
      | call i k c x =>
          cases c with
          | publish w =>
              simp only [publishes, Bool.and_eq_true, beq_iff_eq] at hp
              obtain ⟨r, hr, hid, -⟩ := may_publish hl
              exact ⟨r, hr, hid.trans hp.2⟩
          | _ => cases hp
      | _ => cases hp
  obtain ⟨r, hr, hid⟩ := hold
  obtain ⟨r', hr', hs'⟩ := rows_forward hinv hl ha hr
  exact ⟨r', hr', hs'.id_eq.trans hid⟩

end

/-! ## A small world -/

namespace Sample

def text (d : JsonObject) (key : String) : Option String :=
  match d.get? key with
  | some (.str s) => some (String.ofList (s.map Char.ofNat))
  | _ => none

def action : String → Option SignalAction
  | "LONG" => some .long
  | "FLAT" => some .flat
  | _ => none

def time : Timestamp := ⟨63902908800000000, "2026-01-01T00:00:00+00:00", by decide, by decide⟩

def position (action : SignalAction) : PositionSchema :=
  ⟨action, none, none, none, none, none, none, none, none, none, none, none, none, none⟩

/-- Field validation of an alert that sets nothing optional. -/
def coerce (raw : JsonObject) : Option WebhookBody := do
  let strategy ← text raw "strategy"
  let symbol ← text raw "symbol"
  let timeframe ← text raw "timeframe"
  let token ← text raw "token"
  guard (text raw "timestamp" = some "2026-01-01T00:00:00Z")
  match raw.get? "position" with
  | some (.obj fields) => do
      let action ← (text fields "action").bind action
      return ⟨strategy, symbol, timeframe, time, position action, none, none, token⟩
  | _ => none

def lib : Libraries where
  coerce := coerce
  upper s := String.ofList (s.toList.map Char.toUpper)
  accepts _ := true
  maxNesting := 255

def cfg : Config where
  maxAttempts := 3
  inlineRetryDelays := inlineRetryDelaysSeconds
  retryInterval := 15
  hasBroadcaster := true
  hasSignals := true

/-- The data of an alert's message; `uxid` is what it says of its cycle. -/
def envelopeOf (strategy action : String) (uxid : Json) : MessageData :=
  .json (.obj [(pyStr "payload", .obj [(pyStr "strategy", dumpStr strategy),
    (pyStr "symbol", dumpStr "XAUUSD"), (pyStr "timeframe", dumpStr "5"),
    (pyStr "timestamp", dumpStr "2026-01-01T00:00:00Z"), (pyStr "signal_uxid", uxid),
    (pyStr "position", .obj [(pyStr "action", dumpStr action)]),
    (pyStr "token", dumpStr "secret")])])

def envelope (action : String) (uxid : Json) : MessageData := envelopeOf "gold" action uxid

def uxid : Uxid := ⟨pyStr "0123456789ABCDEF", by decide⟩

def otherUxid : Uxid := ⟨pyStr "FEDCBA9876543210", by decide⟩

def entry : Message := ⟨1, time, envelope "LONG" (.str uxid.1), by decide⟩

def flat : Message := ⟨2, time, envelope "FLAT" (.str uxid.1), by decide⟩

def unset : String → Option String := fun _ => none

def ok : Choice := ⟨.ok, 7, uxid⟩

def failed : Choice := ⟨.failed, 7, uxid⟩

/-- The same success with the next id and another uxid to draw. -/
def next : Choice := ⟨.ok, 8, otherUxid⟩

abbrev World := Pool Party Context Shared Call Call.Result Fault

/-- Where a sequence of moves leads from the empty world. -/
def run (moves : List (Machine.Move Party Choice Event)) : Option World :=
  (pipeline lib cfg).replay moves (startPool 0 unset)

/-- The party makes its next `n` calls, and they all succeed. -/
def calls (i : Party) (n : Nat) : List (Machine.Move Party Choice Event) :=
  List.replicate n (.call i ok)

/-- A run that gets somewhere, evaluated. -/
theorem run_any (moves : List (Machine.Move Party Choice Event)) (P : World → Bool)
    (h : (run moves).any P = true) :
    ∃ p, (pipeline lib cfg).Runs (startPool 0 unset) p ∧ P p = true := by
  rw [Option.any_eq_true] at h
  obtain ⟨p, hp, hP⟩ := h
  exact ⟨p, runs_of_replay hp, hP⟩

/-- The same with one call of the run singled out. -/
theorem run_then (moves moves' : List (Machine.Move Party Choice Event)) (i : Party)
    (P : World → World → Bool)
    (h : ((run moves).any fun p => ((pipeline lib cfg).move p (.call i ok)).any fun r =>
      ((pipeline lib cfg).replay moves' r.2).any fun p' => P p p') = true) :
    ∃ p l q p', (pipeline lib cfg).Runs (startPool 0 unset) p ∧
      (pipeline lib cfg).move p (.call i ok) = some (l, q) ∧
      (pipeline lib cfg).Runs q p' ∧ P p p' = true := by
  simp only [Option.any_eq_true] at h
  obtain ⟨p, hp, ⟨l, q⟩, hm, p', hp', hP⟩ := h
  exact ⟨p, l, q, p', runs_of_replay hp, hm, runs_of_replay hp', hP⟩

end Sample

end TradingBroker
