import Mathlib.Data.List.Sort
import Mathlib.Data.Rat.Floor
import TradingBroker.Schemas.Publisher

/-!
# The signals table

`broker/db/models.py` (`Signal`) and `broker/db/repository/signal.py`. The
repository's methods are one query or one small transaction each; what is here
is the part of each that Postgres executes, on the table as the list of its rows
in insertion order. Whether a call gets that far, and whether its caller learns
of it, is the system's business (`System.lean`).

A row that came back from one of these statements never changes again on the
caller's side: the session is closed, and the object is a copy.

Postgres may refuse an insert: a text that does not fit its column or holds what
`jsonb` cannot, an id that is taken, or a delivery key that is (`insertable`).
What a column stores of a text that is too long by blanks only is the text cut
to its length (`varchar`).
-/

namespace TradingBroker

structure Signal where
  id : RowId
  createdAt : Int
  strategy : String
  symbol : String
  timeframe : String
  timestamp : Timestamp
  signalUxid : Uxid
  action : SignalAction
  price : PyFloat
  quantity : PyFloat
  sl : Option PyFloat
  tp1 : Option PyFloat
  tp2 : Option PyFloat
  isRunning : Bool
  riskPercent : PyFloat
  isScalePosition : Bool
  scaleStrategy : Option String
  status : SignalStatus
  attempts : Int
  lastAttempt : Option Int
  deliveryKey : Option String
  indicators : Json
  inputs : Json
  raw : Json

/-- The row `log_signal` builds. -/
def Signal.ofPayload (payload : WebhookPayload) (id : RowId) (now : Int)
    (deliveryKey : Option String) (attempts : Int) : Signal :=
  let pos := payload.position
  { id
    createdAt := now
    strategy := payload.strategy
    symbol := payload.symbol
    timeframe := payload.timeframe
    timestamp := payload.timestamp
    signalUxid := payload.signalUxid
    action := pos.action
    price := PyFloat.orZero pos.price
    quantity := PyFloat.orZero pos.quantity
    sl := pos.sl
    tp1 := pos.tp1
    tp2 := pos.tp2
    isRunning := pos.isRunning.getD false
    riskPercent := payload.effectiveRiskPercent
    isScalePosition := pos.isScalePosition.getD false
    scaleStrategy := pos.scaleStrategy
    status := .queued
    attempts
    lastAttempt := none
    deliveryKey
    indicators := (payload.indicators.map IndicatorsSchema.dump).getD (.obj [])
    inputs := (payload.inputs.map InputsSchema.dump).getD (.obj [])
    raw := .obj payload.dump }

/-! ## What the columns hold -/

/-- What a `String(n)` column stores of a text. Blanks past its length are cut off and nobody is
told; a text that is too long for any other reason is refused (`varcharFits`). -/
def varchar (n : Nat) (s : String) : String :=
  if (s.toList.drop n).all (· == ' ') then String.ofList (s.toList.take n) else s

/-- `String(n)`. -/
def varcharFits (n : Nat) (s : String) : Bool := s.length ≤ n

theorem varchar_of_fits {n : Nat} {s : String} (h : varcharFits n s = true) : varchar n s = s := by
  have hlen : s.toList.length ≤ n := by
    rw [String.length_toList]
    exact of_decide_eq_true h
  rw [varchar, List.drop_eq_nil_of_le hlen, List.take_of_length_le hlen, String.ofList_toList]
  rfl

/-- The row as an insert stores it; a delivery key always fits (`deliveryKey_fits`). -/
def Signal.stored (r : Signal) : Signal :=
  { r with
    strategy := varchar 50 r.strategy
    symbol := varchar 50 r.symbol
    timeframe := varchar 20 r.timeframe
    scaleStrategy := r.scaleStrategy.map (varchar 50) }

/-- `Numeric(precision, scale)`: the value is rounded to the scale, half away
from zero, and must then have at most `precision` digits. A NaN is a `numeric`,
an infinity is none of bounded precision. -/
def numericFits (precision scale : Nat) : PyFloat → Bool
  | .finite q => ⌊|q| * 10 ^ scale + 1 / 2⌋ < 10 ^ precision
  | .nan => true
  | _ => false

/-- `timestamptz`, by way of `datetime.astimezone(utc)`, which ends with the
year 9999. -/
def timestampFits (t : Timestamp) : Bool := 0 ≤ t.instant && t.instant < 315537897600000000

/-- A character `jsonb` can hold: neither NUL nor half of a surrogate pair. -/
def isJsonbChar (c : Nat) : Bool := c != 0 && !(0xd800 ≤ c && c ≤ 0xdfff)

mutual

def Json.hasJsonbText : Json → Bool
  | .str s => s.all isJsonbChar
  | .arr xs => Json.haveJsonbText xs
  | .obj kvs => Json.fieldsHaveJsonbText kvs
  | _ => true

def Json.haveJsonbText : List Json → Bool
  | [] => true
  | x :: xs => x.hasJsonbText && Json.haveJsonbText xs

def Json.fieldsHaveJsonbText : List (PyStr × Json) → Bool
  | [] => true
  | (k, v) :: kvs => k.all isJsonbChar && v.hasJsonbText && Json.fieldsHaveJsonbText kvs

end

mutual

/-- How deep lists and objects nest. -/
def Json.nesting : Json → Nat
  | .arr xs => Json.nestingList xs + 1
  | .obj kvs => Json.nestingFields kvs + 1
  | _ => 0

def Json.nestingList : List Json → Nat
  | [] => 0
  | x :: xs => max x.nesting (Json.nestingList xs)

def Json.nestingFields : List (PyStr × Json) → Nat
  | [] => 0
  | (_, v) :: kvs => max v.nesting (Json.nestingFields kvs)

end

/-- A document the serialiser writes and `jsonb` stores. -/
def Json.storable (maxNesting : Nat) (v : Json) : Bool :=
  v.hasJsonbText && v.nesting ≤ maxNesting

/-- Every column of the row takes its value. -/
def Signal.storable (lib : Libraries) (r : Signal) : Bool :=
  varcharFits 50 r.strategy && varcharFits 50 r.symbol && varcharFits 20 r.timeframe &&
    timestampFits r.timestamp && numericFits 20 8 r.price && numericFits 20 8 r.quantity &&
    r.sl.all (numericFits 20 8) && r.tp1.all (numericFits 20 8) &&
    r.tp2.all (numericFits 20 8) && numericFits 10 4 r.riskPercent &&
    r.scaleStrategy.all (varcharFits 50) && r.deliveryKey.all (varcharFits 128) &&
    r.indicators.storable lib.maxNesting && r.inputs.storable lib.maxNesting &&
    r.raw.storable lib.maxNesting

/-! ## Statements -/

namespace Signal

def byId (rows : List Signal) (id : RowId) : Option Signal := rows.find? (·.id == id)

def byDeliveryKey (rows : List Signal) (key : String) : Option Signal :=
  rows.find? (·.deliveryKey == some key)

/-- The insert goes through: the columns take the values, the primary key is
new, and so is the delivery key, of which `NULL` is never a duplicate. -/
def insertable (lib : Libraries) (rows : List Signal) (row : Signal) : Bool :=
  row.storable lib && rows.all (·.id != row.id) &&
    (row.deliveryKey.isNone || rows.all (·.deliveryKey != row.deliveryKey))

/-- `UPDATE … WHERE id = …`. -/
def update (rows : List Signal) (id : RowId) (f : Signal → Signal) : List Signal :=
  rows.map fun r => if r.id = id then f r else r

def markPublished (r : Signal) : Signal := { r with status := .published }

def markFailed (now : Int) (r : Signal) : Signal :=
  { r with status := .failed, attempts := 0, lastAttempt := some now }

def recordAttemptFailure (now : Int) (r : Signal) : Signal :=
  if r.attempts ≤ 1 then { r with lastAttempt := some now, attempts := 0, status := .failed }
  else { r with lastAttempt := some now, attempts := r.attempts - 1 }

/-- `timedelta(seconds=…)` on the broker's clock. -/
def microseconds (seconds : Int) : Int := 1000000 * seconds

/-- The `WHERE` of `list_retryable`. -/
def isRetryable (threshold : Int) (r : Signal) : Bool :=
  r.status == .queued && 0 < r.attempts && r.lastAttempt.any (· < threshold)

/-- `ORDER BY "createdAt" ASC`; rows of one instant stay in insertion order. -/
def oldestFirst (rows : List Signal) : List Signal :=
  rows.insertionSort fun a b => a.createdAt ≤ b.createdAt

def listRetryable (rows : List Signal) (now retryInterval : Int) : List Signal :=
  oldestFirst (rows.filter (isRetryable (now - microseconds retryInterval)))

/-- `if not raw` drops these. -/
def hasRaw (r : Signal) : Bool :=
  match r.raw with
  | .null => false
  | .bool b => b
  | .int n => n != 0
  | .float x => x != .finite 0
  | .str s => !s.isEmpty
  | .arr xs => !xs.isEmpty
  | .obj kvs => !kvs.isEmpty

/-- The rows are found by strategy and age alone: their status is not asked. -/
def listRecentByStrategies (rows : List Signal) (now : Int) (strategies : List String)
    (sinceSeconds : Int) : List (RowId × Json) :=
  if strategies.isEmpty || sinceSeconds ≤ 0 then []
  else
    ((oldestFirst (rows.filter fun r =>
      strategies.contains r.strategy && now - microseconds sinceSeconds ≤ r.createdAt)).filter
        hasRaw).map
        fun r => (r.id, r.raw)

/-- `_first_fanout_unconfirmed`: the first fan-out started, if at all, and was
never confirmed either way. -/
def firstFanoutUnconfirmed (r : Signal) : Bool := r.status == .queued && r.lastAttempt == none

/-- Queued with a recorded failure: the retry job's. -/
def awaitsRetry (r : Signal) : Bool := r.status == .queued && r.lastAttempt != none

/-! ## What the statements find and leave -/

theorem mem_update {rows : List Signal} {id : RowId} {f : Signal → Signal} {r : Signal} :
    r ∈ update rows id f ↔ ∃ q ∈ rows, r = if q.id = id then f q else q := by
  simp only [update, List.mem_map]
  constructor
  · rintro ⟨q, hq, rfl⟩
    exact ⟨q, hq, rfl⟩
  · rintro ⟨q, hq, rfl⟩
    exact ⟨q, hq, rfl⟩

theorem map_update {α : Type} {rows : List Signal} {id : RowId} {f : Signal → Signal}
    (g : Signal → α) (h : ∀ r, g (f r) = g r) : (update rows id f).map g = rows.map g := by
  rw [update, List.map_map]
  refine List.map_congr_left fun r _ => ?_
  show g (if r.id = id then f r else r) = g r
  split
  · exact h r
  · rfl

/-- The id names one row. -/
theorem eq_of_id {rows : List Signal} (hn : (rows.map Signal.id).Nodup) {q r : Signal}
    (hq : q ∈ rows) (hr : r ∈ rows) (h : q.id = r.id) : q = r :=
  List.inj_on_of_nodup_map hn hq hr h

/-- What has become of the row that was updated. -/
theorem eq_of_mem_update {rows : List Signal} (hn : (rows.map Signal.id).Nodup)
    {f : Signal → Signal} {r r' : Signal} (hr : r ∈ rows) (hr' : r' ∈ update rows r.id f)
    (hid : r'.id = r.id) : r' = f r := by
  obtain ⟨q, hq, rfl⟩ := mem_update.1 hr'
  split at hid
  · next hqid => rw [if_pos hqid, eq_of_id hn hq hr hqid]
  · next hne => exact absurd hid hne

/-- The delivery key names one row. -/
theorem eq_of_deliveryKey {rows : List Signal} (hn : (rows.map Signal.deliveryKey).Nodup)
    {q r : Signal} (hq : q ∈ rows) (hr : r ∈ rows) (h : q.deliveryKey = r.deliveryKey) :
    q = r :=
  List.inj_on_of_nodup_map hn hq hr h

theorem byId_some {rows : List Signal} {id : RowId} {r : Signal} (h : byId rows id = some r) :
    r ∈ rows ∧ r.id = id := by
  refine ⟨List.mem_of_find?_eq_some h, ?_⟩
  simpa using List.find?_some h

theorem byId_of_mem {rows : List Signal} (hn : (rows.map Signal.id).Nodup) {r : Signal}
    (hr : r ∈ rows) : byId rows r.id = some r := by
  cases h : byId rows r.id with
  | none =>
      have := List.find?_eq_none.1 h r hr
      simp at this
  | some q =>
      obtain ⟨hq, hid⟩ := byId_some h
      rw [eq_of_id hn hq hr hid]

theorem byDeliveryKey_some {rows : List Signal} {key : String} {r : Signal}
    (h : byDeliveryKey rows key = some r) : r ∈ rows ∧ r.deliveryKey = some key := by
  refine ⟨List.mem_of_find?_eq_some h, ?_⟩
  simpa using List.find?_some h

theorem byDeliveryKey_none {rows : List Signal} {key : String}
    (h : byDeliveryKey rows key = none) {r : Signal} (hr : r ∈ rows) :
    r.deliveryKey ≠ some key := by
  simpa using List.find?_eq_none.1 h r hr

theorem mem_oldestFirst {rows : List Signal} {r : Signal} : r ∈ oldestFirst rows ↔ r ∈ rows :=
  (List.perm_insertionSort _ _).mem_iff

theorem mem_listRetryable {rows : List Signal} {now interval : Int} {r : Signal}
    (h : r ∈ listRetryable rows now interval) : r ∈ rows ∧ r.awaitsRetry = true := by
  rw [listRetryable, mem_oldestFirst, List.mem_filter] at h
  refine ⟨h.1, ?_⟩
  have h2 := h.2
  simp only [isRetryable, Bool.and_eq_true, beq_iff_eq, Option.any_eq_true] at h2
  obtain ⟨⟨hq, -⟩, t, ht, -⟩ := h2
  simp [awaitsRetry, hq, ht]

theorem mem_listRecentByStrategies {rows : List Signal} {now since : Int}
    {strategies : List String} {id : RowId} {raw : Json}
    (h : (id, raw) ∈ listRecentByStrategies rows now strategies since) :
    ∃ r ∈ rows, r.id = id ∧ r.raw = raw := by
  rw [listRecentByStrategies] at h
  split at h
  · cases h
  · simp only [List.mem_map, List.mem_filter, mem_oldestFirst, Prod.mk.injEq] at h
    obtain ⟨r, ⟨⟨hr, -⟩, -⟩, hid, hraw⟩ := h
    exact ⟨r, hr, hid, hraw⟩

theorem insertable_id {lib : Libraries} {rows : List Signal} {row : Signal}
    (h : insertable lib rows row = true) {r : Signal} (hr : r ∈ rows) : r.id ≠ row.id := by
  simp only [insertable, Bool.and_eq_true, List.all_eq_true, bne_iff_ne] at h
  exact h.1.2 r hr

theorem insertable_key {lib : Libraries} {rows : List Signal} {row : Signal} {key : String}
    (h : insertable lib rows row = true) (hk : row.deliveryKey = some key) {r : Signal}
    (hr : r ∈ rows) : r.deliveryKey ≠ some key := by
  simp only [insertable, Bool.and_eq_true, Bool.or_eq_true, List.all_eq_true, bne_iff_ne,
    hk, Option.isNone_some, Bool.false_eq_true, false_or] at h
  exact h.2 r hr

/-- What no update touches, as far as the pipeline reads it. -/
def identity (r : Signal) : RowId × Option String × Uxid × Json :=
  (r.id, r.deliveryKey, r.signalUxid, r.raw)

@[simp] theorem markPublished_identity (r : Signal) : r.markPublished.identity = r.identity := rfl
@[simp] theorem markFailed_identity (now : Int) (r : Signal) :
    (r.markFailed now).identity = r.identity := rfl

@[simp] theorem recordAttemptFailure_identity (now : Int) (r : Signal) :
    (r.recordAttemptFailure now).identity = r.identity := by
  unfold recordAttemptFailure
  split <;> rfl

theorem identity_eq {q r : Signal} : q.identity = r.identity ↔
    q.id = r.id ∧ q.deliveryKey = r.deliveryKey ∧ q.signalUxid = r.signalUxid ∧
      q.raw = r.raw := by
  simp only [identity, Prod.mk.injEq]

@[simp] theorem markPublished_id (r : Signal) : r.markPublished.id = r.id := rfl
@[simp] theorem markPublished_status (r : Signal) : r.markPublished.status = .published := rfl
@[simp] theorem markPublished_attempts (r : Signal) : r.markPublished.attempts = r.attempts := rfl
@[simp] theorem markPublished_lastAttempt (r : Signal) :
    r.markPublished.lastAttempt = r.lastAttempt := rfl
@[simp] theorem markFailed_id (now : Int) (r : Signal) : (r.markFailed now).id = r.id := rfl
@[simp] theorem markFailed_status (now : Int) (r : Signal) :
    (r.markFailed now).status = .failed := rfl
@[simp] theorem markFailed_attempts (now : Int) (r : Signal) :
    (r.markFailed now).attempts = 0 := rfl
@[simp] theorem markFailed_lastAttempt (now : Int) (r : Signal) :
    (r.markFailed now).lastAttempt = some now := rfl

@[simp] theorem recordAttemptFailure_id (now : Int) (r : Signal) :
    (r.recordAttemptFailure now).id = r.id := by
  unfold recordAttemptFailure
  split <;> rfl

@[simp] theorem recordAttemptFailure_lastAttempt (now : Int) (r : Signal) :
    (r.recordAttemptFailure now).lastAttempt = some now := by
  unfold recordAttemptFailure
  split <;> rfl

/-- A recorded failure either uses the last attempt up or takes one of several. -/
theorem recordAttemptFailure_cases (now : Int) (r : Signal) :
    (r.attempts ≤ 1 ∧ (r.recordAttemptFailure now).status = .failed ∧
      (r.recordAttemptFailure now).attempts = 0) ∨
    (1 < r.attempts ∧ (r.recordAttemptFailure now).status = r.status ∧
      (r.recordAttemptFailure now).attempts = r.attempts - 1) := by
  unfold recordAttemptFailure
  split
  · next h => exact .inl ⟨h, rfl, rfl⟩
  · next h => exact .inr ⟨by omega, rfl, rfl⟩

end Signal

end TradingBroker
