import TradingBroker.Schemas.Survive
import TradingBroker.Signals.Service

/-!
# The payload on the stream and in the row

Where a payload is written and where it is parsed again: `enqueue` puts it under `payload`
into the envelope that `SignalWorker._handle_one` opens, `log_signal` makes it the row's
`raw`, from which `retry_signal` and `_build_retry_signals` rebuild it. Every rebuilt
payload may be written again. None of the parses ever refuses what the broker wrote, and
what comes back is the payload, but for one spelling: a float of `10^16` or more under an
extra key is an `int` once `jsonb` has printed it, and Python tells the two apart where the
float is not the number its digits say.

A trip is any number of stops, each a store and the uxid a parse mints if it has to. What
the stores do beyond what is documented of them is a parameter (`carry`), bounded by
`Json.Kept`. Of a payload whose extra floats are kept by every stop the same comes back
(`Survives`); what the others come back as is said by `trips_not_rejected` and the
counterexample after it.
-/

namespace TradingBroker

/-- What is written of a payload: the envelope, or the column. -/
def Store.write : Store → WebhookPayload → Json
  | .stream, p => .obj [(pyStr "payload", .obj p.dump)]
  | .column, p => .obj p.dump

/-- The `dict` a reader hands to `WebhookPayload(**raw)`. -/
def Store.raw : Store → Json → Option JsonObject
  | .stream, envelope => rawPayload envelope
  | .column, .obj raw => some raw
  | .column, _ => none

/-- How a trip ends: the store did not take what was written, the reader did not take what
the store gave back, or a payload is back. -/
inductive Return where
  | refused
  | rejected
  | back (p : WebhookPayload)

section
variable (co : LaxReads) (carry : Store → Json → Option Json)

/-- Through one store. `minted` is the uxid the reader would draw. -/
def trip (m : Store) (minted : Uxid) (p : WebhookPayload) : Return :=
  match carry m (m.write p) with
  | none => .refused
  | some j =>
      match (m.raw j).bind fun raw => WebhookPayload.parse co raw minted with
      | none => .rejected
      | some q => .back q

def trips : List (Store × Uxid) → WebhookPayload → Return
  | [], p => .back p
  | (m, minted) :: rest, p =>
      match trip co carry m minted p with
      | .back q => trips rest q
      | other => other

/-- Unless a store refuses it, an equal payload comes back. -/
def Survives (stops : List (Store × Uxid)) (p : WebhookPayload) : Prop :=
  trips co carry stops p = .refused ∨ ∃ q, trips co carry stops p = .back q ∧ p.Same q

end

/-- The floats that come back as floats from each of the stores. -/
def KeptBy (stops : List (Store × Uxid)) (x : PyFloat) : Prop :=
  x.isFinite = true ∧ ∀ stop ∈ stops, stop.1.Keeps x

section
variable {co : LaxReads} {carry : Store → Json → Option Json}

/-- The reader finds in what the store gives back what the store made of the dump. -/
theorem raw_kept {m : Store} {p : WebhookPayload} {j : Json}
    (h : Json.Kept co.ofInt m (m.write p) j) :
    ∃ raw, m.raw j = some raw ∧ Json.Kept co.ofInt m (.obj p.dump) (.obj raw) := by
  cases m with
  | stream =>
      obtain ⟨e, rfl, hkeys, hkept⟩ := h.obj_inv
      have hp : JsonObject.lookup [(pyStr "payload", Json.obj p.dump)] (pyStr "payload") =
          some (.obj p.dump) := by rw [lookup_cons, if_pos rfl]
      have hsome := hkeys (pyStr "payload")
      rw [hp, Option.isSome_some] at hsome
      obtain ⟨w, hw⟩ := Option.isSome_iff_exists.1 hsome.symm
      have hwkept := hkept _ _ _ hp hw
      obtain ⟨raw, rfl, -⟩ := hwkept.obj_inv
      refine ⟨raw, ?_, hwkept⟩
      rw [← get?_eq_lookup] at hw
      rw [Store.raw, rawPayload, hw]
  | column =>
      obtain ⟨raw, rfl, -⟩ := h.obj_inv
      exact ⟨raw, rfl, h⟩

/-- One trip: the payload is not rejected, and comes back sound and restored. -/
theorem trip_sound (hcarry : ∀ m j j', carry m j = some j' → Json.Kept co.ofInt m j j')
    {p : WebhookPayload} (hp : p.Sound co) (m : Store) (minted : Uxid) :
    trip co carry m minted p = .refused ∨
      ∃ q, trip co carry m minted p = .back q ∧ p.Restored co.ofInt m q := by
  cases hj : carry m (m.write p) with
  | none =>
      left
      rw [trip, hj]
  | some j =>
      right
      obtain ⟨raw, hraw, hkept⟩ := raw_kept (hcarry m _ j hj)
      obtain ⟨q, hq, hres⟩ := parse_kept hp hkept minted
      refine ⟨q, ?_, hres⟩
      rw [trip, hj]
      simp only [hraw, Option.bind_some, hq]

/-- Whatever the stores do to the numbers, no reader rejects a payload: of the three ways a trip
can end this one is not there, so a payload that does not survive has come back with another
number in it. -/
theorem trips_not_rejected
    (hcarry : ∀ m j j', carry m j = some j' → Json.Kept co.ofInt m j j')
    (stops : List (Store × Uxid)) {p : WebhookPayload} (hp : p.Sound co) :
    trips co carry stops p ≠ .rejected := by
  induction stops generalizing p with
  | nil => exact nofun
  | cons stop stops ih =>
      rw [trips]
      rcases trip_sound hcarry hp stop.1 stop.2 with href | ⟨q, hq, hres⟩
      · rw [href]
        exact nofun
      · rw [hq]
        exact ih (hres.sound hp)

theorem survives_of_floats {P : PyFloat → Prop}
    (hcarry : ∀ m j j', carry m j = some j' → Json.Kept co.ofInt m j j')
    (stops : List (Store × Uxid)) (hP : ∀ x, P x → ∀ stop ∈ stops, stop.1.Keeps x)
    {p : WebhookPayload} (hp : p.Sound co) (hfloats : p.Floats P) :
    Survives co carry stops p := by
  induction stops generalizing p with
  | nil => exact .inr ⟨p, rfl, .refl p⟩
  | cons stop stops ih =>
      have hhere : ∀ x, P x → stop.1.Keeps x := fun x hx => hP x hx stop List.mem_cons_self
      have hrest : ∀ x, P x → ∀ s ∈ stops, s.1.Keeps x :=
        fun x hx s hs => hP x hx s (List.mem_cons_of_mem stop hs)
      rw [Survives, trips]
      rcases trip_sound hcarry hp stop.1 stop.2 with href | ⟨q, hq, hres⟩
      · left
        rw [href]
      · rw [hq]
        rcases ih hrest (hres.sound hp) (hres.floats hhere hfloats) with h | ⟨r, hr, hsame⟩
        · exact .inl h
        · exact .inr ⟨r, hr, (hres.same hhere hfloats).trans hsame⟩

/-- A payload that was accepted survives any number of stores, if its numbers are finite
and the column is given no extra float that it prints as an integer. -/
theorem payload_survives
    (hdate : ∀ v t, co.datetime v = some t → co.datetime (.str t.jsonText) = some t)
    (hcarry : ∀ m j j', carry m j = some j' → Json.Kept co.ofInt m j j')
    {raw : JsonObject} {minted : Uxid} {p : WebhookPayload}
    (haccepted : WebhookPayload.parse co raw minted = some p)
    (stops : List (Store × Uxid)) (hfloats : p.Floats (KeptBy stops)) :
    Survives co carry stops p :=
  survives_of_floats hcarry stops (fun _ hx => hx.2) (sound_of_parse hdate haccepted) hfloats

end

/-! ## The spelling -/

/-- Every accepted payload of finite numbers survives. -/
def PayloadSurvives (co : LaxReads) (carry : Store → Json → Option Json) : Prop :=
  ∀ (raw : JsonObject) (minted : Uxid) (p : WebhookPayload),
    WebhookPayload.parse co raw minted = some p → p.Floats (fun x => x.isFinite = true) →
      ∀ stops, Survives co carry stops p

theorem kept_mapKey {ofInt : Int → Option Rat} {m : Store} {f : Json → Json}
    (hf : ∀ v, Json.Kept ofInt m v (f v)) (name : String) (d : JsonObject) :
    Json.Kept ofInt m (.obj d) (.obj (mapKey name f d)) := by
  refine .obj (fun key => ?_) fun key v w hv hw => ?_
  · rw [lookup_mapKey]
    split
    · rw [Option.isSome_map]
    · rfl
  · rw [lookup_mapKey] at hw
    split at hw
    · rw [hv, Option.map_some, Option.some.injEq] at hw
      exact hw ▸ hf v
    · rw [hv, Option.some.injEq] at hw
      exact hw ▸ .same v

namespace Spelling

def date : Timestamp :=
  { instant := 63915992100000000
    isoformat := "2026-06-02T10:15:00+00:00"
    length_le := by decide
    iso_chars := by decide }

def uxid : Uxid := ⟨pyStr "9F2C4B7E18A3D605", by decide⟩

/-- What `1.2345678901234567e+19` is, and what it says. -/
def volume : Rat := 12345678901234567168
def volumeDigits : Int := 12345678901234567000

def co : LaxReads :=
  Sample.readsDate date fun n => some (if n = volumeDigits then volume else n)

/-- `jsonb` printing the volume. -/
def printVolume : Json → Json
  | .float (.finite q) => if q = volume then .int volumeDigits else .float (.finite q)
  | v => v

def printIndicators : Json → Json
  | .obj d => .obj (mapKey "volume" printVolume d)
  | v => v

def carry : Store → Json → Option Json
  | .stream, j => some j
  | .column, .obj d => some (.obj (mapKey "indicators" printIndicators d))
  | .column, j => some j

def position : PositionSchema := Sample.long (some (.finite 68250))

def payload (extra : JsonObject) : WebhookPayload where
  strategy := "wt_bb_atr"
  symbol := "BTCUSDT"
  timeframe := "15"
  timestamp := date
  position := position
  indicators := some (Sample.undeclared extra)
  inputs := none
  token := "shared-webhook-token"
  signalUxid := uxid

def raw (extra : JsonObject) : JsonObject :=
  [(pyStr "strategy", .str (pyStr "wt_bb_atr")), (pyStr "symbol", .str (pyStr "BTCUSDT")),
    (pyStr "timeframe", .str (pyStr "15")), (pyStr "timestamp", .str date.jsonText),
    (pyStr "signal_uxid", .str (pyStr "9f2c4b7e18a3d605")),
    (pyStr "position", .obj [(pyStr "action", .str (pyStr "LONG")),
      (pyStr "price", .float (.finite 68250))]),
    (pyStr "indicators", .obj extra), (pyStr "token", .str (pyStr "shared-webhook-token"))]

def sent : JsonObject := [(pyStr "volume", .float (.finite volume))]
def returned : JsonObject := [(pyStr "volume", .int volumeDigits)]

theorem accepted : WebhookPayload.parse co (raw sent) uxid = some (payload sent) :=
  (rfl)

theorem returned_trips :
    trips co carry [(.column, uxid)] (payload sent) = .back (payload returned) :=
  (rfl)

theorem date_again (v : Json) (t : Timestamp) (h : co.datetime v = some t) :
    co.datetime (.str t.jsonText) = some t := Sample.readsDate_again _ _ v t h

theorem volume_kept (v : Json) : Json.Kept co.ofInt .column v (printVolume v) := by
  unfold printVolume
  split
  · next q =>
      split
      · next hq =>
          rw [hq]
          exact .spelled rfl (by decide) (by decide)
      · exact .same _
  · exact .same _

theorem carry_kept (m : Store) (j j' : Json) (h : carry m j = some j') :
    Json.Kept co.ofInt m j j' := by
  unfold carry at h
  split at h
  · cases h
    exact .same _
  · next d =>
      cases h
      refine kept_mapKey (fun v => ?_) "indicators" d
      unfold printIndicators
      split
      · exact kept_mapKey volume_kept "volume" _
      · exact .same _
  · cases h
    exact .same _

theorem floats {P : PyFloat → Prop} {q : Rat} (hq : P (.finite q)) :
    (payload [(pyStr "volume", .float (.finite q))]).Floats P where
  position := by
    intro x hx
    simp only [PositionSchema.floats, payload, position, Sample.long, Option.map_none,
      Option.getD_none, List.append_nil, List.mem_cons, reduceCtorEq, List.not_mem_nil, or_false,
      Option.some.injEq] at hx
    rw [hx]
    rfl
  indicators := by
    intro v hv
    cases hv
    refine ⟨fun x hx => ?_, .obj fun key v hv => ?_⟩
    · simp [IndicatorsSchema.floats, Sample.undeclared] at hx
    · rw [Sample.undeclared, lookup_cons] at hv
      split at hv
      · cases hv
        exact .float hq
      · cases hv
  inputs := by
    intro v hv
    cases hv

end Spelling

/-- The volume is back as an integer that Python does not take for the float it was. -/
theorem not_payloadSurvives :
    (∀ m j j', Spelling.carry m j = some j' → Json.Kept Spelling.co.ofInt m j j') ∧
      ¬ PayloadSurvives Spelling.co Spelling.carry := by
  refine ⟨Spelling.carry_kept, fun h => ?_⟩
  rcases h _ _ _ Spelling.accepted (Spelling.floats rfl) [(.column, Spelling.uxid)] with
    href | ⟨q, hq, hsame⟩
  · rw [Spelling.returned_trips] at href
    cases href
  · rw [Spelling.returned_trips] at hq
    cases hq
    have hvalue := (Option.rel_some_some.1 hsame.indicators).extra
    have hget := congrFun (PyVal.obj.inj hvalue) (pyStr "volume")
    have hnum : (Spelling.volumeDigits : Rat) = Spelling.volume :=
      PyVal.num.inj (Option.some.inj hget)
    exact absurd hnum (by decide)

theorem payload_survives_small :
    Survives Spelling.co Spelling.carry
      [(.stream, Spelling.uxid), (.column, Spelling.uxid), (.column, Spelling.uxid)]
      (Spelling.payload [(pyStr "volume", .float (.finite 1500))]) := by
  have haccepted : WebhookPayload.parse Spelling.co
      (Spelling.raw [(pyStr "volume", .float (.finite 1500))]) Spelling.uxid =
      some (Spelling.payload [(pyStr "volume", .float (.finite 1500))]) := rfl
  refine payload_survives Spelling.date_again Spelling.carry_kept haccepted _
    (Spelling.floats ⟨rfl, fun stop _ => ⟨1500, rfl, fun _ => ?_⟩⟩)
  decide

end TradingBroker
