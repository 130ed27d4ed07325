import TradingBroker.Schemas.Survive
import TradingBroker.Signals.Stored
import TradingBroker.Wire.Reload

/-!
# The envelope on the wire

`publish_webhook_event` puts the text of the envelope on the stream, and
`SignalWorker._handle_one` reads the text of the message. The alert itself came as a text: what it
says under keys that the models do not declare goes through as it was read, so that all of the
envelope is of values that were read, or that pydantic made of them.

The declared fields come from pydantic and the rest from the decoder, and both have to be
`Readable`. For the rest that is `Wire.Reload`: it was read, so it can be written. For the
declared fields it is a matter of their types, and of their floats being spelled as floats
and finite, since `NaN` and the infinities are written as words that JSON does not have
but Python reads, and a `NaN` is not equal to itself. What then comes back is the same
payload by `Schemas.Survive`.
-/

namespace TradingBroker.Wire

open Security

/-- The data of the message `publish_webhook_event` publishes. -/
def publishWebhookEvent (spell : Rat → PyStr) (limit : Nat) (p : WebhookPayload) :
    Except DumpError PyStr :=
  dumps spell limit (Store.stream.write p)

/-- What `_handle_one` makes of a message's data: only the errors of a document are caught. -/
def messageData (readFloat : PyStr → PyFloat) (limit : Nat) (data : PyStr) : MessageData :=
  match loads readFloat limit data with
  | .ok envelope _ => .json envelope
  | .error _ _ => .malformed
  | _ => .unreadable

/-! ## Texts -/

theorem joined_of_scalars {s : PyStr} (h : Scalars s) : joined s = true := by
  induction s with
  | nil => rfl
  | cons c s ih =>
      obtain ⟨hc, hs⟩ := List.forall_mem_cons.1 h
      obtain ⟨hlt, hsurrogate⟩ := isScalar_iff.1 hc
      refine joined_cons_iff.2 ⟨hlt, fun hpair => hsurrogate ?_, ih hs⟩
      have hhigh := hpair.1
      simp only [isHigh, Bool.and_eq_true, decide_eq_true_eq] at hhigh
      omega

theorem joined_of_append {s t : PyStr} (h : joined (s ++ t) = true) :
    joined s = true ∧ joined t = true := by
  induction s with
  | nil => exact ⟨rfl, h⟩
  | cons c s ih =>
      obtain ⟨hc, hpair, hrest⟩ := joined_cons_iff.1 h
      obtain ⟨hs, ht⟩ := ih hrest
      refine ⟨joined_cons_iff.2 ⟨hc, fun hboth => hpair ⟨hboth.1, ?_⟩, hs⟩, ht⟩
      cases s with
      | nil => exact absurd hboth.2 Bool.false_ne_true
      | cons d s => exact hboth.2

theorem joined_pyStrip {s : PyStr} (h : joined s = true) : joined (pyStrip s) = true := by
  obtain ⟨front, hfront⟩ := List.dropWhile_suffix (l := s) isPySpace
  rw [← hfront] at h
  have hbehind := (joined_of_append h).2
  obtain ⟨back, hback⟩ :=
    List.dropWhile_suffix (l := (s.dropWhile isPySpace).reverse) isPySpace
  have hsplit : s.dropWhile isPySpace = pyStrip s ++ back.reverse := by
    rw [pyStrip, trim, ← List.reverse_append, hback, List.reverse_reverse]
  rw [hsplit] at hbehind
  exact (joined_of_append hbehind).1

theorem scalars_chars (cs : List Char) : Scalars (cs.map Char.toNat) := by
  intro c hc
  obtain ⟨d, -, rfl⟩ := List.mem_map.1 hc
  rw [isScalar_iff]
  have hvalid := d.valid
  simp only [UInt32.isValidChar, Nat.isValidChar] at hvalid
  have hval : d.toNat = d.val.toNat := rfl
  omega

theorem joined_pyStr (s : String) : joined (pyStr s) = true :=
  joined_of_scalars (scalars_chars s.toList)

theorem joined_jsonText (t : Timestamp) : joined t.jsonText = true := by
  rw [Timestamp.jsonText]
  split
  · exact joined_of_scalars (scalars_chars _)
  · exact joined_of_scalars (scalars_chars _)

theorem joined_uxid (u : Uxid) : joined u.1 = true := by
  obtain ⟨s, hs⟩ := u
  refine joined_of_scalars fun c hc => ?_
  simp only [isValidUxid, Bool.and_eq_true, List.all_eq_true] at hs
  have hhex := hs.2 c hc
  simp only [isUpperHex, Bool.or_eq_true, Bool.and_eq_true, decide_eq_true_eq] at hhex
  rw [isScalar_iff]
  omega

/-! ## The dump of a payload -/

theorem keys_dumpFields : ∀ kvs : List (PyStr × Json),
    kvs.map Prod.fst = (Json.dumpFields kvs).map Prod.fst
  | [] => rfl
  | (key, _) :: kvs => congrArg (key :: ·) (keys_dumpFields kvs)

section
variable {readFloat : PyStr → PyFloat} {spell : Rat → PyStr}

theorem readableItems_iff {kvs : List (PyStr × Json)} :
    ReadableItems readFloat spell kvs ↔
      ∀ kv ∈ kvs, joined kv.1 = true ∧ Readable readFloat spell kv.2 := by
  induction kvs with
  | nil => simp [ReadableItems]
  | cons kv kvs ih =>
      obtain ⟨key, v⟩ := kv
      rw [ReadableItems, ih, List.forall_mem_cons]
      exact and_assoc.symm

theorem readable_obj {kvs : JsonObject} :
    Readable readFloat spell (.obj kvs) ↔
      (kvs.map Prod.fst).Nodup ∧
        ∀ kv ∈ kvs, joined kv.1 = true ∧ Readable readFloat spell kv.2 := by
  rw [Readable, readableItems_iff]

theorem readable_dumpStr (s : String) : Readable readFloat spell (dumpStr s) := by
  rw [dumpStr, Readable]
  exact joined_pyStr s

theorem readable_dumpOpt {α : Type} {f : α → Json} {x : Option α}
    (h : ∀ a ∈ x, Readable readFloat spell (f a)) : Readable readFloat spell (dumpOpt f x) := by
  cases x with
  | none => exact trivial
  | some a => exact h a rfl

/-- A float of the payload is spelled as one, if it is a number. -/
def SpelledAs (readFloat : PyStr → PyFloat) (spell : Rat → PyStr) (x : Option PyFloat) : Prop :=
  ∀ q, x = some (.finite q) → Spelled readFloat spell q

theorem readable_float {x : Option PyFloat} (h : SpelledAs readFloat spell x) :
    Readable readFloat spell (dumpOpt PyFloat.dump x) := by
  refine readable_dumpOpt ?_
  rintro a rfl
  cases a with
  | finite q =>
      rw [PyFloat.dump, Readable]
      exact h q rfl
  | nan => exact trivial
  | posInf => exact trivial
  | negInf => exact trivial

theorem readable_bool (x : Option Bool) : Readable readFloat spell (dumpOpt Json.bool x) :=
  readable_dumpOpt fun _ _ => trivial

theorem readable_int (x : Option Int) : Readable readFloat spell (dumpOpt Json.int x) :=
  readable_dumpOpt fun _ _ => trivial

theorem readable_str (x : Option String) : Readable readFloat spell (dumpOpt dumpStr x) :=
  readable_dumpOpt fun s _ => readable_dumpStr s

theorem readable_strs (x : Option (List String)) :
    Readable readFloat spell (dumpOpt (fun ws => Json.arr (ws.map dumpStr)) x) := by
  have hlist : ∀ ws : List String, ReadableList readFloat spell (ws.map dumpStr) := by
    intro ws
    induction ws with
    | nil => exact trivial
    | cons w ws ih => exact ⟨readable_dumpStr w, ih⟩
  exact readable_dumpOpt fun ws _ => hlist ws

mutual

/-- What is not a number is a `null` in the dump, and the rest is as it was. -/
theorem readable_dump : ∀ v : Json, Readable readFloat spell v →
    Readable readFloat spell v.dump
  | .null, _ => trivial
  | .bool _, _ => trivial
  | .int _, _ => trivial
  | .float (.finite _), h => h
  | .float .nan, _ => trivial
  | .float .posInf, _ => trivial
  | .float .negInf, _ => trivial
  | .str _, h => h
  | .arr xs, h => by
      rw [Readable] at h
      rw [Json.dump, Readable]
      exact readable_dumpList xs h
  | .obj kvs, h => by
      rw [Readable] at h
      rw [Json.dump, Readable]
      exact ⟨keys_dumpFields kvs ▸ h.1, readable_dumpFields kvs h.2⟩

theorem readable_dumpList : ∀ xs : List Json, ReadableList readFloat spell xs →
    ReadableList readFloat spell (Json.dumpList xs)
  | [], _ => trivial
  | x :: xs, h => ⟨readable_dump x h.1, readable_dumpList xs h.2⟩

theorem readable_dumpFields : ∀ kvs : List (PyStr × Json), ReadableItems readFloat spell kvs →
    ReadableItems readFloat spell (Json.dumpFields kvs)
  | [], _ => trivial
  | (_, v) :: kvs, h => ⟨h.1, readable_dump v h.2.1, readable_dumpFields kvs h.2.2⟩

end

theorem readable_scaling {v : ScalingSchema}
    (h : ∀ x ∈ v.floats, SpelledAs readFloat spell x) : Readable readFloat spell v.dump := by
  have hkeys : (["tp", "sl", "quantity"].map pyStr).Nodup := by decide
  rw [ScalingSchema.dump, readable_obj]
  refine ⟨hkeys, ?_⟩
  simp only [ScalingSchema.floats, List.forall_mem_cons] at h
  simp only [List.forall_mem_cons, joined_pyStr, true_and, readable_float, h]
  exact List.forall_mem_nil _

theorem readable_position {v : PositionSchema}
    (h : ∀ x ∈ v.floats, SpelledAs readFloat spell x) : Readable readFloat spell v.dump := by
  have hscaling : Readable readFloat spell (dumpOpt ScalingSchema.dump v.scaling) := by
    refine readable_dumpOpt fun s hs => readable_scaling fun x hx => h x ?_
    rw [PositionSchema.floats, Option.mem_def.1 hs]
    exact List.mem_append_right _ hx
  have hkeys : (["action", "price", "quantity", "sl", "tp1", "tp2", "risk_percent",
      "tp1_percent", "use_equity_sizing", "move_sl_to_be", "is_running", "is_scale_position",
      "scale_strategy", "scaling"].map pyStr).Nodup := by decide
  rw [PositionSchema.dump, readable_obj]
  refine ⟨hkeys, ?_⟩
  simp only [PositionSchema.floats, List.forall_mem_append, List.forall_mem_cons] at h
  simp only [List.forall_mem_cons, joined_pyStr, true_and, readable_float, h, readable_dumpStr,
    readable_bool, readable_str, hscaling]
  exact List.forall_mem_nil _

/-- The keys a model declares, and the others behind them. -/
theorem readable_extra {declared : List String} {items extra : JsonObject}
    (hnames : items.map Prod.fst = declared.map pyStr) (hnodup : (declared.map pyStr).Nodup)
    (hitems : ∀ kv ∈ items, Readable readFloat spell kv.2)
    (hextra : Readable readFloat spell (.obj extra))
    (hundeclared : readExtra declared extra = some extra) :
    Readable readFloat spell (.obj (items ++ Json.dumpFields extra)) := by
  rw [Readable] at hextra
  have hfields := readableItems_iff.1 (readable_dumpFields extra hextra.2)
  rw [readable_obj, List.map_append, ← keys_dumpFields, hnames, List.forall_mem_append]
  refine ⟨List.nodup_append.2 ⟨hnodup, hextra.1, ?_⟩, fun kv hkv => ⟨?_, hitems kv hkv⟩, hfields⟩
  · rintro name hname key hkey rfl
    obtain ⟨kv, hkv, rfl⟩ := List.mem_map.1 hkey
    rw [(readExtra_eq_some.1 hundeclared).1, extraOf, List.mem_filter] at hkv
    obtain ⟨d, hd, heq⟩ := List.mem_map.1 hname
    have hany : (declared.any fun name => pyStr name == kv.1) = true :=
      List.any_eq_true.2 ⟨d, hd, by rw [heq]; exact beq_self_eq_true _⟩
    rw [hany] at hkv
    exact Bool.false_ne_true hkv.2
  · have hkey : kv.1 ∈ declared.map pyStr := hnames ▸ List.mem_map_of_mem hkv
    obtain ⟨name, -, hname⟩ := List.mem_map.1 hkey
    exact hname ▸ joined_pyStr name

theorem readable_indicators {v : IndicatorsSchema}
    (h : ∀ x ∈ v.floats, SpelledAs readFloat spell x)
    (hextra : Readable readFloat spell (.obj v.extra))
    (hundeclared : readExtra IndicatorsSchema.declared v.extra = some v.extra) :
    Readable readFloat spell v.dump := by
  rw [IndicatorsSchema.dump]
  refine readable_extra (by rfl) indicators_declared_nodup ?_ hextra hundeclared
  simp only [IndicatorsSchema.floats, List.forall_mem_cons] at h
  simp only [List.forall_mem_cons, readable_float, h, readable_bool, true_and]
  exact List.forall_mem_nil _

theorem readable_inputs {v : InputsSchema} (h : ∀ x ∈ v.floats, SpelledAs readFloat spell x)
    (hextra : Readable readFloat spell (.obj v.extra))
    (hundeclared : readExtra InputsSchema.declared v.extra = some v.extra) :
    Readable readFloat spell v.dump := by
  rw [InputsSchema.dump]
  refine readable_extra (by rfl) inputs_declared_nodup ?_ hextra hundeclared
  simp only [InputsSchema.floats, List.forall_mem_cons] at h
  simp only [List.forall_mem_cons, readable_float, h, readable_bool, readable_int, readable_str,
    readable_strs, true_and]
  exact List.forall_mem_nil _

/-! ## What was accepted of a text -/

/-- The floats the models declare. -/
def declaredFloats (p : WebhookPayload) : List (Option PyFloat) :=
  p.position.floats ++ (p.indicators.map IndicatorsSchema.floats).getD [] ++
    (p.inputs.map InputsSchema.floats).getD []

/-- What is kept of an object a model was read of. -/
structure KeepsExtra (readFloat : PyStr → PyFloat) (spell : Rat → PyStr) (p : WebhookPayload) :
    Prop where
  indicators : ∀ v ∈ p.indicators, Readable readFloat spell (.obj v.extra)
  inputs : ∀ v ∈ p.inputs, Readable readFloat spell (.obj v.extra)

theorem readable_payload {co : LaxReads} {p : WebhookPayload} (hp : p.Sound co)
    (hextra : KeepsExtra readFloat spell p)
    (hfloats : ∀ x ∈ declaredFloats p, SpelledAs readFloat spell x) :
    Readable readFloat spell (.obj p.dump) := by
  simp only [declaredFloats, List.forall_mem_append] at hfloats
  have hposition := readable_position hfloats.1.1
  have hindicators : Readable readFloat spell (dumpOpt IndicatorsSchema.dump p.indicators) := by
    refine readable_dumpOpt fun v hv => readable_indicators (fun x hx => hfloats.1.2 x ?_)
      (hextra.indicators v hv) (hp.indicators v hv)
    rw [Option.mem_def.1 hv]
    exact hx
  have hinputs : Readable readFloat spell (dumpOpt InputsSchema.dump p.inputs) := by
    refine readable_dumpOpt fun v hv => readable_inputs (fun x hx => hfloats.2 x ?_)
      (hextra.inputs v hv) (hp.inputs v hv)
    rw [Option.mem_def.1 hv]
    exact hx
  have hdate : Readable readFloat spell (.str p.timestamp.jsonText) := by
    rw [Readable]
    exact joined_jsonText _
  have huxid : Readable readFloat spell (.str p.signalUxid.1) := by
    rw [Readable]
    exact joined_uxid _
  rw [WebhookPayload.dump, readable_obj]
  refine ⟨payload_keys_nodup, ?_⟩
  simp only [List.forall_mem_cons, joined_pyStr, true_and, readable_dumpStr, hposition,
    hindicators, hinputs, hdate, huxid]
  exact List.forall_mem_nil _

/-- What is taken out of an object, and what is left of it, was read as well. -/
theorem readable_get? {d : JsonObject} {name : String} {v : Json}
    (hd : Readable readFloat spell (.obj d)) (h : d.get? name = some v) :
    Readable readFloat spell v := by
  obtain ⟨kv, hkv, rfl⟩ := Option.map_eq_some_iff.1 h
  exact ((readable_obj.1 hd).2 kv (List.mem_of_find?_eq_some hkv)).2

theorem readable_extraOf {d : JsonObject} (hd : Readable readFloat spell (.obj d))
    (declared : List String) : Readable readFloat spell (.obj (extraOf declared d)) := by
  obtain ⟨hkeys, hall⟩ := readable_obj.1 hd
  refine readable_obj.2 ⟨hkeys.sublist (List.filter_sublist.map _), fun kv hkv => ?_⟩
  exact hall kv (List.mem_of_mem_filter hkv)

theorem readable_mapKey {f : Json → Json} {d : JsonObject} (name : String)
    (hf : ∀ v, Readable readFloat spell v → Readable readFloat spell (f v))
    (hd : Readable readFloat spell (.obj d)) :
    Readable readFloat spell (.obj (mapKey name f d)) := by
  obtain ⟨hkeys, hall⟩ := readable_obj.1 hd
  have hsame : (mapKey name f d).map Prod.fst = d.map Prod.fst := by
    rw [mapKey, List.map_map]
    refine List.map_congr_left fun kv _ => ?_
    show (if kv.1 == pyStr name then (kv.1, f kv.2) else kv).1 = kv.1
    split <;> rfl
  refine readable_obj.2 ⟨hsame ▸ hkeys, fun kv hkv => ?_⟩
  obtain ⟨kv', hkv', rfl⟩ := List.mem_map.1 hkv
  obtain ⟨hkey, hv⟩ := hall kv' hkv'
  show joined (if kv'.1 == pyStr name then (kv'.1, f kv'.2) else kv').1 = true ∧
    Readable readFloat spell (if kv'.1 == pyStr name then (kv'.1, f kv'.2) else kv').2
  split
  · exact ⟨hkey, hf _ hv⟩
  · exact ⟨hkey, hv⟩

theorem readable_coerceSkipWindows {v : Json} (h : Readable readFloat spell v) :
    Readable readFloat spell (coerceSkipWindows v) := by
  cases v with
  | str s =>
      rw [Readable] at h
      simp only [coerceSkipWindows]
      split
      · exact trivial
      · exact ⟨joined_pyStrip h, trivial⟩
  | _ => exact h

theorem readable_beforeCoercion {raw : JsonObject} (h : Readable readFloat spell (.obj raw)) :
    Readable readFloat spell (.obj (beforeCoercion raw)) := by
  refine readable_mapKey "inputs" (fun v hv => ?_) h
  cases v with
  | obj kvs => exact readable_mapKey "skip_windows" (fun _ => readable_coerceSkipWindows) hv
  | _ => exact hv

theorem indicators_extra {co : LaxReads} {d : JsonObject} :
    ∀ v, IndicatorsSchema.ofFields co d = some v →
      v.extra = extraOf IndicatorsSchema.declared d := by
  rw [IndicatorsSchema.ofFields]
  iterate 13 refine of_bind fun _ _ => ?_
  refine of_bind fun extra hextra => ?_
  intro v hv
  cases hv
  exact (readExtra_eq_some.1 hextra).1

theorem inputs_extra {co : LaxReads} {d : JsonObject} :
    ∀ v, InputsSchema.ofFields co d = some v → v.extra = extraOf InputsSchema.declared d := by
  rw [InputsSchema.ofFields]
  iterate 22 refine of_bind fun _ _ => ?_
  refine of_bind fun extra hextra => ?_
  intro v hv
  cases hv
  exact (readExtra_eq_some.1 hextra).1

/-- A model that was read of a field was read of the object in it. -/
theorem readModel_of_field {α : Type} {ofFields : JsonObject → Option α} {d : JsonObject}
    {name : String} {x : Option α} (hd : Readable readFloat spell (.obj d))
    (h : optionalField (readModel ofFields) d name = some x) :
    ∀ v ∈ x, ∃ e, Readable readFloat spell (.obj e) ∧ ofFields e = some v := by
  rintro v rfl
  rw [optionalField] at h
  split at h
  · cases h
  · cases h
  · next j _ hj =>
      obtain ⟨w, hw, heq⟩ := Option.map_eq_some_iff.1 h
      cases heq
      cases j with
      | obj e => exact ⟨e, readable_get? hd hj, hw⟩
      | _ => cases hw

theorem keepsExtra_of_parse {co : LaxReads} {raw : JsonObject} {minted : Uxid}
    {p : WebhookPayload} (hraw : Readable readFloat spell (.obj raw))
    (h : WebhookPayload.parse co raw minted = some p) : KeepsExtra readFloat spell p := by
  have hbefore := readable_beforeCoercion hraw
  have hbody : ∀ b, WebhookBody.ofFields co (beforeCoercion raw) = some b →
      (∀ v ∈ b.indicators, Readable readFloat spell (.obj v.extra)) ∧
        ∀ v ∈ b.inputs, Readable readFloat spell (.obj v.extra) := by
    rw [WebhookBody.ofFields]
    iterate 5 refine of_bind fun _ _ => ?_
    refine of_bind fun indicators hindicators => ?_
    refine of_bind fun inputs hinputs => ?_
    refine of_bind fun _ _ => ?_
    intro b hb
    cases hb
    refine ⟨fun v hv => ?_, fun v hv => ?_⟩
    · obtain ⟨e, he, hread⟩ := readModel_of_field hbefore hindicators v hv
      rw [indicators_extra v hread]
      exact readable_extraOf he _
    · obtain ⟨e, he, hread⟩ := readModel_of_field hbefore hinputs v hv
      rw [inputs_extra v hread]
      exact readable_extraOf he _
  rw [WebhookPayload.parse, WebhookPayload.validate] at h
  split at h
  · next b u hb hu =>
      cases h
      obtain ⟨hind, hin⟩ := hbody b hb
      exact ⟨hind, hin⟩
  · cases h

/-- What a body's text says arrives: whatever `publish_webhook_event` published of an alert that
was accepted, `_handle_one` reads the envelope of it, and the payload in it is the one that was
published. -/
theorem envelope_arrives {co : LaxReads}
    (hspell : ∀ t q, readFloat t = .finite q → Spelled readFloat spell q)
    (hdate : ∀ v t, co.datetime v = some t → co.datetime (.str t.jsonText) = some t)
    {limit : Nat} {body rest : PyStr} {raw : JsonObject} {minted : Uxid} {p : WebhookPayload}
    (hbody : Scalars body) (hloads : loads readFloat limit body = .ok (.obj raw) rest)
    (haccepted : WebhookPayload.parse co raw minted = some p)
    (hfinite : p.Floats (fun x => x.isFinite = true))
    (hdeclared : ∀ x ∈ declaredFloats p, SpelledAs readFloat spell x)
    {limit' : Nat} {data : PyStr} (hpublished : publishWebhookEvent spell limit' p = .ok data)
    {limit'' : Nat} (hlimit : limit' ≤ limit'') (minted' : Uxid) :
    Ascii data ∧ messageData readFloat limit'' data = .json (Store.stream.write p) ∧
      ∃ q, (rawPayload (Store.stream.write p)).bind
        (fun raw => WebhookPayload.parse co raw minted') = some q ∧ p.Same q := by
  have hp := sound_of_parse hdate haccepted
  have hraw := (written_of_loads hspell hbody hloads).1
  have hdump := readable_payload hp (keepsExtra_of_parse hraw haccepted) hdeclared
  have henvelope : Readable readFloat spell (Store.stream.write p) := by
    rw [Store.write, readable_obj]
    refine ⟨List.nodup_singleton _, ?_⟩
    simp only [List.forall_mem_cons, joined_pyStr, hdump, and_self, true_and]
    exact List.forall_mem_nil _
  have hread := loads_dumps henvelope hpublished hlimit
  have hsame : Json.Kept co.ofInt .stream (.obj p.dump) (.obj p.dump) := .same _
  obtain ⟨q, hq, hrestored⟩ := parse_kept hp hsame minted'
  have hkeeps : ∀ x : PyFloat, x.isFinite = true → Store.stream.Keeps x := by
    intro x hx
    cases x with
    | finite r => exact ⟨r, rfl, nofun⟩
    | _ => cases hx
  refine ⟨ascii_dumps _ henvelope hpublished, ?_, q, ?_, hrestored.same hkeeps hfinite⟩
  · rw [messageData, hread]
  · exact hq

namespace Arriving

def date : Timestamp :=
  { instant := 63915992160000000
    isoformat := "2026-06-02T10:16:00+00:00"
    length_le := by decide
    iso_chars := by decide }

def uxid : Uxid := ⟨pyStr "51C0FE7E18A3D6B2", by decide⟩

def co : LaxReads := Sample.readsDate date fun n => some n

/-- An alert that leaves its cycle to the broker, with a key no model declares under its
`indicators`. -/
def body : PyStr :=
  [0x7b, 0x22, 0x73, 0x74, 0x72, 0x61, 0x74, 0x65, 0x67, 0x79, 0x22, 0x3a, 0x22, 0x77, 0x74,
   0x22, 0x2c, 0x22, 0x73, 0x79, 0x6d, 0x62, 0x6f, 0x6c, 0x22, 0x3a, 0x22, 0x42, 0x54, 0x43,
   0x22, 0x2c, 0x22, 0x74, 0x69, 0x6d, 0x65, 0x66, 0x72, 0x61, 0x6d, 0x65, 0x22, 0x3a, 0x22,
   0x31, 0x35, 0x22, 0x2c, 0x22, 0x74, 0x69, 0x6d, 0x65, 0x73, 0x74, 0x61, 0x6d, 0x70, 0x22,
   0x3a, 0x22, 0x32, 0x30, 0x32, 0x36, 0x2d, 0x30, 0x36, 0x2d, 0x30, 0x32, 0x54, 0x31, 0x30,
   0x3a, 0x31, 0x36, 0x3a, 0x30, 0x30, 0x5a, 0x22, 0x2c, 0x22, 0x70, 0x6f, 0x73, 0x69, 0x74,
   0x69, 0x6f, 0x6e, 0x22, 0x3a, 0x7b, 0x22, 0x61, 0x63, 0x74, 0x69, 0x6f, 0x6e, 0x22, 0x3a,
   0x22, 0x4c, 0x4f, 0x4e, 0x47, 0x22, 0x2c, 0x22, 0x70, 0x72, 0x69, 0x63, 0x65, 0x22, 0x3a,
   0x31, 0x2e, 0x35, 0x7d, 0x2c, 0x22, 0x69, 0x6e, 0x64, 0x69, 0x63, 0x61, 0x74, 0x6f, 0x72,
   0x73, 0x22, 0x3a, 0x7b, 0x22, 0x61, 0x22, 0x3a, 0x5b, 0x22, 0x5c, 0x75, 0x64, 0x38, 0x33,
   0x64, 0x5c, 0x75, 0x64, 0x65, 0x30, 0x30, 0x22, 0x2c, 0x31, 0x5d, 0x7d, 0x2c, 0x22, 0x74,
   0x6f, 0x6b, 0x65, 0x6e, 0x22, 0x3a, 0x22, 0x74, 0x22, 0x7d]

def raw : JsonObject :=
  [(pyStr "strategy", .str (pyStr "wt")), (pyStr "symbol", .str (pyStr "BTC")),
    (pyStr "timeframe", .str (pyStr "15")), (pyStr "timestamp", .str date.jsonText),
    (pyStr "position", .obj [(pyStr "action", .str (pyStr "LONG")),
      (pyStr "price", .float (.finite (3 / 2)))]),
    (pyStr "indicators", .obj [([0x61], .arr [.str [0x1f600], .int 1])]),
    (pyStr "token", .str (pyStr "t"))]

def extra : JsonObject := [([0x61], .arr [.str [0x1f600], .int 1])]

def payload : WebhookPayload where
  strategy := "wt"
  symbol := "BTC"
  timeframe := "15"
  timestamp := date
  position := Sample.long (some (.finite (3 / 2)))
  indicators := some (Sample.undeclared extra)
  inputs := none
  token := "t"
  signalUxid := uxid

set_option maxRecDepth 4000 in
theorem loaded : loads Sample.readFloat 3 body = .ok (.obj raw) [] := (rfl)

theorem accepted : WebhookPayload.parse co raw uxid = some payload := (rfl)

set_option maxRecDepth 4000 in
theorem all_scalar : body.all isScalar = true := (rfl)

theorem scalars : Scalars body := List.all_eq_true.1 all_scalar

theorem isOk_published : (publishWebhookEvent Sample.spell 5 payload).isOk = true := (rfl)

theorem published : ∃ data, publishWebhookEvent Sample.spell 5 payload = .ok data := by
  cases h : publishWebhookEvent Sample.spell 5 payload with
  | ok data => exact ⟨data, rfl⟩
  | error e => exact absurd isOk_published (by rw [h]; exact Bool.false_ne_true)

theorem date_again (v : Json) (t : Timestamp) (h : co.datetime v = some t) :
    co.datetime (.str t.jsonText) = some t := Sample.readsDate_again _ _ v t h

theorem finite : payload.Floats fun x => x.isFinite = true where
  position := by
    intro x hx
    simp only [PositionSchema.floats, payload, Sample.long, Option.map_none, Option.getD_none,
      List.append_nil, List.mem_cons, reduceCtorEq, List.not_mem_nil, or_false,
      Option.some.injEq] at hx
    rw [hx]
    rfl
  indicators := by
    intro v hv
    cases hv
    refine ⟨fun x hx => ?_, .obj fun key v hv => ?_⟩
    · simp [IndicatorsSchema.floats, Sample.undeclared] at hx
    · rw [Sample.undeclared, extra, lookup_cons] at hv
      split at hv
      · rw [Option.some.injEq] at hv
        rw [← hv]
        refine .arr fun x hx => ?_
        rcases List.mem_cons.1 hx with rfl | hx
        · exact .str _
        · rw [List.mem_singleton.1 hx]
          exact .int 1
      · cases hv
  inputs := by
    intro v hv
    cases hv

theorem spelled : ∀ x ∈ declaredFloats payload, SpelledAs Sample.readFloat Sample.spell x := by
  intro x hx q hq
  rw [hq] at hx
  have hvalue : q = 3 / 2 := by
    simpa [declaredFloats, payload, Sample.long, Sample.undeclared, PositionSchema.floats,
      IndicatorsSchema.floats] using hx
  rw [hvalue]
  exact Sample.spelled Sample.half _ (by rw [Sample.readFloat, if_pos rfl])

end Arriving

theorem envelope_arrives_sample :
    ∃ data, publishWebhookEvent Sample.spell 5 Arriving.payload = .ok data ∧ Ascii data ∧
      messageData Sample.readFloat 5 data = .json (Store.stream.write Arriving.payload) ∧
      ∃ q, (rawPayload (Store.stream.write Arriving.payload)).bind
        (fun raw => WebhookPayload.parse Arriving.co raw Arriving.uxid) = some q ∧
          Arriving.payload.Same q := by
  obtain ⟨data, hdata⟩ := Arriving.published
  exact ⟨data, hdata, envelope_arrives Sample.spelled Arriving.date_again
    Arriving.scalars Arriving.loaded Arriving.accepted
    Arriving.finite Arriving.spelled hdata (Nat.le_refl 5) Arriving.uxid⟩

end

end TradingBroker.Wire
