import TradingBroker.Schemas.RoundTrip

/-!
# A payload through any number of stores

`SignalProcessingService.enqueue` writes the payload into the envelope that `SignalWorker`
parses, and `log_signal` writes it into `row.raw`, which `retry_signal` and the handshake's
replay parse. Two payloads are equal when Python says so: field by field, and key by key in
the extra ones, where neither the order of the keys nor the spelling of a number counts.
The declared fields are equal after every trip. The extra ones are as long as the column
has no float to spell differently.

One trip is enough, by induction: what comes back is again a payload that was accepted
(`Sound`), to which the next trip applies. For the extra keys it is Python's equality that
has to be carried through a store, and `Json.value` is what it compares: an `int` and a
float of one value are equal, and so a number that comes back in the other spelling
matters only where the float was not the number its digits say.
-/

namespace TradingBroker

/-! ## Equality -/

/-- What a JSON value is to `==`: a number whatever its type, a `dict` by its items. -/
inductive PyVal where
  | null
  | bool (b : Bool)
  | num (q : Rat)
  | notNumber (x : PyFloat)
  | str (s : PyStr)
  | arr (xs : List PyVal)
  | obj (get : PyStr → Option PyVal)

mutual

def Json.value : Json → PyVal
  | .null => .null
  | .bool b => .bool b
  | .int n => .num n
  | .float (.finite q) => .num q
  | .float x => .notNumber x
  | .str s => .str s
  | .arr xs => .arr (Json.valueList xs)
  | .obj d => .obj (Json.valueFields d)

def Json.valueList : List Json → List PyVal
  | [] => []
  | x :: xs => x.value :: Json.valueList xs

def Json.valueFields : List (PyStr × Json) → PyStr → Option PyVal
  | [], _ => none
  | (k, v) :: d, key => if k = key then some v.value else Json.valueFields d key

end

theorem valueList_eq_map (xs : List Json) : Json.valueList xs = xs.map Json.value := by
  induction xs with
  | nil => rfl
  | cons x xs ih => rw [Json.valueList, ih, List.map_cons]

theorem valueFields_eq_lookup (d : JsonObject) (key : PyStr) :
    Json.valueFields d key = (d.lookup key).map Json.value := by
  induction d with
  | nil => rfl
  | cons kv d ih =>
      rw [Json.valueFields, lookup_cons, ih]
      split <;> rfl

structure IndicatorsSchema.Same (v w : IndicatorsSchema) : Prop where
  fields : { w with extra := [] } = { v with extra := [] }
  extra : (Json.obj w.extra).value = (Json.obj v.extra).value

structure InputsSchema.Same (v w : InputsSchema) : Prop where
  fields : { w with extra := [] } = { v with extra := [] }
  extra : (Json.obj w.extra).value = (Json.obj v.extra).value

structure WebhookPayload.Same (p q : WebhookPayload) : Prop where
  fields : { q with indicators := none, inputs := none } =
    { p with indicators := none, inputs := none }
  indicators : Option.Rel IndicatorsSchema.Same p.indicators q.indicators
  inputs : Option.Rel InputsSchema.Same p.inputs q.inputs

theorem rel_refl {α : Type} {R : α → α → Prop} (h : ∀ a, R a a) (x : Option α) :
    Option.Rel R x x := by
  cases x with
  | none => exact .none
  | some a => exact .some (h a)

theorem rel_trans {α : Type} {R : α → α → Prop} (h : ∀ {a b c}, R a b → R b c → R a c)
    {x y z : Option α} (hxy : Option.Rel R x y) (hyz : Option.Rel R y z) :
    Option.Rel R x z := by
  cases hxy with
  | none => exact hyz
  | some hab =>
      cases hyz with
      | some hbc => exact .some (h hab hbc)

theorem WebhookPayload.Same.refl (p : WebhookPayload) : p.Same p :=
  { fields := rfl
    indicators := rel_refl (fun _ => ⟨rfl, rfl⟩) _
    inputs := rel_refl (fun _ => ⟨rfl, rfl⟩) _ }

theorem WebhookPayload.Same.trans {p q r : WebhookPayload} (h : p.Same q) (h' : q.Same r) :
    p.Same r :=
  { fields := h'.fields.trans h.fields
    indicators := rel_trans
      (fun h h' => ⟨h'.fields.trans h.fields, h'.extra.trans h.extra⟩) h.indicators h'.indicators
    inputs := rel_trans
      (fun h h' => ⟨h'.fields.trans h.fields, h'.extra.trans h.extra⟩) h.inputs h'.inputs }

/-! ## Numbers -/

/-- Every float in the value is one of those `P` describes. -/
inductive Json.Floats (P : PyFloat → Prop) : Json → Prop
  | null : Floats P .null
  | bool (b : Bool) : Floats P (.bool b)
  | int (n : Int) : Floats P (.int n)
  | float {x : PyFloat} (h : P x) : Floats P (.float x)
  | str (s : PyStr) : Floats P (.str s)
  | arr {xs : List Json} (h : ∀ x ∈ xs, Floats P x) : Floats P (.arr xs)
  | obj {d : JsonObject} (h : ∀ key v, d.lookup key = some v → Floats P v) :
      Floats P (.obj d)

/-- A float the store gives back as a float. -/
def Store.Keeps (m : Store) (x : PyFloat) : Prop :=
  ∃ q, x = .finite q ∧ (m = .column → isHuge q = false)

theorem dumpList_eq_map (xs : List Json) : Json.dumpList xs = xs.map Json.dump := by
  induction xs with
  | nil => rfl
  | cons x xs ih => rw [Json.dumpList, ih, List.map_cons]

theorem Json.Kept.arr_inv {ofInt : Int → Option Rat} {m : Store} {xs : List Json} {j : Json}
    (h : Json.Kept ofInt m (.arr xs) j) :
    ∃ ys, j = .arr ys ∧ xs.length = ys.length ∧
      ∀ (i : Nat) (x y : Json), xs[i]? = some x → ys[i]? = some y → Json.Kept ofInt m x y := by
  cases h with
  | same =>
      refine ⟨xs, rfl, rfl, fun i x y hx hy => ?_⟩
      rw [hx, Option.some.injEq] at hy
      exact hy ▸ .same x
  | arr hlen hkept => exact ⟨_, rfl, hlen, hkept⟩

/-- Two lists are equal, and the second of floats as `P` says, if that holds of their elements. -/
theorem Json.Floats.arr_alike {P : PyFloat → Prop} {xs ys : List Json}
    (hlen : xs.length = ys.length) (hy : ∀ (i : Nat) (y : Json), ys[i]? = some y →
      ∃ x : Json, xs[i]? = some x ∧ y.value = x.value ∧ Json.Floats P y) :
    (Json.arr ys).value = (Json.arr xs).value ∧ Json.Floats P (.arr ys) := by
  refine ⟨?_, .arr fun y hmem => ?_⟩
  · rw [Json.value, Json.value, valueList_eq_map, valueList_eq_map]
    refine congrArg PyVal.arr (List.ext_getElem? fun i => ?_)
    rw [List.getElem?_map, List.getElem?_map]
    cases hi : ys[i]? with
    | none =>
        rw [List.getElem?_eq_none_iff] at hi
        rw [List.getElem?_eq_none_iff.2 (by omega)]
    | some y =>
        obtain ⟨x, hx, hval, -⟩ := hy i y hi
        rw [hx, Option.map_some, Option.map_some, hval]
  · obtain ⟨i, hi⟩ := List.getElem?_of_mem hmem
    obtain ⟨_, -, -, hfloats⟩ := hy i y hi
    exact hfloats

/-- The same of two objects with the same keys. -/
theorem Json.Floats.obj_alike {P : PyFloat → Prop} {d e : JsonObject}
    (hkeys : ∀ key, (d.lookup key).isSome = (e.lookup key).isSome)
    (hw : ∀ key u, e.lookup key = some u →
      ∃ v : Json, d.lookup key = some v ∧ u.value = v.value ∧ Json.Floats P u) :
    (Json.obj e).value = (Json.obj d).value ∧ Json.Floats P (.obj e) := by
  refine ⟨?_, .obj fun key u hu => ?_⟩
  · rw [Json.value, Json.value]
    refine congrArg PyVal.obj (funext fun key => ?_)
    rw [valueFields_eq_lookup, valueFields_eq_lookup]
    cases hu : e.lookup key with
    | none =>
        have hnone := hkeys key
        rw [hu, Option.isSome_none] at hnone
        rw [Option.isNone_iff_eq_none.1 (Option.isSome_eq_false_iff.1 hnone)]
    | some u =>
        obtain ⟨v, hv, hval, -⟩ := hw key u hu
        rw [hv, Option.map_some, Option.map_some, hval]
  · obtain ⟨_, -, -, hfloats⟩ := hw key u hu
    exact hfloats

/-- Where a store has nothing to spell differently, what it gives back is equal, and has
nothing to spell differently either. -/
theorem Json.Floats.kept {ofInt : Int → Option Rat} {m : Store} {P : PyFloat → Prop}
    (hP : ∀ x, P x → m.Keeps x) {v : Json} (hv : Json.Floats P v) :
    ∀ {w : Json}, Json.Kept ofInt m v.dump w → w.value = v.value ∧ Json.Floats P w := by
  induction hv with
  | null =>
      intro w h
      rw [h.null]
      exact ⟨rfl, .null⟩
  | bool b =>
      intro w h
      rw [h.bool]
      exact ⟨rfl, .bool b⟩
  | int n =>
      intro w h
      rw [h.int]
      exact ⟨rfl, .int n⟩
  | str s =>
      intro w h
      rw [h.str]
      exact ⟨rfl, .str s⟩
  | float hx =>
      intro w h
      obtain ⟨q, rfl, hq⟩ := hP _ hx
      rw [Json.dump, PyFloat.dump] at h
      cases h with
      | same => exact ⟨rfl, .float hx⟩
      | spelled hm hhuge _ =>
          rw [hq hm] at hhuge
          cases hhuge
  | arr hxs ih =>
      next xs =>
      intro w h
      rw [Json.dump, dumpList_eq_map] at h
      obtain ⟨ys, rfl, hlen, hkept⟩ := h.arr_inv
      rw [List.length_map] at hlen
      refine Json.Floats.arr_alike hlen fun i y hiy => ?_
      obtain ⟨hlt, -⟩ := List.getElem?_eq_some_iff.1 hiy
      have hix : xs[i]? = some xs[i] := List.getElem?_eq_getElem (hlen ▸ hlt)
      exact ⟨_, hix, ih _ (List.mem_of_getElem? hix)
        (hkept i _ y (by rw [List.getElem?_map, hix, Option.map_some]) hiy)⟩
  | obj hd ih =>
      next d =>
      intro w h
      rw [Json.dump] at h
      obtain ⟨e, rfl, hkeys, hkept⟩ := h.obj_inv
      have hsome : ∀ key, (d.lookup key).isSome = (e.lookup key).isSome := by
        intro key
        rw [← hkeys, lookup_dumpFields, Option.isSome_map]
      refine Json.Floats.obj_alike hsome fun key u hu => ?_
      have hsv := hsome key
      rw [hu, Option.isSome_some] at hsv
      obtain ⟨v, hv⟩ := Option.isSome_iff_exists.1 hsv
      exact ⟨v, hv, ih key v hv
        (hkept key _ u (by rw [lookup_dumpFields, hv, Option.map_some]) hu)⟩

/-! ## The numbers of a payload -/

def ScalingSchema.floats (s : ScalingSchema) : List (Option PyFloat) :=
  [s.tp, s.sl, s.quantity]

def PositionSchema.floats (p : PositionSchema) : List (Option PyFloat) :=
  [p.price, p.quantity, p.sl, p.tp1, p.tp2, p.riskPercent, p.tp1Percent] ++
    (p.scaling.map ScalingSchema.floats).getD []

def IndicatorsSchema.floats (v : IndicatorsSchema) : List (Option PyFloat) :=
  [v.wt1, v.wt2, v.close, v.upper, v.lower, v.basis, v.ema200Visual, v.ema200Filter, v.atrVal]

def InputsSchema.floats (v : InputsSchema) : List (Option PyFloat) :=
  [v.bbMult, v.atrSlMult, v.minRrRatio, v.riskPercent, v.tp1QtyPc, v.volSpikeMult]

def AllFinite (xs : List (Option PyFloat)) : Prop := ∀ x, some x ∈ xs → x.isFinite = true

/-- The declared floats are numbers, and those under extra keys are as `P` says. -/
structure WebhookPayload.Floats (P : PyFloat → Prop) (p : WebhookPayload) : Prop where
  position : AllFinite p.position.floats
  indicators : ∀ v ∈ p.indicators, AllFinite v.floats ∧ Json.Floats P (.obj v.extra)
  inputs : ∀ v ∈ p.inputs, AllFinite v.floats ∧ Json.Floats P (.obj v.extra)

theorem AllFinite.finiteOnly {xs : List (Option PyFloat)} (h : AllFinite xs)
    {x : Option PyFloat} (hx : x ∈ xs) : finiteOnly x = x := by
  cases x with
  | none => rfl
  | some x => rw [TradingBroker.finiteOnly, Option.filter_some, if_pos (h x hx)]

theorem ScalingSchema.stored_eq {s : ScalingSchema} (h : AllFinite s.floats) :
    s.stored = s := by
  have hx : ∀ x ∈ s.floats, finiteOnly x = x := fun x => h.finiteOnly
  simp only [floats, List.forall_mem_cons] at hx
  simp only [stored, hx]

theorem PositionSchema.stored_eq {p : PositionSchema} (h : AllFinite p.floats) :
    p.stored = p := by
  have hx : ∀ x ∈ p.floats, finiteOnly x = x := fun x => h.finiteOnly
  have hscaling : p.scaling.map ScalingSchema.stored = p.scaling := by
    cases hs : p.scaling with
    | none => rfl
    | some s =>
        have hfin : AllFinite s.floats := fun x hmem => h x (by simp [floats, hs, hmem])
        rw [Option.map_some, s.stored_eq hfin]
  simp only [floats, List.forall_mem_append, List.forall_mem_cons] at hx
  simp only [stored, hx, hscaling]

theorem IndicatorsSchema.stored_eq {v : IndicatorsSchema} (h : AllFinite v.floats) :
    v.stored = v := by
  have hx : ∀ x ∈ v.floats, finiteOnly x = x := fun x => h.finiteOnly
  simp only [floats, List.forall_mem_cons] at hx
  simp only [stored, hx]

theorem InputsSchema.stored_eq {v : InputsSchema} (h : AllFinite v.floats) : v.stored = v := by
  have hx : ∀ x ∈ v.floats, finiteOnly x = x := fun x => h.finiteOnly
  simp only [floats, List.forall_mem_cons] at hx
  simp only [stored, hx]

/-! ## One trip -/

section
variable {co : LaxReads} {m : Store} {P : PyFloat → Prop}

theorem IndicatorsSchema.Restored.same {v w : IndicatorsSchema} (hP : ∀ x, P x → m.Keeps x)
    (hv : AllFinite v.floats ∧ Json.Floats P (.obj v.extra)) (h : v.Restored co.ofInt m w) :
    v.Same w ∧ AllFinite w.floats ∧ Json.Floats P (.obj w.extra) := by
  obtain ⟨hvalue, hfloats⟩ := hv.2.kept hP h.extra
  have hfields := h.fields
  rw [v.stored_eq hv.1] at hfields
  have hsame := congrArg IndicatorsSchema.floats hfields
  change w.floats = v.floats at hsame
  exact ⟨⟨hfields, hvalue⟩, hsame ▸ hv.1, hfloats⟩

theorem InputsSchema.Restored.same {v w : InputsSchema} (hP : ∀ x, P x → m.Keeps x)
    (hv : AllFinite v.floats ∧ Json.Floats P (.obj v.extra)) (h : v.Restored co.ofInt m w) :
    v.Same w ∧ AllFinite w.floats ∧ Json.Floats P (.obj w.extra) := by
  obtain ⟨hvalue, hfloats⟩ := hv.2.kept hP h.extra
  have hfields := h.fields
  rw [v.stored_eq hv.1] at hfields
  have hsame := congrArg InputsSchema.floats hfields
  change w.floats = v.floats at hsame
  exact ⟨⟨hfields, hvalue⟩, hsame ▸ hv.1, hfloats⟩

/-- What relates two optional blocks gives, for the second, what it says of both. -/
theorem rel_mem {α : Type} {R : α → α → Prop} {x y : Option α} (h : Option.Rel R x y) :
    ∀ b ∈ y, ∃ a ∈ x, R a b := by
  intro b hb
  cases h with
  | none => cases hb
  | some hR =>
      cases hb
      exact ⟨_, rfl, hR⟩

theorem rel_mono {α : Type} {R S : α → α → Prop} {x y : Option α} (h : Option.Rel R x y)
    (hS : ∀ a ∈ x, ∀ b, R a b → S a b) : Option.Rel S x y := by
  cases h with
  | none => exact .none
  | some hR => exact .some (hS _ rfl _ hR)

theorem WebhookPayload.Restored.same {p q : WebhookPayload} (hP : ∀ x, P x → m.Keeps x)
    (hp : p.Floats P) (h : p.Restored co.ofInt m q) : p.Same q := by
  have hfields := h.fields
  rw [p.position.stored_eq hp.position] at hfields
  exact
    { fields := hfields
      indicators := rel_mono h.indicators fun v hv w hw => (hw.same hP (hp.indicators v hv)).1
      inputs := rel_mono h.inputs fun v hv w hw => (hw.same hP (hp.inputs v hv)).1 }

theorem WebhookPayload.Restored.floats {p q : WebhookPayload} (hP : ∀ x, P x → m.Keeps x)
    (hp : p.Floats P) (h : p.Restored co.ofInt m q) : q.Floats P := by
  have hposition := congrArg (fun r => r.position) (h.same hP hp).fields
  change q.position = p.position at hposition
  refine ⟨hposition ▸ hp.position, fun w hw => ?_, fun w hw => ?_⟩
  · obtain ⟨v, hv, hR⟩ := rel_mem h.indicators w hw
    exact (hR.same hP (hp.indicators v hv)).2
  · obtain ⟨v, hv, hR⟩ := rel_mem h.inputs w hw
    exact (hR.same hP (hp.inputs v hv)).2

theorem WebhookPayload.Restored.sound {p q : WebhookPayload} (hp : p.Sound co)
    (h : p.Restored co.ofInt m q) : q.Sound co := by
  have htimestamp := congrArg (fun r => r.timestamp) h.fields
  change q.timestamp = p.timestamp at htimestamp
  refine ⟨htimestamp ▸ hp.timestamp, fun w hw => ?_, fun w hw => ?_⟩
  · obtain ⟨v, -, hR⟩ := rel_mem h.indicators w hw
    exact hR.undeclared
  · obtain ⟨v, -, hR⟩ := rel_mem h.inputs w hw
    exact hR.undeclared

end

/-! ## What was accepted -/

theorem of_bind {α β : Type} {x : Option α} {f : α → Option β} {P : β → Prop}
    (h : ∀ a, x = some a → ∀ b, f a = some b → P b) : ∀ b, x >>= f = some b → P b := by
  intro b hb
  obtain ⟨a, ha, hf⟩ := Option.bind_eq_some_iff.1 hb
  exact h a ha b hf

section
variable {co : LaxReads}

theorem indicators_undeclared {d : JsonObject} :
    ∀ v, IndicatorsSchema.ofFields co d = some v →
      readExtra IndicatorsSchema.declared v.extra = some v.extra := by
  rw [IndicatorsSchema.ofFields]
  iterate 13 refine of_bind fun _ _ => ?_
  refine of_bind fun extra hextra => ?_
  intro v hv
  cases hv
  exact readExtra_again hextra

theorem inputs_undeclared {d : JsonObject} :
    ∀ v, InputsSchema.ofFields co d = some v →
      readExtra InputsSchema.declared v.extra = some v.extra := by
  rw [InputsSchema.ofFields]
  iterate 22 refine of_bind fun _ _ => ?_
  refine of_bind fun extra hextra => ?_
  intro v hv
  cases hv
  exact readExtra_again hextra

theorem optionalField_some {α : Type} {ofFields : JsonObject → Option α} {d : JsonObject}
    {name : String} {x : Option α}
    (h : optionalField (readModel ofFields) d name = some x) :
    ∀ v ∈ x, ∃ e, ofFields e = some v := by
  rintro v rfl
  rw [optionalField] at h
  split at h
  · cases h
  · cases h
  · next j _ _ =>
      obtain ⟨w, hw, heq⟩ := Option.map_eq_some_iff.1 h
      cases heq
      cases j with
      | obj e => exact ⟨e, hw⟩
      | _ => cases hw

/-- `hdate`: a date that was read is read again from the text it is dumped as. -/
theorem sound_of_parse
    (hdate : ∀ v t, co.datetime v = some t → co.datetime (.str t.jsonText) = some t)
    {raw : JsonObject} {minted : Uxid} {p : WebhookPayload}
    (h : WebhookPayload.parse co raw minted = some p) : p.Sound co := by
  have hbody : ∀ b, WebhookBody.ofFields co (beforeCoercion raw) = some b →
      co.datetime (.str b.timestamp.jsonText) = some b.timestamp ∧
      (∀ v ∈ b.indicators, readExtra IndicatorsSchema.declared v.extra = some v.extra) ∧
      ∀ v ∈ b.inputs, readExtra InputsSchema.declared v.extra = some v.extra := by
    rw [WebhookBody.ofFields]
    iterate 3 refine of_bind fun _ _ => ?_
    refine of_bind fun t ht => ?_
    refine of_bind fun _ _ => ?_
    refine of_bind fun indicators hindicators => ?_
    refine of_bind fun inputs hinputs => ?_
    refine of_bind fun _ _ => ?_
    intro b hb
    cases hb
    obtain ⟨j, -, hj⟩ := Option.bind_eq_some_iff.1 ht
    refine ⟨hdate j t hj, fun v hv => ?_, fun v hv => ?_⟩
    · obtain ⟨e, he⟩ := optionalField_some hindicators v hv
      exact indicators_undeclared v he
    · obtain ⟨e, he⟩ := optionalField_some hinputs v hv
      exact inputs_undeclared v he
  rw [WebhookPayload.parse, WebhookPayload.validate] at h
  split at h
  · next b u hb hu =>
      cases h
      obtain ⟨ht, hind, hin⟩ := hbody b hb
      exact ⟨ht, hind, hin⟩
  · cases h

end

end TradingBroker
