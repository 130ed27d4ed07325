import Mathlib.Data.Option.Basic
import TradingBroker.Schemas.Coerce

/-!
# What a stored payload is read back as

A payload leaves the broker's memory twice: as the envelope on the `SIGNALS` stream and as
`row.raw`, a `jsonb` column. The stream gives back the JSON it was given. The column keeps
what the JSON says: the order of an object's keys is lost, and a float of `10^16` or more,
which Python spells with an exponent, is printed without one and comes back as an `int`.
`Json.Kept` is that much and no more. Every declared field survives it, because it is read
under its name and with its type; the extra keys, which nobody reads, are what is left of
the payload where the spelling shows.

The proof follows the payload down. Each reader of a field is shown to give the same for a
value and for what a store made of it, a model by its fields under their names, and the
payload by its models. What comes out is not the payload itself but its image under the
store (`Restored`): a declared float that is no number is `null` from then on, and in the
extra keys the spelling counts.
-/

namespace TradingBroker

/-! ## Looking up -/

/-- `d.get(key)`. -/
def JsonObject.lookup (d : JsonObject) (key : PyStr) : Option Json :=
  (d.find? fun kv => kv.1 == key).map Prod.snd

theorem get?_eq_lookup (d : JsonObject) (name : String) :
    d.get? name = d.lookup (pyStr name) := rfl

@[simp] theorem lookup_nil (key : PyStr) : JsonObject.lookup [] key = none := rfl

theorem lookup_cons (k : PyStr) (v : Json) (d : JsonObject) (key : PyStr) :
    JsonObject.lookup ((k, v) :: d) key = if k = key then some v else d.lookup key := by
  by_cases h : k = key
  · simp [JsonObject.lookup, h]
  · simp [JsonObject.lookup, h]

theorem lookup_append (d e : JsonObject) (key : PyStr) :
    JsonObject.lookup (d ++ e) key = (d.lookup key).or (e.lookup key) := by
  induction d with
  | nil => rfl
  | cons kv d ih =>
      rw [List.cons_append, lookup_cons, lookup_cons, ih]
      split <;> rfl

theorem lookup_eq_none {d : JsonObject} {key : PyStr} :
    d.lookup key = none ↔ ∀ kv ∈ d, kv.1 ≠ key := by
  simp [JsonObject.lookup]

/-- Items whose keys are distinct are all found, whatever comes after them. -/
theorem lookup_getElem? {d : JsonObject} {n : Nat} (hd : ((d.take n).map Prod.fst).Nodup)
    {i : Nat} (hi : i < n) {kv : PyStr × Json} (h : d[i]? = some kv) :
    d.lookup kv.1 = some kv.2 := by
  induction d generalizing i n with
  | nil => cases h
  | cons item d ih =>
      obtain ⟨n, rfl⟩ : ∃ m, n = m + 1 := ⟨n - 1, by omega⟩
      rw [List.take_succ_cons, List.map_cons, List.nodup_cons] at hd
      rw [lookup_cons]
      cases i with
      | zero =>
          simp only [List.getElem?_cons_zero, Option.some.injEq] at h
          simp [h]
      | succ i =>
          rw [List.getElem?_cons_succ] at h
          have hmem : kv ∈ d.take n :=
            List.mem_of_getElem? (by rw [List.getElem?_take_of_lt (show i < n by omega)]; exact h)
          have hne : item.1 ≠ kv.1 := fun heq => hd.1 (heq ▸ List.mem_map_of_mem hmem)
          rw [if_neg hne]
          exact ih hd.2 (by omega) h

theorem lookup_mapKey (name : String) (f : Json → Json) (d : JsonObject) (key : PyStr) :
    (mapKey name f d).lookup key =
      if key = pyStr name then (d.lookup key).map f else d.lookup key := by
  induction d with
  | nil => simp [mapKey]
  | cons kv d ih =>
      rw [mapKey] at ih ⊢
      rw [List.map_cons]
      by_cases hk : kv.1 = pyStr name
      · rw [if_pos (by simpa using hk), lookup_cons, ih, lookup_cons]
        by_cases hkey : kv.1 = key
        · simp [hkey, ← hk]
        · simp [hkey]
      · rw [if_neg (by simpa using hk), lookup_cons, ih, lookup_cons]
        by_cases hkey : kv.1 = key
        · rw [if_pos hkey, if_pos hkey, if_neg (hkey ▸ hk)]
        · rw [if_neg hkey, if_neg hkey]

theorem lookup_extraOf (declared : List String) (d : JsonObject) (key : PyStr) :
    (extraOf declared d).lookup key =
      if declared.any (fun name => pyStr name == key) then none else d.lookup key := by
  induction d with
  | nil => simp [extraOf]
  | cons kv d ih =>
      rw [extraOf] at ih ⊢
      rw [List.filter_cons, lookup_cons]
      by_cases hkey : kv.1 = key
      · rw [hkey]
        split
        · next h =>
            rw [lookup_cons, if_pos hkey]
            simp only [Bool.not_eq_true'] at h
            simp [h]
        · next h =>
            rw [ih]
            simp only [Bool.not_eq_true', Bool.not_eq_false] at h
            simp [h]
      · rw [if_neg hkey]
        split
        · rw [lookup_cons, if_neg hkey, ih]
        · exact ih

/-! ## What a store keeps -/

/-- From `10^16` on Python spells a float with an exponent, which stands for zeros. -/
def isHuge (q : Rat) : Bool := 10000000000000000 ≤ q || q ≤ -10000000000000000

/-- The `SIGNALS` stream and the column `signals.raw`. -/
inductive Store where
  | stream | column

/-- What a store gives back for a JSON value: the value; for a huge float in a column
the integer of its digits; and for a list or an object the same of what is in it, an
object's keys in any order. -/
inductive Json.Kept (ofInt : Int → Option Rat) (m : Store) : Json → Json → Prop
  | same (v : Json) : Kept ofInt m v v
  | spelled {q : Rat} {n : Int} (hm : m = .column) (hq : isHuge q = true)
      (hn : ofInt n = some q) : Kept ofInt m (.float (.finite q)) (.int n)
  | arr {xs ys : List Json} (hlen : xs.length = ys.length)
      (h : ∀ (i : Nat) (x y : Json), xs[i]? = some x → ys[i]? = some y → Kept ofInt m x y) :
      Kept ofInt m (.arr xs) (.arr ys)
  | obj {d e : JsonObject} (hkeys : ∀ key, (d.lookup key).isSome = (e.lookup key).isSome)
      (h : ∀ key v w, d.lookup key = some v → e.lookup key = some w → Kept ofInt m v w) :
      Kept ofInt m (.obj d) (.obj e)

namespace Json.Kept

variable {ofInt : Int → Option Rat} {m : Store}

theorem null {j : Json} (h : Kept ofInt m .null j) : j = .null := by
  cases h
  rfl

theorem bool {b : Bool} {j : Json} (h : Kept ofInt m (.bool b) j) : j = .bool b := by
  cases h
  rfl

theorem int {n : Int} {j : Json} (h : Kept ofInt m (.int n) j) : j = .int n := by
  cases h
  rfl

theorem str {s : PyStr} {j : Json} (h : Kept ofInt m (.str s) j) : j = .str s := by
  cases h
  rfl

/-- A list of strings has nothing in it that a store may spell differently. -/
theorem strs {ts : List PyStr} {j : Json} (h : Kept ofInt m (.arr (ts.map .str)) j) :
    j = .arr (ts.map .str) := by
  cases h with
  | same => rfl
  | arr hlen hkept =>
      next ys =>
      refine congrArg Json.arr (List.ext_getElem? fun i => ?_)
      cases hi : (ts.map Json.str)[i]? with
      | none =>
          rw [List.getElem?_eq_none_iff] at hi ⊢
          omega
      | some x =>
          obtain ⟨hlt, -⟩ := List.getElem?_eq_some_iff.1 hi
          have hy : ys[i]? = some ys[i] := List.getElem?_eq_getElem (hlen ▸ hlt)
          obtain ⟨t, -, rfl⟩ := List.mem_map.1 (List.mem_of_getElem? hi)
          rw [hy, (hkept i _ _ hi hy).str]

/-- A float comes back as a value that reads as the same float. -/
theorem float (co : LaxReads) {x : PyFloat} {j : Json} (h : Kept co.ofInt m (.float x) j) :
    j ≠ .null ∧ co.readFloat j = some x := by
  cases h with
  | same => exact ⟨nofun, rfl⟩
  | spelled _ _ hn => exact ⟨nofun, by rw [LaxReads.readFloat, hn, Option.map_some]⟩

/-- An object comes back as an object, item by item. -/
theorem obj_inv {d : JsonObject} {j : Json} (h : Kept ofInt m (.obj d) j) :
    ∃ e : JsonObject, j = .obj e ∧ (∀ key, (d.lookup key).isSome = (e.lookup key).isSome) ∧
      ∀ key v w, d.lookup key = some v → e.lookup key = some w → Kept ofInt m v w := by
  cases h with
  | same =>
      refine ⟨d, rfl, fun _ => rfl, fun key v w hv hw => ?_⟩
      rw [hv, Option.some.injEq] at hw
      exact hw ▸ .same v
  | obj hkeys hkept => exact ⟨_, rfl, hkeys, hkept⟩

end Json.Kept

/-! ## Reading a field back -/

def PyFloat.isFinite : PyFloat → Bool
  | .finite _ => true
  | _ => false

/-- What is not a number is dumped as `null`. -/
def finiteOnly (x : Option PyFloat) : Option PyFloat := x.filter PyFloat.isFinite

theorem decodeText_pyStr (s : String) : decodeText (pyStr s) = some s := by
  have hvalid : (pyStr s).all (fun c => decide c.isValidChar) = true := by
    simp only [pyStr, List.all_eq_true, List.mem_map, decide_eq_true_eq]
    rintro _ ⟨c, -, rfl⟩
    exact c.valid
  rw [decodeText, if_pos hvalid, pyStr, List.map_map]
  have hid : (Char.ofNat ∘ Char.toNat) = id := funext fun c => Char.ofNat_toNat c
  rw [hid, List.map_id, String.ofList_toList]

theorem readStr_dumpStr (s : String) : readStr (dumpStr s) = some s := decodeText_pyStr s

theorem readStrs_dumpStr (ws : List String) : readStrs (.arr (ws.map dumpStr)) = some ws := by
  rw [readStrs]
  induction ws with
  | nil => rfl
  | cons w ws ih =>
      rw [List.map_cons, List.mapM_cons, readStr_dumpStr, ih]
      rfl

theorem readAction_value (a : SignalAction) : readAction (dumpStr a.value) = some a := by
  cases a <;> decide

/-- Under the name stands what a store made of `v`. -/
def HasKept (ofInt : Int → Option Rat) (m : Store) (d : JsonObject) (name : String) (v : Json) :
    Prop :=
  ∃ j, d.get? name = some j ∧ Json.Kept ofInt m v j

section
variable (co : LaxReads) {m : Store} {d : JsonObject} {name : String}

theorem requiredField_kept {α : Type} {read : Json → Option α} {v : Json} {a : α}
    (h : HasKept co.ofInt m d name v) (hread : ∀ j, Json.Kept co.ofInt m v j → read j = some a) :
    requiredField read d name = some a := by
  obtain ⟨j, hj, hkept⟩ := h
  rw [requiredField, hj, Option.bind_some, hread j hkept]

theorem requiredField_str {s : String} (h : HasKept co.ofInt m d name (dumpStr s)) :
    requiredField readStr d name = some s :=
  requiredField_kept co h fun j hj => by rw [hj.str]; exact readStr_dumpStr s

/-- An optional field reads back as `y` if its value does, and as `None` if it was dumped
as `null`. -/
theorem optionalField_kept {α : Type} {read : Json → Option α} {v : Json} {y : Option α}
    (h : HasKept co.ofInt m d name v)
    (hread : ∀ j, Json.Kept co.ofInt m v j →
      match y with
      | none => j = .null
      | some a => j ≠ .null ∧ read j = some a) :
    optionalField read d name = some y := by
  obtain ⟨j, hj, hkept⟩ := h
  have hy := hread j hkept
  rw [optionalField, hj]
  cases y with
  | none => rw [hy]
  | some a =>
      obtain ⟨hne, hr⟩ := hy
      split
      · next heq => cases heq
      · next heq => exact absurd (Option.some.inj heq) hne
      · next heq =>
          rw [← Option.some.inj heq, hr]
          rfl

theorem optionalField_float {x : Option PyFloat}
    (h : HasKept co.ofInt m d name (dumpOpt PyFloat.dump x)) :
    optionalField co.readFloat d name = some (finiteOnly x) := by
  refine optionalField_kept co h fun j hj => ?_
  match x, hj with
  | none, hj => exact hj.null
  | some (.finite q), hj => exact hj.float
  | some .nan, hj => exact hj.null
  | some .posInf, hj => exact hj.null
  | some .negInf, hj => exact hj.null

/-- A field reads back as it was if its value does. -/
theorem optionalField_dumpOpt {α : Type} {read : Json → Option α} {dump : α → Json}
    {x : Option α} (h : HasKept co.ofInt m d name (dumpOpt dump x))
    (hread : ∀ a ∈ x, ∀ j, Json.Kept co.ofInt m (dump a) j → j ≠ .null ∧ read j = some a) :
    optionalField read d name = some x := by
  refine optionalField_kept co h fun j hj => ?_
  match x, hj with
  | none, hj => exact hj.null
  | some a, hj => exact hread a rfl j hj

theorem optionalField_bool {x : Option Bool}
    (h : HasKept co.ofInt m d name (dumpOpt Json.bool x)) :
    optionalField co.readBool d name = some x :=
  optionalField_dumpOpt co h fun _ _ j hj => by
    rw [hj.bool]
    exact ⟨nofun, rfl⟩

theorem optionalField_int {x : Option Int}
    (h : HasKept co.ofInt m d name (dumpOpt Json.int x)) :
    optionalField co.readInt d name = some x :=
  optionalField_dumpOpt co h fun _ _ j hj => by
    rw [hj.int]
    exact ⟨nofun, rfl⟩

theorem optionalField_str {x : Option String}
    (h : HasKept co.ofInt m d name (dumpOpt dumpStr x)) :
    optionalField readStr d name = some x :=
  optionalField_dumpOpt co h fun s _ j hj => by
    rw [hj.str]
    exact ⟨nofun, readStr_dumpStr s⟩

theorem optionalField_strs {x : Option (List String)}
    (h : HasKept co.ofInt m d name (dumpOpt (fun ws => Json.arr (ws.map dumpStr)) x)) :
    optionalField readStrs d name = some x := by
  refine optionalField_dumpOpt co h fun ws _ j hj => ?_
  have hstrs : ws.map dumpStr = (ws.map pyStr).map Json.str := by
    rw [List.map_map]
    rfl
  rw [hstrs] at hj
  rw [hj.strs, ← hstrs]
  exact ⟨nofun, readStrs_dumpStr ws⟩

/-- Under the name stands what `x` was dumped as: it reads back as something `R` ties to
it. -/
theorem optionalField_model {α : Type} {dump : α → Json} {ofFields : JsonObject → Option α}
    {R : α → α → Prop} {x : Option α} (h : HasKept co.ofInt m d name (dumpOpt dump x))
    (hmodel : ∀ a ∈ x, ∀ j, Json.Kept co.ofInt m (dump a) j →
      ∃ e b, j = .obj e ∧ ofFields e = some b ∧ R a b) :
    ∃ y, optionalField (readModel ofFields) d name = some y ∧ Option.Rel R x y := by
  cases x with
  | none =>
      exact ⟨none, optionalField_kept co h fun j hj => hj.null, .none⟩
  | some a =>
      obtain ⟨j, hj, hkept⟩ := h
      obtain ⟨e, b, rfl, hb, hR⟩ := hmodel a rfl j hkept
      refine ⟨some b, ?_, .some hR⟩
      rw [optionalField, hj]
      show (readModel ofFields (.obj e)).map some = _
      rw [readModel, hb, Option.map_some]

/-- The first `n` items of a dump have distinct keys: they are found in what a store made
of it. -/
theorem HasKept.item {ofInt : Int → Option Rat} {m : Store} {d e : JsonObject} {n : Nat}
    (h : Json.Kept ofInt m (.obj d) (.obj e)) (hd : ((d.take n).map Prod.fst).Nodup) {i : Nat}
    (hi : i < n) {name : String} {v : Json} (hitem : d[i]? = some (pyStr name, v)) :
    HasKept ofInt m e name v := by
  obtain ⟨e', heq, hkeys, hkept⟩ := h.obj_inv
  have hv := lookup_getElem? hd hi hitem
  have hsome := hkeys (pyStr name)
  rw [hv, Option.isSome_some] at hsome
  obtain ⟨w, hw⟩ := Option.isSome_iff_exists.1 hsome.symm
  injection heq with heq
  subst heq
  exact ⟨w, hw, hkept _ _ _ hv hw⟩

end

/-! ## Reading a model back -/

def ScalingSchema.stored (s : ScalingSchema) : ScalingSchema :=
  { tp := finiteOnly s.tp, sl := finiteOnly s.sl, quantity := finiteOnly s.quantity }

def PositionSchema.stored (p : PositionSchema) : PositionSchema :=
  { p with
    price := finiteOnly p.price
    quantity := finiteOnly p.quantity
    sl := finiteOnly p.sl
    tp1 := finiteOnly p.tp1
    tp2 := finiteOnly p.tp2
    riskPercent := finiteOnly p.riskPercent
    tp1Percent := finiteOnly p.tp1Percent
    scaling := p.scaling.map ScalingSchema.stored }

def IndicatorsSchema.stored (v : IndicatorsSchema) : IndicatorsSchema :=
  { v with
    wt1 := finiteOnly v.wt1
    wt2 := finiteOnly v.wt2
    close := finiteOnly v.close
    upper := finiteOnly v.upper
    lower := finiteOnly v.lower
    basis := finiteOnly v.basis
    ema200Visual := finiteOnly v.ema200Visual
    ema200Filter := finiteOnly v.ema200Filter
    atrVal := finiteOnly v.atrVal }

def InputsSchema.stored (v : InputsSchema) : InputsSchema :=
  { v with
    bbMult := finiteOnly v.bbMult
    atrSlMult := finiteOnly v.atrSlMult
    minRrRatio := finiteOnly v.minRrRatio
    riskPercent := finiteOnly v.riskPercent
    tp1QtyPc := finiteOnly v.tp1QtyPc
    volSpikeMult := finiteOnly v.volSpikeMult }

section
variable {co : LaxReads} {m : Store} {e : JsonObject}

theorem scaling_kept {s : ScalingSchema} {j : Json} (h : Json.Kept co.ofInt m s.dump j) :
    ∃ e b, j = .obj e ∧ ScalingSchema.ofFields co e = some b ∧ b = s.stored := by
  obtain ⟨e, rfl, -⟩ := h.obj_inv
  have hnodup : (["tp", "sl", "quantity"].map pyStr).Nodup := by decide
  have item := @HasKept.item _ _ _ e 3 h hnodup
  refine ⟨e, _, rfl, ?_, rfl⟩
  have htp := optionalField_float co (item (show 0 < 3 by decide) rfl)
  have hsl := optionalField_float co (item (show 1 < 3 by decide) rfl)
  have hquantity := optionalField_float co (item (show 2 < 3 by decide) rfl)
  rw [ScalingSchema.ofFields, htp, hsl, hquantity]
  rfl

theorem rel_map {α : Type} {f : α → α} {x y : Option α}
    (h : Option.Rel (fun a b => b = f a) x y) : y = x.map f := by
  cases h with
  | none => rfl
  | some hb => rw [hb, Option.map_some]

theorem position_kept {p : PositionSchema} {j : Json} (h : Json.Kept co.ofInt m p.dump j) :
    ∃ e, j = .obj e ∧ PositionSchema.ofFields co e = some p.stored := by
  obtain ⟨e, rfl, -⟩ := h.obj_inv
  have hnodup : (["action", "price", "quantity", "sl", "tp1", "tp2", "risk_percent",
      "tp1_percent", "use_equity_sizing", "move_sl_to_be", "is_running", "is_scale_position",
      "scale_strategy", "scaling"].map pyStr).Nodup := by decide
  have item := @HasKept.item _ _ _ e 14 h hnodup
  refine ⟨e, rfl, ?_⟩
  have haction : requiredField readAction e "action" = some p.action :=
    requiredField_kept co (item (show 0 < 14 by decide) rfl) fun j hj => by
      rw [hj.str]
      exact readAction_value _
  have hprice := optionalField_float co (item (show 1 < 14 by decide) rfl)
  have hquantity := optionalField_float co (item (show 2 < 14 by decide) rfl)
  have hsl := optionalField_float co (item (show 3 < 14 by decide) rfl)
  have htp1 := optionalField_float co (item (show 4 < 14 by decide) rfl)
  have htp2 := optionalField_float co (item (show 5 < 14 by decide) rfl)
  have hrisk := optionalField_float co (item (show 6 < 14 by decide) rfl)
  have hpercent := optionalField_float co (item (show 7 < 14 by decide) rfl)
  have hsizing := optionalField_bool co (item (show 8 < 14 by decide) rfl)
  have hbe := optionalField_bool co (item (show 9 < 14 by decide) rfl)
  have hrunning := optionalField_bool co (item (show 10 < 14 by decide) rfl)
  have hscale := optionalField_bool co (item (show 11 < 14 by decide) rfl)
  have hstrategy := optionalField_str co (item (show 12 < 14 by decide) rfl)
  obtain ⟨scaling, hscaling, hrel⟩ := optionalField_model co
    (R := fun a b => b = a.stored) (item (show 13 < 14 by decide) rfl)
    fun s _ j hj => scaling_kept hj
  rw [PositionSchema.ofFields, haction, hprice, hquantity, hsl, htp1, htp2, hrisk, hpercent,
    hsizing, hbe, hrunning, hscale, hstrategy, hscaling]
  rw [rel_map hrel]
  rfl

theorem indicators_declared_nodup : (IndicatorsSchema.declared.map pyStr).Nodup := by decide

theorem indicators_fields {v : IndicatorsSchema} {extra : JsonObject}
    (h : Json.Kept co.ofInt m v.dump (.obj e))
    (hextra : readExtra IndicatorsSchema.declared e = some extra) :
    IndicatorsSchema.ofFields co e = some { v.stored with extra } := by
  have item := @HasKept.item _ _ _ e 13 h indicators_declared_nodup
  have hwt1 := optionalField_float co (item (show 0 < 13 by decide) rfl)
  have hwt2 := optionalField_float co (item (show 1 < 13 by decide) rfl)
  have hclose := optionalField_float co (item (show 2 < 13 by decide) rfl)
  have hupper := optionalField_float co (item (show 3 < 13 by decide) rfl)
  have hlower := optionalField_float co (item (show 4 < 13 by decide) rfl)
  have hbasis := optionalField_float co (item (show 5 < 13 by decide) rfl)
  have hvisual := optionalField_float co (item (show 6 < 13 by decide) rfl)
  have hfilter := optionalField_float co (item (show 7 < 13 by decide) rfl)
  have hatr := optionalField_float co (item (show 8 < 13 by decide) rfl)
  have hsession := optionalField_bool co (item (show 9 < 13 by decide) rfl)
  have hvol := optionalField_bool co (item (show 10 < 13 by decide) rfl)
  have hcooldown := optionalField_bool co (item (show 11 < 13 by decide) rfl)
  have hwide := optionalField_bool co (item (show 12 < 13 by decide) rfl)
  rw [IndicatorsSchema.ofFields, hwt1, hwt2, hclose, hupper, hlower, hbasis, hvisual, hfilter,
    hatr, hsession, hvol, hcooldown, hwide, hextra]
  rfl

theorem inputs_declared_nodup : (InputsSchema.declared.map pyStr).Nodup := by decide

theorem inputs_fields {v : InputsSchema} {extra : JsonObject}
    (h : Json.Kept co.ofInt m v.dump (.obj e))
    (hextra : readExtra InputsSchema.declared e = some extra) :
    InputsSchema.ofFields co e = some { v.stored with extra } := by
  have item := @HasKept.item _ _ _ e 22 h inputs_declared_nodup
  have hwatching := optionalField_int co (item (show 0 < 22 by decide) rfl)
  have hover := optionalField_int co (item (show 1 < 22 by decide) rfl)
  have hsafe := optionalField_int co (item (show 2 < 22 by decide) rfl)
  have hsession := optionalField_bool co (item (show 3 < 22 by decide) rfl)
  have hwindows := optionalField_strs co (item (show 4 < 22 by decide) rfl)
  have hlen := optionalField_int co (item (show 5 < 22 by decide) rfl)
  have hmult := optionalField_float co (item (show 6 < 22 by decide) rfl)
  have himb := optionalField_bool co (item (show 7 < 22 by decide) rfl)
  have hatr := optionalField_int co (item (show 8 < 22 by decide) rfl)
  have hslMult := optionalField_float co (item (show 9 < 22 by decide) rfl)
  have hrr := optionalField_float co (item (show 10 < 22 by decide) rfl)
  have hrisk := optionalField_float co (item (show 11 < 22 by decide) rfl)
  have hpc := optionalField_float co (item (show 12 < 22 by decide) rfl)
  have hmax := optionalField_bool co (item (show 13 < 22 by decide) rfl)
  have hdist := optionalField_int co (item (show 14 < 22 by decide) rfl)
  have hspike := optionalField_float co (item (show 15 < 22 by decide) rfl)
  have hback := optionalField_int co (item (show 16 < 22 by decide) rfl)
  have hfilter := optionalField_bool co (item (show 17 < 22 by decide) rfl)
  have hvisual := optionalField_str co (item (show 18 < 22 by decide) rfl)
  have hema := optionalField_str co (item (show 19 < 22 by decide) rfl)
  have hcooldown := optionalField_bool co (item (show 20 < 22 by decide) rfl)
  have hbars := optionalField_int co (item (show 21 < 22 by decide) rfl)
  rw [InputsSchema.ofFields, hwatching, hover, hsafe, hsession, hwindows, hlen, hmult, himb,
    hatr, hslMult, hrr, hrisk, hpc, hmax, hdist, hspike, hback, hfilter, hvisual, hema,
    hcooldown, hbars, hextra]
  rfl

end

/-! ## The keys nobody declared -/

theorem lookup_dumpFields (d : JsonObject) (key : PyStr) :
    JsonObject.lookup (Json.dumpFields d) key = (d.lookup key).map Json.dump := by
  induction d with
  | nil => rfl
  | cons kv d ih =>
      rw [Json.dumpFields, lookup_cons, lookup_cons, ih]
      split <;> rfl

theorem Json.Kept.congr {ofInt : Int → Option Rat} {m : Store} {j : Json} {d e : JsonObject}
    (h : Json.Kept ofInt m j (.obj d)) (heq : ∀ key, d.lookup key = e.lookup key) :
    Json.Kept ofInt m j (.obj e) := by
  cases h with
  | same =>
      refine .obj (fun key => by rw [heq]) fun key v w hv hw => ?_
      rw [heq, hw, Option.some.injEq] at hv
      rw [hv]
      exact .same v
  | obj hkeys hkept =>
      exact .obj (fun key => by rw [hkeys, heq]) fun key v w hv hw =>
        hkept key v w hv (by rw [heq, hw])

theorem readExtra_eq_some {declared : List String} {d extra : JsonObject} :
    readExtra declared d = some extra ↔
      extra = extraOf declared d ∧ ∀ kv ∈ extra, (decodeText kv.1).isSome = true := by
  rw [readExtra]
  split
  · next hall =>
      rw [Option.some.injEq]
      constructor
      · rintro rfl
        exact ⟨rfl, List.all_eq_true.1 hall⟩
      · exact fun h => h.1.symm
  · next hall =>
      refine iff_of_false nofun ?_
      rintro ⟨rfl, hkeys⟩
      exact hall (List.all_eq_true.2 hkeys)

theorem extraOf_extraOf (declared : List String) (d : JsonObject) :
    extraOf declared (extraOf declared d) = extraOf declared d := by
  rw [extraOf, extraOf, List.filter_filter]
  simp only [Bool.and_self]

/-- What was kept is kept again. -/
theorem readExtra_again {declared : List String} {d extra : JsonObject}
    (h : readExtra declared d = some extra) : readExtra declared extra = some extra := by
  obtain ⟨rfl, hkeys⟩ := readExtra_eq_some.1 h
  exact readExtra_eq_some.2 ⟨(extraOf_extraOf declared d).symm, hkeys⟩

theorem extra_kept {ofInt : Int → Option Rat} {m : Store} {declared : List String}
    {items extra e : JsonObject} (hitems : items.map Prod.fst = declared.map pyStr)
    (hextra : readExtra declared extra = some extra)
    (h : Json.Kept ofInt m (.obj (items ++ Json.dumpFields extra)) (.obj e)) :
    Json.Kept ofInt m (.obj (Json.dumpFields extra)) (.obj (extraOf declared e)) := by
  obtain ⟨hextra, -⟩ := readExtra_eq_some.1 hextra
  obtain ⟨e', heq, hkeys, hkept⟩ := h.obj_inv
  injection heq with heq
  subst heq
  have hnone : ∀ key, declared.any (fun name => pyStr name == key) = true →
      JsonObject.lookup (Json.dumpFields extra) key = none := by
    intro key hkey
    rw [lookup_dumpFields, hextra, lookup_extraOf, if_pos hkey, Option.map_none]
  have hitem : ∀ key, ¬ declared.any (fun name => pyStr name == key) = true →
      JsonObject.lookup (items ++ Json.dumpFields extra) key =
        JsonObject.lookup (Json.dumpFields extra) key := by
    intro key hkey
    have hmiss : JsonObject.lookup items key = none := by
      refine lookup_eq_none.2 fun kv hkv hk => hkey ?_
      have hmem : kv.1 ∈ declared.map pyStr := hitems ▸ List.mem_map_of_mem hkv
      obtain ⟨name, hname, hn⟩ := List.mem_map.1 hmem
      exact List.any_eq_true.2 ⟨name, hname, by simp [hn, hk]⟩
    rw [lookup_append, hmiss, Option.none_or]
  refine .obj (fun key => ?_) fun key v w hv hw => ?_
  · rw [lookup_extraOf]
    split
    · next hkey => rw [hnone key hkey]
    · next hkey => rw [← hitem key hkey, hkeys]
  · rw [lookup_extraOf] at hw
    split at hw
    · cases hw
    · next hkey => exact hkept key v w (by rw [hitem key hkey, hv]) hw

/-- The store keeps the keys, so that they are spelled as before. -/
theorem readExtra_kept {ofInt : Int → Option Rat} {m : Store} {declared : List String}
    {items extra e : JsonObject} (hitems : items.map Prod.fst = declared.map pyStr)
    (hextra : readExtra declared extra = some extra)
    (h : Json.Kept ofInt m (.obj (items ++ Json.dumpFields extra)) (.obj e)) :
    readExtra declared e = some (extraOf declared e) := by
  have hkept := extra_kept hitems hextra h
  obtain ⟨-, hkeys⟩ := readExtra_eq_some.1 hextra
  obtain ⟨e', heq, hsame, -⟩ := hkept.obj_inv
  injection heq with heq
  rw [heq]
  refine readExtra_eq_some.2 ⟨heq.symm, fun kv hkv => ?_⟩
  have hthere : JsonObject.lookup e' kv.1 ≠ none := fun hnone =>
    lookup_eq_none.1 hnone kv hkv rfl
  have hdumped : extra.lookup kv.1 ≠ none := by
    intro hnone
    have hlost := hsame kv.1
    rw [lookup_dumpFields, hnone] at hlost
    exact hthere (Option.isNone_iff_eq_none.1 (Option.isSome_eq_false_iff.1 hlost.symm))
  by_contra hbad
  exact hdumped (lookup_eq_none.2 fun kv' hkv' hk => hbad (hk ▸ hkeys kv' hkv'))

/-! ## Reading a payload back -/

/-- `w` is `v` as far as a store keeps it. -/
structure IndicatorsSchema.Restored (ofInt : Int → Option Rat) (m : Store)
    (v w : IndicatorsSchema) :
    Prop where
  fields : { w with extra := [] } = { v.stored with extra := [] }
  extra : Json.Kept ofInt m (.obj (Json.dumpFields v.extra)) (.obj w.extra)
  undeclared : readExtra IndicatorsSchema.declared w.extra = some w.extra

structure InputsSchema.Restored (ofInt : Int → Option Rat) (m : Store)
    (v w : InputsSchema) : Prop where
  fields : { w with extra := [] } = { v.stored with extra := [] }
  extra : Json.Kept ofInt m (.obj (Json.dumpFields v.extra)) (.obj w.extra)
  undeclared : readExtra InputsSchema.declared w.extra = some w.extra

structure WebhookPayload.Restored (ofInt : Int → Option Rat) (m : Store)
    (p q : WebhookPayload) :
    Prop where
  fields : { q with indicators := none, inputs := none } =
    { p with position := p.position.stored, indicators := none, inputs := none }
  indicators : Option.Rel (IndicatorsSchema.Restored ofInt m) p.indicators q.indicators
  inputs : Option.Rel (InputsSchema.Restored ofInt m) p.inputs q.inputs

/-- What every payload that was accepted has: a date that is read again as it is spelled,
and among the extra keys none that is declared or cannot be spelled. -/
structure WebhookPayload.Sound (co : LaxReads) (p : WebhookPayload) : Prop where
  timestamp : co.datetime (.str p.timestamp.jsonText) = some p.timestamp
  indicators : ∀ v ∈ p.indicators, readExtra IndicatorsSchema.declared v.extra = some v.extra
  inputs : ∀ v ∈ p.inputs, readExtra InputsSchema.declared v.extra = some v.extra

section
variable {co : LaxReads} {m : Store}

theorem indicators_kept {v : IndicatorsSchema}
    (hv : readExtra IndicatorsSchema.declared v.extra = some v.extra) {j : Json}
    (h : Json.Kept co.ofInt m v.dump j) :
    ∃ e w, j = .obj e ∧ IndicatorsSchema.ofFields co e = some w ∧
      IndicatorsSchema.Restored co.ofInt m v w := by
  obtain ⟨e, rfl, -⟩ := h.obj_inv
  have hread := readExtra_kept (by rfl) hv h
  exact ⟨e, _, rfl, indicators_fields h hread,
    { fields := rfl
      extra := extra_kept (by rfl) hv h
      undeclared := readExtra_again hread }⟩

theorem inputs_kept {v : InputsSchema}
    (hv : readExtra InputsSchema.declared v.extra = some v.extra) {j : Json}
    (h : Json.Kept co.ofInt m v.dump j) :
    ∃ e w, j = .obj e ∧ InputsSchema.ofFields co e = some w ∧
      InputsSchema.Restored co.ofInt m v w := by
  obtain ⟨e, rfl, -⟩ := h.obj_inv
  have hread := readExtra_kept (by rfl) hv h
  exact ⟨e, _, rfl, inputs_fields h hread,
    { fields := rfl
      extra := extra_kept (by rfl) hv h
      undeclared := readExtra_again hread }⟩

/-- `_coerce_skip_windows` has nothing to do on an input block that was dumped. -/
theorem coerced_inputs_kept {v : InputsSchema} {e : JsonObject}
    (h : Json.Kept co.ofInt m v.dump (.obj e)) :
    Json.Kept co.ofInt m v.dump (.obj (mapKey "skip_windows" coerceSkipWindows e)) := by
  refine h.congr fun key => ?_
  rw [lookup_mapKey]
  split
  · next hkey =>
      obtain ⟨w, hw, hkept⟩ := HasKept.item (n := 22) h inputs_declared_nodup
        (show 4 < 22 by decide) rfl
      rw [get?_eq_lookup] at hw
      rw [hkey, hw, Option.map_some]
      cases hwin : v.skipWindows with
      | none =>
          rw [hwin] at hkept
          rw [hkept.null]
          rfl
      | some ws =>
          rw [hwin] at hkept
          obtain ⟨xs, rfl⟩ : ∃ xs, w = .arr xs := by
            have harr : Json.Kept co.ofInt m (.arr (ws.map dumpStr)) w := hkept
            cases harr with
            | same => exact ⟨_, rfl⟩
            | arr => exact ⟨_, rfl⟩
          rfl
  · rfl

theorem get?_beforeCoercion {raw : JsonObject} {name : String}
    (h : pyStr name ≠ pyStr "inputs") : (beforeCoercion raw).get? name = raw.get? name := by
  rw [get?_eq_lookup, beforeCoercion, lookup_mapKey, if_neg h, get?_eq_lookup]

theorem HasKept.beforeCoercion {ofInt : Int → Option Rat} {raw : JsonObject}
    {name : String} {v : Json} (h : HasKept ofInt m raw name v) (hname : pyStr name ≠ pyStr "inputs") :
    HasKept ofInt m (beforeCoercion raw) name v := by
  rw [HasKept, get?_beforeCoercion hname]
  exact h

theorem HasKept.inputs {raw : JsonObject} {x : Option InputsSchema}
    (h : HasKept co.ofInt m raw "inputs" (dumpOpt InputsSchema.dump x)) :
    HasKept co.ofInt m (TradingBroker.beforeCoercion raw) "inputs"
      (dumpOpt InputsSchema.dump x) := by
  obtain ⟨j, hj, hkept⟩ := h
  rw [HasKept, get?_eq_lookup, TradingBroker.beforeCoercion, lookup_mapKey, if_pos rfl,
    ← get?_eq_lookup, hj, Option.map_some]
  cases x with
  | none => exact ⟨_, rfl, by rw [hkept.null]; exact .same _⟩
  | some v =>
      obtain ⟨e, rfl, -⟩ := hkept.obj_inv
      exact ⟨_, rfl, coerced_inputs_kept hkept⟩

theorem payload_keys_nodup :
    (["strategy", "symbol", "timeframe", "timestamp", "signal_uxid", "position",
      "indicators", "inputs", "token"].map pyStr).Nodup := by decide

/-- A payload that was stored is accepted again, as it was. -/
theorem parse_kept {p : WebhookPayload} (hp : p.Sound co) {raw : JsonObject}
    (h : Json.Kept co.ofInt m (.obj p.dump) (.obj raw)) (minted : Uxid) :
    ∃ q, WebhookPayload.parse co raw minted = some q ∧ p.Restored co.ofInt m q := by
  have item := @HasKept.item _ _ _ raw 9 h payload_keys_nodup
  have hstrategy := requiredField_str co
    ((item (show 0 < 9 by decide) rfl).beforeCoercion (by decide))
  have hsymbol := requiredField_str co
    ((item (show 1 < 9 by decide) rfl).beforeCoercion (by decide))
  have htimeframe := requiredField_str co
    ((item (show 2 < 9 by decide) rfl).beforeCoercion (by decide))
  have htimestamp : requiredField co.datetime (beforeCoercion raw) "timestamp" =
      some p.timestamp :=
    requiredField_kept co ((item (show 3 < 9 by decide) rfl).beforeCoercion (by decide))
      fun j hj => by
        rw [hj.str]
        exact hp.timestamp
  have hposition : requiredField (readModel (PositionSchema.ofFields co)) (beforeCoercion raw)
      "position" = some p.position.stored :=
    requiredField_kept co ((item (show 5 < 9 by decide) rfl).beforeCoercion (by decide))
      fun j hj => by
        obtain ⟨e, rfl, he⟩ := position_kept hj
        exact he
  obtain ⟨indicators, hindicators, hindrel⟩ := optionalField_model co
    ((item (show 6 < 9 by decide) rfl).beforeCoercion (by decide))
    fun v hv j hj => indicators_kept (hp.indicators v hv) hj
  obtain ⟨inputs, hinputs, hinrel⟩ := optionalField_model co
    (item (show 7 < 9 by decide) rfl).inputs
    fun v hv j hj => inputs_kept (hp.inputs v hv) hj
  have htoken := requiredField_str co
    ((item (show 8 < 9 by decide) rfl).beforeCoercion (by decide))
  have huxid : HasKept co.ofInt m raw "signal_uxid" (.str p.signalUxid.1) :=
    item (show 4 < 9 by decide) rfl
  obtain ⟨u, hu, hukept⟩ := huxid
  rw [WebhookPayload.parse, WebhookPayload.validate, WebhookBody.ofFields, hstrategy, hsymbol,
    htimeframe, htimestamp, hposition, hindicators, hinputs, htoken, hu, hukept.str,
    fillOrValidateUxid_stored]
  exact ⟨_, rfl, { fields := rfl, indicators := hindrel, inputs := hinrel }⟩

end

end TradingBroker
