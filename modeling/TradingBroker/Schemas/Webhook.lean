import TradingBroker.Schemas.Core

/-!
# The webhook payload

`broker/schemas/webhook_schema.py` and `broker/helpers/uxid_helper.py`. The
models are pydantic's, and so is the coercion of a JSON value into a field; what
the repository adds are the two validators, and both are here. One of them
decides what a cycle is: an alert without a `signal_uxid` is given a fresh one,
at every parse.

A float is as `json.loads` left it, so it may be `NaN` or infinite, and a model
does not mind. The records have every declared field, with its default, since
each is written to a row, put into a message or dumped into an envelope
somewhere.
-/

namespace TradingBroker

structure ScalingSchema where
  tp : Option PyFloat
  sl : Option PyFloat
  quantity : Option PyFloat
  deriving DecidableEq

structure PositionSchema where
  action : SignalAction
  price : Option PyFloat
  quantity : Option PyFloat
  sl : Option PyFloat
  tp1 : Option PyFloat
  tp2 : Option PyFloat
  riskPercent : Option PyFloat
  tp1Percent : Option PyFloat
  useEquitySizing : Option Bool
  moveSlToBe : Option Bool
  isRunning : Option Bool
  isScalePosition : Option Bool
  scaleStrategy : Option String
  scaling : Option ScalingSchema
  deriving DecidableEq

/-- Unknown keys are accepted as they came (`extra="allow"`). -/
structure IndicatorsSchema where
  wt1 : Option PyFloat
  wt2 : Option PyFloat
  close : Option PyFloat
  upper : Option PyFloat
  lower : Option PyFloat
  basis : Option PyFloat
  ema200Visual : Option PyFloat
  ema200Filter : Option PyFloat
  atrVal : Option PyFloat
  inSession : Option Bool
  volSpike : Option Bool
  inCooldown : Option Bool
  slTooWide : Option Bool
  extra : JsonObject

structure InputsSchema where
  watchingCandles : Option Int
  overWtValue : Option Int
  safeWtValue : Option Int
  useSession : Option Bool
  skipWindows : Option (List String)
  bbLen : Option Int
  bbMult : Option PyFloat
  showImb : Option Bool
  atrLen : Option Int
  atrSlMult : Option PyFloat
  minRrRatio : Option PyFloat
  riskPercent : Option PyFloat
  tp1QtyPc : Option PyFloat
  useMaxSlDist : Option Bool
  maxSlDistance : Option Int
  volSpikeMult : Option PyFloat
  volSpikeLookback : Option Int
  useVolFilter : Option Bool
  emaVisualTf : Option String
  emaFilterTf : Option String
  useCooldown : Option Bool
  cooldownBars : Option Int
  extra : JsonObject

/-! ## Cycle ids -/

def uxidLength : Nat := 16

/-- `[0-9A-F]`. -/
def isUpperHex (c : Nat) : Bool := (0x30 ≤ c && c ≤ 0x39) || (0x41 ≤ c && c ≤ 0x46)

/-- `UXID_PATTERN.fullmatch`. -/
def isValidUxid (value : PyStr) : Bool := value.length == uxidLength && value.all isUpperHex

/-- A cycle id: sixteen upper-case hex characters. -/
abbrev Uxid := { value : PyStr // isValidUxid value = true }

/-- `str.upper()`, as far as the verdict on a uxid goes: beside `a`–`f` only the
ligature `ﬀ` has an upper case made of hex digits, and every other character
keeps at least one that is none. -/
def upperHex (t : PyStr) : PyStr :=
  t.flatMap fun c =>
    if 0x61 ≤ c && c ≤ 0x7a then [c - 0x20] else if c == 0xfb00 then [0x46, 0x46] else [c]

/-- `str(value)`, where it can be a uxid at all: the text of a float holds a
`.`, a `+`, a `-` or the letters of `inf` and `nan`, that of a list or an object
its brackets, and `True` and `False` no sixteen hex digits. -/
def uxidText : Json → Option PyStr
  | .str s => some s
  | .int n => some (pyStr (toString n))
  | _ => none

/-- `WebhookPayload._fill_or_validate_uxid`, and the default of the field when
the key is missing. `minted` is what `new_uxid` would return; `none` is the
`ValueError`. -/
def fillOrValidateUxid (value : Option Json) (minted : Uxid) : Option Uxid :=
  match value with
  | none => some minted
  | some .null => some minted
  | some v =>
      match uxidText v with
      | none => none
      | some s =>
          let text := pyStrip s
          if text.isEmpty then some minted
          else if h : isValidUxid (upperHex text) = true then some ⟨upperHex text, h⟩
          else none

/-- The envelope leaves the id to the broker: every parse mints another one. -/
def leavesUxid (value : Option Json) : Bool :=
  match value with
  | none => true
  | some .null => true
  | some v => (uxidText v).any fun s => (pyStrip s).isEmpty

/-! ## The payload -/

/-- `WebhookPayload` without its `signal_uxid`. -/
structure WebhookBody where
  strategy : String
  symbol : String
  timeframe : String
  timestamp : Timestamp
  position : PositionSchema
  indicators : Option IndicatorsSchema
  inputs : Option InputsSchema
  token : String

structure WebhookPayload extends WebhookBody where
  signalUxid : Uxid

/-- `InputsSchema._coerce_skip_windows`. -/
def coerceSkipWindows : Json → Json
  | .str s =>
      let window := pyStrip s
      if window.isEmpty then .arr [] else .arr [.str window]
  | v => v

def mapKey (key : String) (f : Json → Json) (d : JsonObject) : JsonObject :=
  d.map fun kv => if kv.1 == pyStr key then (kv.1, f kv.2) else kv

/-- The raw object with the repository's `before` validator of `inputs`
applied; the rest of a field's validation is pydantic's. -/
def beforeCoercion (raw : JsonObject) : JsonObject :=
  mapKey "inputs" (fun v => match v with
    | .obj kvs => .obj (mapKey "skip_windows" coerceSkipWindows kvs)
    | v => v) raw

/-- `WebhookPayload(**raw)`, `none` being the `ValidationError`. `coerce` is
pydantic's field validation, `minted` the id `new_uxid` draws if it is asked. -/
def WebhookPayload.validate (coerce : JsonObject → Option WebhookBody) (raw : JsonObject)
    (minted : Uxid) : Option WebhookPayload :=
  match coerce (beforeCoercion raw), fillOrValidateUxid (raw.get? "signal_uxid") minted with
  | some body, some uxid => some { body with signalUxid := uxid }
  | _, _ => none

/-! ## Dumping

`json.loads(model.model_dump_json())`: every field of the model under its own
name, then the extra keys. -/

def dumpOpt {α : Type} (f : α → Json) : Option α → Json
  | some a => f a
  | none => .null

def dumpStr (s : String) : Json := .str (pyStr s)

mutual

/-- An extra value as it comes back from its own serialisation. -/
def Json.dump : Json → Json
  | .float x => x.dump
  | .arr xs => .arr (Json.dumpList xs)
  | .obj kvs => .obj (Json.dumpFields kvs)
  | v => v

def Json.dumpList : List Json → List Json
  | [] => []
  | x :: xs => x.dump :: Json.dumpList xs

def Json.dumpFields : List (PyStr × Json) → List (PyStr × Json)
  | [] => []
  | (k, v) :: kvs => (k, v.dump) :: Json.dumpFields kvs

end

def ScalingSchema.dump (s : ScalingSchema) : Json :=
  .obj [(pyStr "tp", dumpOpt PyFloat.dump s.tp), (pyStr "sl", dumpOpt PyFloat.dump s.sl),
    (pyStr "quantity", dumpOpt PyFloat.dump s.quantity)]

def PositionSchema.dump (p : PositionSchema) : Json :=
  .obj [(pyStr "action", dumpStr p.action.value),
    (pyStr "price", dumpOpt PyFloat.dump p.price),
    (pyStr "quantity", dumpOpt PyFloat.dump p.quantity),
    (pyStr "sl", dumpOpt PyFloat.dump p.sl),
    (pyStr "tp1", dumpOpt PyFloat.dump p.tp1),
    (pyStr "tp2", dumpOpt PyFloat.dump p.tp2),
    (pyStr "risk_percent", dumpOpt PyFloat.dump p.riskPercent),
    (pyStr "tp1_percent", dumpOpt PyFloat.dump p.tp1Percent),
    (pyStr "use_equity_sizing", dumpOpt Json.bool p.useEquitySizing),
    (pyStr "move_sl_to_be", dumpOpt Json.bool p.moveSlToBe),
    (pyStr "is_running", dumpOpt Json.bool p.isRunning),
    (pyStr "is_scale_position", dumpOpt Json.bool p.isScalePosition),
    (pyStr "scale_strategy", dumpOpt dumpStr p.scaleStrategy),
    (pyStr "scaling", dumpOpt ScalingSchema.dump p.scaling)]

def IndicatorsSchema.dump (v : IndicatorsSchema) : Json :=
  .obj ([(pyStr "wt1", dumpOpt PyFloat.dump v.wt1),
    (pyStr "wt2", dumpOpt PyFloat.dump v.wt2),
    (pyStr "close", dumpOpt PyFloat.dump v.close),
    (pyStr "upper", dumpOpt PyFloat.dump v.upper),
    (pyStr "lower", dumpOpt PyFloat.dump v.lower),
    (pyStr "basis", dumpOpt PyFloat.dump v.basis),
    (pyStr "ema200_visual", dumpOpt PyFloat.dump v.ema200Visual),
    (pyStr "ema200_filter", dumpOpt PyFloat.dump v.ema200Filter),
    (pyStr "atr_val", dumpOpt PyFloat.dump v.atrVal),
    (pyStr "in_session", dumpOpt Json.bool v.inSession),
    (pyStr "vol_spike", dumpOpt Json.bool v.volSpike),
    (pyStr "in_cooldown", dumpOpt Json.bool v.inCooldown),
    (pyStr "sl_too_wide", dumpOpt Json.bool v.slTooWide)] ++ Json.dumpFields v.extra)

def InputsSchema.dump (v : InputsSchema) : Json :=
  .obj ([(pyStr "watching_candles", dumpOpt Json.int v.watchingCandles),
    (pyStr "over_wt_value", dumpOpt Json.int v.overWtValue),
    (pyStr "safe_wt_value", dumpOpt Json.int v.safeWtValue),
    (pyStr "use_session", dumpOpt Json.bool v.useSession),
    (pyStr "skip_windows", dumpOpt (fun ws => Json.arr (ws.map dumpStr)) v.skipWindows),
    (pyStr "bb_len", dumpOpt Json.int v.bbLen),
    (pyStr "bb_mult", dumpOpt PyFloat.dump v.bbMult),
    (pyStr "show_imb", dumpOpt Json.bool v.showImb),
    (pyStr "atr_len", dumpOpt Json.int v.atrLen),
    (pyStr "atr_sl_mult", dumpOpt PyFloat.dump v.atrSlMult),
    (pyStr "min_rr_ratio", dumpOpt PyFloat.dump v.minRrRatio),
    (pyStr "risk_percent", dumpOpt PyFloat.dump v.riskPercent),
    (pyStr "tp1_qty_pc", dumpOpt PyFloat.dump v.tp1QtyPc),
    (pyStr "use_max_sl_dist", dumpOpt Json.bool v.useMaxSlDist),
    (pyStr "max_sl_distance", dumpOpt Json.int v.maxSlDistance),
    (pyStr "vol_spike_mult", dumpOpt PyFloat.dump v.volSpikeMult),
    (pyStr "vol_spike_lookback", dumpOpt Json.int v.volSpikeLookback),
    (pyStr "use_vol_filter", dumpOpt Json.bool v.useVolFilter),
    (pyStr "ema_visual_tf", dumpOpt dumpStr v.emaVisualTf),
    (pyStr "ema_filter_tf", dumpOpt dumpStr v.emaFilterTf),
    (pyStr "use_cooldown", dumpOpt Json.bool v.useCooldown),
    (pyStr "cooldown_bars", dumpOpt Json.int v.cooldownBars)] ++ Json.dumpFields v.extra)

def WebhookPayload.dump (p : WebhookPayload) : JsonObject :=
  [(pyStr "strategy", dumpStr p.strategy),
    (pyStr "symbol", dumpStr p.symbol),
    (pyStr "timeframe", dumpStr p.timeframe),
    (pyStr "timestamp", .str p.timestamp.jsonText),
    (pyStr "signal_uxid", .str p.signalUxid.1),
    (pyStr "position", p.position.dump),
    (pyStr "indicators", dumpOpt IndicatorsSchema.dump p.indicators),
    (pyStr "inputs", dumpOpt InputsSchema.dump p.inputs),
    (pyStr "token", dumpStr p.token)]

/-! ## A stored id survives its re-parse -/

theorem isPySpace_of_isUpperHex {c : Nat} (h : isUpperHex c = true) : isPySpace c = false := by
  simp only [isUpperHex, Bool.or_eq_true, Bool.and_eq_true, decide_eq_true_eq] at h
  have hlo : 0x30 ≤ c := by omega
  have hhi : c ≤ 0x46 := by omega
  simp only [isPySpace, Bool.or_eq_false_iff, Bool.and_eq_false_iff, decide_eq_false_iff_not,
    beq_eq_false_iff_ne]
  omega

theorem pyStrip_uxid {t : PyStr} (h : t.all isUpperHex = true) : pyStrip t = t :=
  trim_eq_self fun c hc => isPySpace_of_isUpperHex (List.all_eq_true.1 h c hc)

theorem upperHex_uxid {t : PyStr} (h : t.all isUpperHex = true) : upperHex t = t := by
  induction t with
  | nil => rfl
  | cons c t ih =>
      simp only [List.all_cons, Bool.and_eq_true] at h
      have hc := h.1
      simp only [isUpperHex, Bool.or_eq_true, Bool.and_eq_true, decide_eq_true_eq] at hc
      have h1 : (decide (0x61 ≤ c) && decide (c ≤ 0x7a)) = false := by
        simp only [Bool.and_eq_false_iff, decide_eq_false_iff_not]
        omega
      have h2 : (c == 0xfb00) = false := by
        simp only [beq_eq_false_iff_ne]
        omega
      rw [upperHex, List.flatMap_cons, h1, h2]
      exact congrArg (c :: ·) (ih h.2)

/-- Validating an id that was stored gives it back, whatever is minted
meanwhile. -/
theorem fillOrValidateUxid_stored (u minted : Uxid) :
    fillOrValidateUxid (some (.str u.1)) minted = some u := by
  obtain ⟨t, ht⟩ := u
  have hv := ht
  simp only [isValidUxid, Bool.and_eq_true, beq_iff_eq] at hv
  have hne : t.isEmpty = false := by
    cases t with
    | nil => simp [uxidLength] at hv
    | cons => rfl
  simp only [fillOrValidateUxid, uxidText, pyStrip_uxid hv.2, upperHex_uxid hv.2, hne,
    Bool.false_eq_true, if_false, ht, dif_pos]

theorem get?_dump_signalUxid (p : WebhookPayload) :
    JsonObject.get? p.dump "signal_uxid" = some (.str p.signalUxid.1) := by
  have h1 : (pyStr "strategy" == pyStr "signal_uxid") = false := by decide
  have h2 : (pyStr "symbol" == pyStr "signal_uxid") = false := by decide
  have h3 : (pyStr "timeframe" == pyStr "signal_uxid") = false := by decide
  have h4 : (pyStr "timestamp" == pyStr "signal_uxid") = false := by decide
  simp [JsonObject.get?, WebhookPayload.dump, h1, h2, h3, h4]

/-- A payload rebuilt from its own dump keeps its cycle. -/
theorem validate_dump_signalUxid {coerce : JsonObject → Option WebhookBody}
    {p q : WebhookPayload} {minted : Uxid}
    (h : WebhookPayload.validate coerce p.dump minted = some q) :
    q.signalUxid = p.signalUxid := by
  simp only [WebhookPayload.validate, get?_dump_signalUxid, fillOrValidateUxid_stored] at h
  split at h
  · next hu =>
      simp only [Option.some.injEq] at h hu
      subst h hu
      rfl
  · cases h

/-- An envelope that names its cycle names the same one at every parse. -/
theorem fillOrValidateUxid_named {value : Option Json} (h : leavesUxid value = false)
    (m m' : Uxid) : fillOrValidateUxid value m = fillOrValidateUxid value m' := by
  cases value with
  | none => simp [leavesUxid] at h
  | some v =>
      cases v <;> simp_all [leavesUxid, fillOrValidateUxid, uxidText]

theorem validate_named {coerce : JsonObject → Option WebhookBody} {raw : JsonObject}
    (h : leavesUxid (raw.get? "signal_uxid") = false) (m m' : Uxid) :
    WebhookPayload.validate coerce raw m = WebhookPayload.validate coerce raw m' := by
  rw [WebhookPayload.validate, WebhookPayload.validate, fillOrValidateUxid_named h m m']

/-- What is minted decides neither whether an envelope validates nor anything but
its cycle. -/
theorem fillOrValidateUxid_isSome (value : Option Json) (m m' : Uxid) :
    (fillOrValidateUxid value m).isSome = (fillOrValidateUxid value m').isSome := by
  unfold fillOrValidateUxid
  split
  · rfl
  · rfl
  · split
    · rfl
    · next s _ =>
        by_cases he : (pyStrip s).isEmpty = true
        · simp only [he, if_true, Option.isSome_some]
        · simp only [he, if_false, Bool.false_eq_true]

theorem validate_body (coerce : JsonObject → Option WebhookBody) (raw : JsonObject)
    (m m' : Uxid) :
    (WebhookPayload.validate coerce raw m).map WebhookPayload.toWebhookBody =
      (WebhookPayload.validate coerce raw m').map WebhookPayload.toWebhookBody := by
  have hsome := fillOrValidateUxid_isSome (raw.get? "signal_uxid") m m'
  unfold WebhookPayload.validate
  cases coerce (beforeCoercion raw) with
  | none => rfl
  | some body =>
      cases h : fillOrValidateUxid (raw.get? "signal_uxid") m with
      | none =>
          rw [h, Option.isSome_none] at hsome
          have hnone := Option.isNone_iff_eq_none.1 (Option.isSome_eq_false_iff.1 hsome.symm)
          rw [hnone]
      | some u =>
          rw [h, Option.isSome_some] at hsome
          obtain ⟨u', hu'⟩ := Option.isSome_iff_exists.1 hsome.symm
          rw [hu']
          rfl

end TradingBroker
