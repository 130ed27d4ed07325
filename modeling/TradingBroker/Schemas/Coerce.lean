import TradingBroker.Schemas.Webhook

/-!
# Reading a payload's fields

What pydantic makes of the declarations in `broker/schemas/webhook_schema.py`: the value
under a field's name, its default if the key is missing, `None` for the `null` of an
`Optional`, and the keys nobody declared kept where the model says `extra="allow"`. A value
of the JSON type a field is declared with is taken as it stands. What else pydantic lets
pass in its lax mode, and how it reads a date, is `LaxReads`.

A model is read field by field in the order of its declaration, and the first field that
does not validate ends it: only whether a payload is accepted is told, and as what, not
which errors pydantic would list. That is all the program looks at. Under its keys nobody
declared a value is kept as it is, but a key of them must be one UTF-8 can spell
(`readExtra`).
-/

namespace TradingBroker

/-- Pydantic's readings of a value that is not of the field's own JSON type, of a
`datetime`, and `float(n)`, which raises for an `int` beyond the largest float. -/
structure LaxReads where
  bool : Json → Option Bool
  int : Json → Option Int
  float : Json → Option PyFloat
  datetime : Json → Option Timestamp
  ofInt : Int → Option Rat

/-! ## Values -/

/-- The text of these code points, if UTF-8 can spell it: none is a lone surrogate. -/
def decodeText (t : PyStr) : Option String :=
  if t.all (fun c => decide c.isValidChar) then some (String.ofList (t.map Char.ofNat))
  else none

/-- A `str` field. Pydantic would take a lone surrogate along; the models of this development are of
texts without one, and a payload that has one in a declared text counts as refused. -/
def readStr : Json → Option String
  | .str s => decodeText s
  | _ => none

def readStrs : Json → Option (List String)
  | .arr xs => xs.mapM readStr
  | _ => none

/-- `SignalActionEnum(value)`. -/
def readAction : Json → Option SignalAction
  | .str s =>
      [SignalAction.long, .short, .tp1, .tp2, .rSl, .sl, .flat].find? fun a =>
        pyStr a.value == s
  | _ => none

namespace LaxReads

variable (co : LaxReads)

def readBool : Json → Option Bool
  | .bool b => some b
  | v => co.bool v

def readInt : Json → Option Int
  | .int n => some n
  | v => co.int v

def readFloat : Json → Option PyFloat
  | .float x => some x
  | .int n => (co.ofInt n).map .finite
  | v => co.float v

end LaxReads

/-! ## Fields -/

def requiredField {α : Type} (read : Json → Option α) (kvs : JsonObject) (name : String) :
    Option α :=
  (kvs.get? name).bind read

/-- `Optional[..] = None`. -/
def optionalField {α : Type} (read : Json → Option α) (kvs : JsonObject) (name : String) :
    Option (Option α) :=
  match kvs.get? name with
  | none => some none
  | some .null => some none
  | some v => (read v).map some

def readModel {α : Type} (ofFields : JsonObject → Option α) : Json → Option α
  | .obj kvs => ofFields kvs
  | _ => none

/-- The items whose keys the model does not declare. -/
def extraOf (declared : List String) (kvs : JsonObject) : JsonObject :=
  kvs.filter fun kv => !declared.any fun name => pyStr name == kv.1

/-- Pydantic keeps them, but refuses a key that UTF-8 cannot spell. -/
def readExtra (declared : List String) (kvs : JsonObject) : Option JsonObject :=
  if (extraOf declared kvs).all fun kv => (decodeText kv.1).isSome then some (extraOf declared kvs)
  else none

/-! ## Models -/

section
variable (co : LaxReads)

def ScalingSchema.ofFields (kvs : JsonObject) : Option ScalingSchema := do
  let tp ← optionalField co.readFloat kvs "tp"
  let sl ← optionalField co.readFloat kvs "sl"
  let quantity ← optionalField co.readFloat kvs "quantity"
  return { tp, sl, quantity }

def PositionSchema.ofFields (kvs : JsonObject) : Option PositionSchema := do
  let action ← requiredField readAction kvs "action"
  let price ← optionalField co.readFloat kvs "price"
  let quantity ← optionalField co.readFloat kvs "quantity"
  let sl ← optionalField co.readFloat kvs "sl"
  let tp1 ← optionalField co.readFloat kvs "tp1"
  let tp2 ← optionalField co.readFloat kvs "tp2"
  let riskPercent ← optionalField co.readFloat kvs "risk_percent"
  let tp1Percent ← optionalField co.readFloat kvs "tp1_percent"
  let useEquitySizing ← optionalField co.readBool kvs "use_equity_sizing"
  let moveSlToBe ← optionalField co.readBool kvs "move_sl_to_be"
  let isRunning ← optionalField co.readBool kvs "is_running"
  let isScalePosition ← optionalField co.readBool kvs "is_scale_position"
  let scaleStrategy ← optionalField readStr kvs "scale_strategy"
  let scaling ← optionalField (readModel (ScalingSchema.ofFields co)) kvs "scaling"
  return { action, price, quantity, sl, tp1, tp2, riskPercent, tp1Percent, useEquitySizing,
           moveSlToBe, isRunning, isScalePosition, scaleStrategy, scaling }

def IndicatorsSchema.declared : List String :=
  ["wt1", "wt2", "close", "upper", "lower", "basis", "ema200_visual", "ema200_filter",
    "atr_val", "in_session", "vol_spike", "in_cooldown", "sl_too_wide"]

def IndicatorsSchema.ofFields (kvs : JsonObject) : Option IndicatorsSchema := do
  let wt1 ← optionalField co.readFloat kvs "wt1"
  let wt2 ← optionalField co.readFloat kvs "wt2"
  let close ← optionalField co.readFloat kvs "close"
  let upper ← optionalField co.readFloat kvs "upper"
  let lower ← optionalField co.readFloat kvs "lower"
  let basis ← optionalField co.readFloat kvs "basis"
  let ema200Visual ← optionalField co.readFloat kvs "ema200_visual"
  let ema200Filter ← optionalField co.readFloat kvs "ema200_filter"
  let atrVal ← optionalField co.readFloat kvs "atr_val"
  let inSession ← optionalField co.readBool kvs "in_session"
  let volSpike ← optionalField co.readBool kvs "vol_spike"
  let inCooldown ← optionalField co.readBool kvs "in_cooldown"
  let slTooWide ← optionalField co.readBool kvs "sl_too_wide"
  let extra ← readExtra IndicatorsSchema.declared kvs
  return { wt1, wt2, close, upper, lower, basis, ema200Visual, ema200Filter, atrVal,
           inSession, volSpike, inCooldown, slTooWide, extra }

def InputsSchema.declared : List String :=
  ["watching_candles", "over_wt_value", "safe_wt_value", "use_session", "skip_windows",
    "bb_len", "bb_mult", "show_imb", "atr_len", "atr_sl_mult", "min_rr_ratio", "risk_percent",
    "tp1_qty_pc", "use_max_sl_dist", "max_sl_distance", "vol_spike_mult",
    "vol_spike_lookback", "use_vol_filter", "ema_visual_tf", "ema_filter_tf", "use_cooldown",
    "cooldown_bars"]

def InputsSchema.ofFields (kvs : JsonObject) : Option InputsSchema := do
  let watchingCandles ← optionalField co.readInt kvs "watching_candles"
  let overWtValue ← optionalField co.readInt kvs "over_wt_value"
  let safeWtValue ← optionalField co.readInt kvs "safe_wt_value"
  let useSession ← optionalField co.readBool kvs "use_session"
  let skipWindows ← optionalField readStrs kvs "skip_windows"
  let bbLen ← optionalField co.readInt kvs "bb_len"
  let bbMult ← optionalField co.readFloat kvs "bb_mult"
  let showImb ← optionalField co.readBool kvs "show_imb"
  let atrLen ← optionalField co.readInt kvs "atr_len"
  let atrSlMult ← optionalField co.readFloat kvs "atr_sl_mult"
  let minRrRatio ← optionalField co.readFloat kvs "min_rr_ratio"
  let riskPercent ← optionalField co.readFloat kvs "risk_percent"
  let tp1QtyPc ← optionalField co.readFloat kvs "tp1_qty_pc"
  let useMaxSlDist ← optionalField co.readBool kvs "use_max_sl_dist"
  let maxSlDistance ← optionalField co.readInt kvs "max_sl_distance"
  let volSpikeMult ← optionalField co.readFloat kvs "vol_spike_mult"
  let volSpikeLookback ← optionalField co.readInt kvs "vol_spike_lookback"
  let useVolFilter ← optionalField co.readBool kvs "use_vol_filter"
  let emaVisualTf ← optionalField readStr kvs "ema_visual_tf"
  let emaFilterTf ← optionalField readStr kvs "ema_filter_tf"
  let useCooldown ← optionalField co.readBool kvs "use_cooldown"
  let cooldownBars ← optionalField co.readInt kvs "cooldown_bars"
  let extra ← readExtra InputsSchema.declared kvs
  return { watchingCandles, overWtValue, safeWtValue, useSession, skipWindows, bbLen, bbMult,
           showImb, atrLen, atrSlMult, minRrRatio, riskPercent, tp1QtyPc, useMaxSlDist,
           maxSlDistance, volSpikeMult, volSpikeLookback, useVolFilter, emaVisualTf,
           emaFilterTf, useCooldown, cooldownBars, extra }

/-- Every field of `WebhookPayload` but `signal_uxid`; keys it does not declare are
dropped. -/
def WebhookBody.ofFields (kvs : JsonObject) : Option WebhookBody := do
  let strategy ← requiredField readStr kvs "strategy"
  let symbol ← requiredField readStr kvs "symbol"
  let timeframe ← requiredField readStr kvs "timeframe"
  let timestamp ← requiredField co.datetime kvs "timestamp"
  let position ← requiredField (readModel (PositionSchema.ofFields co)) kvs "position"
  let indicators ← optionalField (readModel (IndicatorsSchema.ofFields co)) kvs "indicators"
  let inputs ← optionalField (readModel (InputsSchema.ofFields co)) kvs "inputs"
  let token ← requiredField readStr kvs "token"
  return { strategy, symbol, timeframe, timestamp, position, indicators, inputs, token }

/-- `WebhookPayload(**raw)`. -/
def WebhookPayload.parse (raw : JsonObject) (minted : Uxid) : Option WebhookPayload :=
  WebhookPayload.validate (WebhookBody.ofFields co) raw minted

end

/-! ## Alerts for the runs below -/

namespace Sample

/-- Coercions that read one date and nothing else. -/
def readsDate (date : Timestamp) (ofInt : Int → Option Rat) : LaxReads where
  bool _ := none
  int _ := none
  float _ := none
  datetime
    | .str s => if s = date.jsonText then some date else none
    | _ => none
  ofInt

/-- They read the date again where it is printed. -/
theorem readsDate_again (date : Timestamp) (ofInt : Int → Option Rat) (v : Json) (t : Timestamp)
    (h : (readsDate date ofInt).datetime v = some t) :
    (readsDate date ofInt).datetime (.str t.jsonText) = some t := by
  cases v with
  | str s =>
      simp only [readsDate] at h
      split at h
      · cases h
        exact if_pos rfl
      · cases h
  | _ => cases h

/-- An entry that says at most its price. -/
def long (price : Option PyFloat) : PositionSchema :=
  ⟨.long, price, none, none, none, none, none, none, none, none, none, none, none, none⟩

/-- Indicators no model declares. -/
def undeclared (extra : JsonObject) : IndicatorsSchema where
  wt1 := none
  wt2 := none
  close := none
  upper := none
  lower := none
  basis := none
  ema200Visual := none
  ema200Filter := none
  atrVal := none
  inSession := none
  volSpike := none
  inCooldown := none
  slTooWide := none
  extra

end Sample

end TradingBroker
