import TradingBroker.Lib.Datetime
import TradingBroker.Lib.DecimalContext
import TradingBroker.Schemas.Core

/-!
# What messages show

The small renderers the messages are put together from: `format_number`
(`broker/helpers/message_formatter.py`), `broker/helpers/timezone_helper.py`, and the
glyphs of `broker/helpers/signal_helper.py`. A float's digits are those `str` writes it
with, and are taken as given, like the default offset of the settings.

A `float` is a double, so the offset of the display zone is rounded as `float()` rounds
the text it is read from, and knows the sign of a zero (`Hours`). `timedelta` then
rounds it once more, to whole microseconds (`nearest`), and it is this that the times
are moved by.
-/

namespace TradingBroker.Helpers

open Lib.Numerals Lib.Datetime

/-- A `float` that is a number; `negative` tells its two zeros apart. -/
structure Hours where
  negative : Bool
  value : Rat

/-- What is taken as given: the decimal `str` spells a float with, `str.isprintable`
beyond ASCII, and `DEFAULT_TIMEZONE_OFFSET_HOURS`. -/
structure Env where
  spell : Rat → Decimal
  printable : Nat → Bool
  defaultHours : Hours

/-! ## Numbers -/

theorem defaultPrec_pos : 0 < 28 := by decide

theorem defaultEmin_le : (-999999 : Int) ≤ 0 := by decide

theorem defaultPrec_le : ((28 : Nat) : Int) ≤ 999999 := by decide

/-- `decimal.getcontext()` where nothing sets one. -/
def defaultContext : Context :=
  ⟨28, -999999, 999999, defaultPrec_pos, defaultEmin_le, defaultPrec_le⟩

/-- `format_number` of a column, which has fewer digits than the context. -/
def formatNumber : Option Decimal → String
  | none => "—"
  | some d => d.plain

/-- `format_number` of a float, `none` being the `InvalidOperation` of too large a one, or the
`TypeError` that compares the exponent of what is not a number. -/
def formatFloat (spell : Rat → Decimal) : PyFloat → Option String
  | .finite q => defaultContext.render (spell q)
  | _ => none

/-- The decimal point, the fraction and the exponent of a float literal; each part is
digits or nothing, and the first two are not both nothing. -/
def pyFloatDigits (t : PyStr) : Option (Nat × Int) := do
  let mantissa := t.takeWhile fun c => c != 0x65 && c != 0x45
  let exponent := t.dropWhile fun c => c != 0x65 && c != 0x45
  let whole := mantissa.takeWhile (· != 0x2e)
  let fraction := (mantissa.dropWhile (· != 0x2e)).drop 1
  let part := fun ds : PyStr => if ds.isEmpty then some 0 else pyDigits false 0 ds
  if whole.isEmpty ∧ fraction.isEmpty then none
  else
    let w ← part whole
    let f ← part fraction
    let places := (fraction.filter (· != 0x5f)).length
    let e : Int ←
      match exponent.drop 1 with
      | [] => if exponent.isEmpty then some 0 else none
      | 0x2d :: ds => (pyDigits false 0 ds).map fun n => -(n : Int)
      | 0x2b :: ds => (pyDigits false 0 ds).map fun n => (n : Int)
      | ds => (pyDigits false 0 ds).map fun n => (n : Int)
    return (w * tenPow places + f, e - places)

def lowerCode (c : Nat) : Nat := if 0x41 ≤ c && c ≤ 0x5a then c + 0x20 else c

/-- The double nearest to `n / d`, with a sign. -/
def nearest (negative : Bool) (n d : Nat) : PyFloat :=
  let q := roundDouble n d
  if q < (2 ^ 1024 : Nat) then .finite (if negative then -q else q)
  else if negative then .negInf else .posInf

/-- `float(text)` and its sign, `none` being the `ValueError`. -/
def pyFloat (text : String) : Option (Bool × PyFloat) :=
  let (negative, body) :=
    match trim isNumberSpace (pyStr text) with
    | 0x2d :: cs => (true, cs)
    | 0x2b :: cs => (false, cs)
    | cs => (false, cs)
  let word := body.map lowerCode
  if word = pyStr "inf" ∨ word = pyStr "infinity" then
    some (negative, if negative then .negInf else .posInf)
  else if word = pyStr "nan" then some (negative, .nan)
  else (pyFloatDigits body).map fun (v, e) =>
    (negative, nearest negative (v * tenPow e.toNat) (tenPow (-e).toNat))

/-! ## Times -/

/-- `parse_offset_hours`. -/
def parseOffsetHours (defaultHours : Hours) : Option String → Hours
  | none => defaultHours
  | some raw =>
      if (pyStrip (pyStr raw)).isEmpty then defaultHours
      else
        match pyFloat raw with
        | some (negative, .finite hours) =>
            if hours.num.natAbs < 24 * hours.den then ⟨negative, hours⟩ else defaultHours
        | _ => defaultHours

/-- `format_utc_label`. -/
def formatUtcLabel (hours : Hours) : String :=
  "UTC" ++ (if 0 ≤ hours.value.num then "+" else "") ++
    (if hours.value.num = 0 ∧ hours.negative = true then "-0" else formatGeneral hours.value)

inductive TimeError where
  | value
  | overflow
  deriving DecidableEq

/-- `to_utc`, of a time and the offset it comes with. -/
def toUtc (t : Civil × Option Int) : Except TimeError Civil :=
  match t.2 with
  | none => .ok t.1
  | some offset =>
      if offset = 0 then .ok t.1
      else
        match t.1.shift (-offset) with
        | some c => .ok c
        | none => .error .overflow

/-- `timedelta(hours=hours)`, in microseconds: those of the whole hours exactly, those of the rest
as a double. -/
def hoursDelta (hours : Hours) : Int :=
  let n := hours.value.num.natAbs
  let d := hours.value.den
  let micros := (n / d * 3600000000 : Nat) + roundDouble (n % d * 3600000000) d
  roundInt (if hours.value.num < 0 then -micros else micros)

/-- `c.astimezone(timezone(timedelta(hours=hours)))` of a time in UTC. -/
def astimezone (c : Civil) (hours : Hours) : Except TimeError Civil :=
  if 86400000000 ≤ (hoursDelta hours).natAbs then .error .value
  else
    match c.shift (hoursDelta hours) with
    | some c => .ok c
    | none => .error .overflow

/-- `strftime("%Y-%m-%d %H:%M:%S")` and the zone. -/
def showTime (c : Civil) (hours : Hours) : String :=
  String.ofList (c.dateText ++ ' ' :: c.clockText) ++ " (" ++ formatUtcLabel hours ++ ")"

/-- `format_notification_time`. -/
def formatNotificationTime (defaultHours : Hours) (t : Civil × Option Int)
    (offset : Option String) : Except TimeError String := do
  let hours := parseOffsetHours defaultHours offset
  let utc ← toUtc t
  let shown ← astimezone utc hours
  return showTime shown hours

/-! ## Glyphs -/

namespace Emoji

def long : String := "🟩"
def short : String := "🟥"
def tp1 : String := "🎯"
def tp2 : String := "🚀"
def rSl : String := "🛡️"
def sl : String := "⭕"
def flat : String := "🏳️"
def defaultSignal : String := "📡"
def barChart : String := "📊"
def cycleRunning : String := "⏳"
def cycleClosed : String := "🏁"
def cycleRetry : String := "🔄"
def flagOn : String := "🟢"
def flagOff : String := "🔴"
def tradeOpened : String := "🔵"
def tradePartiallyClosed : String := "🎯"
def tradeClosed : String := "🏁"
def tradeFlat : String := "🏳️"
def tradeRejected : String := "🚫"

end Emoji

/-- `action_to_emoji`. -/
def actionToEmoji : SignalAction → String
  | .long => Emoji.long
  | .short => Emoji.short
  | .tp1 => Emoji.tp1
  | .tp2 => Emoji.tp2
  | .rSl => Emoji.rSl
  | .sl => Emoji.sl
  | .flat => Emoji.flat

end TradingBroker.Helpers
