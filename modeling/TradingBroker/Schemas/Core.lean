import Mathlib.Data.List.DropRight

/-!
# Values the broker moves around

Python's values as the broker handles them. A `str` that came out of
`json.loads` is a sequence of code points and may hold lone surrogates, which is
what `PyStr` is. A declared `str` field is a `String`, which holds none: what
becomes of a payload that has one in such a field is said where fields are read
(`readStr`). A `float` is a rational or one of the three values that are not
numbers; the one text that the broker itself reads as a `float` and computes with,
a timezone offset, is rounded where it is read (`roundDouble`). A `datetime` is
its instant together with the text `isoformat()` gives it.
-/

namespace TradingBroker

/-- `SignalActionEnum`. -/
inductive SignalAction where
  | long | short | tp1 | tp2 | rSl | sl | flat
  deriving DecidableEq, Repr

def SignalAction.value : SignalAction → String
  | .long => "LONG"
  | .short => "SHORT"
  | .tp1 => "TP1"
  | .tp2 => "TP2"
  | .rSl => "R_SL"
  | .sl => "SL"
  | .flat => "FLAT"

/-- `SignalStatusEnum`. -/
inductive SignalStatus where
  | queued | published | failed
  deriving DecidableEq, Repr

/-- `MarketTypeEnum`. -/
inductive MarketType where
  | forex | crypto
  deriving DecidableEq, Repr

def MarketType.value : MarketType → String
  | .forex => "FOREX"
  | .crypto => "CRYPTO"

/-- The id a worker is addressed by on the SYSTEM subject. -/
def composeWorkerId (market : MarketType) (gateway accountId : String) : String :=
  market.value ++ "-" ++ gateway ++ "-" ++ accountId

/-- A Python `str`: its code points. -/
abbrev PyStr := List Nat

def pyStr (s : String) : PyStr := s.toList.map Char.toNat

theorem pyStr_append (s t : String) : pyStr (s ++ t) = pyStr s ++ pyStr t := by
  rw [pyStr, String.toList_append, List.map_append]
  rfl

theorem pyStr_inj {s t : String} (h : pyStr s = pyStr t) : s = t :=
  String.toList_inj.1 (List.map_injective_iff.2 (fun _ _ => Char.toNat_inj.1) h)

/-- The characters `str.strip()` removes. -/
def isPySpace (c : Nat) : Bool :=
  (0x09 ≤ c && c ≤ 0x0d) || (0x1c ≤ c && c ≤ 0x20) || c == 0x85 || c == 0xa0 ||
    c == 0x1680 || (0x2000 ≤ c && c ≤ 0x200a) || c == 0x2028 || c == 0x2029 ||
    c == 0x202f || c == 0x205f || c == 0x3000

/-- A text without the blanks around it. -/
def trim {α : Type} (space : α → Bool) (cs : List α) : List α :=
  ((cs.dropWhile space).reverse.dropWhile space).reverse

theorem trim_subset {α : Type} (space : α → Bool) (cs : List α) : trim space cs ⊆ cs := by
  intro c hc
  rw [trim, List.mem_reverse] at hc
  exact List.dropWhile_subset _ (List.mem_reverse.1 (List.dropWhile_subset _ hc))

theorem trim_eq_self {α : Type} {space : α → Bool} {cs : List α}
    (h : ∀ c ∈ cs, space c = false) : trim space cs = cs := by
  have hdrop : ∀ {ds : List α}, (∀ c ∈ ds, space c = false) → ds.dropWhile space = ds := by
    intro ds hds
    cases ds with
    | nil => rfl
    | cons d ds => exact List.dropWhile_cons_of_neg (by simp [hds d List.mem_cons_self])
  rw [trim, hdrop h, hdrop fun c hc => h c (List.mem_reverse.1 hc), List.reverse_reverse]

theorem dropWhile_of_isPrefix {α : Type} {p : α → Bool} {s t : List α}
    (h : s <+: t.dropWhile p) : s.dropWhile p = s := by
  cases s with
  | nil => rfl
  | cons c s =>
      obtain ⟨rest, heq⟩ := h
      have hc : p c = false := by
        cases hp : p c with
        | false => rfl
        | true =>
            have hagain := List.dropWhile_idempotent p (l := t)
            rw [← heq, List.cons_append, List.dropWhile_cons_of_pos hp] at hagain
            have hlen := congrArg List.length hagain
            have hle := (List.dropWhile_suffix p (l := s ++ rest)).length_le
            simp only [List.length_cons, List.length_append] at hlen hle
            omega
      rw [List.dropWhile_cons_of_neg (by simp [hc])]

theorem trim_trim {α : Type} (space : α → Bool) (cs : List α) :
    trim space (trim space cs) = trim space cs := by
  have hpre : trim space cs <+: cs.dropWhile space := by
    have h := List.reverse_prefix.2
      (List.dropWhile_suffix space (l := (cs.dropWhile space).reverse))
    rwa [List.reverse_reverse] at h
  rw [trim, dropWhile_of_isPrefix hpre]
  simp only [trim, List.reverse_reverse, List.dropWhile_idempotent]

/-- `str.strip()`, -/
def pyStrip (t : PyStr) : PyStr := trim isPySpace t

/-- and of a text that is a `String`. -/
def stripped (s : String) : String := String.ofList (trim (fun c => isPySpace c.toNat) s.toList)

/-- `s.split(sep)` for a one-character separator. -/
def pySplit (sep : Char) (s : String) : List String :=
  (s.toList.splitOn sep).map String.ofList

/-- `sep.join(parts)` for a one-character separator. -/
def pyJoin (sep : Char) (parts : List String) : String :=
  String.ofList ([sep].intercalate (parts.map String.toList))

/-- The zeros of Unicode's decimal digits; each is followed by its one to nine. Unicode is that of
Python 3.13, 15.1. -/
def decimalZeros : List Nat :=
  [0x30, 0x660, 0x6f0, 0x7c0, 0x966, 0x9e6, 0xa66, 0xae6, 0xb66, 0xbe6, 0xc66, 0xce6, 0xd66,
    0xde6, 0xe50, 0xed0, 0xf20, 0x1040, 0x1090, 0x17e0, 0x1810, 0x1946, 0x19d0, 0x1a80,
    0x1a90, 0x1b50, 0x1bb0, 0x1c40, 0x1c50, 0xa620, 0xa8d0, 0xa900, 0xa9d0, 0xa9f0, 0xaa50,
    0xabf0, 0xff10, 0x104a0, 0x10d30, 0x11066, 0x110f0, 0x11136, 0x111d0, 0x112f0, 0x11450,
    0x114d0, 0x11650, 0x116c0, 0x11730, 0x118e0, 0x11950, 0x11c50, 0x11d50, 0x11da0, 0x11f50,
    0x16a60, 0x16ac0, 0x16b50, 0x1d7ce, 0x1d7d8, 0x1d7e2, 0x1d7ec, 0x1d7f6, 0x1e140, 0x1e2f0,
    0x1e4f0, 0x1e950, 0x1fbf0]

def pyDigit (c : Nat) : Option Nat :=
  decimalZeros.findSome? fun z => if z ≤ c ∧ c ≤ z + 9 then some (c - z) else none

/-- The digits of an `int` literal, a single underscore allowed between two of
them. `afterDigit` says whether one came right before. -/
def pyDigits (afterDigit : Bool) (value : Nat) : PyStr → Option Nat
  | [] => if afterDigit then some value else none
  | c :: cs =>
      if c = 0x5f then (if afterDigit then pyDigits false value cs else none)
      else
        match pyDigit c with
        | some d => pyDigits true (10 * value + d) cs
        | none => none

/-- What `int()` and `float()` take for a blank, which the four separators of ASCII are not. -/
def isNumberSpace (c : Nat) : Bool := isPySpace c && !(0x1c ≤ c && c ≤ 0x1f)

/-- `int(text)`, `none` being the `ValueError`; more than 4300 digits are one. -/
def pyInt (text : String) : Option Int :=
  let (negative, body) :=
    match trim isNumberSpace (pyStr text) with
    | 0x2d :: cs => (true, cs)
    | 0x2b :: cs => (false, cs)
    | cs => (false, cs)
  if 4300 < (body.filter (· != 0x5f)).length then none
  else (pyDigits false 0 body).map fun n => if negative then -(n : Int) else n

inductive PyFloat where
  | finite (q : Rat)
  | nan
  | posInf
  | negInf
  deriving DecidableEq

/-- `x or 0.0` for an optional float: `None` and a zero are falsy, a NaN is
not. -/
def PyFloat.orZero : Option PyFloat → PyFloat
  | some x => x
  | none => .finite 0

/-- What `json.loads` returns. -/
inductive Json where
  | null
  | bool (b : Bool)
  | int (n : Int)
  | float (x : PyFloat)
  | str (s : PyStr)
  | arr (xs : List Json)
  | obj (kvs : List (PyStr × Json))

/-- A `dict`'s items; its keys are distinct, so the first match is the only
one. -/
abbrev JsonObject := List (PyStr × Json)

/-- `d.get(key)`. -/
def JsonObject.get? (d : JsonObject) (key : String) : Option Json :=
  (d.find? fun kv => kv.1 == pyStr key).map Prod.snd

/-- `json.loads(json.dumps(..))` on a value pydantic serialises as it stands:
what is not a number has no JSON spelling and comes back as `null`. -/
def PyFloat.dump : PyFloat → Json
  | .finite q => .float (.finite q)
  | _ => .null

/-- The characters of `datetime.isoformat()`. -/
def isIsoChar (c : Char) : Bool :=
  c.isDigit || c == '-' || c == ':' || c == '.' || c == '+' || c == 'T'

/-- A `datetime`: microseconds since `0001-01-01T00:00:00Z`, and its
`isoformat()`, at most `YYYY-MM-DDTHH:MM:SS.ffffff+HH:MM:SS.ffffff`. -/
structure Timestamp where
  instant : Int
  isoformat : String
  length_le : isoformat.length ≤ 42
  iso_chars : isoformat.toList.all isIsoChar = true
  deriving DecidableEq

/-- The text pydantic's JSON mode gives a `datetime`: its `isoformat()`, with
UTC spelled `Z`. -/
def Timestamp.jsonText (t : Timestamp) : PyStr :=
  let text := t.isoformat.toList
  if "+00:00".toList.isSuffixOf text then
    (text.take (text.length - 6) ++ ['Z']).map Char.toNat
  else text.map Char.toNat

end TradingBroker
