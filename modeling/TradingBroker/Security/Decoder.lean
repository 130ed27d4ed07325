import TradingBroker.Security.Redaction

/-!
# The JSON decoder

`json.loads` as its scanner in C reads a text: from the left, in one pass, each value by its first
character. A scanner is given what is left of the text and says what is left behind the value, or
what is left from where it stopped and the message it stopped with; the position of an error is
how much shorter that is than the text. Objects and arrays within each other are bounded by the
interpreter's limit on recursion.

What is kept of an error is where it happened, since the window is cut around that place.
The parts of the decoder follow the source's order: strings with their escapes, numbers by
the longest text that is one, then arrays and objects with a scanner of what is within as
an argument, and the recursion limit counts those.
-/

namespace TradingBroker.Security

/-- What becomes of a scan: `JSONDecodeError` is `error`, and the other two are the `ValueError` of
an integer of too many digits and the `RecursionError`. -/
inductive Outcome (α : Type) where
  | ok (value : α) (rest : PyStr)
  | error (msg : String) (left : PyStr)
  | valueError
  | recursionError
  deriving DecidableEq

def Outcome.bind {α β : Type} (o : Outcome α) (f : α → PyStr → Outcome β) : Outcome β :=
  match o with
  | .ok value rest => f value rest
  | .error msg left => .error msg left
  | .valueError => .valueError
  | .recursionError => .recursionError

theorem Outcome.ok_bind {α β : Type} (value : α) (rest : PyStr) (f : α → PyStr → Outcome β) :
    (Outcome.ok value rest).bind f = f value rest := rfl

/-! ## Messages -/

def expectingValue : String := "Expecting value"
def expectingName : String := "Expecting property name enclosed in double quotes"
def expectingColon : String := "Expecting ':' delimiter"
def expectingComma : String := "Expecting ',' delimiter"
def trailingInObject : String := "Illegal trailing comma before end of object"
def trailingInArray : String := "Illegal trailing comma before end of array"
def unterminated : String := "Unterminated string starting at"
def controlCharacter : String := "Invalid control character at"
def invalidEscape : String := "Invalid \\escape"
def invalidUnicode : String := "Invalid \\uXXXX escape"
def extraData : String := "Extra data"
def unexpectedBom : String := "Unexpected UTF-8 BOM (decode using utf-8-sig)"

/-! ## Characters -/

def backslash : Nat := 0x5c
def comma : Nat := 0x2c
def openBrace : Nat := 0x7b
def closeBrace : Nat := 0x7d
def openBracket : Nat := 0x5b
def closeBracket : Nat := 0x5d

def isJsonSpace (c : Nat) : Bool := c == 0x20 || c == 0x09 || c == 0x0a || c == 0x0d

def skipSpace (cs : PyStr) : PyStr := cs.dropWhile isJsonSpace

def hexDigit (c : Nat) : Option Nat :=
  if 0x30 ≤ c ∧ c ≤ 0x39 then some (c - 0x30)
  else if 0x61 ≤ c ∧ c ≤ 0x66 then some (c - 0x57)
  else if 0x41 ≤ c ∧ c ≤ 0x46 then some (c - 0x37)
  else none

/-- What stands for itself behind a backslash, and what for a control character. -/
def simpleEscape (c : Nat) : Option Nat :=
  if c = quote ∨ c = backslash ∨ c = 0x2f then some c
  else if c = 0x62 then some 0x08
  else if c = 0x66 then some 0x0c
  else if c = 0x6e then some 0x0a
  else if c = 0x72 then some 0x0d
  else if c = 0x74 then some 0x09
  else none

/-! ## Strings -/

/-- Where the scanner is in a string: behind a backslash, or within the digits of a `\u` escape,
those it has seen (the last first) and their value. -/
inductive CharState where
  | plain
  | escape
  | hex (seen : PyStr) (value : Nat)

/-- A character of a string, and whether it was escaped as `\u`. -/
abbrev ReadChar := Nat × Bool

inductive CharStep where
  | done
  | fail (msg : String) (before : PyStr)
  | next (st : CharState) (read : List ReadChar)

/-- One character of a string, and whether there are more behind it, as there have to be behind
the digits of an escape. What fails is told with what stands before the character from where the
error is. -/
def charStep : CharState → Nat → Bool → CharStep
  | .plain, c, _ =>
      if c = quote then .done
      else if c = backslash then .next .escape []
      else if c ≤ 0x1f then .fail controlCharacter []
      else .next .plain [(c, false)]
  | .escape, c, _ =>
      if c = 0x75 then .next (.hex [] 0) []
      else
        match simpleEscape c with
        | some v => .next .plain [(v, false)]
        | none => .fail invalidEscape [backslash]
  | .hex seen value, c, more =>
      match hexDigit c with
      | none => .fail invalidUnicode (0x75 :: seen.reverse)
      | some d =>
          if seen.length < 3 then .next (.hex (c :: seen) (16 * value + d)) []
          else if more then .next .plain [(16 * value + d, true)]
          else .fail invalidUnicode (0x75 :: seen.reverse)

/-- Where a text ends within a string; `opening` is what is left from the quote it begins with. -/
def cutShort (opening : PyStr) : CharState → Outcome (List ReadChar)
  | .hex seen _ => .error invalidUnicode (0x75 :: seen.reverse)
  | _ => .error unterminated opening

/-- The characters up to the quote, the last first. -/
def scanChars (opening : PyStr) : CharState → List ReadChar → PyStr → Outcome (List ReadChar)
  | st, _, [] => cutShort opening st
  | st, acc, c :: cs =>
      match charStep st c (!cs.isEmpty) with
      | .done => .ok acc cs
      | .fail msg before => .error msg (before ++ c :: cs)
      | .next st read => scanChars opening st (read ++ acc) cs

/-- Two escapes that are a pair of surrogates are one character. -/
def joinSurrogates : List ReadChar → PyStr
  | [] => []
  | (c, escaped) :: rest =>
      match rest with
      | [] => [c]
      | (d, escaped') :: rest' =>
          if escaped = true ∧ escaped' = true ∧ 0xd800 ≤ c ∧ c ≤ 0xdbff ∧ 0xdc00 ≤ d ∧
            d ≤ 0xdfff then
            (0x10000 + 0x400 * (c - 0xd800) + (d - 0xdc00)) :: joinSurrogates rest'
          else c :: joinSurrogates ((d, escaped') :: rest')

/-- `scanstring`, of what is left behind the opening quote. -/
def scanString (rest : PyStr) : Outcome PyStr :=
  (scanChars (quote :: rest) .plain [] rest).bind fun acc left =>
    .ok (joinSurrogates acc.reverse) left

/-! ## Numbers and constants -/

def isDigitCode (c : Nat) : Bool := 0x30 ≤ c && c ≤ 0x39

def isNumberCode (c : Nat) : Bool :=
  isDigitCode c || c == 0x2d || c == 0x2b || c == 0x2e || c == 0x65 || c == 0x45

def digitRun (cs : PyStr) : Nat := (cs.takeWhile isDigitCode).length

/-- How many characters are a point and digits. -/
def fractionRun (cs : PyStr) : Nat :=
  if cs.head? = some 0x2e ∧ digitRun (cs.drop 1) ≠ 0 then digitRun (cs.drop 1) + 1 else 0

/-- How many are an exponent. -/
def exponentRun (cs : PyStr) : Nat :=
  if cs.head? = some 0x65 ∨ cs.head? = some 0x45 then
    let sign := if (cs.drop 1).head? = some 0x2b ∨ (cs.drop 1).head? = some 0x2d then 1 else 0
    if digitRun (cs.drop (1 + sign)) = 0 then 0 else 1 + sign + digitRun (cs.drop (1 + sign))
  else 0

/-- How many characters are an integer, no leading zeros, and how many its fraction and its
exponent. -/
def numeralRun (cs : PyStr) : Option (Nat × Nat) :=
  let sign := if cs.head? = some 0x2d then 1 else 0
  let whole := if (cs.drop sign).head? = some 0x30 then 1 else digitRun (cs.drop sign)
  if whole = 0 then none
  else
    let fraction := fractionRun (cs.drop (sign + whole))
    some (sign + whole, fraction + exponentRun (cs.drop (sign + whole + fraction)))

/-- `int` of digits behind a sign or none. -/
def intOf (cs : PyStr) : Int :=
  let digits := cs.filter isDigitCode
  let value : Nat := digits.foldl (fun v c => 10 * v + (c - 0x30)) 0
  if cs.head? = some 0x2d then -(value : Int) else value

/-- `sys.get_int_max_str_digits()`. -/
def intMaxDigits : Nat := 4300

/-- `float` of a literal is as given. A numeral is within the characters that numerals have. -/
def scanNumber (readFloat : PyStr → PyFloat) (cs : PyStr) : Outcome Json :=
  match numeralRun (cs.takeWhile isNumberCode) with
  | none => .error expectingValue cs
  | some (whole, more) =>
      if more ≠ 0 then .ok (.float (readFloat (cs.take (whole + more)))) (cs.drop (whole + more))
      else if intMaxDigits < ((cs.take whole).filter isDigitCode).length then .valueError
      else .ok (.int (intOf (cs.take whole))) (cs.drop whole)

def constants : List (PyStr × Json) :=
  [([0x6e, 0x75, 0x6c, 0x6c], .null), ([0x74, 0x72, 0x75, 0x65], .bool true),
   ([0x66, 0x61, 0x6c, 0x73, 0x65], .bool false), ([0x4e, 0x61, 0x4e], .float .nan),
   ([0x49, 0x6e, 0x66, 0x69, 0x6e, 0x69, 0x74, 0x79], .float .posInf),
   ([0x2d, 0x49, 0x6e, 0x66, 0x69, 0x6e, 0x69, 0x74, 0x79], .float .negInf)]

def scanAtom (readFloat : PyStr → PyFloat) (cs : PyStr) : Outcome Json :=
  match constants.find? fun k => k.1.isPrefixOf cs with
  | some k => .ok k.2 (cs.drop k.1.length)
  | none => scanNumber readFloat cs

/-! ## Objects and arrays -/

/-- `d[key] = v`: the last value of a key, where the first stood. -/
def setItem (key : PyStr) (v : Json) : JsonObject → JsonObject
  | [] => [(key, v)]
  | (k, w) :: kvs => if k = key then (k, v) :: kvs else (k, w) :: setItem key v kvs

def scanKey (cs : PyStr) : Outcome PyStr :=
  if cs.head? = some quote then scanString (cs.drop 1) else .error expectingName cs

def scanColon (cs : PyStr) : Outcome Unit :=
  if (skipSpace cs).head? = some colon then .ok () (skipSpace ((skipSpace cs).drop 1))
  else .error expectingColon (skipSpace cs)

/-- Behind a member or an element: whether it was the last. -/
def scanDelimiter (close : Nat) (trailing : String) (cs : PyStr) : Outcome Bool :=
  if (skipSpace cs).head? = some close then .ok true ((skipSpace cs).drop 1)
  else if (skipSpace cs).head? = some comma then
    let next := skipSpace ((skipSpace cs).drop 1)
    if next.head? = some close then .error trailing (skipSpace cs) else .ok false next
  else .error expectingComma (skipSpace cs)

section
variable (scan : PyStr → Outcome Json)

/-- The members that are left, of which there are fewer than characters. -/
def scanMembers : Nat → JsonObject → PyStr → Outcome Json
  | 0, _, cs => .error expectingName cs
  | fuel + 1, kvs, cs =>
      (scanKey cs).bind fun key cs =>
        (scanColon cs).bind fun _ cs =>
          (scan cs).bind fun v cs =>
            (scanDelimiter closeBrace trailingInObject cs).bind fun closed cs =>
              if closed then .ok (.obj (setItem key v kvs)) cs
              else scanMembers fuel (setItem key v kvs) cs

/-- `JSONObject`, behind the brace. -/
def scanObject (cs : PyStr) : Outcome Json :=
  if (skipSpace cs).head? = some closeBrace then .ok (.obj []) ((skipSpace cs).drop 1)
  else scanMembers scan (skipSpace cs).length [] (skipSpace cs)

def scanElements : Nat → List Json → PyStr → Outcome Json
  | 0, _, cs => .error expectingValue cs
  | fuel + 1, xs, cs =>
      (scan cs).bind fun v cs =>
        (scanDelimiter closeBracket trailingInArray cs).bind fun closed cs =>
          if closed then .ok (.arr (xs ++ [v])) cs else scanElements fuel (xs ++ [v]) cs

/-- `JSONArray`, behind the bracket. -/
def scanArray (cs : PyStr) : Outcome Json :=
  if (skipSpace cs).head? = some closeBracket then .ok (.arr []) ((skipSpace cs).drop 1)
  else scanElements scan (skipSpace cs).length [] (skipSpace cs)

end

/-- `scan_once`, with the scan of what is within a value, if the limit allows any. -/
def scanValue (readFloat : PyStr → PyFloat) (within : Option (PyStr → Outcome Json)) :
    PyStr → Outcome Json
  | [] => .error expectingValue []
  | c :: cs =>
      if c = quote then (scanString cs).bind fun s rest => .ok (.str s) rest
      else if c = openBrace then
        match within with
        | none => .recursionError
        | some scan => scanObject scan cs
      else if c = openBracket then
        match within with
        | none => .recursionError
        | some scan => scanArray scan cs
      else scanAtom readFloat (c :: cs)

def scanOnce (readFloat : PyStr → PyFloat) : Nat → PyStr → Outcome Json
  | 0 => scanValue readFloat none
  | limit + 1 => scanValue readFloat (some (scanOnce readFloat limit))

/-- What may stand behind the value. -/
def atEnd (v : Json) (rest : PyStr) : Outcome Json :=
  if skipSpace rest = [] then .ok v [] else .error extraData (skipSpace rest)

/-- `json.loads`. -/
def loads (readFloat : PyStr → PyFloat) (limit : Nat) (cs : PyStr) : Outcome Json :=
  if cs.head? = some 0xfeff then .error unexpectedBom cs
  else (scanOnce readFloat limit (skipSpace cs)).bind atEnd

end TradingBroker.Security
