import Mathlib.Data.List.Basic
import TradingBroker.Lib.Numerals
import TradingBroker.Security.Tokens

/-!
# The JSON encoder

`json.dumps` as its encoder in C writes a value, with the separators it has by default and in
ASCII alone: a character beyond the printable ones is a `\u` escape, and one beyond the basic
plane two of them, which the decoder joins again. It would join as well two surrogates that are
one after the other in a string and were never a character, so that a string is read back as it
was if it has no such pair. The encoder counts the values within each other as the decoder does.

How a float is written is a parameter, as its reading is in the decoder: a statement about
floats that come back says what is asked of the two. What the encoder refuses is told
apart, an integer of too many digits from too deep a nesting, since the first is a
`ValueError` for its caller.
-/

namespace TradingBroker.Wire

open Security

/-- What the encoder raises: the `ValueError` of an integer of too many digits, and the
`RecursionError`. -/
inductive DumpError where
  | valueError
  | recursionError
  deriving DecidableEq

/-! ## Strings -/

def hexCode (d : Nat) : Nat := if d < 10 then 0x30 + d else 0x57 + d

def unicodeEscape (c : Nat) : PyStr :=
  [backslash, 0x75, hexCode (c / 0x1000), hexCode (c / 0x100 % 0x10), hexCode (c / 0x10 % 0x10),
    hexCode (c % 0x10)]

/-- The two surrogates of a character beyond the basic plane. -/
def highHalf (c : Nat) : Nat := 0xd800 + (c - 0x10000) / 0x400
def lowHalf (c : Nat) : Nat := 0xdc00 + (c - 0x10000) % 0x400

/-- The letter behind the backslash, where there is a short escape. -/
def shortEscape (c : Nat) : Option Nat :=
  if c = quote ∨ c = backslash then some c
  else if c = 0x08 then some 0x62
  else if c = 0x0c then some 0x66
  else if c = 0x0a then some 0x6e
  else if c = 0x0d then some 0x72
  else if c = 0x09 then some 0x74
  else none

/-- `ascii_escape_unichar`. -/
def escapeChar (c : Nat) : PyStr :=
  match shortEscape c with
  | some letter => [backslash, letter]
  | none =>
      if 0x20 ≤ c ∧ c ≤ 0x7e then [c]
      else if c < 0x10000 then unicodeEscape c
      else unicodeEscape (highHalf c) ++ unicodeEscape (lowHalf c)

def escapeText (s : PyStr) : PyStr := s.flatMap escapeChar

def dumpString (s : PyStr) : PyStr := quote :: (escapeText s ++ [quote])

/-! ## Numbers -/

def digitCodes (n : Nat) : PyStr := (Lib.Numerals.digits n).map Char.toNat

/-- `int.__repr__`. -/
def dumpInt (n : Int) : Except DumpError PyStr :=
  if intMaxDigits < (digitCodes n.natAbs).length then .error .valueError
  else .ok (if n < 0 then 0x2d :: digitCodes n.natAbs else digitCodes n.natAbs)

section
variable (spell : Rat → PyStr)

/-- `float.__repr__` is as given; what is not a number has a word. -/
def dumpFloat : PyFloat → PyStr
  | .finite q => spell q
  | .nan => pyStr "NaN"
  | .posInf => pyStr "Infinity"
  | .negInf => pyStr "-Infinity"

/-! ## Values -/

/-- `", ".join`. -/
def commaSpace : PyStr := [comma, 0x20]

def dumpMember (key value : PyStr) : PyStr := dumpString key ++ colon :: 0x20 :: value

mutual

/-- `json.dumps`, with so many objects and arrays within each other as the limit allows. -/
def dumps : Nat → Json → Except DumpError PyStr
  | _, .null => .ok (pyStr "null")
  | _, .bool true => .ok (pyStr "true")
  | _, .bool false => .ok (pyStr "false")
  | _, .int n => dumpInt n
  | _, .float x => .ok (dumpFloat spell x)
  | _, .str s => .ok (dumpString s)
  | 0, .arr _ => .error .recursionError
  | 0, .obj _ => .error .recursionError
  | limit + 1, .arr xs =>
      (dumpElements limit xs).map fun parts =>
        openBracket :: (commaSpace.intercalate parts ++ [closeBracket])
  | limit + 1, .obj kvs =>
      (dumpMembers limit kvs).map fun parts =>
        openBrace :: (commaSpace.intercalate parts ++ [closeBrace])

def dumpElements : Nat → List Json → Except DumpError (List PyStr)
  | _, [] => .ok []
  | limit, x :: xs =>
      (dumps limit x).bind fun part => (dumpElements limit xs).map fun parts => part :: parts

def dumpMembers : Nat → List (PyStr × Json) → Except DumpError (List PyStr)
  | _, [] => .ok []
  | limit, (key, v) :: kvs =>
      (dumps limit v).bind fun part =>
        (dumpMembers limit kvs).map fun parts => dumpMember key part :: parts

end

variable (limit : Nat)

/-! The limit only matters to what has values within it. -/

theorem dumps_null : dumps spell limit .null = .ok (pyStr "null") := by
  cases limit <;> rfl

theorem dumps_bool (b : Bool) :
    dumps spell limit (.bool b) = .ok (if b = true then pyStr "true" else pyStr "false") := by
  cases limit <;> cases b <;> rfl

theorem dumps_int (n : Int) : dumps spell limit (.int n) = dumpInt n := by
  cases limit <;> rfl

theorem dumps_float (x : PyFloat) : dumps spell limit (.float x) = .ok (dumpFloat spell x) := by
  cases limit <;> rfl

theorem dumps_str (s : PyStr) : dumps spell limit (.str s) = .ok (dumpString s) := by
  cases limit <;> rfl

end

/-! ## What a string reads as -/

def isHigh (c : Nat) : Bool := 0xd800 ≤ c && c ≤ 0xdbff
def isLow (c : Nat) : Bool := 0xdc00 ≤ c && c ≤ 0xdfff

/-- A string of code points, no high surrogate before a low one. -/
def joined : PyStr → Bool
  | [] => true
  | c :: cs => c < 0x110000 && !(isHigh c && cs.head?.any isLow) && joined cs

/-- What the decoder reads for a character the encoder wrote. -/
def readOf (c : Nat) : List ReadChar :=
  if (shortEscape c).isSome ∨ 0x20 ≤ c ∧ c ≤ 0x7e then [(c, false)]
  else if c < 0x10000 then [(c, true)]
  else [(highHalf c, true), (lowHalf c, true)]

theorem hexDigit_hexCode {d : Nat} (h : d < 16) : hexDigit (hexCode d) = some d := by
  unfold hexCode hexDigit
  split
  · rw [if_pos (by omega)]
    congr 1
    omega
  · rw [if_neg (by omega), if_pos (by omega)]
    congr 1
    omega

theorem readChars_step {st mid : CharState} {c : Nat} {cs : PyStr} {read : List ReadChar}
    (h : charStep st c true = .next mid read) :
    readChars st (c :: cs) = (readChars mid cs).map fun r => (r.1, r.2 ++ read) := by
  rw [readChars, h]

theorem readChars_hex {seen : PyStr} {value d : Nat} {cs : PyStr} (h : seen.length < 3)
    (hd : d < 16) :
    readChars (.hex seen value) (hexCode d :: cs) =
      (readChars (.hex (hexCode d :: seen) (16 * value + d)) cs).map
        fun r => (r.1, r.2 ++ []) := by
  refine readChars_step ?_
  simp only [charStep, hexDigit_hexCode hd, if_pos h]

theorem readChars_unicodeEscape {c : Nat} (h : c < 0x10000) :
    readChars .plain (unicodeEscape c) = some (.plain, [(c, true)]) := by
  have hvalue : 16 * (16 * (16 * (16 * 0 + c / 0x1000) + c / 0x100 % 0x10) + c / 0x10 % 0x10) +
      c % 0x10 = c := by omega
  have hslash : charStep .plain backslash true = .next .escape [] := rfl
  have hletter : charStep .escape 0x75 true = .next (.hex [] 0) [] := rfl
  have hlast : ∀ a b d : Nat,
      charStep (.hex [a, b, d]
        (16 * (16 * (16 * 0 + c / 0x1000) + c / 0x100 % 0x10) + c / 0x10 % 0x10))
        (hexCode (c % 0x10)) true = .next .plain [(c, true)] := by
    intro a b d
    simp only [charStep, hexDigit_hexCode (show c % 0x10 < 16 by omega), hvalue]
    rfl
  rw [unicodeEscape, readChars_step hslash, readChars_step hletter,
    readChars_hex (by simp) (by omega), readChars_hex (by simp) (by omega),
    readChars_hex (by simp) (by omega), readChars_step (hlast _ _ _)]
  rfl

theorem readChars_append {st mid : CharState} {cs ds : PyStr} {us : List ReadChar}
    (h : readChars st cs = some (mid, us)) :
    readChars st (cs ++ ds) = (readChars mid ds).map fun r => (r.1, r.2 ++ us) := by
  induction cs generalizing st us with
  | nil =>
      cases h
      simp
  | cons c cs ih =>
      obtain ⟨st', read, us', hstep, hread, rfl⟩ := readChars_cons h
      rw [List.cons_append, readChars, hstep]
      simp only
      rw [ih hread, Option.map_map]
      congr 1
      funext r
      simp only [Function.comp, List.append_assoc]

theorem readChars_shortEscape {c letter : Nat} (h : shortEscape c = some letter) :
    readChars .plain [backslash, letter] = some (.plain, [(c, false)]) := by
  unfold shortEscape at h
  split at h
  · next hc =>
      cases h
      rcases hc with rfl | rfl <;> rfl
  · split at h
    · next hc => subst hc; cases h; rfl
    · split at h
      · next hc => subst hc; cases h; rfl
      · split at h
        · next hc => subst hc; cases h; rfl
        · split at h
          · next hc => subst hc; cases h; rfl
          · split at h
            · next hc => subst hc; cases h; rfl
            · cases h

theorem readChars_escapeChar {c : Nat} (h : c < 0x110000) :
    readChars .plain (escapeChar c) = some (.plain, (readOf c).reverse) := by
  unfold escapeChar readOf
  cases hshort : shortEscape c with
  | some letter =>
      simp only [Option.isSome_some, true_or, if_true, List.reverse_singleton]
      exact readChars_shortEscape hshort
  | none =>
      simp only [Option.isSome_none, Bool.false_eq_true, false_or]
      split
      · next hprint =>
          have hquote : c ≠ quote ∧ c ≠ backslash := by
            refine ⟨fun heq => ?_, fun heq => ?_⟩ <;>
            · rw [heq] at hshort
              cases hshort
          simp only [readChars, charStep]
          rw [if_neg hquote.1, if_neg hquote.2, if_neg (by omega)]
          rfl
      · split
        · next hplane => exact readChars_unicodeEscape hplane
        · next hplane =>
            have hhigh : highHalf c < 0x10000 := by unfold highHalf; omega
            have hlow : lowHalf c < 0x10000 := by unfold lowHalf; omega
            rw [readChars_append (readChars_unicodeEscape hhigh), readChars_unicodeEscape hlow]
            rfl

theorem joined_cons {c : Nat} {s : PyStr} (h : joined (c :: s) = true) :
    c < 0x110000 ∧ (isHigh c = true → s.head?.any isLow = false) ∧ joined s = true := by
  simp only [joined, Bool.and_eq_true, decide_eq_true_eq, Bool.not_eq_true'] at h
  refine ⟨h.1.1, fun hhigh => ?_, h.2⟩
  have hpair := h.1.2
  rw [hhigh, Bool.true_and] at hpair
  exact hpair

theorem readChars_escapeText {s : PyStr} (h : joined s = true) :
    readChars .plain (escapeText s) = some (.plain, (s.flatMap readOf).reverse) := by
  induction s with
  | nil => rfl
  | cons c s ih =>
      obtain ⟨hc, -, hs⟩ := joined_cons h
      have hread : readChars .plain (escapeText s) =
        some (.plain, (s.flatMap readOf).reverse) := ih hs
      rw [escapeText, List.flatMap_cons, readChars_append (readChars_escapeChar hc),
        ← escapeText, hread, List.flatMap_cons, List.reverse_append]
      rfl

/-- The first that is read for a string, if it was escaped as a low surrogate, is one. -/
theorem head_readOf {s : PyStr} {d : Nat} {rest : List ReadChar} (hjoined : joined s = true)
    (h : s.flatMap readOf = (d, true) :: rest) (hlow : isLow d = true) :
    s.head?.any isLow = true := by
  cases s with
  | nil => cases h
  | cons c s =>
      obtain ⟨hc, -, -⟩ := joined_cons hjoined
      rw [List.flatMap_cons] at h
      unfold readOf at h
      split at h
      · cases h
      · split at h
        · cases h
          exact hlow
        · cases h
          exfalso
          have hle : highHalf c < 0xdc00 := by
            unfold highHalf
            omega
          simp only [isLow, Bool.and_eq_true, decide_eq_true_eq] at hlow
          omega

theorem joinSurrogates_single {c : Nat} {us : List ReadChar}
    (h : isHigh c = true → ∀ d rest, us = (d, true) :: rest → isLow d = false) :
    joinSurrogates ((c, true) :: us) = c :: joinSurrogates us := by
  cases us with
  | nil => rfl
  | cons u us =>
      obtain ⟨d, escaped⟩ := u
      rw [joinSurrogates]
      refine if_neg fun hpair => ?_
      obtain ⟨-, rfl, hc, hc', hd, hd'⟩ := hpair
      have hlow := h (by simp [isHigh, hc, hc']) d us rfl
      simp [isLow, hd, hd'] at hlow

theorem joinSurrogates_readOf {s : PyStr} (h : joined s = true) :
    joinSurrogates (s.flatMap readOf) = s := by
  induction s with
  | nil => rfl
  | cons c s ih =>
      obtain ⟨hc, hpair, hs⟩ := joined_cons h
      rw [List.flatMap_cons]
      by_cases hshort : (shortEscape c).isSome ∨ 0x20 ≤ c ∧ c ≤ 0x7e
      · rw [readOf, if_pos hshort, List.singleton_append, joinSurrogates_cons, ih hs]
      · by_cases hplane : c < 0x10000
        · rw [readOf, if_neg hshort, if_pos hplane, List.singleton_append,
            joinSurrogates_single, ih hs]
          intro hhigh d rest hrest
          cases hlow : isLow d with
          | false => rfl
          | true =>
              have hany := head_readOf hs hrest hlow
              rw [hpair hhigh] at hany
              cases hany
        · rw [readOf, if_neg hshort, if_neg hplane, List.cons_append, List.cons_append,
            List.nil_append, joinSurrogates]
          have hhalves : True ∧ True ∧ 0xd800 ≤ highHalf c ∧ highHalf c ≤ 0xdbff ∧
              0xdc00 ≤ lowHalf c ∧ lowHalf c ≤ 0xdfff := by
            unfold highHalf lowHalf
            refine ⟨trivial, trivial, ?_⟩
            omega
          have hvalue : 0x10000 + 0x400 * (highHalf c - 0xd800) + (lowHalf c - 0xdc00) = c := by
            unfold highHalf lowHalf
            omega
          simp only [hhalves, and_self, if_true, hvalue, ih hs]

/-- A string is read back as it was written. -/
theorem encodes_escapeText {s : PyStr} (h : joined s = true) : Encodes (escapeText s) s := by
  rw [Encodes, scanString, scanChars_of_read (readChars_escapeText h) (List.cons_ne_nil _ _),
    List.append_nil, scanChars]
  show Outcome.ok (joinSurrogates (s.flatMap readOf).reverse.reverse) [] = .ok s []
  rw [List.reverse_reverse, joinSurrogates_readOf h]

theorem scanString_dumpString {s : PyStr} (h : joined s = true) (rest : PyStr) :
    scanString ((escapeText s ++ [quote]) ++ rest) = .ok s rest := by
  rw [List.append_assoc, List.singleton_append]
  exact (encodes_escapeText h).scan rest

end TradingBroker.Wire
