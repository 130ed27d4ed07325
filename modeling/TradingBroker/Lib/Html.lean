/-!
# Escaping for HTML

`html.escape` of Python's library: the five characters that mean something in
markup, each written as a reference. Without the quotes it is three, and `html.unescape`
takes them back, whatever else it reads as a reference.

Escaping is injective, since the reference of a character begins with one that is itself
escaped; so an escaped text ends where a `<` begins, whatever is in it.
-/

namespace TradingBroker.Lib.Html

/-- What `html.escape` puts for a character. -/
def escapeChar : Char → List Char
  | '&' => "&amp;".toList
  | '<' => "&lt;".toList
  | '>' => "&gt;".toList
  | '"' => "&quot;".toList
  | '\'' => "&#x27;".toList
  | c => [c]

/-- `html.escape`. -/
def escape (s : String) : String := String.ofList (s.toList.flatMap escapeChar)

/-! ## What is escaped can be told apart -/

def codes (s : String) : List Nat := s.toList.map Char.toNat

def escapeCode (c : Nat) : List Nat :=
  if c = '&'.toNat then codes "&amp;"
  else if c = '<'.toNat then codes "&lt;"
  else if c = '>'.toNat then codes "&gt;"
  else [c]

/-- `html.escape(t, quote=False)`, of a text by its code points. -/
def escapeText (t : List Nat) : List Nat := t.flatMap escapeCode

/-- What references stand for: the named ones by their names, most of which end in a semicolon,
and the numeric ones. -/
structure References where
  html5 : List Nat → Option (List Nat)
  numeric : List Nat → List Nat
  amp : html5 (codes "amp;") = some (codes "&")
  lt : html5 (codes "lt;") = some (codes "<")
  gt : html5 (codes "gt;") = some (codes ">")

section
variable (refs : References)

/-- `_replace_charref`. A name that is not known may begin with one that is. -/
def replaceCharref (s : List Nat) : List Nat :=
  if s.head? = some '#'.toNat then refs.numeric s
  else
    match refs.html5 s with
    | some t => t
    | none =>
        let known := (List.range s.length).reverse.find? fun x =>
          1 < x && (refs.html5 (s.take x)).isSome
        match known with
        | some x => (refs.html5 (s.take x)).getD [] ++ s.drop x
        | none => '&'.toNat :: s

def isDecimal (c : Nat) : Bool := 0x30 ≤ c && c ≤ 0x39

def isHexadecimal (c : Nat) : Bool :=
  isDecimal c || (0x41 ≤ c && c ≤ 0x46) || (0x61 ≤ c && c ≤ 0x66)

/-- The characters of a name in `_charref`. -/
def isNameCode (c : Nat) : Bool := !(codes "\t\n\x0c <&#;").contains c

/-- A reference up to its semicolon, which may be missing. -/
def endCharref (ref rest : List Nat) : Option (List Nat × List Nat) :=
  match rest with
  | c :: cs => if c = ';'.toNat then some (ref ++ [c], cs) else some (ref, rest)
  | [] => some (ref, rest)

/-- What `_charref` matches behind an ampersand, and the rest. -/
def matchCharref (cs : List Nat) : Option (List Nat × List Nat) :=
  match cs with
  | [] => none
  | c :: ds =>
      if c = '#'.toNat then
        if (ds.takeWhile isDecimal).isEmpty then
          match ds with
          | x :: es =>
              if (x = 'x'.toNat ∨ x = 'X'.toNat) ∧ ¬ (es.takeWhile isHexadecimal).isEmpty then
                endCharref (c :: x :: es.takeWhile isHexadecimal) (es.dropWhile isHexadecimal)
              else none
          | [] => none
        else endCharref (c :: ds.takeWhile isDecimal) (ds.dropWhile isDecimal)
      else
        let name := (cs.takeWhile isNameCode).take 32
        if name.isEmpty then none else endCharref name (cs.drop name.length)

/-- `html.unescape`. A reference is not read again. -/
def unescapeFrom : Nat → List Nat → List Nat
  | n + 1, c :: cs =>
      if c = '&'.toNat then
        match matchCharref cs with
        | some (ref, rest) => replaceCharref refs ref ++ unescapeFrom n rest
        | none => c :: unescapeFrom n cs
      else c :: unescapeFrom n cs
  | _, t => t

def unescape (t : List Nat) : List Nat := unescapeFrom refs t.length t

/-! ## The round trip -/

theorem unescapeFrom_reference {n : Nat} {name t rest : List Nat}
    (hmatch : matchCharref (name ++ rest) = some (name, rest)) (hhead : name.head? ≠ some '#'.toNat)
    (hname : refs.html5 name = some t) :
    unescapeFrom refs (n + 1) ('&'.toNat :: (name ++ rest)) = t ++ unescapeFrom refs n rest := by
  rw [unescapeFrom, if_pos rfl, hmatch]
  simp only [replaceCharref, if_neg hhead, hname]

/-- A code point is put as it is, or as a reference to it. -/
theorem escapeCode_cases (c : Nat) :
    (escapeCode c = [c] ∧ c ≠ '&'.toNat) ∨
      ∃ name, escapeCode c = '&'.toNat :: name ∧ refs.html5 name = some [c] ∧
        name.head? ≠ some '#'.toNat ∧
        ∀ rest, matchCharref (name ++ rest) = some (name, rest) := by
  unfold escapeCode
  split
  · next h => exact .inr ⟨codes "amp;", rfl, h ▸ refs.amp, by decide, fun _ => rfl⟩
  · next hamp =>
      split
      · next h => exact .inr ⟨codes "lt;", rfl, h ▸ refs.lt, by decide, fun _ => rfl⟩
      · split
        · next h => exact .inr ⟨codes "gt;", rfl, h ▸ refs.gt, by decide, fun _ => rfl⟩
        · exact .inl ⟨rfl, hamp⟩

theorem unescapeFrom_escapeText (t : List Nat) {n : Nat} (hn : (escapeText t).length ≤ n) :
    unescapeFrom refs n (escapeText t) = t := by
  induction t generalizing n with
  | nil => cases n <;> rfl
  | cons c t ih =>
      have hcons : escapeText (c :: t) = escapeCode c ++ escapeText t := List.flatMap_cons
      rw [hcons, List.length_append] at hn
      rw [hcons]
      rcases escapeCode_cases refs c with ⟨hcode, hc⟩ | ⟨name, hcode, hname, hhead, hmatch⟩
      · rw [hcode, List.length_singleton] at hn
        obtain ⟨n, rfl⟩ : ∃ m, n = m + 1 := ⟨n - 1, by omega⟩
        rw [hcode, List.singleton_append, unescapeFrom, if_neg hc, ih (by omega)]
      · rw [hcode, List.length_cons] at hn
        obtain ⟨n, rfl⟩ : ∃ m, n = m + 1 := ⟨n - 1, by omega⟩
        rw [hcode, List.cons_append, unescapeFrom_reference refs (hmatch _) hhead hname,
          ih (by omega), List.singleton_append]

/-- What was escaped is had back. -/
theorem unescape_escapeText (t : List Nat) : unescape refs (escapeText t) = t :=
  unescapeFrom_escapeText refs t (Nat.le_refl _)

end

end TradingBroker.Lib.Html
