import Mathlib.Data.List.Induction
import Mathlib.Data.List.Nodup
import TradingBroker.Wire.ReadBack

/-!
# What is read can be written

The other way round: a text that came off the wire has no surrogates in it, and what
`json.loads` makes of such a text is a value `json.dumps` writes within the same limit, so that
the two can follow each other any number of times. The one way to a pair of surrogates would be
two escapes, and those the decoder joins.

`Written` is what every scan that takes a text of scalars leaves (`Finds`): the value is
`Readable`, and it has a text within the limit the scan had, since both count the values
within each other the same way. For the objects a key that comes twice is set once, as a
dictionary does, so none is left twice.
-/

namespace TradingBroker.Wire

open Security

/-! ## The text of a value is ASCII -/

def Ascii (t : PyStr) : Prop := ∀ c ∈ t, c < 0x80

theorem Ascii.append {s t : PyStr} (hs : Ascii s) (ht : Ascii t) : Ascii (s ++ t) := by
  intro c hc
  rcases List.mem_append.1 hc with hc | hc
  · exact hs c hc
  · exact ht c hc

theorem Ascii.cons {c : Nat} {t : PyStr} (hc : c < 0x80) (ht : Ascii t) : Ascii (c :: t) :=
  List.forall_mem_cons.2 ⟨hc, ht⟩

theorem ascii_number {t : PyStr} (h : ∀ c ∈ t, isNumberCode c = true) : Ascii t := by
  intro c hc
  have hcode := h c hc
  simp only [isNumberCode, isDigitCode, Bool.or_eq_true, Bool.and_eq_true, decide_eq_true_eq,
    beq_iff_eq] at hcode
  omega

theorem hexCode_lt {d : Nat} (h : d < 0x10) : hexCode d < 0x80 := by
  unfold hexCode
  split <;> omega

theorem ascii_unicodeEscape {c : Nat} (h : c < 0x10000) : Ascii (unicodeEscape c) := by
  refine .cons (by decide) (.cons (by decide) (.cons (hexCode_lt (by omega))
    (.cons (hexCode_lt (by omega)) (.cons (hexCode_lt (by omega))
      (.cons (hexCode_lt (by omega)) ?_)))))
  exact nofun

theorem shortEscape_lt {c letter : Nat} (h : shortEscape c = some letter) : letter < 0x80 := by
  unfold shortEscape quote backslash at h
  grind

theorem ascii_escapeChar {c : Nat} (h : c < 0x110000) : Ascii (escapeChar c) := by
  unfold escapeChar
  split
  · next letter hletter =>
      exact .cons (by decide) (.cons (shortEscape_lt hletter) nofun)
  · split
    · exact .cons (by omega) nofun
    · split
      · next hc => exact ascii_unicodeEscape hc
      · refine (ascii_unicodeEscape ?_).append (ascii_unicodeEscape ?_)
        · unfold highHalf
          omega
        · unfold lowHalf
          omega

theorem ascii_dumpString {s : PyStr} (h : joined s = true) : Ascii (dumpString s) := by
  have htext : Ascii (escapeText s) := by
    induction s with
    | nil => exact List.forall_mem_nil _
    | cons c s ih =>
        obtain ⟨hc, -, hs⟩ := joined_cons h
        rw [escapeText, List.flatMap_cons]
        exact (ascii_escapeChar hc).append (ih hs)
  exact .cons (by decide) (htext.append (.cons (by decide) (List.forall_mem_nil _)))

theorem ascii_intercalate {parts : List PyStr} (h : ∀ part ∈ parts, Ascii part) :
    Ascii (commaSpace.intercalate parts) := by
  have hsep : Ascii commaSpace := .cons (by decide) (.cons (by decide) (List.forall_mem_nil _))
  induction parts with
  | nil => exact nofun
  | cons p ps ih =>
      obtain ⟨hp, hps⟩ := List.forall_mem_cons.1 h
      cases ps with
      | nil =>
          rw [List.intercalate_singleton]
          exact hp
      | cons q qs =>
          rw [List.intercalate_cons_cons]
          exact (hp.append hsep).append (ih hps)

section
variable {readFloat : PyStr → PyFloat} {spell : Rat → PyStr} {limit : Nat}

theorem ascii_dumpFloat {x : PyFloat} (hx : Readable readFloat spell (.float x)) :
    Ascii (dumpFloat spell x) := by
  cases x with
  | finite q =>
      rw [Readable] at hx
      exact ascii_number hx.codes
  | nan => exact show ∀ c ∈ pyStr "NaN", c < 0x80 by decide
  | posInf => exact show ∀ c ∈ pyStr "Infinity", c < 0x80 by decide
  | negInf => exact show ∀ c ∈ pyStr "-Infinity", c < 0x80 by decide

mutual

theorem ascii_dumps : ∀ (v : Json) {limit : Nat} {t : PyStr}, Readable readFloat spell v →
    dumps spell limit v = .ok t → Ascii t
  | .null, limit, t, _, h => by
      rw [dumps_null] at h
      cases h
      exact show ∀ c ∈ pyStr "null", c < 0x80 by decide
  | .bool true, limit, t, _, h => by
      rw [dumps_bool] at h
      cases h
      exact show ∀ c ∈ pyStr "true", c < 0x80 by decide
  | .bool false, limit, t, _, h => by
      rw [dumps_bool] at h
      cases h
      exact show ∀ c ∈ pyStr "false", c < 0x80 by decide
  | .int n, limit, t, _, h => by
      rw [dumps_int] at h
      exact ascii_number (dumpInt_ok h).2.1
  | .float x, limit, t, hx, h => by
      rw [dumps_float] at h
      cases h
      exact ascii_dumpFloat hx
  | .str s, limit, t, hs, h => by
      rw [dumps_str] at h
      cases h
      rw [Readable] at hs
      exact ascii_dumpString hs
  | .arr xs, limit, t, hxs, h => by
      rw [Readable] at hxs
      cases limit with
      | zero => cases h
      | succ limit =>
          rw [dumps] at h
          obtain ⟨parts, hparts, rfl⟩ := map_ok h
          exact .cons (by decide) ((ascii_intercalate (ascii_dumpElements xs hxs hparts)).append
            (.cons (by decide) (List.forall_mem_nil _)))
  | .obj kvs, limit, t, hkvs, h => by
      rw [Readable] at hkvs
      cases limit with
      | zero => cases h
      | succ limit =>
          rw [dumps] at h
          obtain ⟨parts, hparts, rfl⟩ := map_ok h
          exact .cons (by decide) ((ascii_intercalate (ascii_dumpMembers kvs hkvs.2 hparts)).append
            (.cons (by decide) (List.forall_mem_nil _)))

theorem ascii_dumpElements : ∀ (xs : List Json) {limit : Nat} {parts : List PyStr},
    ReadableList readFloat spell xs → dumpElements spell limit xs = .ok parts →
      ∀ part ∈ parts, Ascii part
  | [], limit, parts, _, h => by
      cases h
      exact nofun
  | x :: xs, limit, parts, hxs, h => by
      obtain ⟨part, hpart, h⟩ := bind_ok h
      obtain ⟨others, hothers, rfl⟩ := map_ok h
      exact List.forall_mem_cons.2 ⟨ascii_dumps x hxs.1 hpart,
        ascii_dumpElements xs hxs.2 hothers⟩

theorem ascii_dumpMembers : ∀ (kvs : List (PyStr × Json)) {limit : Nat} {parts : List PyStr},
    ReadableItems readFloat spell kvs → dumpMembers spell limit kvs = .ok parts →
      ∀ part ∈ parts, Ascii part
  | [], limit, parts, _, h => by
      cases h
      exact nofun
  | (key, v) :: kvs, limit, parts, hkvs, h => by
      obtain ⟨part, hpart, h⟩ := bind_ok h
      obtain ⟨others, hothers, rfl⟩ := map_ok h
      exact List.forall_mem_cons.2 ⟨(ascii_dumpString hkvs.1).append
        (.cons (by decide) (.cons (by decide) (ascii_dumps v hkvs.2.1 hpart))),
        ascii_dumpMembers kvs hkvs.2.2 hothers⟩

end

end

/-! ## Strings that were read -/

def isScalar (c : Nat) : Bool := c < 0x110000 && !(0xd800 ≤ c && c ≤ 0xdfff)

/-- A text of Unicode's characters. -/
def Scalars (cs : PyStr) : Prop := ∀ c ∈ cs, isScalar c = true

theorem isScalar_iff {c : Nat} :
    isScalar c = true ↔ c < 0x110000 ∧ ¬ (0xd800 ≤ c ∧ c ≤ 0xdfff) := by
  rw [isScalar, Bool.and_eq_true, decide_eq_true_eq, Bool.not_eq_true', Bool.and_eq_false_iff]
  simp only [decide_eq_false_iff_not]
  omega

theorem Scalars.rest {cs rest : PyStr} {p : Place} {good : Place → Prop} (hcs : Scalars cs)
    (h : Runs p cs rest good) : Scalars rest := by
  obtain ⟨used, q, rfl, -⟩ := h
  exact fun c hc => hcs c (List.mem_append_right _ hc)

/-- What is read of a character: one of the text's, or one that four digits can say. -/
def FairRead (r : ReadChar) : Prop :=
  if r.2 = true then r.1 < 0x10000 else isScalar r.1 = true

/-- What the digits of an escape that were seen can say. -/
def Fair : CharState → Prop
  | .hex seen value =>
      (seen.length = 0 ∧ value < 1) ∨ (seen.length = 1 ∧ value < 0x10) ∨
        (seen.length = 2 ∧ value < 0x100) ∨ (seen.length = 3 ∧ value < 0x1000)
  | _ => True

theorem hexDigit_lt {c d : Nat} (h : hexDigit c = some d) : d < 0x10 := by
  unfold hexDigit at h
  grind

theorem simpleEscape_scalar {c v : Nat} (h : simpleEscape c = some v) : isScalar v = true := by
  rw [isScalar_iff]
  unfold simpleEscape quote backslash at h
  grind

theorem fair_charStep {st st' : CharState} {c : Nat} {more : Bool} {read : List ReadChar}
    (hst : Fair st) (hc : isScalar c = true)
    (h : charStep st c more = .next st' read) :
    Fair st' ∧ ∀ r ∈ read, FairRead r := by
  cases st with
  | plain =>
      simp only [charStep] at h
      split at h
      · cases h
      · split at h
        · cases h
          exact ⟨trivial, List.forall_mem_nil _⟩
        · split at h
          · cases h
          · cases h
            exact ⟨trivial, List.forall_mem_singleton.2 hc⟩
  | escape =>
      simp only [charStep] at h
      split at h
      · cases h
        exact ⟨.inl ⟨rfl, by omega⟩, List.forall_mem_nil _⟩
      · split at h
        · next v hv =>
            cases h
            exact ⟨trivial, List.forall_mem_singleton.2 (simpleEscape_scalar hv)⟩
        · cases h
  | hex seen value =>
      simp only [charStep] at h
      simp only [Fair] at hst
      split at h
      · cases h
      · next d hd =>
          have hlt := hexDigit_lt hd
          split at h
          · cases h
            refine ⟨?_, List.forall_mem_nil _⟩
            simp only [Fair, List.length_cons]
            omega
          · split at h
            · cases h
              refine ⟨trivial, List.forall_mem_singleton.2 ?_⟩
              show 16 * value + d < 0x10000
              omega
            · cases h

theorem fair_scanChars {opening cs rest : PyStr} {st : CharState} {acc us : List ReadChar}
    (hst : Fair st) (hacc : ∀ r ∈ acc, FairRead r) (hcs : Scalars cs)
    (h : scanChars opening st acc cs = .ok us rest) : ∀ r ∈ us, FairRead r := by
  induction cs generalizing st acc with
  | nil => cases st <;> cases h
  | cons c cs ih =>
      obtain ⟨hc, hcs⟩ := List.forall_mem_cons.1 hcs
      rw [scanChars] at h
      split at h
      · cases h
        exact hacc
      · cases h
      · next st' read hstep =>
          obtain ⟨hst', hread⟩ := fair_charStep hst hc hstep
          refine ih hst' (fun r hr => ?_) hcs h
          rcases List.mem_append.1 hr with hr | hr
          · exact hread r hr
          · exact hacc r hr

theorem joined_cons_iff {c : Nat} {s : PyStr} :
    joined (c :: s) = true ↔ c < 0x110000 ∧ ¬ (isHigh c = true ∧ s.head?.any isLow = true) ∧
      joined s = true := by
  rw [joined, Bool.and_eq_true, Bool.and_eq_true, decide_eq_true_eq, Bool.not_eq_true',
    ← Bool.not_eq_true, Bool.and_eq_true, and_assoc]

/-- The first character of a joined string is the first that was read, or beyond the basic
plane. -/
theorem head_joinSurrogates {d : Nat} {escaped : Bool} {us : List ReadChar} {c : Nat}
    (h : c ∈ (joinSurrogates ((d, escaped) :: us)).head?) : c = d ∨ 0x10000 ≤ c := by
  cases us with
  | nil =>
      cases h
      exact .inl rfl
  | cons u us =>
      obtain ⟨e, escaped'⟩ := u
      rw [joinSurrogates] at h
      split at h
      · rw [List.head?_cons, Option.mem_some_iff] at h
        omega
      · rw [List.head?_cons, Option.mem_some_iff] at h
        exact .inl h.symm

theorem joined_joinSurrogates {us : List ReadChar} (h : ∀ r ∈ us, FairRead r) :
    joined (joinSurrogates us) = true := by
  have hlt : ∀ {c : Nat} {escaped : Bool}, FairRead (c, escaped) → c < 0x110000 := by
    intro c escaped hfair
    unfold FairRead at hfair
    split at hfair
    · exact Nat.lt_trans hfair (by decide)
    · exact (isScalar_iff.1 hfair).1
  induction us using joinSurrogates.induct with
  | case1 => rfl
  | case2 c escaped =>
      rw [joinSurrogates, joined_cons_iff]
      exact ⟨hlt (h _ List.mem_cons_self), fun hpair => Bool.false_ne_true hpair.2, rfl⟩
  | case3 c escaped d escaped' rest hpair ih =>
      rw [joinSurrogates]
      simp only [if_pos hpair]
      rw [joined_cons_iff]
      refine ⟨by omega, fun hhigh => ?_,
        ih fun r hr => h r (List.mem_cons_of_mem _ (List.mem_cons_of_mem _ hr))⟩
      have hcode := hhigh.1
      simp only [isHigh, Bool.and_eq_true, decide_eq_true_eq] at hcode
      omega
  | case4 c escaped d escaped' rest hpair ih =>
      rw [joinSurrogates]
      simp only [if_neg hpair]
      rw [joined_cons_iff]
      obtain ⟨hc, hrest⟩ := List.forall_mem_cons.1 h
      obtain ⟨hd, -⟩ := List.forall_mem_cons.1 hrest
      refine ⟨hlt hc, fun hboth => ?_, ih hrest⟩
      -- A low surrogate first is the one that was read, and both came as escapes.
      obtain ⟨hhigh, hany⟩ := hboth
      obtain ⟨hsome, hget⟩ := (Option.any_eq_true_iff_get _ _).1 hany
      obtain ⟨e, he, hlow⟩ : ∃ e, e ∈ (joinSurrogates ((d, escaped') :: rest)).head? ∧
          isLow e = true := ⟨_, Option.get_mem hsome, hget⟩
      simp only [isHigh, isLow, Bool.and_eq_true, decide_eq_true_eq] at hhigh hlow
      have hed : e = d := by
        rcases head_joinSurrogates he with heq | hle
        · exact heq
        · omega
      subst hed
      have hescaped : ∀ {c : Nat} {escaped : Bool}, FairRead (c, escaped) →
          0xd800 ≤ c ∧ c ≤ 0xdfff → escaped = true := by
        intro c escaped hfair hsurrogate
        cases escaped with
        | true => rfl
        | false => exact absurd hsurrogate (isScalar_iff.1 hfair).2
      exact hpair ⟨hescaped hc (by omega), hescaped hd (by omega), hhigh.1, hhigh.2, hlow.1,
        hlow.2⟩

theorem joined_scanString {cs rest s : PyStr} (hcs : Scalars cs)
    (h : scanString cs = .ok s rest) : joined s = true := by
  rw [scanString] at h
  obtain ⟨us, mid, hscan, hs⟩ := Outcome.bind_eq_ok h
  cases hs
  have hplain : Fair .plain := trivial
  have hnone : ∀ r ∈ ([] : List ReadChar), FairRead r := by simp
  exact joined_joinSurrogates fun r hr =>
    fair_scanChars hplain hnone hcs hscan r (List.mem_reverse.1 hr)

/-! ## Values that were read -/

section
variable {readFloat : PyStr → PyFloat} {spell : Rat → PyStr} {limit : Nat}

/-- How long a number is at most, by the digits it was read of. -/
theorem length_digitCodes_le {ds : PyStr} (h : ∀ c ∈ ds, isDigitCode c = true) :
    (digitCodes (digitsValue ds)).length ≤ max 1 ds.length := by
  induction ds using List.reverseRecOn with
  | nil => decide
  | append_singleton ds d ih =>
      have hd := h d (List.mem_append_right _ List.mem_cons_self)
      have hds := ih fun c hc => h c (List.mem_append_left _ hc)
      simp only [isDigitCode, Bool.and_eq_true, decide_eq_true_eq] at hd
      have hvalue : digitsValue (ds ++ [d]) = 10 * digitsValue ds + (d - 0x30) := by
        rw [digitsValue, List.foldl_append]
        rfl
      rw [List.length_append, List.length_singleton]
      by_cases hlt : digitsValue (ds ++ [d]) < 10
      · rw [digitCodes_of_lt hlt, List.length_singleton]
        omega
      · have hdiv : digitsValue (ds ++ [d]) / 10 = digitsValue ds := by omega
        rw [digitCodes_of_le (by omega), hdiv, List.length_append, List.length_singleton]
        cases ds with
        | nil =>
            exfalso
            rw [hvalue] at hlt
            have hzero : digitsValue [] = 0 := rfl
            omega
        | cons c cs =>
            rw [List.length_cons] at hds ⊢
            omega

theorem dumpInt_intOf {cs : PyStr}
    (h : ¬ intMaxDigits < (cs.filter isDigitCode).length) :
    ∃ t, dumpInt (intOf cs) = .ok t := by
  have hdigits : ∀ c ∈ cs.filter isDigitCode, isDigitCode c = true :=
    fun c hc => (List.mem_filter.1 hc).2
  have hlen := length_digitCodes_le hdigits
  have habs : (intOf cs).natAbs = digitsValue (cs.filter isDigitCode) := by
    simp only [intOf]
    split
    · rw [Int.natAbs_neg]
      rfl
    · rfl
  have hmax : 1 ≤ intMaxDigits := by decide
  rw [dumpInt, habs, if_neg (by omega)]
  exact ⟨_, rfl⟩

/-- A value that has a text. -/
def Written (readFloat : PyStr → PyFloat) (spell : Rat → PyStr) (limit : Nat) (v : Json) : Prop :=
  Readable readFloat spell v ∧ ∃ t, dumps spell limit v = .ok t

theorem written_list {xs : List Json} (h : ∀ x ∈ xs, Written readFloat spell limit x) :
    Written readFloat spell (limit + 1) (.arr xs) := by
  have hparts : ReadableList readFloat spell xs ∧
      ∃ parts, dumpElements spell limit xs = .ok parts := by
    induction xs with
    | nil => exact ⟨trivial, [], rfl⟩
    | cons x xs ih =>
        obtain ⟨⟨hx, t, ht⟩, hxs⟩ := List.forall_mem_cons.1 h
        obtain ⟨hall, parts, hparts⟩ := ih hxs
        exact ⟨⟨hx, hall⟩, t :: parts, by rw [dumpElements, ht, hparts]; rfl⟩
  obtain ⟨hall, parts, hparts⟩ := hparts
  exact ⟨hall, _, by rw [dumps, hparts]; rfl⟩

theorem written_items {kvs : JsonObject} (hkeys : (kvs.map Prod.fst).Nodup)
    (h : ∀ kv ∈ kvs, joined kv.1 = true ∧ Written readFloat spell limit kv.2) :
    Written readFloat spell (limit + 1) (.obj kvs) := by
  have hparts : ReadableItems readFloat spell kvs ∧
      ∃ parts, dumpMembers spell limit kvs = .ok parts := by
    clear hkeys
    induction kvs with
    | nil => exact ⟨trivial, [], rfl⟩
    | cons kv kvs ih =>
        obtain ⟨⟨hkey, hv, t, ht⟩, hkvs⟩ := List.forall_mem_cons.1 h
        obtain ⟨hall, parts, hparts⟩ := ih hkvs
        exact ⟨⟨hkey, hv, hall⟩, _ :: parts, by rw [dumpMembers, ht, hparts]; rfl⟩
  obtain ⟨hall, parts, hparts⟩ := hparts
  exact ⟨⟨hkeys, hall⟩, _, by rw [dumps, hparts]; rfl⟩

theorem keys_setItem (key : PyStr) (v : Json) (kvs : JsonObject) :
    (setItem key v kvs).map Prod.fst =
      if key ∈ kvs.map Prod.fst then kvs.map Prod.fst else kvs.map Prod.fst ++ [key] := by
  induction kvs with
  | nil => rfl
  | cons kv kvs ih =>
      obtain ⟨k, w⟩ := kv
      rw [setItem]
      by_cases hk : k = key
      · rw [if_pos hk, if_pos (by rw [hk]; exact List.mem_cons_self)]
        rfl
      · rw [if_neg hk, List.map_cons, ih]
        simp only [List.map_cons, List.mem_cons, Ne.symm hk, false_or]
        split <;> rfl

theorem nodup_setItem {key : PyStr} {v : Json} {kvs : JsonObject}
    (h : (kvs.map Prod.fst).Nodup) : ((setItem key v kvs).map Prod.fst).Nodup := by
  rw [keys_setItem]
  split
  · exact h
  · next hnew =>
      refine List.nodup_append.2 ⟨h, List.nodup_singleton _, fun a ha b hb => ?_⟩
      rw [List.mem_singleton.1 hb]
      exact fun heq => hnew (heq ▸ ha)

theorem mem_setItem {key : PyStr} {v : Json} {kvs : JsonObject} {kv : PyStr × Json}
    (h : kv ∈ setItem key v kvs) : kv ∈ kvs ∨ kv = (key, v) := by
  induction kvs with
  | nil => exact .inr (List.mem_singleton.1 h)
  | cons kv' kvs ih =>
      obtain ⟨k, w⟩ := kv'
      rw [setItem] at h
      split at h
      · next hk =>
          rcases List.mem_cons.1 h with rfl | h
          · exact .inr (by rw [hk])
          · exact .inl (List.mem_cons_of_mem _ h)
      · rcases List.mem_cons.1 h with rfl | h
        · exact .inl List.mem_cons_self
        · rcases ih h with h | h
          · exact .inl (List.mem_cons_of_mem _ h)
          · exact .inr h

/-- A scan that finds nothing but what can be written. -/
def Finds (readFloat : PyStr → PyFloat) (spell : Rat → PyStr) (limit : Nat)
    (scan : PyStr → Outcome Json) : Prop :=
  Accepts scan ∧ ∀ cs v rest, Scalars cs → scan cs = .ok v rest →
    Written readFloat spell limit v

theorem finds_members {scan : PyStr → Outcome Json} (hscan : Finds readFloat spell limit scan)
    {fuel : Nat} {kvs : JsonObject} {cs rest : PyStr} {v : Json} {prev : Prev}
    (hprev : prev.names = true) (hcs : Scalars cs) (hkeys : (kvs.map Prod.fst).Nodup)
    (hkvs : ∀ kv ∈ kvs, joined kv.1 = true ∧ Written readFloat spell limit kv.2)
    (h : scanMembers scan fuel kvs cs = .ok v rest) :
    Written readFloat spell (limit + 1) v := by
  induction fuel generalizing kvs cs prev with
  | zero => cases h
  | succ fuel ih =>
      rw [scanMembers] at h
      obtain ⟨key, behind, hkey, h⟩ := Outcome.bind_eq_ok h
      obtain ⟨u, at', hcolon, h⟩ := Outcome.bind_eq_ok h
      obtain ⟨w, next, hvalue, h⟩ := Outcome.bind_eq_ok h
      obtain ⟨closed, more, hclosed, h⟩ := Outcome.bind_eq_ok h
      have hbehind := hcs.rest (runs_scanKey hprev hkey)
      have hat := hbehind.rest (runs_scanColon hcolon)
      have hnext := hat.rest (hscan.1 _ _ _ hvalue .colon rfl)
      have hmore := hnext.rest (runs_delimiter (done_of_value _ rfl) (.inl rfl) hclosed)
      have hjoined : joined key = true := by
        rw [scanKey] at hkey
        split at hkey
        · exact joined_scanString (fun c hc => hcs c (List.mem_of_mem_drop hc)) hkey
        · cases hkey
      have hitems : ∀ kv ∈ setItem key w kvs,
          joined kv.1 = true ∧ Written readFloat spell limit kv.2 := by
        intro kv hkv
        rcases mem_setItem hkv with hkv | rfl
        · exact hkvs kv hkv
        · exact ⟨hjoined, hscan.2 _ _ _ hat hvalue⟩
      split at h
      · cases h
        exact written_items (nodup_setItem hkeys) hitems
      · have hprev' : Prev.comma.names = true := rfl
        exact ih hprev' hmore (nodup_setItem hkeys) hitems h

theorem finds_elements {scan : PyStr → Outcome Json} (hscan : Finds readFloat spell limit scan)
    {fuel : Nat} {xs : List Json} {cs rest : PyStr} {v : Json} (hcs : Scalars cs)
    (hxs : ∀ x ∈ xs, Written readFloat spell limit x)
    (h : scanElements scan fuel xs cs = .ok v rest) :
    Written readFloat spell (limit + 1) v := by
  induction fuel generalizing xs cs with
  | zero => cases h
  | succ fuel ih =>
      rw [scanElements] at h
      obtain ⟨w, next, hvalue, h⟩ := Outcome.bind_eq_ok h
      obtain ⟨closed, more, hclosed, h⟩ := Outcome.bind_eq_ok h
      have hnext := hcs.rest (hscan.1 _ _ _ hvalue .comma rfl)
      have hmore := hnext.rest (runs_delimiter (done_of_value _ rfl) (.inr rfl) hclosed)
      have hall : ∀ x ∈ xs ++ [w], Written readFloat spell limit x := by
        intro x hx
        rcases List.mem_append.1 hx with hx | hx
        · exact hxs x hx
        · rw [List.mem_singleton.1 hx]
          exact hscan.2 _ _ _ hcs hvalue
      split at h
      · cases h
        exact written_list hall
      · exact ih hmore hall h

theorem Scalars.skipSpace {cs : PyStr} (h : Scalars cs) : Scalars (skipSpace cs) :=
  h.rest (runs_skipSpace .start)

theorem finds_atom (hspell : ∀ t q, readFloat t = .finite q → Spelled readFloat spell q)
    {cs rest : PyStr} {v : Json} (h : scanAtom readFloat cs = .ok v rest) :
    Written readFloat spell limit v := by
  rw [scanAtom] at h
  split at h
  · next k hk =>
      cases h
      have hwords : ∀ k ∈ constants, (k.2 = .null ∨ ∃ b, k.2 = .bool b) ∨
          k.2 = .float .nan ∨ k.2 = .float .posInf ∨ k.2 = .float .negInf := by
        simp [constants]
      rcases hwords k (List.mem_of_find?_eq_some hk) with (h | ⟨b, h⟩) | h | h | h <;> rw [h]
      · exact ⟨trivial, _, dumps_null spell limit⟩
      · exact ⟨trivial, _, dumps_bool spell limit b⟩
      · exact ⟨trivial, _, dumps_float spell limit .nan⟩
      · exact ⟨trivial, _, dumps_float spell limit .posInf⟩
      · exact ⟨trivial, _, dumps_float spell limit .negInf⟩
  · rw [scanNumber] at h
    split at h
    · cases h
    · next whole more hrun =>
        split at h
        · cases h
          refine ⟨?_, _, dumps_float spell limit _⟩
          cases hread : readFloat (cs.take (whole + more)) with
          | finite q =>
              rw [Readable]
              exact hspell _ _ hread
          | nan => trivial
          | posInf => trivial
          | negInf => trivial
        · split at h
          · cases h
          · next hlen =>
              cases h
              obtain ⟨t, ht⟩ := dumpInt_intOf hlen
              exact ⟨trivial, t, by rw [dumps_int, ht]⟩

theorem finds_value (hspell : ∀ t q, readFloat t = .finite q → Spelled readFloat spell q)
    {within : Option (PyStr → Outcome Json)} {cs rest : PyStr} {v : Json}
    (hwithin : ∀ scan, within = some scan → ∃ less, limit = less + 1 ∧
      Finds readFloat spell less scan)
    (hcs : Scalars cs) (h : scanValue readFloat within cs = .ok v rest) :
    Written readFloat spell limit v := by
  cases cs with
  | nil => cases h
  | cons c cs =>
      have htail : Scalars cs := (List.forall_mem_cons.1 hcs).2
      simp only [scanValue] at h
      split at h
      · obtain ⟨s, mid, hs, h⟩ := Outcome.bind_eq_ok h
        cases h
        refine ⟨?_, _, dumps_str spell limit s⟩
        rw [Readable]
        exact joined_scanString htail hs
      · split at h
        · split at h
          · cases h
          · next scan =>
              obtain ⟨less, rfl, hscan⟩ := hwithin scan rfl
              rw [scanObject] at h
              split at h
              · cases h
                exact written_items List.nodup_nil (List.forall_mem_nil _)
              · have hnone : ∀ kv ∈ ([] : JsonObject),
                    joined kv.1 = true ∧ Written readFloat spell less kv.2 := by simp
                have hprev : Prev.brace.names = true := rfl
                have hkeys : (([] : JsonObject).map Prod.fst).Nodup := List.nodup_nil
                exact finds_members hscan hprev htail.skipSpace hkeys hnone h
        · split at h
          · split at h
            · cases h
            · next scan =>
                obtain ⟨less, rfl, hscan⟩ := hwithin scan rfl
                rw [scanArray] at h
                split at h
                · cases h
                  exact written_list (List.forall_mem_nil _)
                · have hnone : ∀ x ∈ ([] : List Json), Written readFloat spell less x := by
                    simp
                  exact finds_elements hscan htail.skipSpace hnone h
          · exact finds_atom hspell h

theorem finds_scanOnce (hspell : ∀ t q, readFloat t = .finite q → Spelled readFloat spell q)
    (limit : Nat) : Finds readFloat spell limit (scanOnce readFloat limit) := by
  induction limit with
  | zero =>
      refine ⟨accepts_scanOnce readFloat 0, fun cs v rest hcs h => ?_⟩
      exact finds_value hspell (fun scan hscan => by cases hscan) hcs h
  | succ limit ih =>
      refine ⟨accepts_scanOnce readFloat (limit + 1), fun cs v rest hcs h => ?_⟩
      refine finds_value hspell (fun scan hscan => ?_) hcs h
      cases hscan
      exact ⟨limit, rfl, ih⟩

/-- What was read of a text without surrogates has a text, within the limit it was read
within. -/
theorem written_of_loads (hspell : ∀ t q, readFloat t = .finite q → Spelled readFloat spell q)
    {cs rest : PyStr} {v : Json} (hcs : Scalars cs) (h : loads readFloat limit cs = .ok v rest) :
    Written readFloat spell limit v := by
  rw [loads] at h
  split at h
  · cases h
  · obtain ⟨w, mid, hscan, hend⟩ := Outcome.bind_eq_ok h
    rw [atEnd] at hend
    split at hend
    · cases hend
      exact (finds_scanOnce hspell limit).2 _ _ _ hcs.skipSpace hscan
    · cases hend

/-- What was loaded is dumped, in ASCII, and loads again as it was: a value that came off the
wire can be put on it any number of times. -/
theorem reloads (hspell : ∀ t q, readFloat t = .finite q → Spelled readFloat spell q)
    {cs rest : PyStr} {v : Json} (hcs : Scalars cs) (h : loads readFloat limit cs = .ok v rest) :
    ∃ t, dumps spell limit v = .ok t ∧ Ascii t ∧
      ∀ limit', limit ≤ limit' → loads readFloat limit' t = .ok v [] := by
  obtain ⟨hv, t, ht⟩ := written_of_loads hspell hcs h
  exact ⟨t, ht, ascii_dumps v hv ht, fun limit' hle => loads_dumps hv ht hle⟩

end

/-! A scale of one float. -/

namespace Sample

/-- `1.5`. -/
def half : PyStr := [0x31, 0x2e, 0x35]

def readFloat (t : PyStr) : PyFloat := if t = half then .finite (3 / 2) else .nan

def spell (_ : Rat) : PyStr := half

theorem spelled (t : PyStr) (q : Rat) (h : readFloat t = .finite q) :
    Spelled readFloat spell q := by
  unfold readFloat at h
  split at h
  · cases h
    exact ⟨⟨1, 2, by decide, by decide, by decide⟩, by decide, rfl⟩
  · cases h

/-- `"a"` is a list of a character that takes two escapes, a float and an integer. -/
def text : PyStr :=
  [0x7b, 0x22, 0x61, 0x22, 0x3a, 0x20, 0x5b, 0x22, 0x5c, 0x75, 0x64, 0x38, 0x33, 0x64, 0x5c,
   0x75, 0x64, 0x65, 0x30, 0x30, 0x22, 0x2c, 0x20, 0x31, 0x2e, 0x35, 0x2c, 0x20, 0x2d, 0x31,
   0x32, 0x5d, 0x7d]

def value : Json :=
  .obj [([0x61], .arr [.str [0x1f600], .float (.finite (3 / 2)), .int (-12)])]

end Sample

theorem reloads_sample :
    ∃ t, dumps Sample.spell 3 Sample.value = .ok t ∧ Ascii t ∧
      ∀ limit', 3 ≤ limit' → loads Sample.readFloat limit' t = .ok Sample.value [] :=
  reloads Sample.spelled (show ∀ c ∈ Sample.text, isScalar c = true by decide)
    (show loads Sample.readFloat 3 Sample.text = .ok Sample.value [] from rfl)

end TradingBroker.Wire
