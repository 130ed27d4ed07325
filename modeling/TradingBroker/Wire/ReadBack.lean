import TradingBroker.Wire.Dumps

/-!
# What is written is read

`json.loads` of what `json.dumps` wrote is the value again, if its strings have no pair of
surrogates that were no character, its objects no key twice, and its floats are written so that
they read as themselves. The induction is on the value, and within a list or an object on what is
left of it behind what the scanner has read; what follows a number must not go on with it.

`Readable` is what is asked of a value, and it is asked of every value within. Each part
of the text is shown to be read with anything behind it that the encoder may put there,
which is why the statements about elements and members carry what was read before them and
a bound on how many there are.
-/

namespace TradingBroker.Wire

open Security

/-! ## Digits -/

theorem digitCodes_of_lt {n : Nat} (h : n < 10) : digitCodes n = [0x30 + n] := by
  have hall : ∀ d : Fin 10, [(Nat.digitChar d).toNat] = [0x30 + (d : Nat)] := by decide
  rw [digitCodes, Lib.Numerals.digits, Nat.toDigits_of_lt_base h]
  exact hall ⟨n, h⟩

theorem digitCodes_of_le {n : Nat} (h : 10 ≤ n) :
    digitCodes n = digitCodes (n / 10) ++ [0x30 + n % 10] := by
  rw [digitCodes, Lib.Numerals.digits, Nat.toDigits_of_base_le (by omega) h, List.map_append,
    ← digitCodes_of_lt (Nat.mod_lt n (by omega)), digitCodes, digitCodes, Lib.Numerals.digits,
    Lib.Numerals.digits, Nat.toDigits_of_lt_base (Nat.mod_lt n (by omega))]

theorem isDigit_digitCodes (n : Nat) : ∀ c ∈ digitCodes n, isDigitCode c = true := by
  induction n using Nat.strongRecOn with
  | _ n ih =>
      by_cases h : n < 10
      · rw [digitCodes_of_lt h]
        intro c hc
        rw [List.mem_singleton.1 hc, isDigitCode]
        simp
        omega
      · rw [digitCodes_of_le (by omega)]
        intro c hc
        rcases List.mem_append.1 hc with hc | hc
        · exact ih (n / 10) (by omega) c hc
        · rw [List.mem_singleton.1 hc, isDigitCode]
          simp
          omega

/-- No zero leads but the one of zero. -/
theorem head_digitCodes {n : Nat} (hn : n ≠ 0) :
    ∃ c cs, digitCodes n = c :: cs ∧ c ≠ 0x30 ∧ isDigitCode c = true := by
  induction n using Nat.strongRecOn with
  | _ n ih =>
      by_cases h : n < 10
      · refine ⟨0x30 + n, [], digitCodes_of_lt h, by omega, ?_⟩
        rw [isDigitCode]
        simp
        omega
      · obtain ⟨c, cs, hcs, hc⟩ := ih (n / 10) (by omega) (by omega)
        exact ⟨c, cs ++ [0x30 + n % 10],
          by rw [digitCodes_of_le (by omega), hcs, List.cons_append], hc⟩

def digitsValue (cs : PyStr) : Nat := cs.foldl (fun v c => 10 * v + (c - 0x30)) 0

theorem digitsValue_digitCodes (n : Nat) : digitsValue (digitCodes n) = n := by
  induction n using Nat.strongRecOn with
  | _ n ih =>
      by_cases h : n < 10
      · rw [digitCodes_of_lt h, digitsValue]
        simp
      · have hrest := ih (n / 10) (by omega)
        rw [digitsValue] at hrest
        rw [digitCodes_of_le (by omega), digitsValue, List.foldl_append, hrest]
        simp
        omega

theorem filter_digitCodes (n : Nat) : (digitCodes n).filter isDigitCode = digitCodes n :=
  List.filter_eq_self.2 (isDigit_digitCodes n)

theorem digitRun_all {cs : PyStr} (h : ∀ c ∈ cs, isDigitCode c = true) :
    digitRun cs = cs.length := by
  rw [digitRun, List.takeWhile_eq_self_iff.2 h]

/-- The run of a numeral that is an integer. -/
theorem wholeRun_digitCodes (n : Nat) :
    (if (digitCodes n).head? = some 0x30 then 1 else digitRun (digitCodes n)) =
      (digitCodes n).length ∧ (digitCodes n).length ≠ 0 := by
  by_cases hn : n = 0
  · subst hn
    decide
  · obtain ⟨c, cs, hcs, hne, -⟩ := head_digitCodes hn
    rw [if_neg (by rw [hcs]; simp [hne]), digitRun_all (isDigit_digitCodes n), hcs]
    simp

theorem numeralRun_digitCodes (n : Nat) :
    numeralRun (digitCodes n) = some ((digitCodes n).length, 0) := by
  obtain ⟨hrun, hpos⟩ := wholeRun_digitCodes n
  have hsign : (digitCodes n).head? ≠ some 0x2d := by
    intro hhead
    have hdigit := isDigit_digitCodes n 0x2d (List.mem_of_mem_head? hhead)
    cases hdigit
  have hfraction : fractionRun [] = 0 := rfl
  have hexponent : exponentRun [] = 0 := rfl
  simp only [numeralRun, if_neg hsign, List.drop_zero, Nat.zero_add, hrun, if_neg hpos,
    List.drop_length, hfraction, Nat.add_zero, hexponent]

theorem numeralRun_neg (n : Nat) :
    numeralRun (0x2d :: digitCodes n) = some ((digitCodes n).length + 1, 0) := by
  obtain ⟨hrun, hpos⟩ := wholeRun_digitCodes n
  have hfraction : fractionRun [] = 0 := rfl
  have hexponent : exponentRun [] = 0 := rfl
  simp only [numeralRun, List.head?_cons, if_true, List.drop_succ_cons, List.drop_zero, hrun,
    if_neg hpos, Nat.add_comm 1, List.drop_length, hfraction, Nat.add_zero, hexponent]

/-! ## Numbers where more follows -/

/-- What may follow a number: nothing that goes on with it. -/
def Ends (rest : PyStr) : Prop := ∀ c ∈ rest.head?, isNumberCode c = false

theorem Ends.nil : Ends [] := nofun

theorem Ends.cons {c : Nat} {cs : PyStr} (h : isNumberCode c = false) : Ends (c :: cs) := by
  intro d hd
  cases hd
  exact h

theorem takeWhile_number {t rest : PyStr} (ht : ∀ c ∈ t, isNumberCode c = true)
    (hrest : Ends rest) : (t ++ rest).takeWhile isNumberCode = t := by
  rw [List.takeWhile_append_of_pos ht]
  cases rest with
  | nil => exact List.append_nil t
  | cons c cs =>
      rw [List.takeWhile_cons_of_neg (by rw [hrest c rfl]; exact Bool.false_ne_true)]
      exact List.append_nil t

theorem isNumber_of_digit {c : Nat} (h : isDigitCode c = true) : isNumberCode c = true := by
  simp [isNumberCode, h]

/-- A number begins with a digit, or with one behind the sign. -/
theorem numeral_head {t : PyStr} {whole more : Nat} (h : numeralRun t = some (whole, more)) :
    ∃ d cs, isDigitCode d = true ∧ (t = d :: cs ∨ t = 0x2d :: d :: cs) := by
  have hdigit : ∀ cs : PyStr,
      (if cs.head? = some 0x30 then 1 else digitRun cs) ≠ 0 →
        ∃ d ds, cs = d :: ds ∧ isDigitCode d = true := by
    intro cs hcs
    cases cs with
    | nil => exact absurd rfl hcs
    | cons d ds =>
        refine ⟨d, ds, rfl, ?_⟩
        cases hd : isDigitCode d with
        | true => rfl
        | false =>
            exfalso
            have hne : d ≠ 0x30 := by
              intro heq
              rw [heq] at hd
              cases hd
            rw [if_neg (by simp [hne]), digitRun, List.takeWhile_cons, hd] at hcs
            exact hcs rfl
  have hpos : (if (t.drop (if t.head? = some 0x2d then 1 else 0)).head? = some 0x30 then 1
      else digitRun (t.drop (if t.head? = some 0x2d then 1 else 0))) ≠ 0 := by
    intro hzero
    simp only [numeralRun, hzero, if_true] at h
    cases h
  obtain ⟨d, ds, hds, hd⟩ := hdigit _ hpos
  by_cases hsign : t.head? = some 0x2d
  · rw [if_pos hsign] at hds
    refine ⟨d, ds, hd, .inr ?_⟩
    rw [eq_cons_of_head hsign, hds]
  · rw [if_neg hsign, List.drop_zero] at hds
    exact ⟨d, ds, hd, .inl hds⟩

/-- No word is before a number. -/
theorem find_number {t : PyStr} {whole more : Nat} (h : numeralRun t = some (whole, more))
    (rest : PyStr) : (constants.find? fun k => k.1.isPrefixOf (t ++ rest)) = none := by
  obtain ⟨d, cs, hd, rfl | rfl⟩ := numeral_head h <;>
  · simp only [isDigitCode, Bool.and_eq_true, decide_eq_true_eq] at hd
    have hne : ∀ w : Nat, 0x39 < w → (w == d) = false := fun w hw => by simp; omega
    have hminus : (0x2d == d) = false := by simp; omega
    simp [constants, List.find?, List.isPrefixOf, hne, hminus]

/-- A numeral that is nothing but number. -/
theorem scanNumber_text {readFloat : PyStr → PyFloat} {t rest : PyStr} {whole more : Nat}
    (hrun : numeralRun t = some (whole, more)) (hlen : whole + more = t.length)
    (ht : ∀ c ∈ t, isNumberCode c = true) (hrest : Ends rest) :
    scanNumber readFloat (t ++ rest) =
      if more ≠ 0 then .ok (.float (readFloat t)) rest
      else if intMaxDigits < (t.filter isDigitCode).length then .valueError
      else .ok (.int (intOf t)) rest := by
  rw [scanNumber, takeWhile_number ht hrest, hrun]
  simp only
  split
  · rw [hlen, List.take_left, List.drop_left]
  · next hmore =>
      have hwhole : whole = t.length := by omega
      rw [hwhole, List.take_left, List.drop_left]

theorem scanAtom_number {readFloat : PyStr → PyFloat} {t rest : PyStr} {whole more : Nat}
    (hrun : numeralRun t = some (whole, more)) :
    scanAtom readFloat (t ++ rest) = scanNumber readFloat (t ++ rest) := by
  rw [scanAtom, find_number hrun]

/-- What begins as a number is scanned as an atom. -/
theorem scanOnce_number {readFloat : PyStr → PyFloat} {t rest : PyStr} {whole more : Nat}
    (hrun : numeralRun t = some (whole, more)) (limit : Nat) :
    scanOnce readFloat limit (t ++ rest) = scanNumber readFloat (t ++ rest) := by
  rw [← scanAtom_number hrun]
  obtain ⟨d, cs, hd, rfl | rfl⟩ := numeral_head hrun
  · simp only [isDigitCode, Bool.and_eq_true, decide_eq_true_eq] at hd
    have hne : d ≠ quote ∧ d ≠ openBrace ∧ d ≠ openBracket := by
      unfold quote openBrace openBracket
      omega
    cases limit <;>
      simp only [scanOnce, List.cons_append, scanValue, if_neg hne.1, if_neg hne.2.1,
        if_neg hne.2.2]
  · cases limit <;> rfl

/-! ## Between the values -/

/-- What a value's text begins with. -/
def Begins (t : PyStr) : Prop :=
  ∃ c cs, t = c :: cs ∧ isJsonSpace c = false ∧ c ≠ closeBracket ∧ c ≠ closeBrace ∧ c ≠ 0xfeff

theorem skipSpace_begins {t : PyStr} (h : Begins t) (rest : PyStr) :
    skipSpace (t ++ rest) = t ++ rest := by
  obtain ⟨c, cs, rfl, hspace, -⟩ := h
  rw [List.cons_append, skipSpace, List.dropWhile_cons, hspace]
  rfl

theorem scanDelimiter_close {close : Nat} {trailing : String} (h : isJsonSpace close = false)
    (rest : PyStr) : scanDelimiter close trailing (close :: rest) = .ok true rest := by
  have hskip : skipSpace (close :: rest) = close :: rest := by
    rw [skipSpace, List.dropWhile_cons, h]
    rfl
  rw [scanDelimiter, hskip, List.head?_cons, if_pos rfl]
  rfl

theorem scanDelimiter_comma {close : Nat} {trailing : String} {t : PyStr} (hclose : comma ≠ close)
    (ht : Begins t) (hne : ∀ c cs, t = c :: cs → c ≠ close) (rest : PyStr) :
    scanDelimiter close trailing (commaSpace ++ (t ++ rest)) = .ok false (t ++ rest) := by
  have hskip : skipSpace (commaSpace ++ (t ++ rest)) = comma :: 0x20 :: (t ++ rest) := rfl
  have hnext : skipSpace (0x20 :: (t ++ rest)) = t ++ rest := by
    show skipSpace (t ++ rest) = t ++ rest
    exact skipSpace_begins ht rest
  have hhead : (t ++ rest).head? ≠ some close := by
    obtain ⟨c, cs, rfl, -⟩ := ht
    intro heq
    exact hne c cs rfl (Option.some.inj heq)
  simp only [scanDelimiter, hskip, List.head?_cons, Option.some.injEq, if_neg hclose, if_true,
    List.drop_succ_cons, List.drop_zero, hnext, if_neg hhead]

theorem scanKey_dumpString {key : PyStr} (h : joined key = true) (rest : PyStr) :
    scanKey (dumpString key ++ rest) = .ok key rest := by
  rw [scanKey, dumpString, List.cons_append]
  exact scanString_dumpString h rest

theorem scanColon_space {t : PyStr} (ht : Begins t) (rest : PyStr) :
    scanColon (colon :: 0x20 :: (t ++ rest)) = .ok () (t ++ rest) := by
  have hskip : skipSpace (colon :: 0x20 :: (t ++ rest)) = colon :: 0x20 :: (t ++ rest) := rfl
  have hnext : skipSpace (0x20 :: (t ++ rest)) = t ++ rest := skipSpace_begins ht rest
  rw [scanColon, hskip, List.head?_cons, if_pos rfl, List.drop_succ_cons, List.drop_zero, hnext]

theorem setItem_new {key : PyStr} {v : Json} {kvs : JsonObject}
    (h : key ∉ kvs.map Prod.fst) : setItem key v kvs = kvs ++ [(key, v)] := by
  induction kvs with
  | nil => rfl
  | cons kv kvs ih =>
      rw [List.map_cons, List.mem_cons, not_or] at h
      rw [setItem, if_neg (Ne.symm h.1), ih h.2, List.cons_append]

/-! ## Values -/

section
variable (readFloat : PyStr → PyFloat) (spell : Rat → PyStr)

/-- A float written as JSON has them, with a fraction or an exponent, and read as itself. -/
structure Spelled (q : Rat) : Prop where
  numeral : ∃ whole more, numeralRun (spell q) = some (whole, more) ∧ more ≠ 0 ∧
    whole + more = (spell q).length
  codes : ∀ c ∈ spell q, isNumberCode c = true
  reads : readFloat (spell q) = .finite q

mutual

/-- A value that a text can be of: its strings have no pair of surrogates that were no
character, its objects no key twice, and its floats are spelled so that they are read as
themselves. -/
def Readable : Json → Prop
  | .null => True
  | .bool _ => True
  | .int _ => True
  | .float (.finite q) => Spelled readFloat spell q
  | .float _ => True
  | .str s => joined s = true
  | .arr xs => ReadableList xs
  | .obj kvs => (kvs.map Prod.fst).Nodup ∧ ReadableItems kvs

def ReadableList : List Json → Prop
  | [] => True
  | x :: xs => Readable x ∧ ReadableList xs

def ReadableItems : List (PyStr × Json) → Prop
  | [] => True
  | (key, v) :: kvs => joined key = true ∧ Readable v ∧ ReadableItems kvs

end

end

section
variable {readFloat : PyStr → PyFloat} {spell : Rat → PyStr} {limit : Nat} {t : PyStr}

theorem Begins.number {whole more : Nat} (h : numeralRun t = some (whole, more)) : Begins t := by
  obtain ⟨d, cs, hd, rfl | rfl⟩ := numeral_head h
  · simp only [isDigitCode, Bool.and_eq_true, decide_eq_true_eq] at hd
    refine ⟨d, cs, rfl, ?_, ?_, ?_, ?_⟩
    · simp [isJsonSpace]
      omega
    · unfold closeBracket; omega
    · unfold closeBrace; omega
    · omega
  · exact ⟨0x2d, d :: cs, rfl, rfl, by decide, by decide, by decide⟩

theorem dumpInt_ok {n : Int} (h : dumpInt n = .ok t) :
    numeralRun t = some (t.length, 0) ∧ (∀ c ∈ t, isNumberCode c = true) ∧
      (t.filter isDigitCode).length ≤ intMaxDigits ∧ intOf t = n := by
  have hcodes : ∀ c ∈ digitCodes n.natAbs, isNumberCode c = true :=
    fun c hc => isNumber_of_digit (isDigit_digitCodes _ c hc)
  rw [dumpInt] at h
  split at h
  · cases h
  · next hlen =>
      have hvalue := digitsValue_digitCodes n.natAbs
      rw [digitsValue] at hvalue
      split at h
      · next hneg =>
          cases h
          have hfilter : (0x2d :: digitCodes n.natAbs).filter isDigitCode =
              digitCodes n.natAbs := filter_digitCodes _
          refine ⟨numeralRun_neg _, ?_, by rw [hfilter]; omega, ?_⟩
          · intro c hc
            rcases List.mem_cons.1 hc with rfl | hc
            · rfl
            · exact hcodes c hc
          · simp only [intOf, hfilter, hvalue, List.head?_cons, if_true]
            omega
      · next hneg =>
          cases h
          have hsign : (digitCodes n.natAbs).head? ≠ some 0x2d := by
            intro hhead
            have hdigit := isDigit_digitCodes _ 0x2d (List.mem_of_mem_head? hhead)
            cases hdigit
          refine ⟨numeralRun_digitCodes _, hcodes, by rw [filter_digitCodes]; omega, ?_⟩
          simp only [intOf, filter_digitCodes, hvalue, if_neg hsign]
          omega

/-- The text of a value begins as one. -/
theorem begins_dumps {v : Json} (hv : Readable readFloat spell v)
    (h : dumps spell limit v = .ok t) : Begins t := by
  cases v with
  | null =>
      rw [dumps_null] at h
      cases h
      exact ⟨_, _, rfl, rfl, by decide, by decide, by decide⟩
  | bool b =>
      rw [dumps_bool] at h
      cases b <;> cases h <;> exact ⟨_, _, rfl, rfl, by decide, by decide, by decide⟩
  | int n =>
      rw [dumps_int] at h
      exact .number (dumpInt_ok h).1
  | float x =>
      rw [dumps_float] at h
      cases h
      cases x with
      | finite q =>
          rw [Readable] at hv
          obtain ⟨whole, more, hrun, -⟩ := hv.numeral
          exact .number hrun
      | _ => exact ⟨_, _, rfl, rfl, by decide, by decide, by decide⟩
  | str s =>
      rw [dumps_str] at h
      cases h
      exact ⟨_, _, rfl, rfl, by decide, by decide, by decide⟩
  | arr xs =>
      cases limit with
      | zero => cases h
      | succ limit =>
          rw [dumps] at h
          cases hparts : dumpElements spell limit xs with
          | error e => rw [hparts] at h; cases h
          | ok parts =>
              rw [hparts] at h
              cases h
              exact ⟨_, _, rfl, rfl, by decide, by decide, by decide⟩
  | obj kvs =>
      cases limit with
      | zero => cases h
      | succ limit =>
          rw [dumps] at h
          cases hparts : dumpMembers spell limit kvs with
          | error e => rw [hparts] at h; cases h
          | ok parts =>
              rw [hparts] at h
              cases h
              exact ⟨_, _, rfl, rfl, by decide, by decide, by decide⟩

theorem scanOnce_int {n : Int} (h : dumpInt n = .ok t) (limit : Nat) {rest : PyStr}
    (hrest : Ends rest) : scanOnce readFloat limit (t ++ rest) = .ok (.int n) rest := by
  obtain ⟨hrun, hcodes, hlen, hvalue⟩ := dumpInt_ok h
  rw [scanOnce_number hrun, scanNumber_text hrun (Nat.add_zero _) hcodes hrest,
    if_neg (fun hne => hne rfl), if_neg (by omega), hvalue]

theorem scanOnce_float {x : PyFloat} (hx : Readable readFloat spell (.float x)) (limit : Nat)
    {rest : PyStr} (hrest : Ends rest) :
    scanOnce readFloat limit (dumpFloat spell x ++ rest) = .ok (.float x) rest := by
  cases x with
  | finite q =>
      rw [Readable] at hx
      obtain ⟨whole, more, hrun, hmore, hlen⟩ := hx.numeral
      rw [dumpFloat, scanOnce_number hrun, scanNumber_text hrun hlen hx.codes hrest,
        if_pos hmore, hx.reads]
  | nan => cases limit <;> rfl
  | posInf => cases limit <;> rfl
  | negInf => cases limit <;> rfl

/-- The elements that are left, behind those that were read. -/
def ElementsRead (readFloat : PyStr → PyFloat) (spell : Rat → PyStr) (xs : List Json) : Prop :=
  ∀ limit limit' parts, dumpElements spell limit xs = .ok parts → limit ≤ limit' → xs ≠ [] →
    ∀ fuel acc rest, parts.length ≤ fuel →
      scanElements (scanOnce readFloat limit') fuel acc
        (commaSpace.intercalate parts ++ closeBracket :: rest) = .ok (.arr (acc ++ xs)) rest

def MembersRead (readFloat : PyStr → PyFloat) (spell : Rat → PyStr)
    (kvs : List (PyStr × Json)) : Prop :=
  ∀ limit limit' parts, dumpMembers spell limit kvs = .ok parts → limit ≤ limit' → kvs ≠ [] →
    ∀ (fuel : Nat) (acc : JsonObject) (rest : PyStr), parts.length ≤ fuel →
      ((acc ++ kvs).map Prod.fst).Nodup →
      scanMembers (scanOnce readFloat limit') fuel acc
        (commaSpace.intercalate parts ++ closeBrace :: rest) = .ok (.obj (acc ++ kvs)) rest

def ValueRead (readFloat : PyStr → PyFloat) (spell : Rat → PyStr) (v : Json) : Prop :=
  ∀ limit limit' t, dumps spell limit v = .ok t → limit ≤ limit' → ∀ rest, Ends rest →
    scanOnce readFloat limit' (t ++ rest) = .ok v rest

theorem bind_ok {ε α β : Type} {x : Except ε α} {f : α → Except ε β} {b : β}
    (h : x.bind f = .ok b) : ∃ a, x = .ok a ∧ f a = .ok b := by
  cases x with
  | error e => cases h
  | ok a => exact ⟨a, rfl, h⟩

theorem map_ok {ε α β : Type} {x : Except ε α} {f : α → β} {b : β}
    (h : x.map f = .ok b) : ∃ a, x = .ok a ∧ f a = b := by
  cases x with
  | error e => cases h
  | ok a => exact ⟨a, rfl, by cases h; rfl⟩

theorem ends_comma (rest : PyStr) : Ends (commaSpace ++ rest) := .cons rfl

theorem ends_close {close : Nat} (h : close = closeBracket ∨ close = closeBrace)
    (rest : PyStr) : Ends (close :: rest) := by
  refine .cons ?_
  rcases h with rfl | rfl <;> rfl

/-- A joined text begins with its first part. -/
theorem intercalate_next (next : PyStr) (others : List PyStr) (tail : PyStr) :
    ∃ text, commaSpace.intercalate (next :: others) ++ tail = next ++ text := by
  cases others with
  | nil => exact ⟨tail, by rw [List.intercalate_singleton]⟩
  | cons o os =>
      exact ⟨commaSpace ++ (commaSpace.intercalate (o :: os) ++ tail),
        by rw [List.intercalate_cons_cons]; simp only [List.append_assoc]⟩

theorem intercalate_two (part next : PyStr) (others : List PyStr) (tail : PyStr) :
    commaSpace.intercalate (part :: next :: others) ++ tail =
      part ++ (commaSpace ++ (commaSpace.intercalate (next :: others) ++ tail)) := by
  rw [List.intercalate_cons_cons]
  simp only [List.append_assoc]

theorem elementsRead_cons {x : Json} {xs : List Json}
    (hvs : ReadableList readFloat spell xs) (hx : ValueRead readFloat spell x)
    (hxs : ElementsRead readFloat spell xs) : ElementsRead readFloat spell (x :: xs) := by
  intro limit limit' parts hparts hlimit _ fuel acc rest hfuel
  obtain ⟨part, hpart, hparts⟩ := bind_ok hparts
  obtain ⟨parts, hmore, rfl⟩ := map_ok hparts
  cases fuel with
  | zero => simp at hfuel
  | succ fuel =>
      rw [List.length_cons] at hfuel
      rw [scanElements]
      cases xs with
      | nil =>
          cases hmore
          rw [List.intercalate_singleton,
            hx _ _ _ hpart hlimit _ (ends_close (.inl rfl) rest), Outcome.ok_bind,
            scanDelimiter_close rfl, Outcome.ok_bind, if_pos rfl]
      | cons y ys =>
          obtain ⟨next, hnext, hrest⟩ := bind_ok hmore
          obtain ⟨others, hothers, rfl⟩ := map_ok hrest
          have hbegins := begins_dumps hvs.1 hnext
          have hmany := hxs limit limit' _ hmore hlimit (List.cons_ne_nil y ys) fuel
            (acc ++ [x]) rest (by omega)
          obtain ⟨text, htext⟩ := intercalate_next next others (closeBracket :: rest)
          rw [htext] at hmany
          rw [intercalate_two, htext, hx _ _ _ hpart hlimit _ (ends_comma _), Outcome.ok_bind,
            scanDelimiter_comma (by decide) hbegins (fun c cs heq => ?_), Outcome.ok_bind,
            if_neg Bool.false_ne_true, hmany, List.append_assoc]
          · rfl
          · obtain ⟨d, ds, hd, -, hne, -⟩ := hbegins
            rw [hd] at heq
            cases heq
            exact hne

theorem membersRead_cons {key : PyStr} {v : Json} {kvs : List (PyStr × Json)}
    (hkey : joined key = true) (hv : Readable readFloat spell v)
    (hkvs : ReadableItems readFloat spell kvs) (hread : ValueRead readFloat spell v)
    (hmore : MembersRead readFloat spell kvs) :
    MembersRead readFloat spell ((key, v) :: kvs) := by
  intro limit limit' parts hparts hlimit _ fuel acc rest hfuel hnodup
  obtain ⟨part, hpart, hparts⟩ := bind_ok hparts
  obtain ⟨parts, hothers, rfl⟩ := map_ok hparts
  have hbegins := begins_dumps hv hpart
  have hnew : key ∉ acc.map Prod.fst := by
    rw [List.map_append, List.map_cons] at hnodup
    exact fun hmem => (List.nodup_append.1 hnodup).2.2 _ hmem _ List.mem_cons_self rfl
  have hacc : setItem key v acc ++ kvs = acc ++ (key, v) :: kvs := by
    rw [setItem_new hnew, List.append_assoc, List.singleton_append]
  -- What the member's own text leaves to scan, whatever is behind it.
  have hmember : ∀ tail, dumpMember key part ++ tail =
      dumpString key ++ colon :: 0x20 :: (part ++ tail) := by
    intro tail
    rw [dumpMember, List.append_assoc, List.cons_append, List.cons_append]
  cases fuel with
  | zero => simp at hfuel
  | succ fuel =>
      rw [List.length_cons] at hfuel
      rw [scanMembers]
      cases kvs with
      | nil =>
          cases hothers
          rw [List.intercalate_singleton, hmember, scanKey_dumpString hkey, Outcome.ok_bind,
            scanColon_space hbegins, Outcome.ok_bind,
            hread _ _ _ hpart hlimit _ (ends_close (.inr rfl) rest), Outcome.ok_bind,
            scanDelimiter_close rfl, Outcome.ok_bind, if_pos rfl, ← hacc, List.append_nil]
      | cons kv kvs =>
          obtain ⟨key', v'⟩ := kv
          obtain ⟨part', hpart', hrest⟩ := bind_ok hothers
          obtain ⟨others, hothers', rfl⟩ := map_ok hrest
          have hmany := hmore limit limit' _ hothers hlimit (List.cons_ne_nil _ _) fuel
            (setItem key v acc) rest (by omega) (by rw [hacc]; exact hnodup)
          obtain ⟨text, htext⟩ := intercalate_next (dumpMember key' part') others
            (closeBrace :: rest)
          have hnext : Begins (dumpMember key' part') :=
            ⟨quote, _, rfl, rfl, by decide, by decide, by decide⟩
          rw [htext] at hmany
          rw [intercalate_two, htext, hmember, scanKey_dumpString hkey, Outcome.ok_bind,
            scanColon_space hbegins, Outcome.ok_bind,
            hread _ _ _ hpart hlimit _ (ends_comma _), Outcome.ok_bind,
            scanDelimiter_comma (by decide) hnext (fun c cs heq => ?_), Outcome.ok_bind,
            if_neg Bool.false_ne_true, hmany, hacc]
          cases heq
          decide

/-- There are fewer parts than characters. -/
theorem length_le_intercalate (parts : List PyStr) (close : Nat) (rest : PyStr) :
    parts.length ≤ (commaSpace.intercalate parts ++ close :: rest).length := by
  have hparts : parts.length ≤ (commaSpace.intercalate parts).length + 1 := by
    induction parts with
    | nil => simp
    | cons p ps ih =>
        cases ps with
        | nil => simp
        | cons q qs =>
            have hpos : commaSpace.length = 2 := rfl
            rw [List.intercalate_cons_cons, List.length_append, List.length_append,
              List.length_cons]
            omega
  rw [List.length_append, List.length_cons]
  omega

/-! ## Values -/

theorem valueRead_str {s : PyStr} (hs : joined s = true) : ValueRead readFloat spell (.str s) := by
  intro limit limit' t h _ rest _
  rw [dumps_str] at h
  cases h
  have hscan : scanOnce readFloat limit' (dumpString s ++ rest) =
      (scanString (escapeText s ++ [quote] ++ rest)).bind fun s rest => .ok (.str s) rest := by
    cases limit' <;> rfl
  rw [hscan, scanString_dumpString hs]
  rfl

/-- A list is only written below the limit, element by element. -/
theorem dumps_arr_ok {xs : List Json} (h : dumps spell limit (.arr xs) = .ok t) :
    ∃ n parts, limit = n + 1 ∧ dumpElements spell n xs = .ok parts ∧
      t = openBracket :: (commaSpace.intercalate parts ++ [closeBracket]) := by
  cases limit with
  | zero => cases h
  | succ n =>
      rw [dumps] at h
      obtain ⟨parts, hparts, rfl⟩ := map_ok h
      exact ⟨n, parts, rfl, hparts, rfl⟩

/-- And so is an object. -/
theorem dumps_obj_ok {kvs : JsonObject} (h : dumps spell limit (.obj kvs) = .ok t) :
    ∃ n parts, limit = n + 1 ∧ dumpMembers spell n kvs = .ok parts ∧
      t = openBrace :: (commaSpace.intercalate parts ++ [closeBrace]) := by
  cases limit with
  | zero => cases h
  | succ n =>
      rw [dumps] at h
      obtain ⟨parts, hparts, rfl⟩ := map_ok h
      exact ⟨n, parts, rfl, hparts, rfl⟩

theorem valueRead_arr {xs : List Json} (hxs : ReadableList readFloat spell xs)
    (hread : ElementsRead readFloat spell xs) : ValueRead readFloat spell (.arr xs) := by
  intro limit limit' t h hlimit rest _
  obtain ⟨limit, parts, rfl, hparts, rfl⟩ := dumps_arr_ok h
  obtain ⟨limit', rfl⟩ : ∃ n, limit' = n + 1 := ⟨limit' - 1, by omega⟩
  have hscan : ∀ cs, scanOnce readFloat (limit' + 1) (openBracket :: cs) =
      scanArray (scanOnce readFloat limit') cs := fun cs => rfl
  rw [List.cons_append, hscan, List.append_assoc, List.singleton_append, scanArray]
  cases xs with
  | nil =>
      cases hparts
      rfl
  | cons x xs =>
      obtain ⟨part, hpart, hmore⟩ := bind_ok hparts
      obtain ⟨others, -, rfl⟩ := map_ok hmore
      have hbegins := begins_dumps hxs.1 hpart
      obtain ⟨text, htext⟩ := intercalate_next part others (closeBracket :: rest)
      have hhead : (part ++ text).head? ≠ some closeBracket := by
        obtain ⟨c, cs, rfl, -, hne, -⟩ := hbegins
        exact fun heq => hne (Option.some.inj heq)
      have hlen := length_le_intercalate (part :: others) closeBracket rest
      rw [htext] at hlen
      have hmany := hread limit limit' _ hparts (by omega) (List.cons_ne_nil x xs)
        (part ++ text).length [] rest hlen
      rw [htext] at hmany ⊢
      rw [skipSpace_begins hbegins, if_neg hhead]
      exact hmany

theorem valueRead_obj {kvs : JsonObject} (hnodup : (kvs.map Prod.fst).Nodup)
    (hread : MembersRead readFloat spell kvs) : ValueRead readFloat spell (.obj kvs) := by
  intro limit limit' t h hlimit rest _
  obtain ⟨limit, parts, rfl, hparts, rfl⟩ := dumps_obj_ok h
  obtain ⟨limit', rfl⟩ : ∃ n, limit' = n + 1 := ⟨limit' - 1, by omega⟩
  have hscan : ∀ cs, scanOnce readFloat (limit' + 1) (openBrace :: cs) =
      scanObject (scanOnce readFloat limit') cs := fun cs => rfl
  rw [List.cons_append, hscan, List.append_assoc, List.singleton_append, scanObject]
  cases kvs with
  | nil =>
      cases hparts
      rfl
  | cons kv kvs =>
      obtain ⟨part, hpart, hmore⟩ := bind_ok hparts
      obtain ⟨others, -, rfl⟩ := map_ok hmore
      have hbegins : Begins (dumpMember kv.1 part) :=
        ⟨quote, _, rfl, rfl, by decide, by decide, by decide⟩
      obtain ⟨text, htext⟩ := intercalate_next (dumpMember kv.1 part) others
        (closeBrace :: rest)
      have hhead : (dumpMember kv.1 part ++ text).head? ≠ some closeBrace := by
        have hquote : (dumpMember kv.1 part ++ text).head? = some quote := rfl
        rw [hquote]
        decide
      have hlen := length_le_intercalate (dumpMember kv.1 part :: others) closeBrace rest
      rw [htext] at hlen
      have hmany := hread limit limit' _ hparts (by omega) (List.cons_ne_nil kv kvs)
        (dumpMember kv.1 part ++ text).length [] rest hlen hnodup
      rw [htext] at hmany ⊢
      rw [skipSpace_begins hbegins, if_neg hhead]
      exact hmany

mutual

theorem valueRead : ∀ v : Json, Readable readFloat spell v → ValueRead readFloat spell v
  | .null, _ => by
      intro limit limit' t h _ rest _
      rw [dumps_null] at h
      cases h
      cases limit' <;> rfl
  | .bool b, _ => by
      intro limit limit' t h _ rest _
      rw [dumps_bool] at h
      cases h
      cases b <;> cases limit' <;> rfl
  | .int n, _ => by
      intro limit limit' t h _ rest hrest
      rw [dumps_int] at h
      exact scanOnce_int h limit' hrest
  | .float x, hx => by
      intro limit limit' t h _ rest hrest
      rw [dumps_float] at h
      cases h
      exact scanOnce_float hx limit' hrest
  | .str s, hs => by
      rw [Readable] at hs
      exact valueRead_str hs
  | .arr xs, hxs => by
      rw [Readable] at hxs
      exact valueRead_arr hxs (elementsRead xs hxs)
  | .obj kvs, hkvs => by
      rw [Readable] at hkvs
      exact valueRead_obj hkvs.1 (membersRead kvs hkvs.2)

theorem elementsRead : ∀ xs : List Json, ReadableList readFloat spell xs →
    ElementsRead readFloat spell xs
  | [], _ => fun _ _ _ _ _ hne => absurd rfl hne
  | x :: xs, h => elementsRead_cons h.2 (valueRead x h.1) (elementsRead xs h.2)

theorem membersRead : ∀ kvs : List (PyStr × Json), ReadableItems readFloat spell kvs →
    MembersRead readFloat spell kvs
  | [], _ => fun _ _ _ _ _ hne => absurd rfl hne
  | (_, v) :: kvs, h =>
      membersRead_cons h.1 h.2.1 h.2.2 (valueRead v h.2.1) (membersRead kvs h.2.2)

end

/-- A document is read as the value it was written of. -/
theorem loads_dumps {limit' : Nat} {v : Json} (hv : Readable readFloat spell v)
    (h : dumps spell limit v = .ok t) (hlimit : limit ≤ limit') :
    loads readFloat limit' t = .ok v [] := by
  have hbegins := begins_dumps hv h
  have hscan := valueRead v hv limit limit' t h hlimit [] .nil
  have hskip := skipSpace_begins hbegins []
  rw [List.append_nil] at hscan hskip
  have hbom : t.head? ≠ some 0xfeff := by
    obtain ⟨c, cs, rfl, -, -, -, hne⟩ := hbegins
    exact fun heq => hne (Option.some.inj heq)
  rw [loads, if_neg hbom, hskip, hscan]
  rfl

end

end TradingBroker.Wire
