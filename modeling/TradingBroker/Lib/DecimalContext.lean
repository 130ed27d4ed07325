import TradingBroker.Lib.Numerals

/-!
# Decimals in a context

The arithmetic of the `decimal` module rounds to the precision of a context, half to even, and
raises where a result is too large for it. `render` is what becomes of a decimal that is
normalised, brought to plain digits and written: `render_exact_iff` says that the text denotes
the decimal (`readPlain` reads it) if and only if its digits, without the zeros at the end, are
no more than the precision, those before the point counted with the zeros that make it whole.

A decimal is a sign, an integer and an exponent, and a number has many of them;
`normalize` takes the one without zeros at its end, and everything is shown of that one.
`Context.Holds` is then a condition on its digits.
-/

namespace TradingBroker.Lib.Numerals

/-- A context; the bounds are on the exponent of the first digit. -/
structure Context where
  prec : Nat
  emin : Int
  emax : Int
  prec_pos : 0 < prec
  emin_le : emin ≤ 0
  prec_le : (prec : Int) ≤ emax

namespace Context

variable (c : Context)

/-- `Etiny()` and `Etop()`, the bounds on the exponent of the last digit. -/
def etiny : Int := c.emin - c.prec + 1
def etop : Int := c.emax - c.prec + 1

/-- `_fix`: rounded to the precision, `none` being `Overflow`. The exponent of a zero is brought
within bounds, which `normalize` then drops. -/
def fix (d : Decimal) : Option Decimal :=
  if d.int = 0 then some d
  else
    let least : Int := (digits d.int).length + d.exp - c.prec
    if c.etop < least then none
    else
      let exp := if least < c.etiny then c.etiny else least
      if d.exp < exp then
        let v := roundDiv d.int (tenPow (exp - d.exp).toNat)
        if v < tenPow c.prec then some ⟨d.sign, v, exp⟩
        else if c.etop < exp + 1 then none
        else some ⟨d.sign, v / 10, exp + 1⟩
      else some d

/-- `normalize()`, `quantize(Decimal(1))` if there are powers of ten, `f"{d:f}"`; `none` is an
exception, `InvalidOperation` where a quantized number has too many digits. -/
def render (d : Decimal) : Option String := do
  let r ← c.fix d
  let n := r.normalize
  if 0 < n.exp ∧ tenPow c.prec ≤ n.int * tenPow n.exp.toNat then none
  else some r.plain

end Context

/-! ## What a text denotes -/

/-- The number itself. -/
def Decimal.value (d : Decimal) : Rat :=
  mkRat (if d.sign then -(d.int * tenPow d.exp.toNat : Nat) else (d.int * tenPow d.exp.toNat : Nat))
    (tenPow (-d.exp).toNat)

/-- Nothing, or a point and digits of which the last is not a zero. -/
def readPlaces (sign : Bool) (whole : List Char) : List Char → Option Decimal
  | [] => some ⟨sign, Nat.ofDigitChars 10 whole 0, 0⟩
  | c :: fraction =>
      if c = '.' ∧ fraction.all Char.isDigit ∧ fraction.getLast?.any (· ≠ '0') then
        some ⟨sign, Nat.ofDigitChars 10 (whole ++ fraction) 0, -(fraction.length : Int)⟩
      else none

/-- A plain numeral: a sign or none, digits, and places if there are any. -/
def readPlain (cs : List Char) : Option Decimal :=
  let sign := cs.head? == some '-'
  let body := if sign then cs.drop 1 else cs
  let whole := body.takeWhile Char.isDigit
  if whole.isEmpty then none else readPlaces sign whole (body.dropWhile Char.isDigit)

/-- The text is a plain numeral and denotes the number exactly. -/
def Denotes (s : String) (d : Decimal) : Prop :=
  ∃ r, readPlain s.toList = some r ∧ r.value = d.value

/-- The decimal without the zeros at its end fits the context. -/
def Context.Holds (c : Context) (d : Decimal) : Prop :=
  d.int = 0 ∨ d.normalize.int < tenPow c.prec ∧ c.etiny ≤ d.normalize.exp ∧
    d.normalize.int * tenPow d.normalize.exp.toNat < tenPow c.prec

/-! ## Values -/

theorem tenPow_ne_zero (n : Nat) : tenPow n ≠ 0 := Nat.pos_iff_ne_zero.1 (tenPow_pos n)

/-- Of one sign. -/
theorem value_eq_iff {sign : Bool} {v w : Nat} {e f : Int} :
    (Decimal.mk sign v e).value = (Decimal.mk sign w f).value ↔
      v * tenPow e.toNat * tenPow (-f).toNat = w * tenPow f.toNat * tenPow (-e).toNat := by
  rw [Decimal.value, Decimal.value, Rat.mkRat_eq_iff (tenPow_ne_zero _) (tenPow_ne_zero _)]
  simp only
  cases sign
  · rw [if_neg Bool.false_ne_true, if_neg Bool.false_ne_true]
    norm_cast
  · rw [if_pos rfl, if_pos rfl, Int.neg_mul, Int.neg_mul, Int.neg_inj]
    norm_cast

theorem value_scale_one (sign : Bool) (v : Nat) (e : Int) :
    (Decimal.mk sign (10 * v) e).value = (Decimal.mk sign v (e + 1)).value := by
  rw [value_eq_iff]
  rcases Int.lt_or_le e 0 with he | he
  · have hden : (-e).toNat = (-(e + 1)).toNat + 1 := by omega
    have hnum : e.toNat = 0 := by omega
    have hnum' : (e + 1).toNat = 0 := by omega
    rw [hden, hnum, hnum', tenPow, tenPow, Nat.mul_one, Nat.mul_one, Nat.mul_left_comm,
      Nat.mul_assoc]
  · have hnum : (e + 1).toNat = e.toNat + 1 := by omega
    have hden : (-e).toNat = 0 := by omega
    have hden' : (-(e + 1)).toNat = 0 := by omega
    rw [hnum, hden, hden', tenPow, tenPow, Nat.mul_one, Nat.mul_one, Nat.mul_left_comm,
      Nat.mul_assoc]

/-- Zeros at the end, or in the exponent. -/
theorem value_scale (sign : Bool) (v k : Nat) (e : Int) :
    (Decimal.mk sign (v * tenPow k) e).value = (Decimal.mk sign v (e + k)).value := by
  induction k generalizing e with
  | zero => rw [tenPow, Nat.mul_one, Int.natCast_zero, Int.add_zero]
  | succ k ih =>
      have hmul : v * tenPow (k + 1) = 10 * (v * tenPow k) := by rw [tenPow, Nat.mul_left_comm]
      have hexp : e + (k + 1 : Nat) = e + 1 + k := by omega
      rw [hmul, value_scale_one, ih, hexp]

theorem value_zero (sign : Bool) (e : Int) : (Decimal.mk sign 0 e).value = 0 := by
  rw [Decimal.value]
  simp only [Nat.zero_mul, Int.natCast_zero, Int.neg_zero, ite_self]
  exact Rat.zero_mkRat _

/-! ## Normal forms -/

/-- All zeros at the end go into the exponent. -/
theorem strip_spec {fuel v : Nat} (e : Int) (hfuel : v ≤ fuel) (hv : v ≠ 0) :
    (Decimal.strip fuel v e).1 % 10 ≠ 0 ∧ ∃ k : Nat, (Decimal.strip fuel v e).2 = e + k ∧
      v = (Decimal.strip fuel v e).1 * tenPow k := by
  induction fuel generalizing v e with
  | zero => exact absurd (Nat.le_zero.1 hfuel) hv
  | succ fuel ih =>
      rw [Decimal.strip]
      split
      · next hz =>
          obtain ⟨hmod, k, hexp, hval⟩ := ih (e + 1) (by omega : v / 10 ≤ fuel) (by omega)
          refine ⟨hmod, k + 1, by omega, ?_⟩
          rw [tenPow, Nat.mul_left_comm, ← hval]
          omega
      · next hnz => exact ⟨hnz, 0, (Int.add_zero e).symm, (Nat.mul_one v).symm⟩

variable {d r : Decimal}

theorem normalize_spec (hd : d.int ≠ 0) :
    d.normalize.sign = d.sign ∧ d.normalize.int % 10 ≠ 0 ∧
      ∃ k : Nat, d.normalize.exp = d.exp + k ∧ d.int = d.normalize.int * tenPow k := by
  rw [Decimal.normalize, if_neg hd]
  exact ⟨rfl, strip_spec d.exp (Nat.le_refl _) hd⟩

/-- What ends in no zero is told by its value. -/
theorem mul_tenPow_inj {v w a b : Nat} (hv : v % 10 ≠ 0) (hw : w % 10 ≠ 0)
    (h : v * tenPow a = w * tenPow b) : v = w ∧ a = b := by
  induction a generalizing b with
  | zero =>
      cases b with
      | zero => exact ⟨by rwa [tenPow, Nat.mul_one, Nat.mul_one] at h, rfl⟩
      | succ b =>
          rw [tenPow, tenPow, Nat.mul_one, Nat.mul_left_comm] at h
          omega
  | succ a ih =>
      cases b with
      | zero =>
          rw [tenPow, tenPow, Nat.mul_one, Nat.mul_left_comm] at h
          omega
      | succ b =>
          rw [tenPow, tenPow, Nat.mul_left_comm, Nat.mul_left_comm w] at h
          obtain ⟨hvw, hab⟩ := ih (Nat.eq_of_mul_eq_mul_left (by decide) h)
          exact ⟨hvw, congrArg Nat.succ hab⟩

theorem Decimal.eq_iff : d = r ↔ d.sign = r.sign ∧ d.int = r.int ∧ d.exp = r.exp := by
  cases d
  cases r
  rw [Decimal.mk.injEq]

/-- One number has one normal form. -/
theorem normalize_eq (hd : d.int ≠ 0) (hr : r.int ≠ 0) (hsign : r.sign = d.sign)
    (h : r.value = d.value) : r.normalize = d.normalize := by
  obtain ⟨hsd, hmd, k, hed, hvd⟩ := normalize_spec hd
  obtain ⟨hsr, hmr, m, her, hvr⟩ := normalize_spec hr
  have hvalue : (Decimal.mk d.sign r.int r.exp).value = d.value := by
    rw [← hsign]
    exact h
  have heq : (Decimal.mk d.sign r.int r.exp).value = (Decimal.mk d.sign d.int d.exp).value :=
    hvalue
  rw [value_eq_iff, hvd, hvr, Nat.mul_assoc, Nat.mul_assoc, Nat.mul_assoc, Nat.mul_assoc,
    ← tenPow_add, ← tenPow_add, ← tenPow_add, ← tenPow_add] at heq
  obtain ⟨hint, hexp⟩ := mul_tenPow_inj hmr hmd heq
  rw [Decimal.eq_iff]
  exact ⟨by rw [hsr, hsd, hsign], hint, by omega⟩

/-! ## Reading a plain numeral -/

theorem isDigit_of_mem_lastDigits {c : Char} {n v : Nat} (h : c ∈ lastDigits n v) :
    c.isDigit = true := by
  induction n generalizing v with
  | zero => cases h
  | succ n ih =>
      rw [lastDigits, List.mem_append, List.mem_singleton] at h
      rcases h with h | rfl
      · exact ih h
      · refine isDigit_of_mem_digits (v := v % 10) ?_
        rw [digits, Nat.toDigits_of_lt_base (Nat.mod_lt v (by decide))]
        exact List.mem_singleton.2 rfl

theorem length_lastDigits (n v : Nat) : (lastDigits n v).length = n := by
  induction n generalizing v with
  | zero => rfl
  | succ n ih => rw [lastDigits, List.length_append, ih, List.length_singleton]

theorem ofDigitChars_lastDigits (n v init : Nat) :
    Nat.ofDigitChars 10 (lastDigits n v) init = init * tenPow n + v % tenPow n := by
  induction n generalizing v with
  | zero => rw [lastDigits, tenPow, Nat.mul_one, Nat.mod_one]; rfl
  | succ n ih =>
      have hv : v % 10 < 10 := Nat.mod_lt v (by decide)
      rw [lastDigits, Nat.ofDigitChars_append, ih,
        Nat.ofDigitChars_cons_digitChar_of_lt_ten hv, Nat.ofDigitChars_nil, tenPow, Nat.mod_mul,
        Nat.mul_add, Nat.mul_left_comm]
      omega

theorem ofDigitChars_dotted (places v : Nat) :
    Nat.ofDigitChars 10 (digits (v / tenPow places) ++ lastDigits places v) 0 = v := by
  rw [Nat.ofDigitChars_append, digits, Nat.ofDigitChars_ten_toDigits, ofDigitChars_lastDigits,
    Nat.mul_comm, Nat.div_add_mod]

/-- The sign and the digits are read off a text that goes on with none. -/
theorem readPlain_signed (sign : Bool) (v : Nat) {rest : List Char}
    (hrest : ∀ c ∈ rest.head?, c.isDigit = false) :
    readPlain (signed sign (digits v ++ rest)).toList = readPlaces sign (digits v) rest := by
  have hall : ∀ c ∈ digits v, c.isDigit = true := fun c hc => isDigit_of_mem_digits hc
  have htake : (digits v ++ rest).takeWhile Char.isDigit = digits v := by
    rw [List.takeWhile_append_of_pos hall]
    cases rest with
    | nil => rw [List.takeWhile_nil, List.append_nil]
    | cons c rest => rw [List.takeWhile_cons_of_neg (by simp [hrest c rfl]), List.append_nil]
  have hdrop : (digits v ++ rest).dropWhile Char.isDigit = rest := by
    rw [List.dropWhile_append_of_pos hall]
    cases rest with
    | nil => rfl
    | cons c rest => rw [List.dropWhile_cons_of_neg (by simp [hrest c rfl])]
  have hne : (digits v).isEmpty = false := List.isEmpty_eq_false_iff.2 Nat.toDigits_ne_nil
  have hread : ∀ cs : List Char, (cs.head? == some '-') = sign →
      (if sign then cs.drop 1 else cs) = digits v ++ rest →
        readPlain cs = readPlaces sign (digits v) rest := by
    intro cs hhead hbody
    simp only [readPlain, hhead, hbody, htake, hdrop, hne]
    rfl
  rw [signed, String.toList_ofList]
  cases sign
  · refine hread _ ?_ rfl
    cases hdigits : digits v with
    | nil => exact absurd hdigits Nat.toDigits_ne_nil
    | cons c cs =>
        have hc : c.isDigit = true := hall c (hdigits ▸ List.mem_cons_self)
        have hminus : c ≠ '-' := by
          intro heq
          subst heq
          cases hc
        simp [hminus]
  · exact hread _ rfl rfl

theorem Decimal.plain_eq_plainDigits (d : Decimal) :
    d.plain = signed d.normalize.sign (plainDigits (d.normalize.int, d.normalize.exp)) := by
  rw [Decimal.plain, plainDigits]
  split
  · rw [Decimal.text, Decimal.quantizeOne, ← pointed_zero]
    rfl
  · rfl

/-- The digits of a coefficient that ends in no zero. -/
theorem readPlain_plainDigits (sign : Bool) {v : Nat} {e : Int} (hv : v % 10 ≠ 0) :
    ∃ r, readPlain (signed sign (plainDigits (v, e))).toList = some r ∧
      r.value = (Decimal.mk sign v e).value := by
  rw [plainDigits]
  split
  · next he =>
      have hexp : (0 : Int) + e.toNat = e := by omega
      refine ⟨⟨sign, v * tenPow e.toNat, 0⟩, ?_, ?_⟩
      · rw [← List.append_nil (digits (v * tenPow e.toNat)), readPlain_signed sign _ (by simp),
          readPlaces, digits, Nat.ofDigitChars_ten_toDigits]
      · rw [value_scale, hexp]
  · next he =>
      cases hplaces : (-e).toNat with
      | zero =>
          have hexp : e = 0 := by omega
          refine ⟨⟨sign, v, 0⟩, ?_, by rw [hexp]⟩
          rw [pointed_zero, ← List.append_nil (digits v), readPlain_signed sign _ (by simp),
            readPlaces, digits, Nat.ofDigitChars_ten_toDigits]
      | succ places =>
          have hexp : -((places + 1 : Nat) : Int) = e := by omega
          refine ⟨⟨sign, v, e⟩, ?_, rfl⟩
          have hdigits : (lastDigits (places + 1) v).all Char.isDigit = true :=
            List.all_eq_true.2 fun c hc => isDigit_of_mem_lastDigits hc
          have hlast : (lastDigits (places + 1) v).getLast? = some (Nat.digitChar (v % 10)) := by
            rw [lastDigits, List.getLast?_concat]
          have hzero : Nat.digitChar (v % 10) ≠ '0' :=
            (digitChar_ne (Nat.mod_lt v (by decide))).2 hv
          rw [pointed_succ, dotted, readPlain_signed sign _ (by simp), readPlaces,
            if_pos ⟨rfl, hdigits, by simp [hlast, hzero]⟩, ofDigitChars_dotted, length_lastDigits,
            hexp]

/-- What `plain` writes is a plain numeral, and the number. -/
theorem denotes_plain (d : Decimal) : Denotes d.plain d := by
  by_cases hd : d.int = 0
  · refine ⟨⟨d.sign, 0, 0⟩, ?_, ?_⟩
    · have htext : d.plain = signed d.sign (digits 0 ++ []) := by
        rw [Decimal.plain, Decimal.normalize, if_pos hd, if_neg (Int.lt_irrefl 0), Decimal.text,
          List.append_nil, ← pointed_zero]
        rfl
      rw [htext, readPlain_signed d.sign 0 (by simp)]
      rfl
    · have hzero : d.value = (Decimal.mk d.sign 0 d.exp).value := by
        rw [← hd]
      rw [hzero, value_zero, value_zero]
  · obtain ⟨hsign, hmod, k, hexp, hint⟩ := normalize_spec hd
    have hvalue : d.value = (Decimal.mk d.sign d.normalize.int d.normalize.exp).value := by
      have heq : d = Decimal.mk d.sign (d.normalize.int * tenPow k) d.exp := by
        rw [← hint]
      rw [hexp, ← value_scale, ← heq]
    rw [Decimal.plain_eq_plainDigits, hsign, Denotes, hvalue]
    exact readPlain_plainDigits d.sign hmod

/-! ## How many digits -/

theorem tenPow_eq (n : Nat) : tenPow n = Nat.pow 10 n := by
  induction n with
  | zero => rfl
  | succ n ih =>
      rw [tenPow, ih, Nat.mul_comm]
      rfl

theorem length_digits_le_iff {v n : Nat} (hn : 0 < n) : (digits v).length ≤ n ↔ v < tenPow n := by
  rw [digits, Nat.length_toDigits_le_iff (by decide) hn, tenPow_eq]
  rfl

theorem length_digits_mul {v : Nat} (hv : v ≠ 0) (k : Nat) :
    (digits (v * tenPow k)).length = (digits v).length + k := by
  induction k with
  | zero => rw [tenPow, Nat.mul_one, Nat.add_zero]
  | succ k ih =>
      have hpos : 0 < v * tenPow k := Nat.mul_pos (Nat.pos_of_ne_zero hv) (tenPow_pos k)
      have happ := Nat.toDigits_append_toDigits (by decide : 1 < 10) hpos (by decide : 0 < 10)
      have hmul : v * tenPow (k + 1) = 10 * (v * tenPow k) + 0 := by
        rw [tenPow, Nat.mul_left_comm, Nat.add_zero]
      rw [hmul, digits, ← happ, List.length_append, Nat.toDigits_zero, List.length_singleton,
        ← Nat.add_assoc, ← ih, digits]

/-! ## Within a context -/

namespace Context

variable {c : Context} {d r : Decimal}

/-- What is kept has no more digits than the precision, and no exponent below the least one. -/
theorem fix_bounds (hd : d.int ≠ 0) (h : c.fix d = some r) :
    r.sign = d.sign ∧ r.int < tenPow c.prec ∧ c.etiny ≤ r.exp := by
  have hprec := c.prec_pos
  rw [fix, if_neg hd] at h
  simp only at h
  split at h
  · cases h
  · next hmax =>
      generalize hexp : (if ((digits d.int).length + d.exp - c.prec : Int) < c.etiny then c.etiny
        else (digits d.int).length + d.exp - c.prec) = exp at h
      have hleast : ((digits d.int).length + d.exp - c.prec : Int) ≤ exp ∧ c.etiny ≤ exp := by
        split at hexp <;> omega
      split at h
      · next hlt =>
          -- of the digits that are kept there are no more than the precision, and a carry
          -- past them leaves a one and zeros
          have hlen : d.int < tenPow (c.prec + (exp - d.exp).toNat) :=
            (length_digits_le_iff (by omega)).1 (by omega)
          have hround : roundDiv d.int (tenPow (exp - d.exp).toNat) ≤ tenPow c.prec := by
            have hdiv : d.int / tenPow (exp - d.exp).toNat < tenPow c.prec := by
              rw [Nat.div_lt_iff_lt_mul (tenPow_pos _), ← tenPow_add]
              exact hlen
            rw [roundDiv]
            split
            · omega
            · split
              · omega
              · split <;> omega
          have hpos := tenPow_pos c.prec
          split at h
          · next hsmall =>
              cases h
              exact ⟨rfl, hsmall, hleast.2⟩
          · split at h
            · cases h
            · cases h
              refine ⟨rfl, ?_, ?_⟩
              · show _ / 10 < _
                omega
              · show c.etiny ≤ exp + 1
                omega
      · cases h
        exact ⟨rfl, (length_digits_le_iff hprec).1 (by omega), by omega⟩

/-- A decimal that fits is kept. -/
theorem fix_of_holds (hd : d.int ≠ 0) (h : c.Holds d) :
    ∃ r, c.fix d = some r ∧ r.sign = d.sign ∧ r.value = d.value := by
  obtain ⟨hprec, hetiny, hwhole⟩ := h.resolve_left hd
  obtain ⟨-, hmod, k, hexp, hint⟩ := normalize_spec hd
  have hn : d.normalize.int ≠ 0 := by
    intro hzero
    rw [hzero] at hmod
    exact hmod rfl
  generalize d.normalize = n at hprec hetiny hwhole hmod hexp hint hn
  have hpos := c.prec_pos
  have hlen := length_digits_mul hn k
  rw [← hint] at hlen
  have hlow := (length_digits_le_iff hpos).2 hprec
  have hhigh := (length_digits_le_iff hpos).2 hwhole
  rw [length_digits_mul hn] at hhigh
  have hetop : 0 ≤ c.etop := by
    have := c.prec_le
    rw [etop]
    omega
  rw [fix, if_neg hd]
  simp only
  rw [if_neg (by omega)]
  generalize hkept : (if ((digits d.int).length + d.exp - c.prec : Int) < c.etiny then c.etiny
    else (digits d.int).length + d.exp - c.prec) = exp
  have hle : exp ≤ n.exp ∧ ((digits d.int).length + d.exp - c.prec : Int) ≤ exp := by
    split at hkept <;> omega
  split
  · next hlt =>
      -- the digits that are dropped are zeros
      obtain ⟨m, hm⟩ : ∃ m, k = m + (exp - d.exp).toNat := ⟨k - (exp - d.exp).toNat, by omega⟩
      have hround : roundDiv d.int (tenPow (exp - d.exp).toNat) = n.int * tenPow m := by
        rw [hint, hm, tenPow_add, ← Nat.mul_assoc, roundDiv_mul _ (tenPow_pos _)]
      have hsmall : n.int * tenPow m < tenPow c.prec := by
        rw [← length_digits_le_iff hpos, length_digits_mul hn]
        omega
      refine ⟨⟨d.sign, n.int * tenPow m, exp⟩, ?_, rfl, ?_⟩
      · rw [hround, if_pos hsmall]
      · have hd' : d = ⟨d.sign, n.int * tenPow k, d.exp⟩ := by rw [← hint]
        have hsum : exp + m = d.exp + k := by omega
        rw [hd', value_scale, value_scale, hsum]
  · exact ⟨d, rfl, rfl, rfl⟩

theorem int_ne_zero_of_value (hd : d.int ≠ 0) (h : r.value = d.value) : r.int ≠ 0 := by
  intro hzero
  have hr : r.value = (Decimal.mk d.sign 0 0).value := by
    rw [value_zero, ← value_zero r.sign r.exp, ← hzero]
  have heq : (Decimal.mk d.sign 0 0).value = (Decimal.mk d.sign d.int d.exp).value := hr ▸ h
  rw [value_eq_iff, Nat.zero_mul, Nat.zero_mul] at heq
  have hpos : 0 < d.int * tenPow d.exp.toNat * tenPow (-0 : Int).toNat :=
    Nat.mul_pos (Nat.mul_pos (Nat.pos_of_ne_zero hd) (tenPow_pos _)) (tenPow_pos _)
  omega

/-- A number of one sign and one value is written in one way. -/
theorem plain_eq_of_value (hd : d.int ≠ 0) (hsign : r.sign = d.sign) (h : r.value = d.value) :
    r.plain = d.plain := by
  rw [Decimal.plain, normalize_eq hd (int_ne_zero_of_value hd h) hsign h, Decimal.plain]

theorem render_of_holds (h : c.Holds d) : c.render d = some d.plain := by
  by_cases hd : d.int = 0
  · have hfix : c.fix d = some d := by rw [fix, if_pos hd]
    have hexp : ¬ (0 < d.normalize.exp ∧
        tenPow c.prec ≤ d.normalize.int * tenPow d.normalize.exp.toNat) := by
      rw [Decimal.normalize, if_pos hd]
      exact fun h => Int.lt_irrefl 0 h.1
    rw [render, hfix]
    exact if_neg hexp
  · obtain ⟨r, hfix, hsign, hvalue⟩ := fix_of_holds hd h
    have hnorm := normalize_eq hd (int_ne_zero_of_value hd hvalue) hsign hvalue
    have hexp : ¬ (0 < r.normalize.exp ∧
        tenPow c.prec ≤ r.normalize.int * tenPow r.normalize.exp.toNat) := by
      have := (h.resolve_left hd).2.2
      rw [hnorm]
      omega
    rw [render, hfix, ← plain_eq_of_value hd hsign hvalue]
    exact if_neg hexp

/-- So many digits, none of them past the point by more than the context allows. -/
theorem holds_of_lt (hprec : d.int < tenPow c.prec) (hetiny : c.etiny ≤ d.exp) (hexp : d.exp ≤ 0) :
    c.Holds d := by
  by_cases hd : d.int = 0
  · exact .inl hd
  · obtain ⟨-, -, k, hk, hint⟩ := normalize_spec hd
    have hle : d.normalize.int * tenPow d.normalize.exp.toNat ≤ d.int := by
      obtain ⟨m, hm⟩ : ∃ m, k = d.normalize.exp.toNat + m := ⟨k - d.normalize.exp.toNat, by omega⟩
      rw [hm, tenPow_add, ← Nat.mul_assoc] at hint
      conv_rhs => rw [hint]
      exact Nat.le_mul_of_pos_right _ (tenPow_pos m)
    have hint' : d.normalize.int ≤ d.int := by
      conv_rhs => rw [hint]
      exact Nat.le_mul_of_pos_right _ (tenPow_pos k)
    exact .inr ⟨by omega, by omega, by omega⟩

/-- What is written is the decimal the context makes of it, and in whole digits no more of them
than the precision. -/
theorem render_eq_some {s : String} (h : c.render d = some s) :
    ∃ r, c.fix d = some r ∧ s = r.plain ∧ ¬ (0 < r.normalize.exp ∧
      tenPow c.prec ≤ r.normalize.int * tenPow r.normalize.exp.toNat) := by
  rw [render] at h
  cases hfix : c.fix d with
  | none =>
      rw [hfix] at h
      cases h
  | some r =>
      rw [hfix] at h
      simp only [Option.bind_eq_bind, Option.bind_some] at h
      split at h
      · cases h
      · next hquantize =>
          cases h
          exact ⟨r, rfl, rfl, hquantize⟩

theorem eq_plain_of_render {s : String} (h : c.render d = some s) : ∃ r, s = Decimal.plain r := by
  obtain ⟨r, -, hs, -⟩ := render_eq_some h
  exact ⟨r, hs⟩

theorem holds_of_render {s : String} (h : c.render d = some s) (hs : Denotes s d) : c.Holds d := by
  by_cases hd : d.int = 0
  · exact .inl hd
  · obtain ⟨r, hfix, rfl, hquantize⟩ := render_eq_some h
    obtain ⟨hsign, hprec, hetiny⟩ := fix_bounds hd hfix
    obtain ⟨read, hread, hvalue⟩ := hs
    obtain ⟨read', hread', hvalue'⟩ := denotes_plain r
    rw [hread, Option.some.injEq] at hread'
    have hrd : r.value = d.value := by rw [← hvalue', ← hread', hvalue]
    have hr := int_ne_zero_of_value hd hrd
    obtain ⟨-, -, k, hexp, hint⟩ := normalize_spec hr
    have hle : r.normalize.int ≤ r.int := by
      rw [hint]
      exact Nat.le_mul_of_pos_right _ (tenPow_pos k)
    rw [Holds, ← normalize_eq hd hr hsign hrd]
    refine .inr ⟨by omega, by omega, ?_⟩
    by_cases he : 0 < r.normalize.exp
    · omega
    · have hzero : r.normalize.exp.toNat = 0 := by omega
      rw [hzero, tenPow, Nat.mul_one]
      omega

/-- A decimal is written exactly if and only if it fits the context. -/
theorem render_exact_iff : (∃ s, c.render d = some s ∧ Denotes s d) ↔ c.Holds d := by
  constructor
  · rintro ⟨s, h, hs⟩
    exact holds_of_render h hs
  · intro h
    exact ⟨d.plain, render_of_holds h, denotes_plain d⟩

end Context

end TradingBroker.Lib.Numerals
