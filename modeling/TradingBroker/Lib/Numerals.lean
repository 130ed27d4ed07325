import Mathlib.Algebra.Group.Nat.Defs
import Mathlib.Data.List.Basic

/-!
# Numbers as text

How Python writes numbers: the fixed-point and the general format of a float, with
rounding to the even neighbour, the decimals of the `decimal` module, and `str` of a
float. A number that is exact in so many places is written the same whether its
decimal is normalised first or its fixed-point text is stripped of zeros afterwards.

Digits are written from a natural number and its places, with the point put in
afterwards, so the two ways of writing a number are compared on one list of digits.
A float is a rational here; where a program computes with a double, `roundDouble` is
the double nearest to it.
-/

namespace TradingBroker.Lib.Numerals

/-- `10 ^ n`. -/
def tenPow : Nat → Nat
  | 0 => 1
  | n + 1 => 10 * tenPow n

theorem tenPow_pos (n : Nat) : 0 < tenPow n := by
  induction n with
  | zero => exact Nat.one_pos
  | succ n ih =>
      rw [tenPow]
      omega

def digits (v : Nat) : List Char := Nat.toDigits 10 v

/-- The last `n` digits of `v`. -/
def lastDigits : Nat → Nat → List Char
  | 0, _ => []
  | n + 1, v => lastDigits n (v / 10) ++ [Nat.digitChar (v % 10)]

/-- `v / 10 ^ places`, in all its places. -/
def pointed (places v : Nat) : List Char :=
  digits (v / tenPow places) ++ if places = 0 then [] else '.' :: lastDigits places v

def signed (negative : Bool) (cs : List Char) : String :=
  String.ofList (if negative then '-' :: cs else cs)

/-- `cs.rstrip(c)`. -/
def rstripChar (c : Char) (cs : List Char) : List Char := (cs.reverse.dropWhile (· == c)).reverse

/-! ## Floats -/

/-- `n / d`, rounded to the nearest, a tie to the even one. -/
def roundDiv (n d : Nat) : Nat :=
  if 2 * (n % d) < d then n / d
  else if d < 2 * (n % d) then n / d + 1
  else if n / d % 2 = 0 then n / d else n / d + 1

/-- `round(q)`. -/
def roundInt (q : Rat) : Int :=
  if q.num < 0 then -(roundDiv q.num.natAbs q.den : Int) else roundDiv q.num.natAbs q.den

/-- How many binary places a double of the size of `n / d` has after its point: 52 after the first
digit, which is at `top`, and 1074 at most. -/
def binaryPlaces (n d : Nat) : Int :=
  let top : Int := (n.log2 : Int) - d.log2 -
    (if n * 2 ^ (d.log2 - n.log2) < d * 2 ^ (n.log2 - d.log2) then 1 else 0)
  min 1074 (52 - top)

/-- `n / d`, rounded to the nearest double, if that were as large as it likes. -/
def roundDouble (n d : Nat) : Rat :=
  let up := 2 ^ (binaryPlaces n d).toNat
  let down := 2 ^ (-binaryPlaces n d).toNat
  mkRat (roundDiv (n * up) (d * down) * down : Nat) up

/-- The characters of `f"{q:.nf}"` but the sign. -/
def fixedDigits (places : Nat) (q : Rat) : List Char :=
  pointed places (roundDiv (q.num.natAbs * tenPow places) q.den)

/-- `f"{q:.nf}"`. -/
def formatFixed (places : Nat) (q : Rat) : String := signed (q.num < 0) (fixedDigits places q)

/-- The exponent of the first digit of `n ≥ 1`. -/
def magnitude : Nat → Nat → Nat
  | 0, _ => 0
  | fuel + 1, n => if n < 10 then 0 else magnitude fuel (n / 10) + 1

/-- The least `k` for which `n * 10 ^ k` is at least `d`. -/
def leadingPlaces : Nat → Nat → Nat → Nat
  | 0, _, _ => 0
  | fuel + 1, n, d => if d ≤ n then 0 else leadingPlaces fuel (10 * n) d + 1

/-- The decimal exponent of `n / d`, for `n` not zero. -/
def exponentOf (n d : Nat) : Int :=
  if d ≤ n then magnitude n (n / d) else -(leadingPlaces d n d : Int)

/-- `n / d` in six significant digits, and the exponent of the first. -/
def sixDigits (n d : Nat) : Nat × Int :=
  let x := exponentOf n d
  let m := roundDiv (n * tenPow (5 - x).toNat) (d * tenPow (x - 5).toNat)
  if m = 1000000 then (100000, x + 1) else (m, x)

/-- An exponent, in two digits at least. -/
def exponentText (x : Int) : List Char :=
  'e' :: (if x < 0 then '-' else '+') ::
    if x.natAbs < 100 then lastDigits 2 x.natAbs else digits x.natAbs

/-- Without the zeros a format has put behind the point, and the point if nothing is
left behind it. -/
def stripZeros (cs : List Char) : List Char := rstripChar '.' (rstripChar '0' cs)

/-- `f"{q:g}"`. -/
def formatGeneral (q : Rat) : String :=
  if q.num = 0 then "0"
  else
    let (m, x) := sixDigits q.num.natAbs q.den
    signed (q.num < 0)
      (if -4 ≤ x ∧ x < 6 then
        (if x = 5 then digits m else stripZeros (pointed (5 - x).toNat m))
      else stripZeros (pointed 5 m) ++ exponentText x)

/-! ## Decimals -/

/-- A finite `Decimal`: `as_tuple()`, its digits as the number they spell. -/
structure Decimal where
  sign : Bool
  int : Nat
  exp : Int
  deriving DecidableEq

namespace Decimal

/-- The zeros at the end of the coefficient, taken into the exponent. -/
def strip : Nat → Nat → Int → Nat × Int
  | 0, v, e => (v, e)
  | fuel + 1, v, e => if v % 10 = 0 then strip fuel (v / 10) (e + 1) else (v, e)

/-- `normalize()`, for a coefficient of no more digits than the context keeps. -/
def normalize (d : Decimal) : Decimal :=
  if d.int = 0 then ⟨d.sign, 0, 0⟩
  else ⟨d.sign, (strip d.int d.int d.exp).1, (strip d.int d.int d.exp).2⟩

/-- `quantize(Decimal(1))`, for an exponent above zero. -/
def quantizeOne (d : Decimal) : Decimal := ⟨d.sign, d.int * tenPow d.exp.toNat, 0⟩

/-- `f"{d:f}"`, for an exponent not above zero. -/
def text (d : Decimal) : String := signed d.sign (pointed (-d.exp).toNat d.int)

/-- `str` of the float that is spelled by these digits. -/
def repr (d : Decimal) : String :=
  let ds := digits d.int
  let point : Int := ds.length + d.exp
  signed d.sign
    (if d.int = 0 then ['0', '.', '0']
    else if -4 < point ∧ point ≤ 16 then
      (if point ≤ 0 then '0' :: '.' :: (List.replicate (-point).toNat '0' ++ ds)
      else if ds.length ≤ point.toNat then
        ds ++ List.replicate (point.toNat - ds.length) '0' ++ ['.', '0']
      else ds.take point.toNat ++ '.' :: ds.drop point.toNat)
    else
      ds.take 1 ++ (if ds.length ≤ 1 then [] else '.' :: ds.drop 1) ++ exponentText (point - 1))

/-- A decimal in plain digits: normalised, and never in powers of ten. -/
def plain (d : Decimal) : String :=
  if 0 < d.normalize.exp then d.normalize.quantizeOne.text else d.normalize.text

end Decimal

/-! ## Two ways to drop zeros -/

theorem rstripChar_concat_of_eq {c : Char} {cs : List Char} :
    rstripChar c (cs ++ [c]) = rstripChar c cs := by
  rw [rstripChar, List.reverse_append]
  simp [rstripChar]

theorem rstripChar_concat_of_ne {c d : Char} {cs : List Char} (h : d ≠ c) :
    rstripChar c (cs ++ [d]) = cs ++ [d] := by
  rw [rstripChar, List.reverse_append]
  simp [h]

theorem rstripChar_of_not_mem {c : Char} {cs : List Char} (h : c ∉ cs) :
    rstripChar c cs = cs := by
  rcases List.eq_nil_or_concat cs with rfl | ⟨cs, d, rfl⟩
  · rfl
  · rw [List.concat_eq_append] at h ⊢
    refine rstripChar_concat_of_ne ?_
    rintro rfl
    simp at h

theorem isDigit_of_mem_digits {c : Char} {v : Nat} (h : c ∈ digits v) : c.isDigit = true :=
  Nat.isDigit_of_mem_toDigits (by decide) (by decide) h

theorem digitChar_ne {v : Nat} (hv : v < 10) : Nat.digitChar v ≠ '.' ∧
    (v ≠ 0 → Nat.digitChar v ≠ '0') := by
  have : v = 0 ∨ v = 1 ∨ v = 2 ∨ v = 3 ∨ v = 4 ∨ v = 5 ∨ v = 6 ∨ v = 7 ∨ v = 8 ∨ v = 9 := by
    omega
  rcases this with rfl | rfl | rfl | rfl | rfl | rfl | rfl | rfl | rfl | rfl <;> decide

/-- The digits before the point, the point, and the places behind it. -/
def dotted (places v : Nat) : List Char :=
  digits (v / tenPow places) ++ '.' :: lastDigits places v

theorem dotted_succ (places v : Nat) :
    dotted (places + 1) v = dotted places (v / 10) ++ [Nat.digitChar (v % 10)] := by
  rw [dotted, dotted, lastDigits, tenPow, Nat.div_div_eq_div_mul]
  simp

theorem pointed_succ (places v : Nat) : pointed (places + 1) v = dotted (places + 1) v := by
  rw [pointed, if_neg (Nat.succ_ne_zero places), dotted]

/-- `v / 10 ^ places` in as many places as it needs. -/
def trimmed : Nat → Nat → List Char
  | 0, v => digits v
  | places + 1, v =>
      if v % 10 = 0 then trimmed places (v / 10) else dotted (places + 1) v

theorem stripZeros_dotted (places v : Nat) : stripZeros (dotted places v) = trimmed places v := by
  induction places generalizing v with
  | zero =>
      have hdot : '.' ∉ digits v := by
        intro hmem
        have hdigit := isDigit_of_mem_digits hmem
        revert hdigit
        decide
      rw [dotted, tenPow, Nat.div_one, lastDigits, stripZeros,
        rstripChar_concat_of_ne (by decide), rstripChar_concat_of_eq, rstripChar_of_not_mem hdot,
        trimmed]
  | succ places ih =>
      rw [dotted_succ, trimmed]
      split
      · next hz =>
          rw [hz, ← ih, stripZeros, stripZeros]
          exact congrArg (rstripChar '.') rstripChar_concat_of_eq
      · next hz =>
          obtain ⟨hdot, hzero⟩ := digitChar_ne (Nat.mod_lt v (by decide : 0 < 10))
          rw [stripZeros, rstripChar_concat_of_ne (hzero hz), rstripChar_concat_of_ne hdot,
            ← dotted_succ]

/-- Zeros taken into an exponent that is not negative are in the number again. -/
theorem strip_value (fuel v e : Nat) :
    0 ≤ (Decimal.strip fuel v e).2 ∧
      (Decimal.strip fuel v e).1 * tenPow (Decimal.strip fuel v e).2.toNat = v * tenPow e := by
  induction fuel generalizing v e with
  | zero => exact ⟨Int.natCast_nonneg e, rfl⟩
  | succ fuel ih =>
      rw [Decimal.strip]
      split
      · next hz =>
          have := ih (v / 10) (e + 1)
          obtain ⟨hpos, heq⟩ := this
          refine ⟨hpos, heq.trans ?_⟩
          rw [tenPow, ← Nat.mul_assoc, Nat.div_mul_cancel (Nat.dvd_of_mod_eq_zero hz)]
      · exact ⟨Int.natCast_nonneg e, rfl⟩

/-- What `plain` writes once the zeros are stripped. -/
def plainDigits (r : Nat × Int) : List Char :=
  if 0 < r.2 then digits (r.1 * tenPow r.2.toNat) else pointed (-r.2).toNat r.1

theorem plainDigits_strip {places : Nat} : ∀ {fuel v : Nat}, v ≤ fuel → v ≠ 0 →
    plainDigits (Decimal.strip fuel v (-(places : Int))) = trimmed places v := by
  induction places with
  | zero =>
      intro fuel v _ _
      obtain ⟨hpos, hval⟩ := strip_value fuel v 0
      rw [tenPow, Nat.mul_one] at hval
      rw [trimmed, Int.neg_eq_zero.2 Int.natCast_zero, plainDigits]
      split
      · exact congrArg digits hval
      · next hexp =>
          have hzero : (Decimal.strip fuel v 0).2 = 0 := Int.le_antisymm (Int.not_lt.1 hexp) hpos
          rw [Int.natCast_zero, hzero, Int.toNat_zero, tenPow, Nat.mul_one] at hval
          rw [hzero, hval, Int.neg_zero, Int.toNat_zero, pointed, if_pos rfl, tenPow, Nat.div_one,
            List.append_nil]
  | succ places ih =>
      intro fuel v hfuel hv
      cases fuel with
      | zero => exact absurd (Nat.le_zero.1 hfuel) hv
      | succ fuel =>
          rw [Decimal.strip, trimmed]
          split
          · next hz =>
              have hexp : (-((places + 1 : Nat) : Int)) + 1 = -(places : Int) := by omega
              rw [hexp]
              exact ih (by omega) (by omega)
          · rw [plainDigits, if_neg (by omega)]
            have hplaces : (- -((places + 1 : Nat) : Int)).toNat = places + 1 := by omega
            rw [hplaces, pointed_succ]

theorem trimmed_zero (places : Nat) : trimmed places 0 = digits 0 := by
  induction places with
  | zero => rfl
  | succ places ih => exact ih

theorem pointed_zero (v : Nat) : pointed 0 v = digits v := by
  rw [pointed, if_pos rfl, tenPow, Nat.div_one, List.append_nil]

/-- A decimal is written the same whether it is normalised or stripped as a text. -/
theorem plain_eq (sign : Bool) (places v : Nat) :
    (Decimal.mk sign v (-(places : Int))).plain = signed sign (stripZeros (dotted places v)) := by
  rw [stripZeros_dotted]
  by_cases hv : v = 0
  · subst hv
    rw [trimmed_zero, ← pointed_zero 0]
    rfl
  · rw [← plainDigits_strip (Nat.le_refl v) hv, Decimal.plain, Decimal.normalize, if_neg hv,
      plainDigits]
    split
    · rw [← pointed_zero]
      rfl
    · rfl

theorem rstripChar_cons_of_ne {c d : Char} {cs : List Char} (h : d ≠ c) :
    rstripChar c (d :: cs) = d :: rstripChar c cs := by
  rw [rstripChar, List.reverse_cons, List.dropWhile_append]
  split
  · next hempty =>
      have hnil : cs.reverse.dropWhile (· == c) = [] := List.isEmpty_iff.1 hempty
      simp [rstripChar, hnil, h]
  · simp [rstripChar]

/-- The sign is in front, and stays. -/
theorem stripZeros_signed (negative : Bool) (cs : List Char) :
    String.ofList (stripZeros (signed negative cs).toList) = signed negative (stripZeros cs) := by
  rw [signed, signed, String.toList_ofList]
  split
  · rw [stripZeros, rstripChar_cons_of_ne (by decide), rstripChar_cons_of_ne (by decide),
      stripZeros]
  · rfl

/-! ## Exact numbers -/

theorem roundDiv_mul (n : Nat) {d : Nat} (hd : 0 < d) : roundDiv (n * d) d = n := by
  rw [roundDiv, Nat.mul_mod_left, if_pos (by omega), Nat.mul_div_cancel n hd]

theorem tenPow_add (m n : Nat) : tenPow (m + n) = tenPow m * tenPow n := by
  induction m with
  | zero => rw [Nat.zero_add, tenPow, Nat.one_mul]
  | succ m ih => rw [Nat.succ_add, tenPow, ih, tenPow, Nat.mul_assoc]

/-- Places that are not needed are zeros. -/
theorem stripZeros_dotted_add (places more v : Nat) :
    stripZeros (dotted (places + more) (v * tenPow more)) = stripZeros (dotted places v) := by
  rw [stripZeros_dotted, stripZeros_dotted]
  induction more with
  | zero => rw [tenPow, Nat.mul_one, Nat.add_zero]
  | succ more ih =>
      have hv : v * tenPow (more + 1) = 10 * (v * tenPow more) := by
        rw [tenPow, Nat.mul_left_comm]
      rw [hv, ← Nat.add_assoc, trimmed, if_pos (Nat.mul_mod_right 10 _),
        Nat.mul_div_cancel_left _ (by decide), ih]

theorem num_mkRat_mul (m : Int) (places : Nat) :
    (mkRat m (tenPow places)).num * (tenPow places : Nat) = m * (mkRat m (tenPow places)).den := by
  refine (Rat.mkRat_eq_iff (Rat.den_nz _) (Nat.pos_iff_ne_zero.1 (tenPow_pos places))).1 ?_
  rw [Rat.mkRat_self]

/-- The digits of a number that is exact in `places` places, in more of them. -/
theorem fixedDigits_exact (m : Int) (places more : Nat) :
    fixedDigits (places + more) (mkRat m (tenPow places)) =
      pointed (places + more) (m.natAbs * tenPow more) := by
  have hnat := congrArg Int.natAbs (num_mkRat_mul m places)
  rw [Int.natAbs_mul, Int.natAbs_mul, Int.natAbs_natCast, Int.natAbs_natCast] at hnat
  rw [fixedDigits, tenPow_add, ← Nat.mul_assoc, hnat, Nat.mul_right_comm,
    roundDiv_mul _ (Rat.den_pos _)]

theorem num_mkRat_neg_iff (m : Int) (places : Nat) :
    (mkRat m (tenPow places)).num < 0 ↔ m < 0 := by
  have hcross := num_mkRat_mul m places
  have ht : (0 : Int) < (tenPow places : Nat) := Int.natCast_pos.2 (tenPow_pos places)
  have hden : (0 : Int) < (mkRat m (tenPow places)).den := Int.natCast_pos.2 (Rat.den_pos _)
  constructor
  · intro h
    have := Int.mul_neg_of_neg_of_pos h ht
    rw [hcross] at this
    exact Int.neg_of_mul_neg_left this hden
  · intro h
    have := Int.mul_neg_of_neg_of_pos h hden
    rw [← hcross] at this
    exact Int.neg_of_mul_neg_left this ht

/-- An exact number, as a decimal and as a float. -/
theorem plain_eq_fixed (m : Int) (places more : Nat) (h : 0 < places + more) :
    (Decimal.mk (m < 0) m.natAbs (-(places : Int))).plain =
      signed ((mkRat m (tenPow places)).num < 0)
        (stripZeros (fixedDigits (places + more) (mkRat m (tenPow places)))) := by
  simp only [num_mkRat_neg_iff]
  rw [plain_eq, fixedDigits_exact, pointed, if_neg (Nat.pos_iff_ne_zero.1 h),
    ← stripZeros_dotted_add places more]
  rfl

/-! ## The characters of a number -/

def isNumeral (c : Char) : Bool := c.isDigit || ['-', '.', '+', 'e'].contains c

def Numeral (cs : List Char) : Prop := ∀ c ∈ cs, isNumeral c = true

instance (cs : List Char) : Decidable (Numeral cs) :=
  decidable_of_iff (cs.all isNumeral = true) List.all_eq_true

namespace Numeral

variable {cs ds : List Char}

theorem append (hc : Numeral cs) (hd : Numeral ds) : Numeral (cs ++ ds) := by
  intro c hmem
  rcases List.mem_append.1 hmem with h | h
  · exact hc c h
  · exact hd c h

theorem cons {c : Char} (hc : isNumeral c = true) (hd : Numeral ds) : Numeral (c :: ds) :=
  List.forall_mem_cons.2 ⟨hc, hd⟩

theorem of_subset (hd : Numeral ds) (h : cs ⊆ ds) : Numeral cs := fun c hc => hd c (h hc)

theorem nil : Numeral [] := by simp [Numeral]

theorem zeros (n : Nat) : Numeral (List.replicate n '0') := by
  intro c hc
  rw [(List.mem_replicate.1 hc).2]
  rfl

theorem ofDigits (v : Nat) : Numeral (digits v) := by
  intro c hc
  rw [isNumeral, isDigit_of_mem_digits hc, Bool.true_or]

theorem ofLastDigits (n v : Nat) : Numeral (lastDigits n v) := by
  induction n generalizing v with
  | zero => exact nil
  | succ n ih =>
      refine (ih (v / 10)).append fun c hc => ?_
      rw [List.mem_singleton] at hc
      subst hc
      have hdigits : Nat.digitChar (v % 10) ∈ digits (v % 10) := by
        rw [digits, Nat.toDigits_of_lt_base (Nat.mod_lt v (by decide))]
        exact List.mem_singleton.2 rfl
      exact ofDigits _ _ hdigits

theorem ofPointed (places v : Nat) : Numeral (pointed places v) := by
  refine (ofDigits _).append ?_
  split
  · exact nil
  · exact cons rfl (ofLastDigits _ _)

theorem ofSigned (negative : Bool) (h : Numeral cs) : Numeral (signed negative cs).toList := by
  rw [signed, String.toList_ofList]
  split
  · exact cons rfl h
  · exact h

theorem ofStripZeros (h : Numeral cs) : Numeral (stripZeros cs) := by
  have hsub : ∀ (c : Char) (ds : List Char), rstripChar c ds ⊆ ds := by
    intro c ds x hx
    have := List.mem_reverse.1 hx
    exact List.mem_reverse.1 ((List.dropWhile_sublist _).subset this)
  exact h.of_subset fun c hc => hsub _ _ (hsub _ _ hc)

theorem ofExponent (x : Int) : Numeral (exponentText x) := by
  refine cons rfl (cons ?_ ?_)
  · split <;> rfl
  · split
    · exact ofLastDigits _ _
    · exact ofDigits _

theorem ofGeneral (q : Rat) : Numeral (formatGeneral q).toList := by
  unfold formatGeneral
  split
  · decide
  · refine ofSigned _ ?_
    split
    · split
      · exact ofDigits _
      · exact (ofPointed _ _).ofStripZeros
    · exact (ofPointed _ _).ofStripZeros.append (ofExponent _)

theorem ofPlain (d : Decimal) : Numeral d.plain.toList := by
  unfold Decimal.plain
  split
  · exact ofSigned _ (ofPointed _ _)
  · exact ofSigned _ (ofPointed _ _)

theorem ofRepr (d : Decimal) : Numeral d.repr.toList := by
  have hsub : ∀ n, Numeral ((digits d.int).take n) ∧ Numeral ((digits d.int).drop n) := by
    intro n
    exact ⟨(ofDigits _).of_subset (List.take_subset _ _),
      (ofDigits _).of_subset (List.drop_subset _ _)⟩
  refine ofSigned _ ?_
  split
  · decide
  · split
    · split
      · exact cons rfl (cons rfl ((zeros _).append (ofDigits _)))
      · split
        · exact ((ofDigits _).append (zeros _)).append (by decide)
        · exact (hsub _).1.append (cons rfl (hsub _).2)
    · refine ((hsub 1).1.append ?_).append (ofExponent _)
      split
      · exact nil
      · exact cons rfl (hsub 1).2

end Numeral

end TradingBroker.Lib.Numerals
