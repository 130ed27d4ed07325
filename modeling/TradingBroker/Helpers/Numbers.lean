import TradingBroker.Helpers.Display

/-!
# Every number a message may show

`format_number` (`broker/helpers/message_formatter.py`) of a `Decimal`, an `int` or a `float`. It
is written as if a number always came out as it is, in plain digits. It goes through the default
context, however: of twenty-nine significant digits the last is rounded away, and a whole number
of as many digits is an `InvalidOperation` that no caller catches, though it be a one and zeros.

The context is `Lib.DecimalContext`'s: twenty-eight digits and the exponents Python has. A
number of no more digits passes unchanged, and then all that is done to it is to take off
zeros and write it without an exponent, which loses nothing. One of more digits is
rounded, and then what is written denotes another number, or `quantize` is given a result
it cannot hold. `render_exact_iff`, through `fix_of_holds` and its converse, makes this an
equivalence.
-/

namespace TradingBroker.Helpers

open Lib.Numerals

/-- A finite number; a `float` is the decimal `str` spells it with. -/
inductive Number where
  | decimal (d : Decimal)
  | int (n : Int)
  | float (d : Decimal)

/-- `Decimal(str(value))`, or the `Decimal` itself. -/
def Number.toDecimal : Number → Decimal
  | .decimal d => d
  | .int n => ⟨n < 0, n.natAbs, 0⟩
  | .float d => d

/-- What `str` of an `int` may have for digits. -/
def maxStrDigits : Nat := 4300

/-- `format_number` of a number; `none` is an exception. -/
def formatNumberOf (n : Number) : Option String :=
  match n with
  | .int i =>
      if maxStrDigits < (digits i.natAbs).length then none
      else defaultContext.render n.toDecimal
  | _ => defaultContext.render n.toDecimal

/-- The text is of the number, with nothing lost. -/
def Exact (n : Number) : Prop := ∃ s, formatNumberOf n = some s ∧ Denotes s n.toDecimal

/-- An `int` that fits the context is far from what `str` refuses. -/
theorem length_le_of_holds {i : Int} (h : defaultContext.Holds (Number.int i).toDecimal) :
    (digits i.natAbs).length ≤ maxStrDigits := by
  have hprec : 0 < defaultContext.prec := defaultPrec_pos
  have hmax : defaultContext.prec ≤ maxStrDigits := by decide
  refine Nat.le_trans ((length_digits_le_iff hprec).2 ?_) hmax
  by_cases hi : i.natAbs = 0
  · rw [hi]
    exact tenPow_pos _
  · obtain ⟨-, -, hwhole⟩ := h.resolve_left hi
    obtain ⟨-, -, k, hexp, hint⟩ := normalize_spec (d := (Number.int i).toDecimal) hi
    have hk : (Number.int i).toDecimal.normalize.exp.toNat = k := by
      rw [hexp]
      show ((0 : Int) + k).toNat = k
      omega
    rw [hk, ← hint] at hwhole
    exact hwhole

theorem formatNumberOf_eq {n : Number} {s : String}
    (h : formatNumberOf n = some s ∨ defaultContext.Holds n.toDecimal) :
    formatNumberOf n = defaultContext.render n.toDecimal := by
  cases n with
  | decimal d => rfl
  | float d => rfl
  | int i =>
      rw [formatNumberOf]
      split
      · next hlong =>
          rcases h with h | h
          · rw [formatNumberOf, if_pos hlong] at h
            cases h
          · have := length_le_of_holds h
            omega
      · rfl

theorem exact_iff_holds (n : Number) : Exact n ↔ defaultContext.Holds n.toDecimal := by
  rw [← Context.render_exact_iff]
  constructor
  · rintro ⟨s, h, hs⟩
    exact ⟨s, (formatNumberOf_eq (.inl h)).symm.trans h, hs⟩
  · rintro ⟨s, h, hs⟩
    have hholds : defaultContext.Holds n.toDecimal := Context.holds_of_render h hs
    exact ⟨s, (formatNumberOf_eq (s := s) (.inr hholds)).trans h, hs⟩

/-- A number comes out exactly if and only if, without the zeros at its end, it is zero or has at
most twenty-eight digits, and its plain text has no more before the point. -/
theorem format_number_exact_iff (n : Number) :
    (∃ s, formatNumberOf n = some s ∧ Denotes s n.toDecimal) ↔
      n.toDecimal.int = 0 ∨
        n.toDecimal.normalize.int < tenPow 28 ∧ -1000026 ≤ n.toDecimal.normalize.exp ∧
          n.toDecimal.normalize.int * tenPow n.toDecimal.normalize.exp.toNat < tenPow 28 :=
  exact_iff_holds n

/-- A float of `1e28` is not written at all. -/
theorem not_format_number_exact :
    ¬ ∀ n : Number, ∃ s, formatNumberOf n = some s ∧ Denotes s n.toDecimal := by
  intro hall
  have hholds := (exact_iff_holds (.float ⟨false, 1, 28⟩)).1 (hall _)
  revert hholds
  rw [Context.Holds]
  decide

/-- A column has too few digits to come near the bound. -/
theorem formatNumberOf_column {d : Decimal} (hint : d.int < tenPow 28) (hlow : -28 ≤ d.exp)
    (hexp : d.exp ≤ 0) : formatNumberOf (.decimal d) = some (formatNumber (some d)) := by
  refine Context.render_of_holds (Context.holds_of_lt hint ?_ hexp)
  show -1000026 ≤ d.exp
  omega

end TradingBroker.Helpers
