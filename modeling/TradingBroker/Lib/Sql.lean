/-!
# Conditions of a query

A condition on columns that may be null is true, false or unknown, and a row is taken
if it is true. What is known of one operand decides where it can: `AND` with a false
one, `OR` with a true one.

A comparison is unknown as soon as one of its operands is null, and `IS NULL` never
is. A condition that is built of these can be taken apart by what its rows have to be
for it to hold (`holds_and`, `holds_or`, `holds_all`).
-/

namespace TradingBroker.Lib.Sql

variable {α : Type}

/-- A truth value; `none` is unknown. -/
abbrev Truth := Option Bool

/-- `a = b`. -/
def eq [DecidableEq α] : Option α → Option α → Truth
  | some a, some b => some (decide (a = b))
  | _, _ => none

/-- `a IS NULL`. -/
def isNull (a : Option α) : Truth := some a.isNone

def and : Truth → Truth → Truth
  | some false, _ => some false
  | _, some false => some false
  | some true, some true => some true
  | _, _ => none

def or : Truth → Truth → Truth
  | some true, _ => some true
  | _, some true => some true
  | some false, some false => some false
  | _, _ => none

/-- The row is taken. -/
def holds (t : Truth) : Bool := t == some true

def all (ts : List Truth) : Truth := ts.foldr and (some true)

theorem holds_eq [DecidableEq α] {a b : Option α} :
    holds (eq a b) = true ↔ ∃ v, a = some v ∧ b = some v := by
  cases a with
  | none => simp [holds, eq]
  | some a =>
    cases b with
    | none => simp [holds, eq]
    | some b => simp [holds, eq, eq_comm]

@[simp]
theorem holds_eq_some [DecidableEq α] {a : Option α} {v : α} :
    holds (eq a (some v)) = true ↔ a = some v := by
  rw [holds_eq]
  constructor
  · intro h
    obtain ⟨w, ha, hv⟩ := h
    rw [ha, hv]
  · exact fun ha => ⟨v, ha, rfl⟩

@[simp]
theorem holds_isNull {a : Option α} : holds (isNull a) = true ↔ a = none := by
  cases a <;> simp [holds, isNull]

@[simp]
theorem holds_and {s t : Truth} : holds (and s t) = true ↔ holds s = true ∧ holds t = true := by
  rcases s with _ | _ | _ <;> rcases t with _ | _ | _ <;> decide

@[simp]
theorem holds_or {s t : Truth} : holds (or s t) = true ↔ holds s = true ∨ holds t = true := by
  rcases s with _ | _ | _ <;> rcases t with _ | _ | _ <;> decide

@[simp]
theorem holds_all {ts : List Truth} : holds (all ts) = true ↔ ∀ t ∈ ts, holds t = true := by
  induction ts with
  | nil => simp [holds, all]
  | cons t ts ih =>
    show holds (and t (all ts)) = true ↔ _
    rw [holds_and, ih, List.forall_mem_cons]

end TradingBroker.Lib.Sql
