import Mathlib.Data.List.DropRight
import Mathlib.Data.List.Induction

/-!
# Lines and columns

Texts over any alphabet, laid out in lines of columns. A line is its cells with a separator
between any two; where a cell stands in it is told by the lengths of the cells before it
(`exists_at`). A line break in a cell is a line break in the line unless it is trimmed off its
end, which is the case if only blanks follow (`mem_rdropWhile_iff`); blanks put in between make
no difference to that (`breaks_filter`).
-/

namespace TradingBroker.Lib.Columns

variable {α : Type}

/-! ## Columns -/

/-- Where a column starts, of columns of these widths with a separator between any two. -/
def columnStart (sep : Nat) : List Nat → Nat → Nat
  | width :: widths, i + 1 => width + sep + columnStart sep widths i
  | _, _ => 0

/-- The cell stands in the text at this column. -/
def At (text : List α) (column : Nat) (cell : List α) : Prop :=
  ∃ before after, text = before ++ (cell ++ after) ∧ before.length = column

theorem exists_at (sep : List α) {parts : List (List α)} {i : Nat} {part : List α}
    (h : parts[i]? = some part) :
    At (sep.intercalate parts) (columnStart sep.length (parts.map List.length) i) part := by
  induction parts generalizing i with
  | nil => cases h
  | cons p parts ih =>
      cases i with
      | zero =>
          rw [List.getElem?_cons_zero, Option.some.injEq] at h
          subst h
          cases parts with
          | nil => exact ⟨[], [], by rw [List.intercalate_singleton, List.append_nil]; rfl, rfl⟩
          | cons q parts =>
              exact ⟨[], sep ++ sep.intercalate (q :: parts),
                by rw [List.intercalate_cons_cons, List.append_assoc]; rfl, rfl⟩
      | succ i =>
          rw [List.getElem?_cons_succ] at h
          have hne : parts ≠ [] := by
            intro hnil
            rw [hnil] at h
            cases h
          obtain ⟨before, after, htext, hlen⟩ := ih h
          refine ⟨p ++ sep ++ before, after, ?_, ?_⟩
          · rw [List.intercalate_cons_of_ne_nil hne, htext, List.append_assoc, List.append_assoc,
              List.append_assoc]
          · rw [List.length_append, List.length_append, hlen]
            rfl

/-- What stands in a cell stands in the text. -/
theorem At.trans {text cell part : List α} {c d : Nat} (h : At text c cell) (h' : At cell d part) :
    At text (c + d) part := by
  obtain ⟨before, after, rfl, rfl⟩ := h
  obtain ⟨before', after', rfl, rfl⟩ := h'
  exact ⟨before ++ before', after' ++ after, by simp only [List.append_assoc],
    List.length_append⟩

/-! ## Trimmed lines -/

section
variable (blank : α → Bool) [DecidableEq α] (newline : α)

/-- A line break that something but blanks follows. -/
def breaks : List α → Bool
  | [] => false
  | c :: cs => c == newline && cs.any (fun d => !blank d) || breaks cs

variable {blank newline}

theorem breaks_concat_blank {c : α} (hc : blank c = true) (cs : List α) :
    breaks blank newline (cs ++ [c]) = breaks blank newline cs := by
  induction cs with
  | nil => simp [breaks]
  | cons d cs ih =>
      simp only [List.cons_append, breaks, ih, List.any_append, List.any_cons, List.any_nil, hc]
      simp

theorem breaks_concat {c : α} (hc : blank c = false) (cs : List α) :
    breaks blank newline (cs ++ [c]) = cs.contains newline := by
  induction cs with
  | nil => simp [breaks]
  | cons d cs ih =>
      simp only [List.cons_append, breaks, ih, List.any_append, List.any_cons, List.any_nil, hc,
        List.contains_cons]
      simp [BEq.comm]

omit [DecidableEq α] in
/-- What trimming takes. -/
theorem exists_trimmed (blank : α → Bool) (cs : List α) :
    ∃ blanks, (∀ c ∈ blanks, blank c = true) ∧ cs.rdropWhile blank ++ blanks = cs := by
  refine ⟨(cs.reverse.takeWhile blank).reverse, fun c hc => ?_, ?_⟩
  · exact List.mem_takeWhile_imp (List.mem_reverse.1 hc)
  · rw [List.rdropWhile, ← List.reverse_append, List.takeWhile_append_dropWhile,
      List.reverse_reverse]

/-- The line breaks that trimming leaves. -/
theorem mem_rdropWhile_iff (hnewline : blank newline = true) (cs : List α) :
    newline ∈ cs.rdropWhile blank ↔ breaks blank newline cs = true := by
  induction cs using List.reverseRecOn with
  | nil => simp [breaks]
  | append_singleton cs c ih =>
      by_cases hc : blank c = true
      · rw [List.rdropWhile_concat_pos _ _ _ hc, ih, breaks_concat_blank hc]
      · have hne : newline ≠ c := fun h => hc (h ▸ hnewline)
        rw [List.rdropWhile_concat_neg _ _ _ hc, breaks_concat (Bool.not_eq_true _ ▸ hc),
          List.contains_iff_mem, List.mem_append, List.mem_singleton, or_iff_left hne]

/-- Blanks that are no line breaks make no difference. -/
theorem breaks_filter {p : α → Bool} (hp : ∀ c, p c = false → blank c = true ∧ c ≠ newline)
    (cs : List α) : breaks blank newline (cs.filter p) = breaks blank newline cs := by
  have hany : ∀ cs : List α, (cs.filter p).any (fun d => !blank d) = cs.any fun d => !blank d := by
    intro cs
    induction cs with
    | nil => rfl
    | cons c cs ih =>
        by_cases hc : p c = true
        · rw [List.filter_cons_of_pos hc, List.any_cons, List.any_cons, ih]
        · have hblank := (hp c (Bool.not_eq_true _ ▸ hc)).1
          rw [List.filter_cons_of_neg hc, List.any_cons, ih, hblank]
          rfl
  induction cs with
  | nil => rfl
  | cons c cs ih =>
      by_cases hc : p c = true
      · rw [List.filter_cons_of_pos hc, breaks, breaks, hany, ih]
      · have hne := (hp c (Bool.not_eq_true _ ▸ hc)).2
        rw [List.filter_cons_of_neg hc, ih, breaks, beq_false_of_ne hne, Bool.false_and,
          Bool.false_or]

/-! ## Lines -/

theorem length_splitOn (cs : List α) : (cs.splitOn newline).length = cs.count newline + 1 := by
  induction cs with
  | nil => rfl
  | cons c cs ih =>
      rw [List.splitOn_cons_eq_if_modifyHead, List.count_cons]
      split
      · rw [List.length_cons, ih]
      · rw [List.length_modifyHead, ih]

theorem count_intercalate_cons (l : List α) (ls : List (List α)) :
    ([newline].intercalate (l :: ls)).count newline =
      ls.length + ((l :: ls).map fun l => l.count newline).foldr Nat.add 0 := by
  induction ls generalizing l with
  | nil => simp
  | cons m ls ih =>
      have hsum : ((l :: m :: ls).map fun l => l.count newline).foldr Nat.add 0 =
          l.count newline + ((m :: ls).map fun l => l.count newline).foldr Nat.add 0 := rfl
      rw [List.intercalate_cons_cons, List.count_append, List.count_append, ih,
        List.count_singleton_self, List.length_cons, hsum]
      omega

/-- As many lines as there were, if and only if none of them has a break. -/
theorem length_lines_iff (l : List α) (ls : List (List α)) :
    (([newline].intercalate (l :: ls)).splitOn newline).length = ls.length + 1 ↔
      ∀ m ∈ l :: ls, newline ∉ m := by
  have hsum : ∀ ms : List (List α), (ms.map fun l => l.count newline).foldr Nat.add 0 = 0 ↔
      ∀ m ∈ ms, newline ∉ m := by
    intro ms
    induction ms with
    | nil => simp
    | cons m ms ih =>
        rw [List.map_cons, List.foldr_cons, Nat.add_eq, Nat.add_eq_zero_iff, ih,
          List.count_eq_zero, List.forall_mem_cons]
  rw [length_splitOn, count_intercalate_cons, ← hsum]
  omega

end

end TradingBroker.Lib.Columns
