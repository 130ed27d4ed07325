import Mathlib.Data.List.Basic

/-!
# Substituting what a pattern matches

Patterns of a backtracking matcher, which tries what it may match in an order of preference and
keeps the first, and the substitution of the matches of one, from the left and none of them
inside another. `replace` emits what stands before a match as it is; what it has emitted when it
is through a text and how far the last match reaches beyond it (`emitted`, `pending`) are all
that the text behind has to know.
-/

namespace TradingBroker.Lib.Regex

/-! ## Patterns -/

/-- Characters are code points. -/
inductive Pattern where
  | empty
  | char (p : Nat → Bool)
  | many (p : Nat → Bool)
  | eos
  | seq (r s : Pattern)
  | alt (r s : Pattern)

/-- A word. -/
def Pattern.word : List Nat → Pattern
  | [] => .empty
  | c :: cs => .seq (.char (· == c)) (.word cs)

/-- Where a greedy repetition may end: it takes all it can, and gives it back one by one. -/
def manyEnds (p : Nat → Bool) : List Nat → List (List Nat)
  | [] => [[]]
  | c :: cs => if p c then manyEnds p cs ++ [c :: cs] else [c :: cs]

/-- What may be left of a text behind a match at its start, the preferred first. `$` is the end
of the text, or before the line break there. -/
def ends : Pattern → List Nat → List (List Nat)
  | .empty, cs => [cs]
  | .char _, [] => []
  | .char p, c :: cs => if p c then [cs] else []
  | .many p, cs => manyEnds p cs
  | .eos, cs => if cs = [] ∨ cs = [0x0a] then [cs] else []
  | .seq r s, cs => (ends r cs).flatMap (ends s)
  | .alt r s, cs => ends r cs ++ ends s cs

/-- A match of `(group)behind`: the text of the group, and what is left. -/
def matchAt (group behind : Pattern) (cs : List Nat) : Option (List Nat × List Nat) :=
  ((ends group cs).flatMap fun mid =>
    (ends behind mid).map fun rest => (cs.take (cs.length - mid.length), rest)).head?

theorem ends_word (w cs : List Nat) :
    ends (.word w) cs = if w <+: cs then [cs.drop w.length] else [] := by
  induction w generalizing cs with
  | nil => rw [Pattern.word, ends, if_pos List.nil_prefix, List.length_nil, List.drop_zero]
  | cons d w ih =>
      rw [Pattern.word, ends]
      cases cs with
      | nil => rw [ends, if_neg (by simp), List.flatMap_nil]
      | cons c cs =>
          rw [ends]
          by_cases hc : c = d
          · subst hc
            rw [if_pos (beq_self_eq_true c), List.flatMap_singleton, ih]
            simp [List.cons_prefix_cons]
          · rw [if_neg (by simp [hc]), List.flatMap_nil, if_neg]
            intro hpre
            exact hc (List.cons_prefix_cons.1 hpre).1.symm

/-- Of the ends of a repetition only the first may be at what the repetition does not take. -/
theorem flatMap_manyEnds {β : Type} {p : Nat → Bool} {f : List Nat → List β}
    (hf : ∀ c cs, p c = true → f (c :: cs) = []) (cs : List Nat) :
    (manyEnds p cs).flatMap f = f (cs.dropWhile p) := by
  induction cs with
  | nil => rw [manyEnds, List.flatMap_singleton, List.dropWhile_nil]
  | cons c cs ih =>
      rw [manyEnds]
      split
      · next hc =>
          rw [List.flatMap_append, ih, List.flatMap_singleton, hf c cs hc, List.append_nil,
            List.dropWhile_cons_of_pos hc]
      · next hc => rw [List.flatMap_singleton, List.dropWhile_cons_of_neg hc]

/-! ## Substitution -/

section
variable {α : Type} (find : List α → Option (List α × List α))

/-- `find` is what is put for a match at the start of a text, and what is left behind it; of the
text behind the next characters, as many as are given, are of a match. -/
def replace : Nat → List α → List α
  | _, [] => []
  | skip + 1, _ :: cs => replace skip cs
  | 0, c :: cs =>
      match find (c :: cs) with
      | none => c :: replace 0 cs
      | some (out, rest) => out ++ replace (cs.length - rest.length) cs

/-- `sub`. -/
def sub (cs : List α) : List α := replace find 0 cs

/-- How far into `back` the last match reaches that begins before. -/
def pending (back : List α) : Nat → List α → Nat
  | skip, [] => skip
  | skip + 1, _ :: cs => pending back skip cs
  | 0, c :: cs =>
      match find (c :: cs ++ back) with
      | none => pending back 0 cs
      | some (_, rest) => pending back ((cs ++ back).length - rest.length) cs

/-- What is put out for a text before `back`. -/
def emitted (back : List α) : Nat → List α → List α
  | _, [] => []
  | skip + 1, _ :: cs => emitted back skip cs
  | 0, c :: cs =>
      match find (c :: cs ++ back) with
      | none => c :: emitted back 0 cs
      | some (out, rest) => out ++ emitted back ((cs ++ back).length - rest.length) cs

variable {find} {back : List α}

theorem replace_drop (skip : Nat) (cs : List α) :
    replace find skip cs = sub find (cs.drop skip) := by
  induction skip generalizing cs with
  | zero => rw [List.drop_zero, sub]
  | succ skip ih =>
      cases cs with
      | nil => rfl
      | cons c cs => exact ih cs

theorem pending_drop {skip : Nat} {cs : List α} (h : skip ≤ cs.length) :
    pending find back skip cs = pending find back 0 (cs.drop skip) := by
  induction skip generalizing cs with
  | zero => rw [List.drop_zero]
  | succ skip ih =>
      cases cs with
      | nil => simp at h
      | cons c cs =>
          rw [List.length_cons] at h
          exact ih (by omega)

theorem pending_le {skip : Nat} {front : List α} (h : skip ≤ front.length + back.length) :
    pending find back skip front ≤ back.length := by
  induction front generalizing skip with
  | nil =>
      rw [List.length_nil] at h
      rw [pending]
      omega
  | cons c cs ih =>
      rw [List.length_cons] at h
      cases skip with
      | succ skip => exact ih (by omega)
      | zero =>
          rw [pending]
          cases find (c :: cs ++ back) with
          | none => exact ih (by omega)
          | some r =>
              refine ih ?_
              rw [List.length_append]
              omega

theorem sub_cons_of_none {c : α} {cs : List α} (h : find (c :: cs) = none) :
    sub find (c :: cs) = c :: sub find cs := by
  simp only [sub, replace, h]

theorem sub_of_some {c : α} {cs out rest : List α} (h : find (c :: cs) = some (out, rest))
    (hrest : rest <:+ cs) : sub find (c :: cs) = out ++ sub find rest := by
  simp only [sub, replace, h]
  rw [replace_drop, ← List.suffix_iff_eq_drop.1 hrest]
  rfl

/-- What begins no match is put out as it is. -/
theorem sub_append_of_none {cs : List α}
    (h : ∀ pre suf c, pre ++ c :: suf = cs → find (c :: suf ++ back) = none) :
    sub find (cs ++ back) = cs ++ sub find back := by
  induction cs with
  | nil => rfl
  | cons c cs ih =>
      have hhead : find (c :: (cs ++ back)) = none := h [] cs c rfl
      rw [List.cons_append, sub_cons_of_none hhead, List.cons_append, ih]
      intro pre suf d heq
      exact h (c :: pre) suf d (by rw [List.cons_append, heq])

theorem replace_append (skip : Nat) (front back : List α) :
    replace find skip (front ++ back) =
      emitted find back skip front ++ replace find (pending find back skip front) back := by
  induction front generalizing skip with
  | nil => rfl
  | cons c cs ih =>
      cases skip with
      | succ skip => exact ih skip
      | zero =>
          rw [List.cons_append, replace, emitted, pending]
          simp only [List.cons_append]
          cases hfind : find (c :: (cs ++ back)) with
          | none => simp only [List.cons_append, ih]
          | some r => simp only [List.append_assoc, ih]

/-- The part before is replaced, and what is pending is not. -/
theorem sub_append (front back : List α) :
    sub find (front ++ back) =
      emitted find back 0 front ++ sub find (back.drop (pending find back 0 front)) := by
  rw [sub, replace_append, replace_drop]

/-- Matches that are decided before `behind` are the same whatever it is. -/
theorem emitted_pending_append {near : List α}
    (hnear : ∀ pre suf c, pre ++ c :: suf = front →
      ∀ behind, find (c :: suf ++ (near ++ behind)) =
        (find (c :: suf ++ near)).map fun r => (r.1, r.2 ++ behind))
    (behind : List α) (skip : Nat) :
    emitted find (near ++ behind) skip front = emitted find near skip front ∧
      pending find (near ++ behind) skip front = pending find near skip front := by
  induction front generalizing skip with
  | nil => exact ⟨rfl, rfl⟩
  | cons c cs ih =>
      have htail := ih fun pre suf d heq => hnear (c :: pre) suf d (by rw [List.cons_append, heq])
      cases skip with
      | succ skip => exact htail skip
      | zero =>
          have hhead := hnear [] cs c rfl behind
          simp only [emitted, pending, hhead]
          cases find (c :: cs ++ near) with
          | none => exact ⟨congrArg (c :: ·) (htail 0).1, (htail 0).2⟩
          | some r =>
              have hlen : (cs ++ (near ++ behind)).length - (r.2 ++ behind).length =
                  (cs ++ near).length - r.2.length := by
                simp only [List.length_append]
                omega
              simp only [Option.map_some, hlen]
              exact ⟨congrArg (r.1 ++ ·) (htail _).1, (htail _).2⟩

end

end TradingBroker.Lib.Regex
