import Mathlib.Data.List.Sort

/-!
# The first row a query finds

A statement reads the first row that matches and writes a new version of it. The
row keeps its place, and so does everything else.

A table is a list of its rows, `replaceFirst` the update of the row a query
finds first, and an insert puts a row at the end. What a lookup finds afterwards
is said for either, at the row that was written and at every other, and so is
what becomes of a constraint over the rows.
-/

namespace TradingBroker.Lib

variable {α : Type} {p : α → Bool} {a b : α} {rows : List α}

/-- The first row that matches becomes `b`. -/
def replaceFirst (p : α → Bool) (b : α) : List α → List α
  | [] => []
  | a :: rows => if p a then b :: rows else a :: replaceFirst p b rows

/-- The new version is among the rows that match where the old one was. -/
theorem filter_replaceFirst (hb : p b = true) :
    (replaceFirst p b rows).filter p =
      match rows.filter p with
      | [] => []
      | _ :: later => b :: later := by
  induction rows with
  | nil => rfl
  | cons a rows ih =>
    rw [replaceFirst]
    split
    · next ha => rw [List.filter_cons_of_pos hb, List.filter_cons_of_pos ha]
    · next ha => rw [List.filter_cons_of_neg ha, List.filter_cons_of_neg ha, ih]

theorem mem_replaceFirst (h : rows.find? p = some a) : b ∈ replaceFirst p b rows := by
  induction rows with
  | nil => cases h
  | cons a' rows ih =>
    rw [replaceFirst]
    split
    · exact List.mem_cons_self
    · next ha =>
        rw [List.find?_cons_of_neg ha] at h
        exact List.mem_cons_of_mem _ (ih h)

/-- A row that does not match stays. -/
theorem mem_replaceFirst_of_not {c : α} (h : c ∈ rows) (hc : ¬ p c = true) :
    c ∈ replaceFirst p b rows := by
  induction rows with
  | nil => cases h
  | cons a rows ih =>
    rw [replaceFirst]
    split
    · next ha =>
        rcases List.mem_cons.1 h with rfl | h
        · exact absurd ha hc
        · exact List.mem_cons_of_mem _ h
    · rcases List.mem_cons.1 h with rfl | h
      · exact List.mem_cons_self
      · exact List.mem_cons_of_mem _ (ih h)

theorem mem_of_mem_replaceFirst {c : α} (h : c ∈ replaceFirst p b rows) : c = b ∨ c ∈ rows := by
  induction rows with
  | nil => cases h
  | cons a rows ih =>
    rw [replaceFirst] at h
    split at h
    · exact (List.mem_cons.1 h).imp_right fun h => List.mem_cons_of_mem _ h
    · rcases List.mem_cons.1 h with rfl | h
      · exact .inr List.mem_cons_self
      · exact (ih h).imp_right fun h => List.mem_cons_of_mem _ h

/-- Every row but the first that matches stays. -/
theorem mem_replaceFirst_of_ne {c : α} (h : rows.find? p = some a) (hc : c ∈ rows)
    (hne : c ≠ a) : c ∈ replaceFirst p b rows := by
  induction rows with
  | nil => cases hc
  | cons a' rows ih =>
    rw [replaceFirst]
    split
    · next ha =>
        rw [List.find?_cons_of_pos ha] at h
        cases h
        rcases List.mem_cons.1 hc with rfl | hc
        · exact absurd rfl hne
        · exact List.mem_cons_of_mem _ hc
    · next ha =>
        rw [List.find?_cons_of_neg ha] at h
        rcases List.mem_cons.1 hc with rfl | hc
        · exact List.mem_cons_self
        · exact List.mem_cons_of_mem _ (ih h hc)

/-- The first row that matches is gone, unless there are two of it. -/
theorem not_mem_replaceFirst (hnodup : rows.Nodup) (h : rows.find? p = some a) (hne : a ≠ b) :
    a ∉ replaceFirst p b rows := by
  induction rows with
  | nil => cases h
  | cons a' rows ih =>
    obtain ⟨ha', hnodup'⟩ := List.nodup_cons.1 hnodup
    rw [replaceFirst]
    split
    · next ha =>
        rw [List.find?_cons_of_pos ha] at h
        cases h
        intro hmem
        rcases List.mem_cons.1 hmem with hmem | hmem
        · exact hne hmem
        · exact ha' hmem
    · next ha =>
        rw [List.find?_cons_of_neg ha] at h
        intro hmem
        rcases List.mem_cons.1 hmem with rfl | hmem
        · exact ha (List.find?_some h)
        · exact ih hnodup' h hmem

/-- Values that are told apart stay so when a new one is added. -/
theorem nodup_map_concat {β : Type} {f : α → β} (h : (rows.map f).Nodup)
    (hb : ∀ a ∈ rows, f a ≠ f b) : ((rows ++ [b]).map f).Nodup := by
  rw [List.map_append, List.map_singleton, ← List.concat_eq_append]
  refine h.concat fun hmem => ?_
  obtain ⟨a, ha, hf⟩ := List.mem_map.1 hmem
  exact hb a ha hf

/-- Values that are told apart stay so when one is replaced by a new one. -/
theorem nodup_map_replaceFirst {β : Type} {f : α → β} (h : (rows.map f).Nodup)
    (hb : f b ∉ rows.map f) : ((replaceFirst p b rows).map f).Nodup := by
  induction rows with
  | nil => exact List.nodup_nil
  | cons a rows ih =>
    rw [List.map_cons, List.nodup_cons] at h
    rw [List.map_cons, List.mem_cons, not_or] at hb
    rw [replaceFirst]
    split
    · exact List.nodup_cons.2 ⟨hb.2, h.2⟩
    · refine List.nodup_cons.2 ⟨?_, ih h.2 hb.2⟩
      intro hmem
      obtain ⟨c, hc, hf⟩ := List.mem_map.1 hmem
      rcases mem_of_mem_replaceFirst hc with rfl | hc
      · exact hb.1 hf
      · exact h.1 (hf ▸ List.mem_map_of_mem hc)

/-- Whatever the first row that matches shares with its new version is kept of the table. -/
theorem map_replaceFirst {β : Type} {f : α → β} (h : rows.find? p = some a) (hf : f b = f a) :
    (replaceFirst p b rows).map f = rows.map f := by
  induction rows with
  | nil => rfl
  | cons a' rows ih =>
    rw [replaceFirst]
    split
    · next ha =>
        rw [List.find?_cons_of_pos ha] at h
        cases h
        rw [List.map_cons, List.map_cons, hf]
    · next ha =>
        rw [List.find?_cons_of_neg ha] at h
        rw [List.map_cons, List.map_cons, ih h]

/-- The first row that matches, if only one does. -/
theorem find?_eq_of_filter (h : rows.filter p = [a]) : rows.find? p = some a := by
  rw [← List.head?_filter, h]
  rfl

theorem find?_eq_none_of_filter (h : rows.filter p = []) : rows.find? p = none := by
  rw [← List.head?_filter, h]
  rfl

/-- The new version is what is found next. -/
theorem find?_replaceFirst (h : rows.find? p = some a) (hb : p b = true) :
    (replaceFirst p b rows).find? p = some b := by
  rw [← List.head?_filter] at h ⊢
  rw [filter_replaceFirst hb]
  cases hrows : rows.filter p with
  | nil =>
    rw [hrows] at h
    cases h
  | cons a' later => rfl

/-! ## Rows in an order -/

/-- Fewer rows come in the same order. -/
theorem sublist_insertionSort {r : α → α → Prop} [DecidableRel r] [Std.Total r] [IsTrans α r]
    {l l' : List α} (h : l.Sublist l') : (l.insertionSort r).Sublist (l'.insertionSort r) := by
  induction h with
  | slnil => exact .slnil
  | cons a _ ih => exact ih.trans (List.sublist_orderedInsert a _)
  | cons_cons a _ ih =>
    exact List.Sublist.orderedInsert_sublist a ih (List.pairwise_insertionSort r _)

/-- The first of more rows is the first of fewer, if it is one of them. -/
theorem head?_of_sublist {l l' : List α} (h : l.Sublist l') (hnodup : l'.Nodup)
    (hhead : l'.head? = some a) (ha : a ∈ l) : l.head? = some a := by
  cases h with
  | slnil => cases ha
  | cons b hsub =>
    cases hhead
    exact absurd (hsub.subset ha) (List.nodup_cons.1 hnodup).1
  | cons_cons b _ => exact hhead

end TradingBroker.Lib
