import Mathlib.Data.List.Perm.Basic
import Mathlib.Data.List.Nodup
import Mathlib.Data.List.Count

/-!
# Numbered things in places

Things are made one after another, numbered as they are made, and each is kept somewhere:
in a queue, in somebody's hands, in a log of what has left. When the numbers found in all
the places together are a permutation of those given out, nothing is lost and nothing is
there twice. That is all a machine has to keep: a step that only moves things from place
to place permutes the numbers, and one that makes a new thing adds the next.
-/

namespace TradingBroker.Lib

variable {ι : Type} {held : ι → List Nat} {places : List ι} {l : List Nat} {n t : Nat} {p q : ι}

/-- `t` is in one place, once, and in no other. -/
def LiesOnce (held : ι → List Nat) (t : Nat) : Prop :=
  ∃ p, (held p).count t = 1 ∧ ∀ q, q ≠ p → (held q).count t = 0

/-- The numbers below `n` are what the places hold. -/
def Kept (held : ι → List Nat) (places : List ι) (n : Nat) : Prop :=
  (places.flatMap held).Perm (List.range n)

theorem count_range_of_lt (ht : t < n) : (List.range n).count t = 1 :=
  List.count_eq_one_of_mem List.nodup_range (List.mem_range.2 ht)

theorem count_le_flatMap (held : ι → List Nat) (t : Nat) (hp : p ∈ places) :
    (held p).count t ≤ (places.flatMap held).count t := by
  induction places with
  | nil => simp at hp
  | cons r rest ih =>
    rw [List.flatMap_cons, List.count_append]
    rcases List.mem_cons.1 hp with rfl | hp
    · omega
    · have := ih hp
      omega

theorem exists_place (h : (places.flatMap held).count t = 1) :
    ∃ p ∈ places, (held p).count t = 1 ∧ ∀ q ∈ places, q ≠ p → (held q).count t = 0 := by
  induction places with
  | nil => simp at h
  | cons r rest ih =>
    rw [List.flatMap_cons, List.count_append] at h
    by_cases hr : (held r).count t = 0
    · obtain ⟨p, hp, hone, hothers⟩ := ih (by omega)
      refine ⟨p, List.mem_cons_of_mem _ hp, hone, ?_⟩
      intro q hq hne
      rcases List.mem_cons.1 hq with rfl | hq
      · exact hr
      · exact hothers q hq hne
    · refine ⟨r, List.mem_cons_self, by omega, ?_⟩
      intro q hq hne
      rcases List.mem_cons.1 hq with rfl | hq
      · exact absurd rfl hne
      · have := count_le_flatMap held t hq
        omega

theorem Kept.liesOnce (h : Kept held places n) (hall : ∀ p, p ∈ places) (ht : t < n) :
    LiesOnce held t := by
  have hcount : (places.flatMap held).count t = 1 := by
    rw [h.count_eq]
    exact count_range_of_lt ht
  obtain ⟨p, -, hone, hothers⟩ := exists_place hcount
  exact ⟨p, hone, fun q hne => hothers q (hall q) hne⟩

theorem Kept.lt (h : Kept held places n) (hp : p ∈ places) (ht : t ∈ held p) : t < n :=
  List.mem_range.1 (h.mem_iff.1 (List.mem_flatMap.2 ⟨p, hp, ht⟩))

/-- What two places hold has nothing in common. -/
theorem Kept.ne (h : Kept held places n) (hall : ∀ p, p ∈ places) (hne : p ≠ q) {u : Nat}
    (ht : t ∈ held p) (hu : u ∈ held q) : t ≠ u := by
  rintro rfl
  obtain ⟨r, -, hothers⟩ := h.liesOnce hall (h.lt (hall p) ht)
  by_cases hpr : p = r
  · exact List.not_mem_of_count_eq_zero (hothers q (hpr ▸ hne.symm)) hu
  · exact List.not_mem_of_count_eq_zero (hothers p hpr) ht

/-! ## Counting what two of the places hold -/

theorem Kept.nodup (h : Kept held places n) (hp : p ∈ places) : (held p).Nodup := by
  rw [List.nodup_iff_count_le_one]
  intro t
  have hle := count_le_flatMap held t hp
  have hone := List.nodup_iff_count_le_one.1 (List.nodup_range (n := n)) t
  rw [h.count_eq] at hle
  omega

theorem Kept.nodup_append (h : Kept held places n) (hall : ∀ p, p ∈ places) (hne : p ≠ q) :
    (held p ++ held q).Nodup := by
  rw [List.nodup_append]
  exact ⟨h.nodup (hall p), h.nodup (hall q), fun t ht u hu => h.ne hall hne ht hu⟩

theorem countP_range_mem (hnodup : l.Nodup) (hlt : ∀ t ∈ l, t < n) :
    (List.range n).countP (fun t => decide (t ∈ l)) = l.length := by
  have hperm : ((List.range n).filter fun t => decide (t ∈ l)).Perm l := by
    rw [List.perm_ext_iff_of_nodup (List.nodup_range.filter _) hnodup]
    intro t
    simp only [List.mem_filter, List.mem_range, decide_eq_true_eq]
    exact ⟨fun h => h.2, fun h => ⟨hlt t h, h⟩⟩
  rw [List.countP_eq_length_filter, hperm.length_eq]

theorem Kept.countP_range (h : Kept held places n) (hall : ∀ p, p ∈ places) (hne : p ≠ q) :
    (List.range n).countP (fun t => decide (t ∈ held p ++ held q)) =
      (held p).length + (held q).length := by
  rw [countP_range_mem (h.nodup_append hall hne), List.length_append]
  intro t ht
  rcases List.mem_append.1 ht with ht | ht
  · exact h.lt (hall p) ht
  · exact h.lt (hall q) ht

end TradingBroker.Lib
