import Mathlib.Data.List.Basic
import Mathlib.Data.List.Nodup
import Mathlib.Data.List.Perm.Basic

/-!
# Lists in pages

A list is shown in pages of `limit` elements, from an offset to the next. `Walk` is a walk
over offsets that ends where there is no next one, and `nextOffset` the next one a pager
offers. The pages of one list are the list again. Pages cut from several arrangements of one
collection are the collection again if no boundary between two pages divides elements that
are equal to the order (`Clean`), for then every arrangement has the same elements before it.

An arrangement is a permutation that is sorted by a key, and any two of them differ only
within ties. So the elements before a boundary are the same in both if no tie lies across
it, and if one does, two arrangements that swap a tie there show one element twice and
another not at all.
-/

namespace TradingBroker.Lib.Pages

/-! ## Walks -/

/-- From an offset to the next, as long as there is one. -/
inductive Walk {ω : Type} (next : ω → Option ω) : ω → List ω → Prop where
  | last {o : ω} (h : next o = none) : Walk next o [o]
  | step {o o' : ω} {os : List ω} (h : next o = some o') (rest : Walk next o' os) :
      Walk next o (o :: os)

/-- The offset after the page of `limit` elements at `o`, if it is still in the list. -/
def nextOffset (limit total o : Nat) : Option Nat :=
  if o + limit < total then some (o + limit) else none

section
variable {ω ω' : Type} {next : ω → Option ω} {o : ω} {os : List ω}

theorem Walk.unique {os' : List ω} (h : Walk next o os) (h' : Walk next o os') : os = os' := by
  induction h generalizing os' with
  | last h =>
      cases h' with
      | last => rfl
      | step hs => rw [h] at hs; cases hs
  | step h _ ih =>
      cases h' with
      | last hl => rw [h] at hl; cases hl
      | step hs rest =>
          rw [h, Option.some.injEq] at hs
          subst hs
          rw [ih rest]

/-- The same walk over other names of the offsets. -/
theorem Walk.map {next' : ω' → Option ω'} {f : ω → ω'} (h : Walk next o os)
    (hf : ∀ o ∈ os, next' (f o) = (next o).map f) : Walk next' (f o) (os.map f) := by
  induction h with
  | last h => exact .last (by rw [hf _ List.mem_cons_self, h, Option.map_none])
  | step h _ ih =>
      refine .step (by rw [hf _ List.mem_cons_self, h, Option.map_some]) (ih ?_)
      intro o ho
      exact hf o (List.mem_cons_of_mem _ ho)

/-- A walk back that ends where the walk began. -/
theorem Walk.back {prev : ω → Option ω} (h : Walk next o os) (hprev : ∀ o o', o ∈ os →
    next o = some o' → prev o' = some o) {before : List ω} (hbefore : Walk prev o (o :: before)) :
    ∀ {pre post : List ω} {o' : ω}, os = pre ++ o' :: post →
      Walk prev o' (o' :: (pre.reverse ++ before)) := by
  induction h generalizing before with
  | last h =>
      intro pre post o' heq
      cases pre with
      | nil =>
          cases heq
          exact hbefore
      | cons p pre =>
          have hlen := congrArg List.length heq
          simp at hlen
  | @step o next_ os h rest ih =>
      intro pre post o' heq
      cases pre with
      | nil =>
          cases heq
          exact hbefore
      | cons p pre =>
          rw [List.cons_append, List.cons.injEq] at heq
          obtain ⟨rfl, heq⟩ := heq
          have hback := ih (fun o o' ho => hprev o o' (List.mem_cons_of_mem _ ho))
            (.step (hprev _ _ List.mem_cons_self h) hbefore) heq
          rwa [List.reverse_cons, List.append_assoc, List.singleton_append]

end

section
variable {limit total o : Nat} {os : List Nat}

/-- A pager comes to its last page. -/
theorem exists_walk (hlimit : 0 < limit) (total o : Nat) :
    ∃ os, Walk (nextOffset limit total) o os := by
  by_cases h : o + limit < total
  · obtain ⟨os, hos⟩ := exists_walk hlimit total (o + limit)
    exact ⟨o :: os, .step (if_pos h) hos⟩
  · exact ⟨[o], .last (if_neg h)⟩
termination_by total - o

theorem Walk.le_of_mem (h : Walk (nextOffset limit total) o os) : ∀ o' ∈ os, o ≤ o' := by
  induction h with
  | last => simp
  | step h rest ih =>
      unfold nextOffset at h
      split at h
      · cases h
        intro o' ho'
        rcases List.mem_cons.1 ho' with rfl | ho'
        · exact Nat.le_refl _
        · have := ih o' ho'
          omega
      · cases h

theorem Walk.lt_of_mem (h : Walk (nextOffset limit total) o os) :
    ∀ o' ∈ os, o' = o ∨ o' < total := by
  induction h with
  | last => simp
  | step h rest ih =>
      unfold nextOffset at h
      split at h
      · cases h
        intro o' ho'
        rcases List.mem_cons.1 ho' with rfl | ho'
        · exact .inl rfl
        · rcases ih o' ho' with rfl | hlt
          · exact .inr (by assumption)
          · exact .inr hlt
      · cases h

theorem Walk.dvd_of_mem (h : Walk (nextOffset limit total) o os) (ho : limit ∣ o) :
    ∀ o' ∈ os, limit ∣ o' := by
  induction h with
  | last =>
      intro o' ho'
      rwa [List.mem_singleton.1 ho']
  | step h rest ih =>
      unfold nextOffset at h
      split at h
      · cases h
        intro o' ho'
        rcases List.mem_cons.1 ho' with rfl | ho'
        · exact ho
        · exact ih (Nat.dvd_add ho (Nat.dvd_refl limit)) o' ho'
      · cases h

/-- The pages of one list, one after the other. -/
theorem Walk.flatMap_pages {α : Type} {xs : List α}
    (h : Walk (nextOffset limit xs.length) o os) :
    (os.flatMap fun o => (xs.drop o).take limit) = xs.drop o := by
  induction h with
  | last h =>
      unfold nextOffset at h
      split at h
      · cases h
      · next hlt =>
          rw [List.flatMap_singleton, List.take_of_length_le]
          rw [List.length_drop]
          omega
  | step h rest ih =>
      unfold nextOffset at h
      split at h
      · cases h
        rw [List.flatMap_cons, ih, ← List.drop_drop, List.take_append_drop]
      · cases h

end

/-! ## Sorted, with ties in any order -/

/-- What rows are sorted by. Two rows that are in order both ways are tied. -/
structure SortKey (α : Type) where
  le : α → α → Bool
  trans : ∀ a b c, le a b → le b c → le a c
  total : ∀ a b, le a b || le b a

section
variable {α β : Type} (key : SortKey α)

/-- Rows by one of their columns. -/
def SortKey.comap (f : β → α) : SortKey β where
  le a b := key.le (f a) (f b)
  trans a b c := key.trans (f a) (f b) (f c)
  total a b := key.total (f a) (f b)

def SortKey.asc : SortKey α := key

def SortKey.desc : SortKey α where
  le a b := key.le b a
  trans a b c hab hbc := key.trans c b a hbc hab
  total a b := key.total b a

/-- The rows sorted, their ties in some order. -/
structure Arrangement (rows : List α) where
  list : List α
  perm : list.Perm rows
  sorted : list.Pairwise fun a b => key.le a b

/-- How many rows are sorted before all ties of a row, and how many up to the last of them. -/
def SortKey.before (rows : List α) (a : α) : Nat := rows.countP fun b => !key.le a b
def SortKey.upTo (rows : List α) (a : α) : Nat := rows.countP fun b => key.le b a

/-- No ties lie across the boundary after `m` rows. -/
def Clean (rows : List α) (m : Nat) : Prop :=
  ∀ a ∈ rows, ¬ (key.before rows a < m ∧ m < key.upTo rows a)

/-- Some arrangement there is. -/
def Arrangement.some (rows : List α) : Arrangement key rows where
  list := rows.mergeSort key.le
  perm := List.mergeSort_perm rows key.le
  sorted := List.pairwise_mergeSort key.trans key.total rows

end

section
variable {α : Type} {key : SortKey α} {rows xs ys : List α} {a : α}

/-- In a sorted list a set that is closed downwards is a beginning. -/
theorem take_countP {p : α → Bool} (hs : xs.Pairwise fun a b => key.le a b)
    (hp : ∀ a b, key.le a b → p b → p a) : xs.take (xs.countP p) = xs.filter p := by
  induction xs with
  | nil => rfl
  | cons x xs ih =>
      obtain ⟨hx, hs⟩ := List.pairwise_cons.1 hs
      by_cases h : p x
      · rw [List.countP_cons_of_pos h, List.take_succ_cons, ih hs, List.filter_cons_of_pos h]
      · have hnone : ∀ y ∈ xs, ¬ p y := fun y hy hpy => h (hp x y (hx y hy) hpy)
        rw [List.countP_cons_of_neg h, List.countP_eq_zero.2 hnone, List.take_zero,
          List.filter_cons_of_neg h, List.filter_eq_nil_iff.2 hnone]

theorem drop_countP {p : α → Bool} (hs : xs.Pairwise fun a b => key.le a b)
    (hp : ∀ a b, key.le a b → p b → p a) : xs.drop (xs.countP p) = xs.filter fun a => !p a := by
  induction xs with
  | nil => rfl
  | cons x xs ih =>
      obtain ⟨hx, hs⟩ := List.pairwise_cons.1 hs
      by_cases h : p x
      · rw [List.countP_cons_of_pos h, List.drop_succ_cons, ih hs]
        simp [h]
      · have hnone : ∀ y ∈ x :: xs, ¬ p y := by
          intro y hy
          rcases List.mem_cons.1 hy with rfl | hy
          · exact h
          · exact fun hpy => h (hp x y (hx y hy) hpy)
        rw [List.countP_eq_zero.2 hnone, List.drop_zero, eq_comm, List.filter_eq_self]
        intro y hy
        rw [Bool.not_eq_true', ← Bool.not_eq_true]
        exact hnone y hy

/-- What lies strictly before a row lies before what does. -/
theorem strict_of_le {b c : α} (hbc : key.le b c) (hc : !key.le a c) : !key.le a b := by
  rw [Bool.not_eq_true', ← Bool.not_eq_true] at hc ⊢
  exact fun hab => hc (key.trans a b c hab hbc)

theorem take_before (hs : xs.Pairwise fun a b => key.le a b) :
    xs.take (key.before xs a) = xs.filter fun b => !key.le a b :=
  take_countP hs fun _ _ => strict_of_le

theorem drop_before (hs : xs.Pairwise fun a b => key.le a b) :
    xs.drop (key.before xs a) = xs.filter fun b => key.le a b := by
  rw [SortKey.before, drop_countP hs fun _ _ => strict_of_le]
  simp only [Bool.not_not]

theorem take_upTo (hs : xs.Pairwise fun a b => key.le a b) :
    xs.take (key.upTo xs a) = xs.filter fun b => key.le b a :=
  take_countP hs fun b c hbc hc => key.trans b c a hbc hc

theorem before_perm (h : xs.Perm ys) : key.before xs a = key.before ys a := h.countP_eq _
theorem upTo_perm (h : xs.Perm ys) : key.upTo xs a = key.upTo ys a := h.countP_eq _

/-- Where a row stands in an arrangement. -/
theorem before_le_of_get (hs : xs.Pairwise fun a b => key.le a b) {i : Nat} (hi : i < xs.length) :
    key.before xs xs[i] ≤ i ∧ i < key.upTo xs xs[i] := by
  have hrefl : key.le xs[i] xs[i] := by
    have htotal := key.total xs[i] xs[i]
    rwa [Bool.or_self] at htotal
  have hsplit : xs = xs.take i ++ xs[i] :: xs.drop (i + 1) := by
    rw [← List.drop_eq_getElem_cons hi, List.take_append_drop]
  have htake : (xs.take i).length = i := List.length_take_of_le (Nat.le_of_lt hi)
  generalize xs[i] = a at hsplit hrefl
  generalize xs.take i = pre at hsplit htake
  generalize xs.drop (i + 1) = post at hsplit
  subst hsplit
  obtain ⟨_, hpost, hcross⟩ := List.pairwise_append.1 hs
  constructor
  · have hafter : (a :: post).countP (fun b => !key.le a b) = 0 := by
      refine List.countP_eq_zero.2 fun b hb => ?_
      rw [Bool.not_eq_true', Bool.not_eq_false]
      rcases List.mem_cons.1 hb with rfl | hb
      · exact hrefl
      · exact (List.pairwise_cons.1 hpost).1 b hb
    rw [SortKey.before, List.countP_append, hafter, Nat.add_zero, ← htake]
    exact List.countP_le_length
  · have hbefore : pre.countP (fun b => key.le b a) = pre.length :=
      List.countP_eq_length.2 fun b hb => hcross b hb a List.mem_cons_self
    have hself : 0 < (a :: post).countP fun b => key.le b a :=
      List.countP_pos_iff.2 ⟨a, List.mem_cons_self, hrefl⟩
    rw [SortKey.upTo, List.countP_append, hbefore]
    omega

/-- No arrangement can do differently up to a clean boundary. -/
theorem Clean.take_perm {s t : Arrangement key rows} {m : Nat} (h : Clean key rows m) :
    (s.list.take m).Perm (t.list.take m) := by
  have hlen : s.list.length = t.list.length := (s.perm.trans t.perm.symm).length_eq
  by_cases hm : m < s.list.length
  · obtain ⟨hbefore, hupTo⟩ := before_le_of_get s.sorted hm
    have hmem : s.list[m] ∈ rows := s.perm.subset (List.getElem_mem hm)
    generalize s.list[m] = a at hbefore hupTo hmem
    have hclean := h a hmem
    rw [before_perm s.perm] at hbefore
    rw [upTo_perm s.perm] at hupTo
    have heq : key.before rows a = m := by omega
    have hs := take_before (a := a) s.sorted
    have ht := take_before (a := a) t.sorted
    rw [before_perm s.perm, heq] at hs
    rw [before_perm t.perm, heq] at ht
    rw [hs, ht]
    exact (s.perm.trans t.perm.symm).filter _
  · rw [List.take_of_length_le (by omega), List.take_of_length_le (by omega)]
    exact s.perm.trans t.perm.symm

/-- An arrangement can do differently at any other. -/
theorem exists_swap {m : Nat} (h : ¬ Clean key rows m) :
    ∃ (s t : Arrangement key rows) (pre post : List α) (u v : α), pre.length + 1 = m ∧
      s.list = pre ++ u :: v :: post ∧ t.list = pre ++ v :: u :: post := by
  unfold Clean at h
  push Not at h
  obtain ⟨a, ha, hbefore, hupTo⟩ := h
  obtain ⟨s⟩ : Nonempty (Arrangement key rows) := ⟨.some key rows⟩
  rw [← before_perm s.perm] at hbefore
  rw [← upTo_perm s.perm] at hupTo
  have hm : m < s.list.length := Nat.lt_of_lt_of_le hupTo List.countP_le_length
  have hu : key.le a s.list[m - 1] := by
    have hmem : s.list[m - 1] ∈ s.list.drop (key.before s.list a) :=
      List.mem_drop_iff_getElem.2 ⟨m - 1 - key.before s.list a, by omega, by congr 1; omega⟩
    rw [drop_before s.sorted, List.mem_filter] at hmem
    exact hmem.2
  have hv : key.le s.list[m] a := by
    have hmem : s.list[m] ∈ s.list.take (key.upTo s.list a) :=
      List.mem_take_iff_getElem.2 ⟨m, by omega, rfl⟩
    rw [take_upTo s.sorted, List.mem_filter] at hmem
    exact hmem.2
  have hvu := key.trans _ _ _ hv hu
  have hsplit : s.list = s.list.take (m - 1) ++ s.list[m - 1] :: s.list[m] ::
      s.list.drop (m + 1) := by
    rw [← List.drop_eq_getElem_cons hm]
    have hdrop := List.drop_eq_getElem_cons (show m - 1 < s.list.length by omega)
    rw [show m - 1 + 1 = m by omega] at hdrop
    rw [← hdrop, List.take_append_drop]
  have hpre : (s.list.take (m - 1)).length + 1 = m := by
    rw [List.length_take_of_le (by omega)]
    omega
  generalize s.list[m] = v at hvu hsplit
  generalize s.list[m - 1] = u at hvu hsplit
  generalize s.list.take (m - 1) = pre at hpre hsplit
  generalize s.list.drop (m + 1) = post at hsplit
  have hswap : (pre ++ v :: u :: post).Pairwise fun a b => key.le a b := by
    have hs := s.sorted
    rw [hsplit] at hs
    simp only [List.pairwise_append, List.pairwise_cons, List.mem_cons] at hs ⊢
    grind
  refine ⟨s, ⟨pre ++ v :: u :: post, ?_, hswap⟩, pre, post, u, v, hpre, hsplit, rfl⟩
  have hperm := s.perm
  rw [hsplit] at hperm
  exact (List.Perm.append_left pre (List.Perm.swap u v post)).trans hperm

end

/-! ## Pages of an arrangement each -/

section
variable {α : Type} {key : SortKey α} {rows : List α} {limit o : Nat} {os : List Nat}

/-- What a pager shows that has the rows arranged anew for every page. -/
def shown (arranged : Nat → Arrangement key rows) (limit : Nat) (os : List Nat) : List α :=
  os.flatMap fun o => ((arranged o).list.drop o).take limit

/-- A page between two boundaries that are clean. -/
theorem page_perm {s t : Arrangement key rows} (hclean : Clean key rows o)
    (hnext : Clean key rows (o + limit)) :
    ((s.list.drop o).take limit).Perm ((t.list.drop o).take limit) := by
  have htake : (s.list.take (o + limit)).Perm (t.list.take (o + limit)) := hnext.take_perm
  rw [List.take_add, List.take_add] at htake
  have hbefore : (s.list.take o).Perm (t.list.take o) := hclean.take_perm
  exact (List.perm_append_left_iff _).1 (htake.trans (hbefore.symm.append_right _))

theorem shown_perm (hclean : ∀ m, limit ∣ m → Clean key rows m)
    (hos : Walk (nextOffset limit rows.length) 0 os) (arranged : Nat → Arrangement key rows) :
    (shown arranged limit os).Perm rows := by
  have hdvd : ∀ o ∈ os, limit ∣ o := hos.dvd_of_mem (Nat.dvd_zero limit)
  have hsame : ∀ o ∈ os, (((arranged o).list.drop o).take limit).Perm
      (((arranged 0).list.drop o).take limit) := by
    intro o ho
    exact page_perm (hclean o (hdvd o ho))
      (hclean (o + limit) (Nat.dvd_add (hdvd o ho) (Nat.dvd_refl limit)))
  rw [← (arranged 0).perm.length_eq] at hos
  have hpages := hos.flatMap_pages
  rw [List.drop_zero] at hpages
  refine (List.Perm.flatMap_left os hsame).trans ?_
  rw [hpages]
  exact (arranged 0).perm

/-- From one arrangement at every offset that comes. -/
theorem shown_eq_drop {arranged : Nat → Arrangement key rows} {t : Arrangement key rows}
    (hos : Walk (nextOffset limit rows.length) o os) (h : ∀ o', o ≤ o' → arranged o' = t) :
    shown arranged limit os = t.list.drop o := by
  have hpages : shown arranged limit os = os.flatMap fun o' => (t.list.drop o').take limit := by
    refine List.flatMap_congr fun o' ho' => ?_
    rw [h o' (hos.le_of_mem o' ho')]
  rw [← t.perm.length_eq] at hos
  rw [hpages, hos.flatMap_pages]

/-- Up to a boundary from one arrangement, from there on from another. -/
theorem shown_switch {arranged : Nat → Arrangement key rows} {s t : Arrangement key rows} {m : Nat}
    (hs : ∀ o, o < m → arranged o = s) (ht : ∀ o, m ≤ o → arranged o = t)
    (hos : Walk (nextOffset limit rows.length) o os) (hm : m < rows.length) (hom : o ≤ m)
    (hdvd : limit ∣ m - o) :
    shown arranged limit os = (s.list.drop o).take (m - o) ++ t.list.drop m := by
  induction hos with
  | @last o h =>
      have heq : o = m := by
        by_contra hne
        have hle : limit ≤ m - o := Nat.le_of_dvd (by omega) hdvd
        rw [nextOffset, if_pos (by omega)] at h
        cases h
      subst heq
      rw [shown_eq_drop (.last h) ht, Nat.sub_self, List.take_zero, List.nil_append]
  | @step o o' os h rest ih =>
      by_cases heq : o = m
      · subst heq
        rw [shown_eq_drop (.step h rest) ht, Nat.sub_self, List.take_zero, List.nil_append]
      · have hle : limit ≤ m - o := Nat.le_of_dvd (by omega) hdvd
        rw [nextOffset, if_pos (by omega), Option.some.injEq] at h
        subst h
        have hdvd' : limit ∣ m - (o + limit) := by
          rw [← Nat.sub_sub]
          exact Nat.dvd_sub hdvd (Nat.dvd_refl limit)
        have hrest := ih (by omega) hdvd'
        rw [shown] at hrest ⊢
        rw [List.flatMap_cons, hs o (by omega), hrest, ← List.append_assoc, ← List.drop_drop,
          ← List.take_add]
        congr 2
        omega

/-- Every row once, whatever the arrangements, if and only if every boundary is clean. -/
theorem shown_perm_iff (hrows : rows.Nodup)
    (hos : Walk (nextOffset limit rows.length) 0 os) :
    (∀ arranged : Nat → Arrangement key rows, (shown arranged limit os).Perm rows) ↔
      ∀ m, limit ∣ m → Clean key rows m := by
  constructor
  · intro h m hm
    by_contra hclean
    obtain ⟨s, t, pre, post, u, v, hpre, hs, ht⟩ := exists_swap hclean
    have hlen : m < rows.length := by
      rw [← s.perm.length_eq, hs, List.length_append, List.length_cons, List.length_cons]
      omega
    have hperm := h fun o => if o < m then s else t
    rw [shown_switch (fun o ho => if_pos ho) (fun o ho => if_neg (Nat.not_lt.2 ho)) hos hlen
      (Nat.zero_le m) hm, List.drop_zero, Nat.sub_zero, hs, ht] at hperm
    have hnodup := hperm.nodup_iff.2 hrows
    have htake : (pre ++ u :: v :: post).take m = pre ++ [u] := by
      rw [← hpre, List.take_length_add_append]
      rfl
    have hdrop : (pre ++ v :: u :: post).drop m = u :: post := by
      rw [← hpre, List.drop_length_add_append]
      rfl
    rw [htake, hdrop, List.append_assoc] at hnodup
    exact (List.nodup_cons.1 hnodup.of_append_right).1 List.mem_cons_self
  · intro hclean arranged
    exact shown_perm hclean hos arranged

end

end TradingBroker.Lib.Pages
