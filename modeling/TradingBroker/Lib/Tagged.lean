import Mathlib.Data.List.Perm.Basic
import TradingBroker.Lib.Rows

/-!
# Rows whose tag may still be missing

A table of rows that are told apart by a key and a tag, where the tag of a row may not
be known yet. A lookup for a tag takes the row that has it or a row that has none, so
as to fill it in. It finds at most one row as long as a row without a tag is alone
under its key (`Alone`), and all that can break this is a row put next to one without
a tag, or one without a tag put next to another.
-/

namespace TradingBroker.Lib

variable {α κ τ : Type} {key : α → κ} {tag : α → Option τ} {a b old : α} {rows : List α}
  {k : κ} {t : Option τ}

/-- Rows of one key both have a tag, and not the same. -/
def Apart (key : α → κ) (tag : α → Option τ) (a b : α) : Prop :=
  key a = key b → (tag a).isSome = true ∧ (tag b).isSome = true ∧ tag a ≠ tag b

/-- Any two rows are apart. -/
def Alone (key : α → κ) (tag : α → Option τ) (rows : List α) : Prop :=
  rows.Pairwise (Apart key tag)

theorem Apart.symm (h : Apart key tag a b) : Apart key tag b a := by
  intro hkey
  obtain ⟨ha, hb, hne⟩ := h hkey.symm
  exact ⟨hb, ha, hne.symm⟩

theorem Alone.perm {rows' : List α} (h : Alone key tag rows) (hperm : rows.Perm rows') :
    Alone key tag rows' :=
  hperm.pairwise h Apart.symm

/-! ## What a lookup finds -/

section
variable [DecidableEq κ] [DecidableEq τ]

/-- The lookup of a key and a tag. -/
def matchesTag (key : α → κ) (tag : α → Option τ) (k : κ) (t : Option τ) (a : α) : Bool :=
  key a == k && (tag a == t || (tag a).isNone)

theorem matchesTag_iff : matchesTag key tag k t a = true ↔
    key a = k ∧ (tag a = t ∨ tag a = none) := by
  simp only [matchesTag, Bool.and_eq_true, Bool.or_eq_true, beq_iff_eq, Option.isNone_iff_eq_none]

/-- Two rows that are apart are not both found. -/
theorem not_apart (ha : matchesTag key tag k t a = true) (hb : matchesTag key tag k t b = true) :
    ¬ Apart key tag a b := by
  intro h
  obtain ⟨hka, hta⟩ := matchesTag_iff.1 ha
  obtain ⟨hkb, htb⟩ := matchesTag_iff.1 hb
  obtain ⟨hsa, hsb, hne⟩ := h (hka.trans hkb.symm)
  rcases hta with hta | hta
  · rcases htb with htb | htb
    · exact hne (hta.trans htb.symm)
    · rw [htb] at hsb
      cases hsb
  · rw [hta] at hsa
    cases hsa

theorem Alone.length_filter (h : Alone key tag rows) :
    (rows.filter (matchesTag key tag k t)).length ≤ 1 := by
  have hsub : (rows.filter (matchesTag key tag k t)).Pairwise (Apart key tag) :=
    h.sublist List.filter_sublist
  have hmem : ∀ a ∈ rows.filter (matchesTag key tag k t), matchesTag key tag k t a = true :=
    fun a ha => (List.mem_filter.1 ha).2
  match hrows : rows.filter (matchesTag key tag k t) with
  | [] => exact Nat.zero_le 1
  | [a] => exact Nat.le_refl 1
  | a :: b :: rest =>
    rw [hrows] at hsub hmem
    have hapart := (List.pairwise_cons.1 hsub).1 b List.mem_cons_self
    have hb := hmem b (List.mem_cons_of_mem _ List.mem_cons_self)
    exact absurd hapart (not_apart (hmem a List.mem_cons_self) hb)

/-- A row that a lookup matches is the one it finds. -/
theorem Alone.find?_eq (h : Alone key tag rows) (ha : a ∈ rows)
    (hmatch : matchesTag key tag k t a = true) :
    rows.find? (matchesTag key tag k t) = some a := by
  have hmem : a ∈ rows.filter (matchesTag key tag k t) := List.mem_filter.2 ⟨ha, hmatch⟩
  have hlen := h.length_filter (k := k) (t := t)
  match hrows : rows.filter (matchesTag key tag k t) with
  | [] =>
    rw [hrows] at hmem
    cases hmem
  | [b] =>
    rw [hrows] at hmem
    rw [List.mem_singleton.1 hmem]
    exact find?_eq_of_filter hrows
  | b :: c :: rest =>
    rw [hrows, List.length_cons, List.length_cons] at hlen
    omega

/-! ## What a write leaves -/

theorem pairwise_replaceFirst {r : α → α → Prop} {p : α → Bool} (hsymm : ∀ {a b}, r a b → r b a)
    (h : rows.Pairwise r) (hfind : rows.find? p = some old) (hb : ∀ a, r old a → r b a) :
    (replaceFirst p b rows).Pairwise r := by
  induction rows with
  | nil => cases hfind
  | cons a rows ih =>
    obtain ⟨ha, hrows⟩ := List.pairwise_cons.1 h
    rw [replaceFirst]
    split
    · next hp =>
        rw [List.find?_cons_of_pos hp] at hfind
        cases hfind
        exact List.pairwise_cons.2 ⟨fun c hc => hb c (ha c hc), hrows⟩
    · next hp =>
        rw [List.find?_cons_of_neg hp] at hfind
        refine List.pairwise_cons.2 ⟨fun c hc => ?_, ih hrows hfind⟩
        rcases mem_of_mem_replaceFirst hc with rfl | hc
        · exact hsymm (hb a (hsymm (ha old (List.mem_of_find?_eq_some hfind))))
        · exact ha c hc

/-- The row a lookup found keeps its key and its tag, or is given the tag it was looked up
for. -/
theorem Alone.update (h : Alone key tag rows)
    (hfind : rows.find? (matchesTag key tag k t) = some old) (hkey : key b = k)
    (htag : tag b = t.or (tag old)) :
    Alone key tag (replaceFirst (matchesTag key tag k t) b rows) := by
  refine pairwise_replaceFirst Apart.symm h hfind fun a ha hsame => ?_
  obtain ⟨hkold, htold⟩ := matchesTag_iff.1 (List.find?_some hfind)
  obtain ⟨hsold, hsa, hne⟩ := ha (hkold.trans (hkey.symm.trans hsame))
  have hb : tag b = tag old := by
    rcases htold with htold | htold
    · rw [htag, ← htold, Option.or_self]
    · rw [htold] at hsold
      cases hsold
  rw [hb]
  exact ⟨hsold, hsa, hne⟩

omit [DecidableEq κ] [DecidableEq τ] in
theorem alone_concat : Alone key tag (rows ++ [b]) ↔
    Alone key tag rows ∧ ∀ a ∈ rows, Apart key tag a b := by
  rw [Alone, Alone, List.pairwise_append]
  constructor
  · intro h
    exact ⟨h.1, fun a ha => h.2.2 a ha b (List.mem_singleton.2 rfl)⟩
  · intro h
    refine ⟨h.1, List.pairwise_singleton _ _, fun a ha c hc => ?_⟩
    rw [List.mem_singleton.1 hc]
    exact h.2 a ha

/-- A row that no lookup for it found may be added, unless it has no tag and its key is taken. -/
theorem Alone.insert (h : Alone key tag rows)
    (hfind : rows.find? (matchesTag key tag k t) = none) (hkey : key b = k) (htag : tag b = t)
    (htaken : t = none → ∀ a ∈ rows, key a = k → tag a = none) : Alone key tag (rows ++ [b]) := by
  refine alone_concat.2 ⟨h, fun a ha hsame => ?_⟩
  have hka : key a = k := hsame.trans hkey
  have hmiss := List.find?_eq_none.1 hfind a ha
  rw [matchesTag_iff, not_and_or, not_or] at hmiss
  rcases hmiss with hmiss | ⟨hne, hsome⟩
  · exact absurd hka hmiss
  · refine ⟨Option.isSome_iff_ne_none.2 hsome, ?_, ?_⟩
    · rw [htag, Option.isSome_iff_ne_none]
      exact fun hnone => hsome (htaken hnone a ha hka)
    · rw [htag]
      exact hne

end

/-- What the tag and the key make of a row with a tag is told apart by them. -/
theorem Alone.nodup_filterMap {υ : Type} {f : α → Option υ} (h : Alone key tag rows)
    (hf : ∀ a b u, f a = some u → f b = some u → key a = key b ∧ tag a = tag b) :
    (rows.filterMap f).Nodup := by
  rw [List.Nodup, List.pairwise_filterMap]
  refine h.imp fun {a b} hab u hu v hv huv => ?_
  subst huv
  obtain ⟨hkey, htag⟩ := hf a b u hu hv
  exact (hab hkey).2.2 htag

theorem nodup_filterMap_concat {υ : Type} {f : α → Option υ} (h : (rows.filterMap f).Nodup)
    (hmiss : ∀ a ∈ rows, key a = key b → tag a ≠ tag b)
    (hf : ∀ a b u, f a = some u → f b = some u → key a = key b ∧ tag a = tag b) :
    ((rows ++ [b]).filterMap f).Nodup := by
  rw [List.filterMap_append]
  refine List.nodup_append.2 ⟨h, ?_, fun u hu v hv huv => ?_⟩
  · rw [List.filterMap_cons, List.filterMap_nil]
    split
    · exact List.nodup_nil
    · exact List.pairwise_singleton _ _
  · obtain ⟨a, ha, hfa⟩ := List.mem_filterMap.1 hu
    obtain ⟨c, hc, hfc⟩ := List.mem_filterMap.1 hv
    rw [List.mem_singleton.1 hc, ← huv] at hfc
    obtain ⟨hkey, htag⟩ := hf a b u hfa hfc
    exact hmiss a ha hkey htag

end TradingBroker.Lib
