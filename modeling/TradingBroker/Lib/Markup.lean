import Mathlib.Data.List.TakeWhile

/-!
# Text that is read as markup

A text as its characters, each of them marked as written by the program or as coming
from outside, so that what a rendering does to the texts it is given can be said about
its result. `Shows` is what a piece of a rendering promises: nothing the program wrote
itself would be read as markup, and a character from outside that would be read so is
in it exactly if one of the texts it shows has it. It is kept by everything renderings
are put together with. Whether a whole text is markup, with its tags in pairs that do
not nest, is what `Scan` finds out.
-/

namespace TradingBroker.Lib.Markup

/-- The characters markup is read by: `&`, `<` and `>`. -/
def isSpecial (c : Nat) : Bool := c == 0x26 || c == 0x3c || c == 0x3e

/-! ## Texts -/

/-- A character, and whether it came from outside. -/
structure Glyph where
  code : Nat
  foreign : Bool
  deriving DecidableEq

abbrev Text := List Glyph

def lit (s : String) : Text := s.toList.map fun c => ⟨c.toNat, false⟩

def data (s : List Nat) : Text := s.map fun c => ⟨c, true⟩

def Text.codes (t : Text) : List Nat := t.map Glyph.code

/-- The texts with `sep` between any two of them. -/
def join (sep : Text) : List Text → Text
  | [] => []
  | [t] => t
  | t :: u :: ts => t ++ (sep ++ join sep (u :: ts))

/-- A text without the spaces at its end. -/
def rstrip (space : Nat → Bool) (t : Text) : Text :=
  (t.reverse.dropWhile fun g => space g.code).reverse

/-- A text without the spaces around it. -/
def strip (space : Nat → Bool) (t : Text) : Text :=
  rstrip space (t.dropWhile fun g => space g.code)

/-- Filled up with blanks. -/
def ljust (width : Nat) (t : Text) : Text :=
  t ++ List.replicate (width - t.length) ⟨0x20, false⟩

theorem codes_append (t u : Text) : Text.codes (t ++ u) = t.codes ++ u.codes :=
  List.map_append

theorem dropWhile_split {α : Type} (p : α → Bool) (t : List α) :
    ∃ s, (∀ a ∈ s, p a = true) ∧ s ++ t.dropWhile p = t :=
  ⟨t.takeWhile p, fun _ ha => List.mem_takeWhile_imp ha, List.takeWhile_append_dropWhile⟩

theorem rstrip_split (space : Nat → Bool) (t : Text) :
    ∃ s : Text, (∀ g ∈ s, space g.code = true) ∧ rstrip space t ++ s = t := by
  obtain ⟨s, hs, heq⟩ := dropWhile_split (fun g : Glyph => space g.code) t.reverse
  refine ⟨s.reverse, fun g hg => hs g (List.mem_reverse.1 hg), ?_⟩
  rw [rstrip, ← List.reverse_append, heq, List.reverse_reverse]

theorem strip_split (space : Nat → Bool) (t : Text) :
    ∃ s u : Text, (∀ g ∈ s, space g.code = true) ∧ (∀ g ∈ u, space g.code = true) ∧
      s ++ (strip space t ++ u) = t := by
  obtain ⟨s, hs, heq⟩ := dropWhile_split (fun g : Glyph => space g.code) t
  obtain ⟨u, hu, hrest⟩ := rstrip_split space (t.dropWhile fun g => space g.code)
  exact ⟨s, u, hs, hu, by rw [strip, hrest, heq]⟩

/-! ## What a text shows -/

/-- A text none of whose characters are read as markup. -/
def Bare (s : List Nat) : Prop := ∀ c ∈ s, isSpecial c = false

theorem all_not_special_iff (s : List Nat) : s.all (! isSpecial ·) = true ↔ Bare s := by
  simp only [List.all_eq_true, Bare, Bool.not_eq_true']

instance (s : List Nat) : Decidable (Bare s) := decidable_of_iff _ (all_not_special_iff s)

/-- The same of a string. -/
def Tame (s : String) : Prop := ∀ c ∈ s.toList, isSpecial c.toNat = false

theorem all_char_not_special_iff (s : String) :
    s.toList.all (! isSpecial ·.toNat) = true ↔ Tame s := by
  simp only [List.all_eq_true, Tame, Bool.not_eq_true']

instance (s : String) : Decidable (Tame s) := decidable_of_iff _ (all_char_not_special_iff s)

theorem Tame.append {s t : String} (hs : Tame s) (ht : Tame t) : Tame (s ++ t) := by
  intro c hc
  rw [String.toList_append] at hc
  rcases List.mem_append.1 hc with h | h
  · exact hs c h
  · exact ht c h

/-- The texts from outside that `t` shows are `texts`, as far as markup is concerned. -/
structure Shows (t : Text) (texts : List (List Nat)) : Prop where
  own : ∀ g ∈ t, g.foreign = false → isSpecial g.code = false
  shown : ∀ c, isSpecial c = true → ((⟨c, true⟩ : Glyph) ∈ t ↔ ∃ s ∈ texts, c ∈ s)

theorem mem_lit {s : String} {g : Glyph} : g ∈ lit s ↔ ∃ c ∈ s.toList, ⟨c.toNat, false⟩ = g := by
  simp [lit]

theorem Shows.lit {s : String} (h : Tame s) : Shows (lit s) [] where
  own := by
    intro g hg _
    obtain ⟨c, hc, rfl⟩ := mem_lit.1 hg
    exact h c hc
  shown := by simp [Markup.lit]

theorem Shows.data (s : List Nat) : Shows (data s) [s] where
  own := by simp [Markup.data]
  shown := by simp [Markup.data]

theorem Shows.nil : Shows [] [] where
  own := by simp
  shown := by simp

theorem Shows.append {t u : Text} {ss us : List (List Nat)} (ht : Shows t ss) (hu : Shows u us) :
    Shows (t ++ u) (ss ++ us) where
  own := by
    intro g hg hown
    rcases List.mem_append.1 hg with hg | hg
    · exact ht.own g hg hown
    · exact hu.own g hg hown
  shown := by
    intro c hc
    rw [List.mem_append, ht.shown c hc, hu.shown c hc]
    simp [or_and_right, exists_or]

/-- Something of the program's own in front. -/
theorem Shows.behind {t u : Text} {us : List (List Nat)} (ht : Shows t []) (hu : Shows u us) :
    Shows (t ++ u) us :=
  ht.append hu

/-- Something of the program's own behind. -/
theorem Shows.ahead {t u : Text} {ss : List (List Nat)} (ht : Shows t ss) (hu : Shows u []) :
    Shows (t ++ u) ss := by
  have h := ht.append hu
  rw [List.append_nil] at h
  exact h

/-- What is not read as markup may be dropped on either side. -/
theorem Shows.of_split {s u v : Text} {ss : List (List Nat)} (h : Shows (s ++ (u ++ v)) ss)
    (hs : ∀ g ∈ s, isSpecial g.code = false) (hv : ∀ g ∈ v, isSpecial g.code = false) :
    Shows u ss where
  own := fun g hg => h.own g (List.mem_append_right _ (List.mem_append_left _ hg))
  shown := by
    intro c hc
    rw [← h.shown c hc, List.mem_append, List.mem_append]
    refine ⟨fun hmem => .inr (.inl hmem), ?_⟩
    rintro (hmem | hmem | hmem)
    · have := hs _ hmem
      rw [hc] at this
      cases this
    · exact hmem
    · have := hv _ hmem
      rw [hc] at this
      cases this

/-- Characters of the program's own that are not read as markup may be added. -/
theorem Shows.pad {t pad : Text} {ss : List (List Nat)} (ht : Shows t ss)
    (hpad : ∀ g ∈ pad, isSpecial g.code = false) : Shows (t ++ pad) ss where
  own := by
    intro g hg hown
    rcases List.mem_append.1 hg with hg | hg
    · exact ht.own g hg hown
    · exact hpad g hg
  shown := by
    intro c hc
    rw [List.mem_append, ht.shown c hc, or_iff_left]
    intro hmem
    have := hpad _ hmem
    rw [hc] at this
    cases this

theorem Shows.ljust {t : Text} {ss : List (List Nat)} (width : Nat) (ht : Shows t ss) :
    Shows (ljust width t) ss := by
  refine ht.pad fun g hg => ?_
  rw [(List.mem_replicate.1 hg).2]
  rfl

theorem Shows.strip {t : Text} {ss : List (List Nat)} {space : Nat → Bool} (ht : Shows t ss)
    (hspace : ∀ c, space c = true → isSpecial c = false) : Shows (strip space t) ss := by
  obtain ⟨s, u, hs, hu, heq⟩ := strip_split space t
  rw [← heq] at ht
  exact ht.of_split (fun g hg => hspace _ (hs g hg)) fun g hg => hspace _ (hu g hg)

theorem Shows.rstrip {t : Text} {ss : List (List Nat)} {space : Nat → Bool} (ht : Shows t ss)
    (hspace : ∀ c, space c = true → isSpecial c = false) : Shows (rstrip space t) ss := by
  obtain ⟨s, hs, heq⟩ := rstrip_split space t
  rw [← heq, ← List.nil_append (Markup.rstrip space t), List.append_assoc] at ht
  exact ht.of_split (fun g hg => absurd hg List.not_mem_nil) fun g hg => hspace _ (hs g hg)

theorem Shows.lstrip {t : Text} {ss : List (List Nat)} (space : Nat → Bool) (ht : Shows t ss)
    (hspace : ∀ c, space c = true → isSpecial c = false) :
    Shows (t.dropWhile fun g => space g.code) ss := by
  obtain ⟨s, hs, heq⟩ := dropWhile_split (fun g : Glyph => space g.code) t
  rw [← heq, ← List.append_nil (t.dropWhile _)] at ht
  exact ht.of_split (fun g hg => hspace _ (hs g hg)) fun g hg => absurd hg List.not_mem_nil

theorem mem_join {sep : Text} {g : Glyph} {ts : List Text} :
    (g ∈ join sep ts → g ∈ sep ∨ g ∈ ts.flatten) ∧ (g ∈ ts.flatten → g ∈ join sep ts) := by
  induction ts with
  | nil => simp [join]
  | cons t ts ih =>
      cases ts with
      | nil =>
          simp only [join, List.flatten_cons, List.flatten_nil, List.append_nil]
          exact ⟨.inr, id⟩
      | cons u ts =>
          rw [join, List.flatten_cons]
          simp only [List.mem_append]
          refine ⟨?_, ?_⟩
          · rintro (h | h | h)
            · exact .inr (.inl h)
            · exact .inl h
            · exact (ih.1 h).imp id .inr
          · rintro (h | h)
            · exact .inl h
            · exact .inr (.inr (ih.2 h))

/-- What is between the texts does not show anything. -/
theorem Shows.join {sep : Text} {ts : List Text} {ss : List (List Nat)} (hsep : Shows sep [])
    (h : Shows ts.flatten ss) : Shows (join sep ts) ss where
  own := by
    intro g hg hown
    rcases mem_join.1 hg with hg | hg
    · exact hsep.own g hg hown
    · exact h.own g hg hown
  shown := by
    intro c hc
    rw [← h.shown c hc]
    refine ⟨fun hg => ?_, mem_join.2⟩
    rcases mem_join.1 hg with hg | hg
    · obtain ⟨s, hs, -⟩ := (hsep.shown c hc).1 hg
      cases hs
    · exact hg

theorem Shows.flatMap {α : Type} {xs : List α} {f : α → Text} {texts : α → List (List Nat)}
    (h : ∀ x ∈ xs, Shows (f x) (texts x)) : Shows (xs.flatMap f) (xs.flatMap texts) := by
  induction xs with
  | nil => exact .nil
  | cons x xs ih =>
      exact (h x List.mem_cons_self).append (ih fun y hy => h y (List.mem_cons_of_mem _ hy))

theorem Shows.flatten {ts : List Text} (h : ∀ t ∈ ts, Shows t []) : Shows ts.flatten [] := by
  induction ts with
  | nil => exact .nil
  | cons t ts ih =>
      exact (h t List.mem_cons_self).append (ih fun u hu => h u (List.mem_cons_of_mem _ hu))

/-- A text that is not read as markup need not be listed. -/
theorem Shows.omit {t : Text} {s : List Nat} {ss : List (List Nat)} (hs : Bare s) :
    Shows t (s :: ss) ↔ Shows t ss := by
  have hiff : ∀ c, isSpecial c = true → ((∃ u ∈ s :: ss, c ∈ u) ↔ ∃ u ∈ ss, c ∈ u) := by
    intro c hc
    have hns : c ∉ s := fun hmem => by rw [hs c hmem] at hc; cases hc
    simp [hns]
  exact ⟨fun h => ⟨h.own, fun c hc => (h.shown c hc).trans (hiff c hc)⟩,
    fun h => ⟨h.own, fun c hc => (h.shown c hc).trans (hiff c hc).symm⟩⟩

/-- A text and its first character may be listed apart. -/
theorem Shows.cons {t : Text} {c : Nat} {s : List Nat} {ss : List (List Nat)}
    (h : Shows t ([c] :: s :: ss)) : Shows t ((c :: s) :: ss) where
  own := h.own
  shown := by
    intro d hd
    rw [h.shown d hd]
    simp [or_assoc]

/-- Everything a text shows can be found in it, and nothing else in it is special. -/
theorem Shows.clean {t : Text} {ss : List (List Nat)} (h : Shows t ss) :
    (∀ g ∈ t, isSpecial g.code = false) ↔ ∀ s ∈ ss, Bare s := by
  constructor
  · intro ht s hs c hc
    by_contra hsp
    rw [Bool.not_eq_false] at hsp
    have := ht _ ((h.shown c hsp).2 ⟨s, hs, hc⟩)
    rw [hsp] at this
    cases this
  · intro hss g hg
    by_contra hsp
    rw [Bool.not_eq_false] at hsp
    cases hforeign : g.foreign with
    | false =>
        rw [h.own g hg hforeign] at hsp
        cases hsp
    | true =>
        have hmem : (⟨g.code, true⟩ : Glyph) ∈ t := by
          rw [← hforeign]
          exact hg
        obtain ⟨s, hs, hc⟩ := (h.shown _ hsp).1 hmem
        rw [hss s hs _ hc] at hsp
        cases hsp

/-! ## Reading markup -/

/-- Where the reader is: outside of tags, in one, or in a reference, with what it has
read of it. -/
inductive Mode where
  | text
  | tag (name : List Nat)
  | reference (name : List Nat)
  deriving DecidableEq

/-- The tag that is open, if one is, and where the reader is. -/
structure Scan where
  opened : Option (List Nat)
  mode : Mode
  deriving DecidableEq

/-- Between tags, none of them open. -/
def Scan.start : Scan := ⟨none, .text⟩

def codesOf (s : String) : List Nat := s.toList.map Char.toNat

def isDigit (c : Nat) : Bool := 0x30 ≤ c && c ≤ 0x39

def isHexDigit (c : Nat) : Bool :=
  isDigit c || (0x41 ≤ c && c ≤ 0x46) || (0x61 ≤ c && c ≤ 0x66)

/-- What may stand between `&` and `;`. -/
def isReference : List Nat → Bool
  | 0x23 :: 0x78 :: digits => !digits.isEmpty && digits.all isHexDigit
  | 0x23 :: digits => !digits.isEmpty && digits.all isDigit
  | name => [codesOf "lt", codesOf "gt", codesOf "amp", codesOf "quot"].contains name

/-- The `>` of a tag. -/
def Scan.close (tags : List (List Nat)) (s : Scan) : List Nat → Option Scan
  | 0x2f :: name => if s.opened = some name then some .start else none
  | name => if s.opened = none ∧ tags.contains name then some ⟨some name, .text⟩ else none

def Scan.step (tags : List (List Nat)) (s : Scan) (c : Nat) : Option Scan :=
  match s.mode with
  | .text =>
      if c = 0x3c then some { s with mode := .tag [] }
      else if c = 0x26 then some { s with mode := .reference [] }
      else if c = 0x3e then none
      else some s
  | .tag name =>
      if c = 0x3e then s.close tags name
      else if isSpecial c then none
      else some { s with mode := .tag (name ++ [c]) }
  | .reference name =>
      if c = 0x3b then (if isReference name then some { s with mode := .text } else none)
      else if isSpecial c then none
      else some { s with mode := .reference (name ++ [c]) }

def Scan.run (tags : List (List Nat)) (s : Scan) (cs : List Nat) : Option Scan :=
  cs.foldlM (Scan.step tags) s

/-- Text with tags of `tags` only, every one closed before the next is opened, and
references in place of the characters markup is read by. -/
def WellFormed (tags : List (List Nat)) (cs : List Nat) : Prop :=
  Scan.start.run tags cs = some .start

instance (tags : List (List Nat)) (cs : List Nat) : Decidable (WellFormed tags cs) :=
  inferInstanceAs (Decidable (_ = _))

variable {tags : List (List Nat)} {s : Scan}

theorem run_append (cs ds : List Nat) :
    s.run tags (cs ++ ds) = (s.run tags cs).bind fun s => s.run tags ds :=
  List.foldlM_append

theorem step_bare {c : Nat} (hmode : s.mode = .text) (hc : isSpecial c = false) :
    s.step tags c = some s := by
  simp only [isSpecial, Bool.or_eq_false_iff, beq_eq_false_iff_ne] at hc
  simp only [Scan.step, hmode, hc.1.1, hc.1.2, hc.2, if_false]

theorem run_bare (hmode : s.mode = .text) {cs : List Nat} (h : Bare cs) :
    s.run tags cs = some s := by
  induction cs with
  | nil => rfl
  | cons c cs ih =>
      rw [Scan.run, List.foldlM_cons, step_bare hmode (h c List.mem_cons_self)]
      exact ih fun d hd => h d (List.mem_cons_of_mem _ hd)

/-- Only a special character or a `;` brings the reader back to the text. -/
theorem step_back {s' : Scan} {c : Nat} (hsemi : c ≠ 0x3b) (hc : isSpecial c = false)
    (h : s.step tags c = some s') (htext : s'.mode = .text) : s' = s := by
  have hne := hc
  simp only [isSpecial, Bool.or_eq_false_iff, beq_eq_false_iff_ne] at hne
  unfold Scan.step at h
  split at h
  · simp only [hne.1.1, hne.1.2, hne.2, if_false, Option.some.injEq] at h
    exact h.symm
  · simp only [hne.2, hc, if_false, Bool.false_eq_true, Option.some.injEq] at h
    rw [← h] at htext
    cases htext
  · simp only [hsemi, hc, if_false, Bool.false_eq_true, Option.some.injEq] at h
    rw [← h] at htext
    cases htext

theorem run_back {s' : Scan} {cs : List Nat} (hcs : ∀ c ∈ cs, c ≠ 0x3b ∧ isSpecial c = false)
    (h : s.run tags cs = some s') (htext : s'.mode = .text) : s' = s := by
  induction cs generalizing s with
  | nil => exact (Option.some.inj h).symm
  | cons c cs ih =>
      rw [Scan.run, List.foldlM_cons] at h
      obtain ⟨m, hstep, hrun⟩ := Option.bind_eq_some_iff.1 h
      have hm := ih (fun d hd => hcs d (List.mem_cons_of_mem _ hd)) hrun
      subst hm
      obtain ⟨hsemi, hc⟩ := hcs c List.mem_cons_self
      exact step_back hsemi hc hstep htext

/-- Spaces around a text do not matter. -/
theorem run_strip {space : Nat → Bool} {t : Text} {s' : Scan}
    (hspace : ∀ c, space c = true → c ≠ 0x3b ∧ isSpecial c = false) (hmode : s.mode = .text)
    (htext : s'.mode = .text) (h : s.run tags t.codes = some s') :
    s.run tags (Text.codes (strip space t)) = some s' := by
  obtain ⟨u, v, hu, hv, heq⟩ := strip_split space t
  have hbare : ∀ {w : Text}, (∀ g ∈ w, space g.code = true) →
      ∀ c ∈ w.codes, c ≠ 0x3b ∧ isSpecial c = false := by
    intro w hw c hc
    obtain ⟨g, hg, rfl⟩ := List.mem_map.1 hc
    exact hspace _ (hw g hg)
  rw [← heq, codes_append, codes_append, run_append,
    run_bare hmode fun c hc => (hbare hu c hc).2, Option.bind_some, run_append] at h
  obtain ⟨m, hm, hback⟩ := Option.bind_eq_some_iff.1 h
  rw [hm, run_back (hbare hv) hback htext]

end TradingBroker.Lib.Markup
