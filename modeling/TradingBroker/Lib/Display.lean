import TradingBroker.Lib.Html
import TradingBroker.Lib.Markup

/-!
# What a reader of markup sees

A reader of text with tags that may nest, and with references: it goes over a text one
character after the other, keeps the tags that are open, and collects what it shows, every
character outside of tags with the tags it stands in, a reference as the character it stands
for. There is nothing to see of a text that is not well-formed: a tag that is not known, that
is closed out of turn, or that is opened within one that may hold none, a reference that is
not known, a `>` on its own.

`Goes` is what a piece of a message promises: read with some tags open it leaves others, and
shows the texts it was made from, each in one piece. It is kept by putting pieces together,
so a message is read by reading its parts. Escaped texts are shown as they were, whatever they
are and wherever they stand; what a program writes itself is read once, by evaluation.
-/

namespace TradingBroker.Lib.Display

open TradingBroker.Lib.Markup

abbrev Tag := List Nat

/-- The tags there are, and those that hold no others. -/
structure Grammar where
  tags : List Tag
  leaves : List Tag

/-- The tags that are open, the innermost first, and where the reader is. -/
structure Reader where
  opened : List Tag
  mode : Mode
  deriving DecidableEq

/-- A character as it is shown. -/
abbrev Printed := List Tag × Nat

/-- The value of a run of digits. -/
def digitsValue (base : Nat) (digits : List Nat) : Nat :=
  digits.foldl (fun n c =>
    n * base + (if c ≤ 0x39 then c - 0x30 else if c ≤ 0x46 then c - 0x37 else c - 0x57)) 0

/-- What stands between `&` and `;`, as the character it stands for. -/
def referred : List Nat → List Nat
  | 0x23 :: 0x78 :: digits => [digitsValue 16 digits]
  | 0x23 :: digits => [digitsValue 10 digits]
  | name =>
      if name = codesOf "lt" then [0x3c]
      else if name = codesOf "gt" then [0x3e]
      else if name = codesOf "amp" then [0x26]
      else if name = codesOf "quot" then [0x22]
      else []

namespace Reader

/-- The `>` of a tag. -/
def close (g : Grammar) (s : Reader) : List Nat → Option Reader
  | 0x2f :: name => if s.opened.head? = some name then some ⟨s.opened.tail, .text⟩ else none
  | name =>
      if g.tags.contains name && ! s.opened.any g.leaves.contains then
        some ⟨name :: s.opened, .text⟩
      else none

def step (g : Grammar) (s : Reader) (c : Nat) : Option Reader :=
  match s.mode with
  | .text =>
      if c = 0x3c then some { s with mode := .tag [] }
      else if c = 0x26 then some { s with mode := .reference [] }
      else if c = 0x3e then none
      else some s
  | .tag name =>
      if c = 0x3e then s.close g name
      else if isSpecial c then none
      else some { s with mode := .tag (name ++ [c]) }
  | .reference name =>
      if c = 0x3b then (if isReference name then some { s with mode := .text } else none)
      else if isSpecial c then none
      else some { s with mode := .reference (name ++ [c]) }

/-- What reading one character shows. -/
def shows (s : Reader) (c : Nat) : List Printed :=
  match s.mode with
  | .text => if isSpecial c then [] else [(s.opened, c)]
  | .tag _ => []
  | .reference name => if c = 0x3b then (referred name).map fun d => (s.opened, d) else []

/-- Read a text, and collect what is shown. -/
def read (g : Grammar) : Reader → List Nat → Option (Reader × List Printed)
  | s, [] => some (s, [])
  | s, c :: cs =>
      (s.step g c).bind fun s' => (read g s' cs).map fun r => (r.1, s.shows c ++ r.2)

end Reader

/-- What a text shows, if it is well-formed: no tag is left open. -/
def display (g : Grammar) (cs : List Nat) : Option (List Printed) :=
  (Reader.read g ⟨[], .text⟩ cs).bind fun r => if r.1 = ⟨[], .text⟩ then some r.2 else none

section
variable {g : Grammar} {s s' s'' : Reader} {cs ds : List Nat} {out more : List Printed}

theorem read_append (h : s.read g cs = some (s', out)) (h' : s'.read g ds = some (s'', more)) :
    s.read g (cs ++ ds) = some (s'', out ++ more) := by
  induction cs generalizing s out with
  | nil =>
      cases h
      exact h'
  | cons c cs ih =>
      rw [Reader.read] at h
      obtain ⟨m, hstep, hrest⟩ := Option.bind_eq_some_iff.1 h
      obtain ⟨r, hr, heq⟩ := Option.map_eq_some_iff.1 hrest
      cases heq
      rw [List.cons_append, Reader.read, hstep, Option.bind_some, ih hr, Option.map_some,
        List.append_assoc]

/-- A character that markup is not read by is shown. -/
theorem read_bare {c : Nat} (hmode : s.mode = .text) (hc : isSpecial c = false) :
    s.read g [c] = some (s, [(s.opened, c)]) := by
  have hshows : s.shows c = [(s.opened, c)] := by
    rw [Reader.shows, hmode]
    simp only [hc, Bool.false_eq_true, if_false]
  have hne := hc
  simp only [isSpecial, Bool.or_eq_false_iff, beq_eq_false_iff_ne] at hne
  have hstep : s.step g c = some s := by
    simp only [Reader.step, hmode, hne.1.1, hne.1.2, hne.2, if_false]
  rw [Reader.read, hstep, Option.bind_some, Reader.read, hshows]
  rfl

theorem read_allBare (hmode : s.mode = .text) (h : Bare cs) :
    s.read g cs = some (s, cs.map fun c => (s.opened, c)) := by
  induction cs with
  | nil => rfl
  | cons c cs ih =>
      exact read_append (read_bare hmode (h c List.mem_cons_self))
        (ih fun d hd => h d (List.mem_cons_of_mem _ hd))

/-- A reference is read up to its end. -/
theorem read_reference (name : List Nat) {d : Nat} (hmode : s.mode = .text)
    (hname : ∀ c ∈ name, c ≠ 0x3b ∧ isSpecial c = false) (hreference : isReference name = true)
    (hreferred : referred name = [d]) :
    s.read g (0x26 :: (name ++ [0x3b])) = some (s, [(s.opened, d)]) := by
  have hopen : s.read g [0x26] = some ({ s with mode := .reference [] }, []) := by
    rw [Reader.read, Reader.step, hmode]
    simp only [Reader.read, Reader.shows, hmode]
    rfl
  have hread : ∀ (before after : List Nat), (∀ c ∈ after, c ≠ 0x3b ∧ isSpecial c = false) →
      Reader.read g { s with mode := .reference before } after =
        some ({ s with mode := .reference (before ++ after) }, []) := by
    intro before after hafter
    induction after generalizing before with
    | nil =>
        rw [List.append_nil]
        rfl
    | cons c after ih =>
        obtain ⟨hsemi, hc⟩ := hafter c List.mem_cons_self
        have hrest := ih (before ++ [c]) fun d hd => hafter d (List.mem_cons_of_mem _ hd)
        rw [List.append_assoc, List.singleton_append] at hrest
        simp only [Reader.read, Reader.step, Reader.shows, if_neg hsemi, hc, Bool.false_eq_true,
          if_false, Option.bind_some, hrest, Option.map_some, List.append_nil]
  have hclose : Reader.read g { s with mode := .reference name } [0x3b] =
      some (s, [(s.opened, d)]) := by
    have hback : ({ s with mode := .text } : Reader) = s := by rw [← hmode]
    simp only [Reader.read, Reader.step, Reader.shows, hreference, if_true, hreferred,
      Option.bind_some, Option.map_some, List.map_singleton, List.append_nil, hback]
  have hname' := hread [] name hname
  rw [List.nil_append] at hname'
  exact read_append hopen (read_append hname' hclose)

end

/-! ## Escaping -/

def escapeQuotedCode (c : Nat) : List Nat :=
  if c = 0x26 then codesOf "&amp;"
  else if c = 0x3c then codesOf "&lt;"
  else if c = 0x3e then codesOf "&gt;"
  else if c = 0x22 then codesOf "&quot;"
  else if c = 0x27 then codesOf "&#x27;"
  else [c]

/-- `html.escape`, of a text by its code points. -/
def escapeQuoted (t : List Nat) : List Nat := t.flatMap escapeQuotedCode

theorem codes_escapeChar (c : Char) :
    (Html.escapeChar c).map Char.toNat = escapeQuotedCode c.toNat := by
  unfold Html.escapeChar
  split
  all_goals try rfl
  next hamp hlt hgt hquot hapos =>
    have hne : ∀ d : Char, c ≠ d → c.toNat ≠ d.toNat := fun d h heq => h (Char.toNat_inj.1 heq)
    have h26 : c.toNat ≠ 0x26 := hne '&' hamp
    have h3c : c.toNat ≠ 0x3c := hne '<' hlt
    have h3e : c.toNat ≠ 0x3e := hne '>' hgt
    have h22 : c.toNat ≠ 0x22 := hne '"' hquot
    have h27 : c.toNat ≠ 0x27 := hne '\'' hapos
    simp only [escapeQuotedCode, h26, h3c, h3e, h22, h27, if_false, List.map_cons, List.map_nil]

/-- It is the `html.escape` of strings. -/
theorem codesOf_escape (s : String) : codesOf (Html.escape s) = escapeQuoted (codesOf s) := by
  rw [codesOf, Html.escape, String.toList_ofList, List.map_flatMap, escapeQuoted, codesOf,
    List.flatMap_map]
  simp only [codes_escapeChar]

section
variable {g : Grammar} {s : Reader}

theorem read_escapeQuotedCode (hmode : s.mode = .text) (c : Nat) :
    s.read g (escapeQuotedCode c) = some (s, [(s.opened, c)]) := by
  rw [escapeQuotedCode]
  split
  · next hc =>
      subst hc
      exact read_reference (codesOf "amp") hmode (by decide) (by decide) (by decide)
  · split
    · next hc =>
        subst hc
        exact read_reference (codesOf "lt") hmode (by decide) (by decide) (by decide)
    · split
      · next hc =>
          subst hc
          exact read_reference (codesOf "gt") hmode (by decide) (by decide) (by decide)
      · split
        · next hc =>
            subst hc
            exact read_reference (codesOf "quot") hmode (by decide) (by decide) (by decide)
        · split
          · next hc =>
              subst hc
              exact read_reference (codesOf "#x27") hmode (by decide) (by decide) (by decide)
          · next hamp hlt hgt _ _ =>
              refine read_bare hmode ?_
              simp only [isSpecial, Bool.or_eq_false_iff, beq_eq_false_iff_ne]
              exact ⟨⟨hamp, hlt⟩, hgt⟩

/-- Escaped, any text is shown as it is. -/
theorem read_escapeQuoted (hmode : s.mode = .text) (t : List Nat) :
    s.read g (escapeQuoted t) = some (s, t.map fun c => (s.opened, c)) := by
  induction t with
  | nil => rfl
  | cons c t ih => exact read_append (read_escapeQuotedCode hmode c) ih

theorem read_escapeCode (hmode : s.mode = .text) (c : Nat) :
    s.read g (Html.escapeCode c) = some (s, [(s.opened, c)]) := by
  rw [Html.escapeCode]
  split
  · next hc =>
      subst hc
      exact read_reference (codesOf "amp") hmode (by decide) (by decide) (by decide)
  · split
    · next hc =>
        subst hc
        exact read_reference (codesOf "lt") hmode (by decide) (by decide) (by decide)
    · split
      · next hc =>
          subst hc
          exact read_reference (codesOf "gt") hmode (by decide) (by decide) (by decide)
      · next hamp hlt hgt =>
          refine read_bare hmode ?_
          simp only [isSpecial, Bool.or_eq_false_iff, beq_eq_false_iff_ne]
          exact ⟨⟨hamp, hlt⟩, hgt⟩

/-- Without its quotes escaped as well. -/
theorem read_escapeText (hmode : s.mode = .text) (t : List Nat) :
    s.read g (Html.escapeText t) = some (s, t.map fun c => (s.opened, c)) := by
  induction t with
  | nil => rfl
  | cons c t ih => exact read_append (read_escapeCode hmode c) ih

end

/-! ## Spaces around an escaped text -/

/-- Characters written out one by one, the spaces as themselves and nothing else with a space
in front. -/
theorem dropWhile_flatMap {α : Type} {space : α → Bool} {f : α → List α}
    (hspace : ∀ c, space c = true → f c = [c])
    (hother : ∀ c, space c = false → ∃ d ds, f c = d :: ds ∧ space d = false) (t : List α) :
    (t.flatMap f).dropWhile space = (t.dropWhile space).flatMap f := by
  induction t with
  | nil => rfl
  | cons c t ih =>
      cases hc : space c with
      | true =>
          rw [List.flatMap_cons, hspace c hc, List.singleton_append,
            List.dropWhile_cons_of_pos hc, List.dropWhile_cons_of_pos hc]
          exact ih
      | false =>
          obtain ⟨d, ds, hf, hd⟩ := hother c hc
          have hneg : ¬ space d = true := by simp only [hd, Bool.false_eq_true, not_false_eq_true]
          have hneg' : ¬ space c = true := by
            simp only [hc, Bool.false_eq_true, not_false_eq_true]
          rw [List.flatMap_cons, hf, List.cons_append, List.dropWhile_cons_of_neg hneg,
            List.dropWhile_cons_of_neg hneg', List.flatMap_cons, hf, List.cons_append]

theorem reverse_flatMap {α : Type} (f : α → List α) (t : List α) :
    (t.flatMap f).reverse = t.reverse.flatMap fun c => (f c).reverse := by
  induction t with
  | nil => rfl
  | cons c t ih =>
      rw [List.flatMap_cons, List.reverse_append, ih, List.reverse_cons, List.flatMap_append,
        List.flatMap_singleton]

/-! ## Messages in parts -/

/-- A text, and the tags it is to be seen in. -/
abbrev Seen := List Tag × List Nat

def Seen.shown (v : Seen) : List Printed := v.2.map fun c => (v.1, c)

/-- Read between tags with some open, the piece leaves others, and shows each of the texts. -/
def Goes (g : Grammar) (before : List Tag) (t : List Nat) (after : List Tag)
    (texts : List Seen) : Prop :=
  ∃ out, Reader.read g ⟨before, .text⟩ t = some (⟨after, .text⟩, out) ∧
    ∀ text ∈ texts, text.shown <:+: out

/-- Whether a text the program writes goes from one to the other. -/
def goes (g : Grammar) (before after : List Tag) (t : List Nat) : Bool :=
  (Reader.read g ⟨before, .text⟩ t).any fun r => r.1 == ⟨after, .text⟩

section
variable {g : Grammar} {before middle after : List Tag} {t u : List Nat} {texts more : List Seen}

theorem Goes.append (ht : Goes g before t middle texts) (hu : Goes g middle u after more) :
    Goes g before (t ++ u) after (texts ++ more) := by
  obtain ⟨out, hread, hout⟩ := ht
  obtain ⟨out', hread', hout'⟩ := hu
  refine ⟨out ++ out', read_append hread hread', fun text htext => ?_⟩
  rcases List.mem_append.1 htext with htext | htext
  · exact (hout text htext).trans (List.prefix_append _ _).isInfix
  · exact (hout' text htext).trans (List.suffix_append _ _).isInfix

theorem Goes.nil : Goes g before [] before [] := ⟨[], rfl, List.forall_mem_nil _⟩

theorem Goes.of_goes (h : goes g before after t = true) : Goes g before t after [] := by
  obtain ⟨r, hr, heq⟩ := (Option.any_eq_true _ _).1 h
  have hstate := eq_of_beq heq
  exact ⟨r.2, by rw [hr, ← hstate], List.forall_mem_nil _⟩

/-- A text of the program. The kernel has the characters of a literal at hand, so the string
is put as they are. -/
theorem Goes.lit (after : List Tag) {l : List Char}
    (h : goes g before after (l.map Char.toNat) = true) :
    Goes g before (codesOf (String.ofList l)) after [] := by
  rw [codesOf, String.toList_ofList]
  exact .of_goes h

/-- What is read as the characters of a text shows it. -/
theorem Goes.of_read {v : List Nat}
    (h : Reader.read g ⟨before, .text⟩ t = some (⟨before, .text⟩, v.map fun c => (before, c))) :
    Goes g before t before [(before, v)] := by
  refine ⟨_, h, fun text htext => ?_⟩
  rw [List.mem_singleton.1 htext]
  exact List.infix_refl _

theorem Goes.escaped (v : List Nat) : Goes g before (escapeQuoted v) before [(before, v)] :=
  .of_read (read_escapeQuoted rfl v)

theorem Goes.unquoted (v : List Nat) : Goes g before (Html.escapeText v) before [(before, v)] :=
  .of_read (read_escapeText rfl v)

theorem Goes.bare (h : Bare t) : Goes g before t before [(before, t)] :=
  .of_read (read_allBare rfl h)

/-- Some of the texts need not be named. -/
theorem Goes.only (h : Goes g before t after texts) (hsub : ∀ text ∈ more, text ∈ texts) :
    Goes g before t after more := by
  obtain ⟨out, hread, hout⟩ := h
  exact ⟨out, hread, fun text htext => hout text (hsub text htext)⟩

/-- A whole message. -/
theorem Goes.display (h : Goes g [] t [] texts) :
    ∃ out, Display.display g t = some out ∧ ∀ text ∈ texts, text.shown <:+: out := by
  obtain ⟨out, hread, hout⟩ := h
  exact ⟨out, by rw [Display.display, hread, Option.bind_some, if_pos rfl], hout⟩

/-! A message as the list of its parts. -/

variable {ps : List (List Nat)}

theorem Goes.parts_nil : Goes g before [].flatten before [] := .nil

/-- A part that shows nothing that was asked for. -/
theorem Goes.parts_own (ht : Goes g before t middle []) (h : Goes g middle ps.flatten after texts) :
    Goes g before (t :: ps).flatten after texts :=
  ht.append h

theorem Goes.parts_lit (middle : List Tag) {l : List Char}
    (hlit : goes g before middle (l.map Char.toNat) = true)
    (h : Goes g middle ps.flatten after texts) :
    Goes g before (codesOf (String.ofList l) :: ps).flatten after texts :=
  (Goes.lit middle hlit).append h

/-- A part that shows one text, in the tags that are open. -/
theorem Goes.parts_shows {v : List Nat} (ht : Goes g before t before [(before, v)])
    (h : Goes g before ps.flatten after texts) :
    Goes g before (t :: ps).flatten after ((before, v) :: texts) :=
  ht.append h

/-- A part that shows several. -/
theorem Goes.parts_all (ht : Goes g before t middle texts)
    (h : Goes g middle ps.flatten after more) :
    Goes g before (t :: ps).flatten after (texts ++ more) :=
  ht.append h

/-- A part that shows all there is to show. -/
theorem Goes.parts_first (ht : Goes g before t middle texts)
    (h : Goes g middle ps.flatten after []) : Goes g before (t :: ps).flatten after texts := by
  have hall := ht.append h
  rw [List.append_nil] at hall
  exact hall

/-! ## Texts that read alike -/

/-- The two texts leave the same tags open, and show the same but for what `p` leaves out. -/
def Alike (g : Grammar) (p : Printed → Bool) (before : List Tag) (t u : List Nat)
    (after : List Tag) : Prop :=
  ∃ out out', Reader.read g ⟨before, .text⟩ t = some (⟨after, .text⟩, out) ∧
    Reader.read g ⟨before, .text⟩ u = some (⟨after, .text⟩, out') ∧ out.filter p = out'.filter p

variable {p : Printed → Bool} {t' u' : List Nat} {qs : List (List Nat)}

theorem Alike.append (ht : Alike g p before t t' middle) (hu : Alike g p middle u u' after) :
    Alike g p before (t ++ u) (t' ++ u') after := by
  obtain ⟨out, out', hread, hread', hsame⟩ := ht
  obtain ⟨more, more', hmore, hmore', hsame'⟩ := hu
  refine ⟨_, _, read_append hread hmore, read_append hread' hmore', ?_⟩
  rw [List.filter_append, List.filter_append, hsame, hsame']

theorem Alike.refl (h : Goes g before t after texts) : Alike g p before t t after := by
  obtain ⟨out, hread, -⟩ := h
  exact ⟨out, out, hread, hread, rfl⟩

/-- A part that is the same. -/
theorem Alike.parts_same (ht : Goes g before t middle texts)
    (h : Alike g p middle ps.flatten qs.flatten after) :
    Alike g p before (t :: ps).flatten (t :: qs).flatten after :=
  (Alike.refl ht).append h

/-- A part that is left out. -/
theorem Alike.parts_hidden {v w : List Nat}
    (ht : Reader.read g ⟨before, .text⟩ t = some (⟨before, .text⟩, v.map fun c => (before, c)))
    (hu : Reader.read g ⟨before, .text⟩ u = some (⟨before, .text⟩, w.map fun c => (before, c)))
    (hhidden : ∀ c, p (before, c) = false) (h : Alike g p before ps.flatten qs.flatten after) :
    Alike g p before (t :: ps).flatten (u :: qs).flatten after := by
  have hnone : ∀ x : List Nat, (x.map fun c => (before, c)).filter p = [] := by
    intro x
    refine List.filter_eq_nil_iff.2 fun c hc => ?_
    obtain ⟨d, -, rfl⟩ := List.mem_map.1 hc
    rw [hhidden d]
    exact Bool.false_ne_true
  refine Alike.append ⟨_, _, ht, hu, ?_⟩ h
  rw [hnone, hnone]

/-- Two whole messages. -/
theorem Alike.display (h : Alike g p [] t u []) :
    ∃ out out', Display.display g t = some out ∧ Display.display g u = some out' ∧
      out.filter p = out'.filter p := by
  obtain ⟨out, out', hread, hread', hsame⟩ := h
  exact ⟨out, out', by rw [Display.display, hread, Option.bind_some, if_pos rfl],
    by rw [Display.display, hread', Option.bind_some, if_pos rfl], hsame⟩

end

end TradingBroker.Lib.Display
