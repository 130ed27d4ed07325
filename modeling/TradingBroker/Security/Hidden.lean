import TradingBroker.Security.Replaced

/-!
# What the pattern hides

The redacted text around a token. In a document no match from before runs into the name
(`pending_front`), none begins within a string, and one begins at the name if it is spelled without
escapes. What it takes of the string ends at the first quotation mark, though it be an escaped
one, and the rest is put out as it is.
-/

namespace TradingBroker.Security

open Lib.Regex

variable {site : Site}

/-! ## The name -/

theorem isPySpace_of_json {c : Nat} (h : isJsonSpace c = true) : isPySpace c = true := by
  simp only [isJsonSpace, Bool.or_eq_true, beq_iff_eq] at h
  rcases h with ((rfl | rfl) | rfl) | rfl <;> rfl

theorem spaces_of_json {sp : PyStr} (h : ∀ c ∈ sp, isJsonSpace c = true) : Spaces sp :=
  fun c hc => isPySpace_of_json (h c hc)

theorem quote_not_mem_spaces {sp : PyStr} (h : ∀ c ∈ sp, isJsonSpace c = true) : quote ∉ sp := by
  intro hmem
  cases h quote hmem

namespace Site

/-- The name up to the opening quote of the string. -/
def lead (site : Site) : PyStr := quote :: (site.key ++ quote :: (site.sp ++ colon :: site.sp'))

theorem name_eq_lead (site : Site) : site.name = site.lead ++ [quote] := by
  simp [name, lead, behind]

theorem name_eq_opener (h : site.key = token) : site.name = opener site.sp site.sp' := by
  rw [name, behind, opener, h]

theorem count_name (site : Site) : 3 ≤ site.name.count quote := by
  have hname : site.name = [quote] ++ site.key ++ [quote] ++ (site.sp ++ colon :: site.sp') ++
      [quote] := by simp [name, behind]
  rw [hname, List.count_append, List.count_append, List.count_append, List.count_append,
    List.count_singleton_self]
  omega

end Site

/-- The text up to the first quote. -/
theorem first_quote {a b x y : PyStr} (ha : quote ∉ a) (hb : quote ∉ b)
    (h : a ++ quote :: x = b ++ quote :: y) : a = b ∧ x = y := by
  induction a generalizing b with
  | nil =>
      cases b with
      | nil => exact ⟨rfl, (List.cons.inj h).2⟩
      | cons d b => exact absurd (List.cons.inj h).1 fun heq => hb (heq ▸ List.mem_cons_self)
  | cons c a ih =>
      cases b with
      | nil => exact absurd (List.cons.inj h).1 fun heq => ha (heq ▸ List.mem_cons_self)
      | cons d b =>
          obtain ⟨rfl, htail⟩ := List.cons.inj h
          rw [List.mem_cons, not_or] at ha hb
          obtain ⟨rfl, rfl⟩ := ih ha.2 hb.2 htail
          exact ⟨rfl, rfl⟩

theorem quote_not_mem_token : quote ∉ token := by decide

/-- Where the word stands, if it does. -/
theorem secretInText_word {cs : PyStr} (h : ∀ more, cs ≠ token ++ quote :: more) :
    secretInText (quote :: cs) = none := by
  refine secretInText_eq_none fun hword => ?_
  obtain ⟨more, hmore⟩ := (List.cons_prefix_cons.1 hword).2
  refine h more ?_
  rw [← hmore, List.append_assoc, List.singleton_append]

/-- Within the name nothing matches, but for the whole of it. -/
theorem secretInText_lead {pre suf : PyStr} {c : Nat} (h : pre ++ c :: suf = site.lead)
    (hwhole : pre ≠ [] ∨ site.key ≠ token) (rest : PyStr) :
    secretInText (c :: suf ++ quote :: rest) = none := by
  by_cases hc : c = quote
  · subst hc
    obtain ⟨hkey, -⟩ := site.spells.token_text
    refine secretInText_word fun more hmore => ?_
    cases pre with
    | nil =>
        cases h
        have hword : site.key ++ quote :: (site.sp ++ colon :: site.sp' ++ quote :: rest) =
            token ++ quote :: more := (List.append_assoc _ _ _).symm.trans hmore
        obtain ⟨heq, -⟩ := first_quote hkey quote_not_mem_token hword
        exact hwhole.elim (fun hne => hne rfl) fun hne => hne heq
    | cons d pre =>
        have htail : site.key ++ quote :: (site.sp ++ colon :: site.sp') = pre ++ quote :: suf :=
          (List.cons.inj h).2.symm
        have hrest : quote ∉ site.sp ++ colon :: site.sp' := by
          rw [List.mem_append, List.mem_cons, not_or, not_or]
          exact ⟨quote_not_mem_spaces site.blank, by decide, quote_not_mem_spaces site.blank'⟩
        obtain ⟨-, -, rfl⟩ := (List.append_cons_inj_of_notMem hkey hrest).1 htail
        -- behind the name there is a blank or the colon, and no letter
        cases hsp : site.sp with
        | nil =>
            rw [hsp] at hmore
            cases hmore
        | cons e sp =>
            rw [hsp] at hmore
            have he : e = 0x74 := (List.cons.inj hmore).1
            have hblank := site.blank e (hsp ▸ List.mem_cons_self)
            rw [he] at hblank
            cases hblank
  · exact secretInText_cons_ne hc

/-- The name is put out as it is, from anywhere within it, or from its first quote if it is not
spelled as the pattern has it. -/
theorem redactText_lead {j : Nat} (hwhole : j ≠ 0 ∨ site.key ≠ token) (rest : PyStr) :
    redactText (site.lead.drop j ++ quote :: rest) =
      site.lead.drop j ++ redactText (quote :: rest) := by
  refine sub_append_of_none fun pre suf c heq => ?_
  have hlead : site.lead.take j ++ pre ++ c :: suf = site.lead := by
    rw [List.append_assoc, heq, List.take_append_drop]
  refine secretInText_lead hlead ?_ rest
  rcases hwhole with hj | hkey
  · refine .inl fun hnil => ?_
    rw [List.append_eq_nil_iff, List.take_eq_nil_iff] at hnil
    rcases hnil.1 with h | h
    · exact hj h
    · exact List.cons_ne_nil _ _ h
  · exact .inr hkey

/-- The name as the pattern has it, and the string behind it. -/
theorem redactText_name (hkey : site.key = token) (z : PyStr) :
    redactText (site.name ++ z) =
      site.name ++ (redacted ++ [quote]) ++ redactText (afterQuote z) := by
  have hmatch : secretInText (site.name ++ z) =
      some (site.name ++ (redacted ++ [quote]), afterQuote z) := by
    rw [Site.name_eq_opener hkey]
    exact secretInText_eq_some.2
      ⟨_, _, z, spaces_of_json site.blank, spaces_of_json site.blank', rfl, rfl, rfl⟩
  rw [Site.name_append] at hmatch ⊢
  refine sub_of_some hmatch ?_
  have hsuffix : afterQuote z <:+ z :=
    (List.drop_suffix 1 _).trans (List.dropWhile_suffix notQuote)
  refine hsuffix.trans ⟨site.key ++ quote :: site.behind, ?_⟩
  rw [List.append_assoc, List.cons_append]

/-! ## Before the name -/

/-- What is emitted before the name, and what of it is pending, does not depend on the string. -/
theorem redactText_before (front z : PyStr) :
    redactText (front ++ (site.name ++ z)) =
      emitted secretInText site.name 0 front ++
        redactText ((site.name ++ z).drop (pending secretInText site.name 0 front)) := by
  have hnear : ∀ pre suf c, pre ++ c :: suf = front → ∀ behind,
      secretInText (c :: suf ++ (site.name ++ behind)) =
        (secretInText (c :: suf ++ site.name)).map fun r => (r.1, r.2 ++ behind) := by
    intro pre suf c _ behind
    rw [← List.append_assoc]
    by_cases hc : c = quote
    · refine secretInText_append ?_ behind
      have := site.count_name
      rw [hc, List.count_append, List.count_cons_self]
      omega
    · rw [List.cons_append, List.cons_append, secretInText_cons_ne hc, secretInText_cons_ne hc,
        Option.map_none]
  obtain ⟨hemitted, hpending⟩ := emitted_pending_append hnear z 0
  rw [redactText, sub_append, hemitted, hpending, redactText]

/-! ## In a document -/

/-- Where a name or a value may come of which nothing has begun. -/
def Place.AtName (p : Place) : Prop := ∃ prev : Prev, p = .gap prev ∧ prev.names = true

/-- A text in which no name comes next, wherever it is cut. -/
def Busy (p : Place) (cs : PyStr) : Prop :=
  ∀ pre q, pre <+: cs → run p pre = some q → ¬ q.AtName

theorem Busy.nil {p : Place} (h : ¬ p.AtName) : Busy p [] := by
  intro pre q hpre hrun
  rw [List.prefix_nil.1 hpre] at hrun
  cases hrun
  exact h

theorem Busy.cons {p : Place} {c : Nat} {cs : PyStr} (h : ¬ p.AtName)
    (hnext : ∀ q, placeStep p c = some q → Busy q cs) : Busy p (c :: cs) := by
  intro pre q hpre hrun
  cases pre with
  | nil =>
      cases hrun
      exact h
  | cons d pre =>
      obtain ⟨rfl, htail⟩ := List.cons_prefix_cons.1 hpre
      obtain ⟨mid, hstep, hrun⟩ := Option.bind_eq_some_iff.1 hrun
      exact hnext mid hstep pre q htail hrun

/-- Characters that keep to a set of places. -/
theorem Busy.many (good : Place → Prop) {cs rest : PyStr} (hgood : ∀ p, good p → ¬ p.AtName)
    (hstep : ∀ p, good p → ∀ c ∈ cs, ∀ q, placeStep p c = some q → good q)
    (hrest : ∀ p, good p → Busy p rest) {p : Place} (hp : good p) : Busy p (cs ++ rest) := by
  induction cs generalizing p with
  | nil => exact hrest p hp
  | cons c cs ih =>
      refine .cons (hgood p hp) fun q hq => ?_
      refine ih (fun p hp d hd => hstep p hp d (List.mem_cons_of_mem c hd)) ?_
      exact hstep p hp c List.mem_cons_self q hq

/-- In a string. -/
def Place.InString (p : Place) : Prop := ∃ named, p = .inside named ∨ p = .escaped named

theorem Place.InString.not_atName {p : Place} (h : p.InString) : ¬ p.AtName := by
  rintro ⟨prev, rfl, -⟩
  obtain ⟨named, h | h⟩ := h <;> cases h

theorem Place.InString.step {p q : Place} {c : Nat} (h : p.InString) (hc : c ≠ quote)
    (hq : placeStep p c = some q) : q.InString := by
  obtain ⟨named, rfl | rfl⟩ := h
  · rw [placeStep, if_neg hc] at hq
    split at hq
    · cases hq
      exact ⟨named, .inr rfl⟩
    · cases hq
      exact ⟨named, .inl rfl⟩
  · cases hq
    exact ⟨named, .inl rfl⟩

theorem busy_inString {p : Place} {cs : PyStr} (hp : p.InString) (h : quote ∉ cs) :
    Busy p cs := by
  rw [← List.append_nil cs]
  refine .many Place.InString (fun p hp => hp.not_atName) (fun p hp c hc q hq => ?_)
    (fun p hp => .nil hp.not_atName) hp
  refine hp.step ?_ hq
  rintro rfl
  exact h hc

/-- A blank of the pattern is one of the decoder, or stands for nothing. -/
theorem space_step {p q : Place} {c : Nat} (hc : isPySpace c = true)
    (h : placeStep p c = some q) :
    (∀ prev : Prev, p = .gap prev → q = p ∨ q = .atom) ∧
      (p = .atom → q = .atom ∨ q = .gap .value) := by
  have hend : endStep c = none := by
    rw [endStep, if_neg, if_neg]
    · rintro (rfl | rfl) <;> cases hc
    · rintro rfl
      cases hc
  constructor
  · rintro prev rfl
    simp only [placeStep] at h
    split at h
    · cases h
      exact .inl rfl
    · split at h
      · rcases openStep_cases h with ⟨rfl, -⟩ | ⟨rfl, -⟩ | ⟨rfl, -⟩ | ⟨hclose, -⟩ | ⟨-, rfl⟩
        · cases hc
        · cases hc
        · cases hc
        · rcases hclose with rfl | rfl <;> cases hc
        · exact .inr rfl
      · split at h
        · next hq =>
            obtain ⟨-, rfl⟩ := hq
            cases hc
        · rw [hend] at h
          cases h
  · rintro rfl
    simp only [placeStep] at h
    split at h
    · cases h
      exact .inr rfl
    · split at h
      · cases h
        exact .inl rfl
      · rw [hend] at h
        cases h

/-- Behind the second quote of the word: no blank leads to where a name comes. -/
def Place.AfterWord (p : Place) : Prop :=
  p = .gap .name ∨ p = .gap .value ∨ p = .gap .colon ∨ p = .atom

theorem Place.AfterWord.not_atName {p : Place} (h : p.AfterWord) : ¬ p.AtName := by
  rintro ⟨prev, rfl, hprev⟩
  rcases h with h | h | h | h <;> cases h <;> cases hprev

theorem Place.AfterWord.step {p q : Place} {c : Nat} (h : p.AfterWord) (hc : isPySpace c = true)
    (hq : placeStep p c = some q) : q.AfterWord := by
  obtain ⟨hgap, hatom⟩ := space_step hc hq
  rcases h with rfl | rfl | rfl | rfl
  · rcases hgap _ rfl with rfl | rfl
    · exact .inl rfl
    · exact .inr (.inr (.inr rfl))
  · rcases hgap _ rfl with rfl | rfl
    · exact .inr (.inl rfl)
    · exact .inr (.inr (.inr rfl))
  · rcases hgap _ rfl with rfl | rfl
    · exact .inr (.inr (.inl rfl))
    · exact .inr (.inr (.inr rfl))
  · rcases hatom rfl with rfl | rfl
    · exact .inr (.inr (.inr rfl))
    · exact .inr (.inl rfl)

theorem Place.AfterWord.colon {p q : Place} (h : p.AfterWord) (hq : placeStep p colon = some q) :
    q.AfterWord := by
  rcases h with rfl | rfl | rfl | rfl
  · cases hq
    exact .inr (.inr (.inl rfl))
  · cases hq
  · cases hq
  · cases hq

theorem Place.AfterWord.quote {p q : Place} (h : p.AfterWord) (hq : placeStep p quote = some q) :
    q.InString := by
  rcases h with rfl | rfl | rfl | rfl
  · cases hq
  · cases hq
  · cases hq
    exact ⟨false, .inl rfl⟩
  · cases hq

theorem Place.AfterWord.spaces {p : Place} {sp rest : PyStr} (hsp : Spaces sp)
    (hrest : ∀ p : Place, p.AfterWord → Busy p rest) (h : p.AfterWord) : Busy p (sp ++ rest) := by
  refine .many Place.AfterWord (fun p hp => hp.not_atName) (fun p hp c hc q hq => ?_) hrest h
  exact hp.step (hsp c hc) hq

/-- A match is busy from its second character on. -/
theorem busy_opener {p q : Place} {sp sp' value : PyStr} (hsp : Spaces sp) (hsp' : Spaces sp')
    (hvalue : quote ∉ value) (hq : placeStep p quote = some q) :
    Busy q (token ++ quote :: (sp ++ colon :: (sp' ++ quote :: value))) := by
  have hafter : ∀ p : Place, p.AfterWord → Busy p (sp ++ colon :: (sp' ++ quote :: value)) := by
    intro p hp
    refine Place.AfterWord.spaces hsp (fun p hp => .cons hp.not_atName fun q hq => ?_) hp
    refine Place.AfterWord.spaces hsp' (fun p hp => .cons hp.not_atName fun q hq => ?_)
      (hp.colon hq)
    exact busy_inString (hp.quote hq) hvalue
  have hword : ∀ named,
      Busy (.inside named) (token ++ quote :: (sp ++ colon :: (sp' ++ quote :: value))) := by
    intro named
    have hinside : ¬ (Place.inside named).AtName :=
      Place.InString.not_atName ⟨named, .inl rfl⟩
    refine .many (· = .inside named) ?_ ?_ ?_ rfl
    · rintro p rfl
      exact hinside
    · rintro p rfl c hc q hq
      have hplain : ∀ c ∈ token, c ≠ quote ∧ c ≠ backslash := by decide
      rw [placeStep_inside (hplain c hc).1 (hplain c hc).2] at hq
      cases hq
      rfl
    · rintro p rfl
      refine .cons hinside fun q hq => ?_
      cases hq
      refine hafter _ ?_
      cases named
      · exact .inr (.inl rfl)
      · exact .inl rfl
  -- behind a quote that closes a string no letter stands
  have hclosed : ∀ prev : Prev, prev = .name ∨ prev = .value →
      Busy (.gap prev) (token ++ quote :: (sp ++ colon :: (sp' ++ quote :: value))) := by
    intro prev hprev
    refine .cons ?_ fun q hq => ?_
    · rintro ⟨prev', heq, hnames⟩
      cases heq
      rcases hprev with rfl | rfl <;> cases hnames
    · rcases hprev with rfl | rfl <;> cases hq
  cases p with
  | gap prev =>
      cases prev <;> first | (cases hq; exact hword _) | cases hq
  | atom => cases hq
  | inside named =>
      cases hq
      refine hclosed _ ?_
      cases named
      · exact .inr rfl
      · exact .inl rfl
  | escaped named =>
      cases hq
      exact hword named

/-- No match that begins before a name runs into it. -/
theorem pending_front {front near : PyStr} {p q : Place} (hrun : run p front = some q)
    (hq : q.AtName) : pending secretInText near 0 front = 0 := by
  induction hn : front.length using Nat.strong_induction_on generalizing front p with
  | _ n ih =>
    cases front with
    | nil => rfl
    | cons c cs =>
        obtain ⟨mid, hstep, hrun'⟩ := Option.bind_eq_some_iff.1 hrun
        rw [List.length_cons] at hn
        rw [pending]
        cases hfind : secretInText (c :: cs ++ near) with
        | none => exact ih cs.length (by omega) hrun' rfl
        | some r =>
            obtain ⟨sp, sp', value, hsp, hsp', htext, -, hrest⟩ := secretInText_eq_some.1 hfind
            -- the match up to its last quote, and from there
            have hnot : quote ∉ value.takeWhile notQuote := by
              intro hmem
              exact Bool.false_ne_true (notQuote_quote.symm.trans (List.mem_takeWhile_imp hmem))
            obtain ⟨w, hw⟩ : ∃ w, w =
                token ++ quote :: (sp ++ colon :: (sp' ++ quote :: value.takeWhile notQuote)) :=
              ⟨_, rfl⟩
            obtain ⟨rfl, htail⟩ : c = quote ∧ cs ++ near = w ++ value.dropWhile notQuote := by
              have hvalue := List.takeWhile_append_dropWhile (p := notQuote) (l := value)
              rw [opener] at htext
              obtain ⟨rfl, htail⟩ := List.cons.inj htext
              refine ⟨rfl, htail.trans ?_⟩
              conv_lhs => rw [← hvalue]
              simp [hw]
            have hbusy : Busy mid w := hw ▸ busy_opener hsp hsp' hnot hstep
            have hlong : ¬ cs <+: w := fun hpre => hbusy cs q hpre hrun' hq
            have hmore : ∃ more, cs = w ++ more ∧ value.dropWhile notQuote = more ++ near := by
              rcases List.append_eq_append_iff.1 htail with ⟨more, h, -⟩ | h
              · exact absurd ⟨more, h.symm⟩ hlong
              · exact h
            obtain ⟨more, hcs, hdrop⟩ := hmore
            cases more with
            | nil => exact absurd ⟨[], by rw [List.append_nil, hcs, List.append_nil]⟩ hlong
            | cons d more =>
                have hr : r.2 = more ++ near := by
                  rw [hrest, afterQuote, hdrop]
                  rfl
                have hlen : cs.length = w.length + (more.length + 1) := by
                  rw [hcs, List.length_append, List.length_cons]
                have hskip : (cs ++ near).length - r.2.length = w.length + 1 := by
                  rw [hr, List.length_append, List.length_append]
                  omega
                simp only [hskip]
                rw [pending_drop (by omega)]
                have hcut : cs.drop (w.length + 1) = more := by
                  rw [hcs, ← List.drop_drop, List.drop_left]
                  rfl
                rw [hcut]
                rw [hcs, run_append] at hrun'
                obtain ⟨p', -, hrest'⟩ := Option.bind_eq_some_iff.1 hrun'
                obtain ⟨p₂, -, hrest'⟩ := Option.bind_eq_some_iff.1 hrest'
                exact ih more.length (by omega) hrest' rfl

/-! ## Around the name -/

theorem run_blank {prev : Prev} {sp : PyStr} (h : ∀ c ∈ sp, isJsonSpace c = true) :
    run (.gap prev) sp = some (.gap prev) := by
  induction sp with
  | nil => rfl
  | cons c sp ih =>
      rw [List.forall_mem_cons] at h
      have hstep : placeStep (.gap prev) c = some (.gap prev) := if_pos h.1
      rw [run, hstep]
      exact ih h.2

/-- The name begins where no string has. -/
def Site.InDocument (site : Site) : Prop := lex .outside site.front = .outside

instance (site : Site) : Decidable site.InDocument :=
  inferInstanceAs (Decidable (lex .outside site.front = .outside))

/-- In a document the name is one, and what is behind the string is behind a value. -/
theorem around_name {body s : PyStr} {q : Place} (hsite : site.InDocument)
    (hbody : Encodes body s) (h : run (.gap .start) (site.text body) = some q) :
    (∃ p : Place, run (.gap .start) site.front = some p ∧ p.AtName) ∧
      ∃ q : Place, run (.gap .value) site.back = some q := by
  rw [Site.text, run_append] at h
  obtain ⟨p, hfront, h⟩ := Option.bind_eq_some_iff.1 h
  have hlexed : p.lexed = .outside := by
    have := lexed_run hfront
    rw [← this]
    exact hsite
  rw [Site.name_append, run] at h
  obtain ⟨p₁, hopen, h⟩ := Option.bind_eq_some_iff.1 h
  have hinside : ∃ prev : Prev, p = .gap prev ∧ p₁ = .inside prev.names := by
    cases p with
    | gap prev => cases prev <;> first | (cases hopen; exact ⟨_, rfl, rfl⟩) | cases hopen
    | atom => cases hopen
    | inside named => cases hlexed
    | escaped named => cases hlexed
  obtain ⟨prev, rfl, rfl⟩ := hinside
  obtain ⟨us, hread, -⟩ := site.spells.read
  have hkey : run (.inside prev.names) site.key = some (.inside prev.names) := run_read hread
  rw [run_append, hkey, Option.bind_some, run] at h
  obtain ⟨p₂, hclose, h⟩ := Option.bind_eq_some_iff.1 h
  cases hclose
  rw [Site.behind_append, run_append, run_blank site.blank, Option.bind_some, run] at h
  obtain ⟨p₃, hcolon, h⟩ := Option.bind_eq_some_iff.1 h
  cases hnames : prev.names with
  | false =>
      rw [hnames] at hcolon
      cases hcolon
  | true =>
      rw [hnames] at hcolon
      cases hcolon
      rw [run_append, run_blank site.blank', Option.bind_some, run] at h
      obtain ⟨p₄, hopen', h⟩ := Option.bind_eq_some_iff.1 h
      cases hopen'
      obtain ⟨us', hread', -⟩ := hbody.read
      have hvalue : run (.inside Prev.colon.names) body = some (.inside false) := run_read hread'
      rw [run_append, hvalue, Option.bind_some, run] at h
      obtain ⟨p₅, hclose', h⟩ := Option.bind_eq_some_iff.1 h
      cases hclose'
      exact ⟨⟨_, hfront, prev, rfl, hnames⟩, q, h⟩

/-- Behind a value neither a letter comes nor a colon. -/
theorem not_word_behind {back more : PyStr} {q : Place} (h : run (.gap .value) back = some q) :
    back ≠ token ++ quote :: more := by
  rintro rfl
  cases h

theorem value_step {p : Place} {c : Nat} (hc : isPySpace c = true)
    (h : placeStep (.gap .value) c = some p) : p = .gap .value := by
  simp only [placeStep] at h
  split at h
  · cases h
    rfl
  · rw [if_neg (by decide), if_neg (by simp), endStep, if_neg, if_neg] at h
    · cases h
    · rintro (rfl | rfl) <;> cases hc
    · rintro rfl
      cases hc

theorem not_colon_behind {sp back more : PyStr} {q : Place} (hsp : Spaces sp)
    (h : run (.gap .value) back = some q) : back ≠ sp ++ colon :: more := by
  induction sp generalizing back with
  | nil =>
      rintro rfl
      cases h
  | cons c sp ih =>
      rintro rfl
      obtain ⟨p, hstep, hrun⟩ := Option.bind_eq_some_iff.1 h
      have hp := value_step (hsp c List.mem_cons_self) hstep
      rw [hp] at hrun
      exact ih (fun d hd => hsp d (List.mem_cons_of_mem c hd)) hrun rfl

/-- A tail of a string begins behind a character or an escape, or within one. -/
theorem read_tail {st st' : CharState} {pre suf : PyStr} {us : List ReadChar}
    (h : readChars st (pre ++ suf) = some (st', us)) :
    ∃ mid us', readChars mid suf = some (st', us') := by
  induction pre generalizing st us with
  | nil => exact ⟨st, us, h⟩
  | cons c pre ih =>
      obtain ⟨mid, read, us', -, hread, -⟩ := readChars_cons h
      exact ih hread

/-- No match begins at a quote that the rest of a string is behind. -/
theorem secretInText_string {suf : PyStr} {st : CharState} {us : List ReadChar} {q : Place}
    (hsuf : readChars .plain suf = some (st, us))
    (hback : run (.gap .value) site.back = some q) :
    secretInText (quote :: (suf ++ quote :: site.back)) = none := by
  rw [Option.eq_none_iff_forall_ne_some]
  intro r hr
  obtain ⟨sp, sp', value, hsp, -, htext, -, -⟩ := secretInText_eq_some.1 hr
  rw [opener] at htext
  have hword : suf ++ quote :: site.back =
      token ++ quote :: (sp ++ colon :: (sp' ++ quote :: value)) := by
    refine (List.cons.inj htext).2.trans ?_
    simp
  have hnot : quote ∉ suf := by
    intro hmem
    obtain ⟨a, b, rfl, ha⟩ := List.eq_append_cons_of_mem hmem
    rw [List.append_assoc] at hword
    obtain ⟨rfl, -⟩ := first_quote ha quote_not_mem_token hword
    cases hsuf
  obtain ⟨-, hbehind⟩ := first_quote hnot quote_not_mem_token hword
  exact not_colon_behind hsp hback hbehind

/-- The string and what is behind it hold no match, but for those behind it. -/
theorem redactText_string {body s t u : PyStr} {q : Place} (hbody : Encodes body s)
    (hback : run (.gap .value) site.back = some q) (ht : u ++ t = body) :
    redactText (t ++ quote :: site.back) = t ++ quote :: redactText site.back := by
  obtain ⟨us, hread, -⟩ := hbody.read
  have hclose : redactText (quote :: site.back) = quote :: redactText site.back :=
    sub_cons_of_none (secretInText_word fun more => not_word_behind hback)
  rw [← hclose]
  refine sub_append_of_none fun pre suf c heq => ?_
  by_cases hc : c = quote
  · subst hc
    -- the quote is an escaped one, and the string goes on behind it
    have hsplit : u ++ pre ++ quote :: suf = body := by rw [List.append_assoc, heq, ht]
    rw [← hsplit] at hread
    obtain ⟨mid, us', hquote⟩ := read_tail hread
    obtain ⟨mid', read, us'', hstep, hsuf, -⟩ := readChars_cons hquote
    have hplain : mid' = .plain := by
      cases mid with
      | plain => cases hstep
      | escape =>
          cases hstep
          rfl
      | hex seen value => cases hstep
    subst hplain
    exact secretInText_string hsuf hback
  · exact secretInText_cons_ne hc

/-! ## A document -/

section
variable {body s : PyStr} {q : Place}

/-- What is left of a string where the pattern stops, and its closing quote if any is. -/
theorem redactText_left (hbody : Encodes body s)
    (hback : run (.gap .value) site.back = some q) :
    redactText (afterQuote (body ++ quote :: site.back)) =
      afterQuote (body ++ [quote]) ++ redactText site.back := by
  have hsplit : body ++ quote :: site.back = body ++ [quote] ++ site.back := by simp
  rw [hsplit, afterQuote_append (by simp)]
  by_cases hmem : quote ∈ body
  · rw [afterQuote_append hmem, List.append_assoc, List.singleton_append,
      List.append_assoc, List.singleton_append]
    obtain ⟨pre, hpre⟩ : afterQuote body <:+ body :=
      (List.drop_suffix 1 _).trans (List.dropWhile_suffix notQuote)
    exact redactText_string hbody hback hpre
  · rw [afterQuote_of_not_mem hmem]
    rfl

/-- The redacted text of a document, where the name is spelled as the pattern has it and where it
is not. -/
theorem redactText_document (hbody : Encodes body s) (hsite : site.InDocument)
    (hrun : run (.gap .start) (site.text body) = some q) :
    redactText (site.text body) = emitted secretInText site.name 0 site.front ++
      (site.name ++ (if site.key = token
        then redacted ++ [quote] ++ (afterQuote (body ++ [quote]) ++ redactText site.back)
        else body ++ quote :: redactText site.back)) := by
  obtain ⟨⟨p, hfront, hp⟩, q', hback⟩ := around_name hsite hbody hrun
  rw [Site.text, redactText_before, pending_front hfront hp, List.drop_zero]
  refine congrArg _ ?_
  split
  · next hkey =>
      rw [redactText_name hkey, redactText_left hbody hback, List.append_assoc]
  · next hkey =>
      have hlead : redactText (site.lead.drop 0 ++ quote :: (body ++ quote :: site.back)) =
          site.lead.drop 0 ++ redactText (quote :: (body ++ quote :: site.back)) :=
        redactText_lead (.inr hkey) _
      rw [List.drop_zero] at hlead
      have hopen : redactText (quote :: (body ++ quote :: site.back)) =
          quote :: redactText (body ++ quote :: site.back) := by
        obtain ⟨us, hread, -⟩ := hbody.read
        exact sub_cons_of_none (secretInText_string hread hback)
      rw [Site.name_eq_lead, List.append_assoc, List.singleton_append, hlead, hopen,
        redactText_string hbody hback (List.nil_append body), List.append_assoc,
        List.singleton_append]

/-- Where the pattern stops in the string, there is the same left of the two. -/
def Site.TextHidden (site : Site) (body body' : PyStr) : Prop :=
  body = body' ∨
    site.key = token ∧ afterQuote (body ++ [quote]) = afterQuote (body' ++ [quote])

theorem redactText_eq_iff {body' s' : PyStr} {q' : Place} (hbody : Encodes body s)
    (hbody' : Encodes body' s') (hsite : site.InDocument)
    (hrun : run (.gap .start) (site.text body) = some q)
    (hrun' : run (.gap .start) (site.text body') = some q') :
    redactText (site.text body) = redactText (site.text body') ↔ site.TextHidden body body' := by
  rw [redactText_document hbody hsite hrun, redactText_document hbody' hsite hrun',
    List.append_cancel_left_eq, List.append_cancel_left_eq, Site.TextHidden]
  constructor
  · intro h
    split at h
    · next hkey =>
        rw [List.append_cancel_left_eq, List.append_cancel_right_eq] at h
        exact .inr ⟨hkey, h⟩
    · rw [List.append_cancel_right_eq] at h
      exact .inl h
  · rintro (rfl | ⟨hkey, h⟩)
    · rfl
    · rw [if_pos hkey, if_pos hkey, h]

/-- Two documents, one token apart: the values redaction makes of them are one, and the texts if
the pattern leaves the same of the two strings. -/
theorem document_hidden {readFloat : PyStr → PyFloat} {limit : Nat} {body' s' : PyStr} {v : Json}
    {rest : PyStr} (hbody : Encodes body s) (hbody' : Encodes body' s') (hsite : site.InDocument)
    (h : loads readFloat limit (site.text body) = .ok v rest) :
    ∃ v' rest', loads readFloat limit (site.text body') = .ok v' rest' ∧
      ((redactSecrets v = redactSecrets v' ∧
          redactText (site.text body) = redactText (site.text body')) ↔
        site.TextHidden body body') := by
  have hagree : Agree (body ++ quote :: site.back) (body' ++ quote :: site.back)
      (Alike site True (body ++ quote :: site.back) (body' ++ quote :: site.back))
      (loads readFloat limit (site.text body)) (loads readFloat limit (site.text body')) :=
    agree_loads (hbody.scan site.back) (hbody'.scan site.back) readFloat limit fun _ => hsite
  obtain ⟨q, hrun⟩ := run_of_loads h
  rw [h] at hagree
  generalize ho : loads readFloat limit (site.text body') = o at hagree
  cases hagree with
  | ok halike =>
      obtain ⟨q', hrun'⟩ := run_of_loads ho
      refine ⟨_, _, rfl, ?_⟩
      rw [redactText_eq_iff hbody hbody' hsite hrun hrun']
      exact and_iff_right (halike.1 trivial)

end

end TradingBroker.Security
