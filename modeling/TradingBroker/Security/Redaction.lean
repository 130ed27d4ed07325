import Mathlib.Data.List.TakeWhile
import TradingBroker.Lib.Regex
import TradingBroker.Schemas.Core

/-!
# Redaction

`broker/security/redaction.py`. A parsed value has the items under `token` replaced, at any depth;
a text has `***` put for what the pattern finds between the quotes behind a `"token":`. The
pattern needs three quotes to decide that it matches and a fourth to know how far, so that it is
settled within any text of four.

`re.sub` takes the leftmost match and goes on behind it (`Lib.Regex`). For this pattern a
match is described once and for all (`secretInText_eq_some`): the name between its quotes,
blanks, a colon, blanks, a quote, and what follows up to the next quote. That it looks for
a quotation mark and knows nothing of escapes is what the rest of this part is about.
-/

namespace TradingBroker.Security

open Lib.Regex

/-! ## Characters -/

def quote : Nat := 0x22
def colon : Nat := 0x3a

/-- `token`, the one of `_SECRET_KEYS`. -/
def token : PyStr := [0x74, 0x6f, 0x6b, 0x65, 0x6e]

/-- `_REDACTED`. -/
def redacted : PyStr := [0x2a, 0x2a, 0x2a]

def notQuote (c : Nat) : Bool := c != quote

/-! ## The pattern -/

/-- `"token"\s*:\s*"`. -/
def secretGroup : Pattern :=
  .seq (.word (quote :: (token ++ [quote])))
    (.seq (.many isPySpace)
      (.seq (.char (· == colon))
        (.seq (.many isPySpace) (.char (· == quote)))))

/-- `[^"]*"|[^"]*$`. -/
def secretValue : Pattern :=
  .alt (.seq (.many notQuote) (.char (· == quote))) (.seq (.many notQuote) .eos)

/-- A match of `_SECRET_IN_TEXT`, with what `\1***"` puts for it. -/
def secretInText (cs : PyStr) : Option (PyStr × PyStr) :=
  (matchAt secretGroup secretValue cs).map fun r => (r.1 ++ redacted ++ [quote], r.2)

/-- `redact_secrets` of a text. -/
def redactText (cs : PyStr) : PyStr := sub secretInText cs

mutual

/-- `redact_secrets`. -/
def redactSecrets : Json → Json
  | .obj kvs => .obj (redactItems kvs)
  | .arr xs => .arr (redactList xs)
  | .str s => .str (redactText s)
  | v => v

def redactList : List Json → List Json
  | [] => []
  | x :: xs => redactSecrets x :: redactList xs

def redactItems : List (PyStr × Json) → List (PyStr × Json)
  | [] => []
  | (key, item) :: kvs =>
      (key, if key = token then .str redacted else redactSecrets item) :: redactItems kvs

end

/-! ## What matches -/

/-- A text the group of the pattern matches. -/
def opener (sp sp' : PyStr) : PyStr :=
  quote :: (token ++ quote :: (sp ++ colon :: (sp' ++ [quote])))

/-- What is left of a text behind the value that ends it or ends at a quote. -/
def afterQuote (cs : PyStr) : PyStr := (cs.dropWhile notQuote).drop 1

def Spaces (sp : PyStr) : Prop := ∀ c ∈ sp, isPySpace c = true

theorem notQuote_quote : notQuote quote = false := rfl

theorem ne_quote_of_notQuote {c : Nat} (h : notQuote c = true) : c ≠ quote := by
  rintro rfl
  exact Bool.false_ne_true h

theorem dropWhile_spaces {sp rest : PyStr} {c : Nat} (hsp : Spaces sp) (hc : isPySpace c = false) :
    (sp ++ c :: rest).dropWhile isPySpace = c :: rest := by
  rw [List.dropWhile_append_of_pos hsp, List.dropWhile_cons_of_neg (by simp [hc])]

/-- The rest of a text, if the group matches at its start. -/
def afterGroup (cs : PyStr) : Option PyStr :=
  if quote :: (token ++ [quote]) <+: cs then
    match (cs.drop 7).dropWhile isPySpace with
    | [] => none
    | c :: cs =>
        if c = colon then
          match cs.dropWhile isPySpace with
          | [] => none
          | c :: cs => if c = quote then some cs else none
        else none
  else none

theorem ends_char_eq {q c : Nat} {cs : PyStr} :
    ends (.char (· == q)) (c :: cs) = if c = q then [cs] else [] := by
  simp [ends]

theorem ends_secretGroup (cs : PyStr) : ends secretGroup cs = (afterGroup cs).toList := by
  have hquote : ∀ c rest, isPySpace c = true → ends (.char (· == quote)) (c :: rest) = [] := by
    intro c rest hc
    rw [ends_char_eq, if_neg]
    rintro rfl
    exact Bool.false_ne_true hc
  have hcolon : ∀ c rest, isPySpace c = true →
      ends (.seq (.char (· == colon)) (.seq (.many isPySpace) (.char (· == quote)))) (c :: rest) =
        [] := by
    intro c rest hc
    rw [ends, ends_char_eq, if_neg, List.flatMap_nil]
    rintro rfl
    exact Bool.false_ne_true hc
  rw [secretGroup, ends, ends_word, afterGroup]
  split
  · rw [List.flatMap_singleton, ends, ends, flatMap_manyEnds hcolon]
    have hlen : (quote :: (token ++ [quote])).length = 7 := rfl
    rw [hlen]
    cases (cs.drop 7).dropWhile isPySpace with
    | nil => rfl
    | cons c rest =>
        rw [ends, ends_char_eq]
        simp only
        split
        · rw [List.flatMap_singleton, ends, ends, flatMap_manyEnds hquote]
          cases rest.dropWhile isPySpace with
          | nil => rfl
          | cons d rest =>
              rw [ends_char_eq]
              simp only
              split <;> rfl
        · rfl
  · rfl

theorem afterGroup_eq_some {cs mid : PyStr} : afterGroup cs = some mid ↔
    ∃ sp sp', Spaces sp ∧ Spaces sp' ∧ cs = opener sp sp' ++ mid := by
  constructor
  · intro h
    rw [afterGroup] at h
    split at h
    · next hword =>
        obtain ⟨rest, rfl⟩ := hword
        have hdrop : (quote :: (token ++ [quote]) ++ rest).drop 7 = rest := rfl
        rw [hdrop] at h
        split at h
        · cases h
        · next c rest' hrest' =>
            split at h
            · next hc =>
                split at h
                · cases h
                · next d rest'' hrest'' =>
                    split at h
                    · next hd =>
                        cases h
                        have hsp : rest.takeWhile isPySpace ++ colon :: rest' = rest := by
                          rw [← hc, ← hrest', List.takeWhile_append_dropWhile]
                        have hsp' : rest'.takeWhile isPySpace ++ quote :: mid = rest' := by
                          rw [← hd, ← hrest'', List.takeWhile_append_dropWhile]
                        refine ⟨rest.takeWhile isPySpace, rest'.takeWhile isPySpace,
                          fun c hc => List.mem_takeWhile_imp hc,
                          fun c hc => List.mem_takeWhile_imp hc, ?_⟩
                        conv_lhs => rw [← hsp, ← hsp']
                        simp [opener]
                    · cases h
            · cases h
    · cases h
  · rintro ⟨sp, sp', hsp, hsp', rfl⟩
    have hword : quote :: (token ++ [quote]) <+: opener sp sp' ++ mid :=
      ⟨sp ++ colon :: (sp' ++ quote :: mid), by simp [opener]⟩
    have hdrop : (opener sp sp' ++ mid).drop 7 = sp ++ colon :: (sp' ++ quote :: mid) := by
      simp [opener, token]
    rw [afterGroup, if_pos hword, hdrop, dropWhile_spaces hsp rfl]
    simp only [if_true]
    rw [dropWhile_spaces hsp' rfl]
    rfl

theorem ends_secretValue (mid : PyStr) : ∃ more, ends secretValue mid = afterQuote mid :: more := by
  have hquote : ∀ c rest, notQuote c = true → ends (.char (· == quote)) (c :: rest) = [] := by
    intro c rest hc
    rw [ends_char_eq, if_neg (ne_quote_of_notQuote hc)]
  have hfirst : ∀ cs : PyStr, ∃ more, manyEnds notQuote cs = cs.dropWhile notQuote :: more := by
    intro cs
    induction cs with
    | nil => exact ⟨[], rfl⟩
    | cons c cs ih =>
        rw [manyEnds]
        split
        · next hc =>
            obtain ⟨more, hmore⟩ := ih
            rw [hmore, List.dropWhile_cons_of_pos hc]
            exact ⟨more ++ [c :: cs], rfl⟩
        · next hc =>
            rw [List.dropWhile_cons_of_neg hc]
            exact ⟨[], rfl⟩
  rw [secretValue, ends, ends, ends, flatMap_manyEnds hquote, afterQuote]
  cases hrest : mid.dropWhile notQuote with
  | nil =>
      obtain ⟨more, hmore⟩ := hfirst mid
      have heos : ends (.seq (.many notQuote) .eos) mid = [] :: more.flatMap (ends .eos) := by
        rw [ends, ends, hmore, hrest, List.flatMap_cons, ends, if_pos (.inl rfl)]
        rfl
      rw [heos]
      exact ⟨_, rfl⟩
  | cons c rest =>
      have hc : c = quote := by
        have hhead := List.head?_dropWhile_not notQuote mid
        rw [hrest, List.head?_cons] at hhead
        simpa [notQuote] using hhead
      rw [ends_char_eq, if_pos hc]
      exact ⟨_, rfl⟩

theorem secretInText_eq_some {cs out rest : PyStr} : secretInText cs = some (out, rest) ↔
    ∃ sp sp' mid, Spaces sp ∧ Spaces sp' ∧ cs = opener sp sp' ++ mid ∧
      out = opener sp sp' ++ (redacted ++ [quote]) ∧ rest = afterQuote mid := by
  have hmatch : matchAt secretGroup secretValue cs = (afterGroup cs).map fun mid =>
      (cs.take (cs.length - mid.length), afterQuote mid) := by
    rw [matchAt, ends_secretGroup]
    cases afterGroup cs with
    | none => rfl
    | some mid =>
        obtain ⟨more, hmore⟩ := ends_secretValue mid
        rw [Option.toList_some, List.flatMap_singleton, hmore]
        rfl
  have htake : ∀ sp sp' mid : PyStr, (opener sp sp' ++ mid).take
      ((opener sp sp' ++ mid).length - mid.length) = opener sp sp' := by
    intro sp sp' mid
    rw [List.length_append, Nat.add_sub_cancel, List.take_left]
  rw [secretInText, hmatch, Option.map_map]
  constructor
  · intro h
    obtain ⟨mid, hmid, heq⟩ := Option.map_eq_some_iff.1 h
    obtain ⟨sp, sp', hsp, hsp', rfl⟩ := afterGroup_eq_some.1 hmid
    simp only [Function.comp, htake, Prod.mk.injEq] at heq
    obtain ⟨rfl, rfl⟩ := heq
    exact ⟨sp, sp', mid, hsp, hsp', rfl, List.append_assoc _ _ _, rfl⟩
  · rintro ⟨sp, sp', mid, hsp, hsp', rfl, rfl, rfl⟩
    rw [afterGroup_eq_some.2 ⟨sp, sp', hsp, hsp', rfl⟩, Option.map_some]
    simp only [Function.comp, htake, List.append_assoc]

/-- Where the word does not stand, nothing matches. -/
theorem secretInText_eq_none {cs : PyStr} (h : ¬ quote :: (token ++ [quote]) <+: cs) :
    secretInText cs = none := by
  rw [Option.eq_none_iff_forall_ne_some]
  intro r hr
  obtain ⟨sp, sp', mid, -, -, rfl, -, -⟩ := secretInText_eq_some.1 hr
  exact h ⟨sp ++ colon :: (sp' ++ quote :: mid), by simp [opener]⟩

theorem secretInText_cons_ne {c : Nat} {cs : PyStr} (h : c ≠ quote) :
    secretInText (c :: cs) = none := by
  refine secretInText_eq_none fun hpre => h ?_
  exact (List.cons_prefix_cons.1 hpre).1.symm

/-- What holds no quote is put out as it is. -/
theorem redactText_append_of_not_mem {cs : PyStr} (h : quote ∉ cs) (rest : PyStr) :
    redactText (cs ++ rest) = cs ++ redactText rest := by
  refine sub_append_of_none fun pre suf c heq => secretInText_cons_ne ?_
  rintro rfl
  exact h (heq ▸ List.mem_append_right pre List.mem_cons_self)

/-! ## Four quotes -/

theorem count_spaces {sp : PyStr} (h : Spaces sp) : sp.count quote = 0 := by
  refine List.count_eq_zero.2 fun hmem => ?_
  have := h quote hmem
  cases this

theorem count_opener {sp sp' : PyStr} (h : Spaces sp) (h' : Spaces sp') :
    (opener sp sp').count quote = 3 := by
  have hsp : sp.count 0x22 = 0 := count_spaces h
  have hsp' : sp'.count 0x22 = 0 := count_spaces h'
  simp [opener, token, quote, colon, hsp, hsp']

theorem afterQuote_append {cs : PyStr} (h : quote ∈ cs) (rest : PyStr) :
    afterQuote (cs ++ rest) = afterQuote cs ++ rest := by
  induction cs with
  | nil => cases h
  | cons c cs ih =>
      rw [afterQuote, afterQuote, List.cons_append]
      by_cases hc : notQuote c = true
      · have hmem : quote ∈ cs :=
          (List.mem_cons.1 h).resolve_left (ne_quote_of_notQuote hc).symm
        rw [List.dropWhile_cons_of_pos hc, List.dropWhile_cons_of_pos hc]
        exact ih hmem
      · rw [List.dropWhile_cons_of_neg hc, List.dropWhile_cons_of_neg hc]
        rfl

theorem afterQuote_of_not_mem {cs : PyStr} (h : quote ∉ cs) (rest : PyStr) :
    afterQuote (cs ++ rest) = afterQuote rest := by
  have hall : ∀ c ∈ cs, notQuote c = true := by
    intro c hc
    refine bne_iff_ne.2 ?_
    rintro rfl
    exact h hc
  rw [afterQuote, List.dropWhile_append_of_pos hall, afterQuote]

/-- A match is decided within a text of four quotes, and so is where it ends. -/
theorem secretInText_append {near : PyStr} (h : 4 ≤ near.count quote) (behind : PyStr) :
    secretInText (near ++ behind) =
      (secretInText near).map fun r => (r.1, r.2 ++ behind) := by
  have hmem : ∀ {sp sp' mid : PyStr}, Spaces sp → Spaces sp' → near = opener sp sp' ++ mid →
      quote ∈ mid := by
    intro sp sp' mid hsp hsp' heq
    rw [heq, List.count_append, count_opener hsp hsp'] at h
    exact List.count_pos_iff.1 (by omega)
  cases hnear : secretInText near with
  | some r =>
      obtain ⟨sp, sp', mid, hsp, hsp', heq, hout, hrest⟩ := secretInText_eq_some.1 hnear
      refine secretInText_eq_some.2 ⟨sp, sp', mid ++ behind, hsp, hsp', ?_, hout, ?_⟩
      · rw [heq, List.append_assoc]
      · rw [hrest, afterQuote_append (hmem hsp hsp' heq)]
  | none =>
      rw [Option.map_none, Option.eq_none_iff_forall_ne_some]
      intro r hr
      obtain ⟨sp, sp', mid, hsp, hsp', heq, -, -⟩ := secretInText_eq_some.1 hr
      rcases List.append_eq_append_iff.1 heq with ⟨more, hopener, -⟩ | ⟨mid', hmid, -⟩
      · have hcount := congrArg (List.count quote) hopener
        rw [count_opener hsp hsp', List.count_append] at hcount
        omega
      · have hsome : secretInText near = some (_, _) :=
          secretInText_eq_some.2 ⟨sp, sp', mid', hsp, hsp', hmid, rfl, rfl⟩
        rw [hnear] at hsome
        cases hsome

end TradingBroker.Security
