import Mathlib.Data.List.Find
import TradingBroker.Security.Tokens

/-!
# Two texts, one token apart

A text holds a name that spells `token`, a colon and a string. The decoder reads two such texts,
which only differ in what is between the quotes of that string, in the same way: a scan of the
one agrees with the scan of the other, with what it makes of the text and with what it leaves.
It always comes to the string by its opening quote, but not always to a value under `token`. The
name may be the tail of another, behind an escaped quote. Or its first quote closes a string, and
then the scan stops behind it. Where the texts are `strict`, and the name begins outside of strings,
neither happens, and what redaction makes of the two values is one.
-/

namespace TradingBroker.Security

/-- A place in a text where a string stands under a name that spells `token`. -/
structure Site where
  front : PyStr
  key : PyStr
  sp : PyStr
  sp' : PyStr
  back : PyStr
  spells : Encodes key token
  blank : ∀ c ∈ sp, isJsonSpace c = true
  blank' : ∀ c ∈ sp', isJsonSpace c = true

namespace Site

/-- From behind the name to the opening quote of the string. -/
def behind (site : Site) : PyStr := site.sp ++ colon :: (site.sp' ++ [quote])

/-- From the opening quote of the name to that of the string. -/
def name (site : Site) : PyStr := quote :: (site.key ++ quote :: site.behind)

def text (site : Site) (body : PyStr) : PyStr :=
  site.front ++ (site.name ++ (body ++ quote :: site.back))

theorem name_append (site : Site) (z : PyStr) :
    site.name ++ z = quote :: (site.key ++ quote :: (site.behind ++ z)) := by
  rw [name, List.cons_append, List.append_assoc, List.cons_append]

theorem behind_append (site : Site) (z : PyStr) :
    site.behind ++ z = site.sp ++ colon :: (site.sp' ++ quote :: z) := by
  simp [behind]

end Site

/-! ## Places in two texts -/

section
variable (site : Site) (strict : Prop) (z z' : PyStr)

/-- Where the decoder looks for a value or a name. -/
inductive Ahead : PyStr → PyStr → Prop
  | same (cs : PyStr) : Ahead cs cs
  | before (a : PyStr) (h : strict → lex .outside a = .outside) :
      Ahead (a ++ (site.name ++ z)) (a ++ (site.name ++ z'))

/-- Behind the name. -/
inductive Named : PyStr → PyStr → Prop
  | mk (w : PyStr) (h : ∀ c ∈ w, isJsonSpace c = true) :
      Named (w ++ colon :: (site.sp' ++ quote :: z)) (w ++ colon :: (site.sp' ++ quote :: z'))

/-- Behind the first quote of the name, where it closed a string. -/
inductive Torn : PyStr → PyStr → Prop
  | mk : Torn (site.key ++ quote :: (site.behind ++ z)) (site.key ++ quote :: (site.behind ++ z'))

/-- Where the decoder looks for what comes behind a value. -/
def Behind (cs cs' : PyStr) : Prop :=
  Ahead site strict z z' cs cs' ∨ (¬ strict ∧ Torn site z z' cs cs') ∨ Named site z z' cs cs'

/-- The same value, and what is ahead. -/
def Same {α : Type} (v : α) (r : PyStr) (v' : α) (r' : PyStr) : Prop :=
  v = v' ∧ Ahead site strict z z' r r'

/-- What a scan of a string may come to that began before the name. -/
def Within {α : Type} (v : α) (r : PyStr) (v' : α) (r' : PyStr) : Prop :=
  v = v' ∧
    (Ahead site strict z z' r r' ∨ (¬ strict ∧ (Torn site z z' r r' ∨ Named site z z' r r')))

/-- As far from the end as the strings differ. -/
def Apart (cs cs' : PyStr) : Prop := cs = cs' ∨ ∃ a, cs = a ++ z ∧ cs' = a ++ z'

/-- Two outcomes that are the same but for what they leave and for what their values are. -/
inductive Agree {α : Type} (good : α → PyStr → α → PyStr → Prop) : Outcome α → Outcome α → Prop
  | ok {v v' : α} {r r' : PyStr} (h : good v r v' r') : Agree good (.ok v r) (.ok v' r')
  | error (msg : String) {l l' : PyStr} (h : Apart z z' l l') :
      Agree good (.error msg l) (.error msg l')
  | valueError : Agree good .valueError .valueError
  | recursionError : Agree good .recursionError .recursionError

end

section
variable {site : Site} {strict : Prop} {z z' cs cs' : PyStr} {α β : Type}
  {good : α → PyStr → α → PyStr → Prop} {good' : β → PyStr → β → PyStr → Prop}

theorem Agree.refl (h : ∀ v r, good v r v r) (o : Outcome α) : Agree z z' good o o := by
  cases o with
  | ok v r => exact .ok (h v r)
  | error msg l => exact .error msg (.inl rfl)
  | valueError => exact .valueError
  | recursionError => exact .recursionError

theorem Agree.bind {o o' : Outcome α} {f f' : α → PyStr → Outcome β} (h : Agree z z' good o o')
    (hf : ∀ v r v' r', o = .ok v r → o' = .ok v' r' → good v r v' r' →
      Agree z z' good' (f v r) (f' v' r')) :
    Agree z z' good' (o.bind f) (o'.bind f') := by
  cases h with
  | ok h => exact hf _ _ _ _ rfl rfl h
  | error msg h => exact .error msg h
  | valueError => exact .valueError
  | recursionError => exact .recursionError

theorem Agree.weaken {o o' : Outcome α} {weak : α → PyStr → α → PyStr → Prop}
    (h : Agree z z' good o o') (hweak : ∀ v r v' r', good v r v' r' → weak v r v' r') :
    Agree z z' weak o o' := by
  cases h with
  | ok h => exact .ok (hweak _ _ _ _ h)
  | error msg h => exact .error msg h
  | valueError => exact .valueError
  | recursionError => exact .recursionError

theorem Ahead.apart (h : Ahead site strict z z' cs cs') : Apart z z' cs cs' := by
  cases h with
  | same => exact .inl rfl
  | before a ha => exact .inr ⟨a ++ site.name, by simp, by simp⟩

theorem Named.apart (h : Named site z z' cs cs') : Apart z z' cs cs' := by
  cases h with
  | mk w hw => exact .inr ⟨w ++ colon :: (site.sp' ++ [quote]), by simp, by simp⟩

theorem Torn.apart (h : Torn site z z' cs cs') : Apart z z' cs cs' := by
  cases h with
  | mk => exact .inr ⟨site.key ++ quote :: site.behind, by simp, by simp⟩

/-! ## Heads -/

theorem Ahead.head (h : Ahead site strict z z' cs cs') : cs.head? = cs'.head? := by
  cases h with
  | same => rfl
  | before a ha =>
      cases a with
      | nil => rfl
      | cons c a => rfl

theorem lexStep_outside {c : Nat} (h : c ≠ quote) : lexStep .outside c = .outside := if_neg h

theorem Ahead.drop {c : Nat} (h : Ahead site strict z z' cs cs') (hhead : cs.head? = some c)
    (hc : c ≠ quote) : Ahead site strict z z' (cs.drop 1) (cs'.drop 1) := by
  cases h with
  | same => exact .same _
  | before a ha =>
      cases a with
      | nil =>
          cases hhead
          exact absurd rfl hc
      | cons d a =>
          cases hhead
          refine .before a fun hstrict => ?_
          have := ha hstrict
          rwa [lex, List.foldl_cons, lexStep_outside hc] at this

theorem skipSpace_append {a rest : PyStr} {c : Nat} (hc : isJsonSpace c = false) :
    skipSpace (a ++ c :: rest) = skipSpace a ++ c :: rest := by
  induction a with
  | nil => exact List.dropWhile_cons_of_neg (by simp [hc])
  | cons d a ih =>
      rw [List.cons_append, skipSpace, skipSpace]
      by_cases hd : isJsonSpace d = true
      · rw [List.dropWhile_cons_of_pos hd, List.dropWhile_cons_of_pos hd]
        exact ih
      · rw [List.dropWhile_cons_of_neg hd, List.dropWhile_cons_of_neg hd]
        rfl

theorem skipSpace_blank {w : PyStr} (h : ∀ c ∈ w, isJsonSpace c = true) : skipSpace w = [] :=
  List.dropWhile_eq_nil_iff.2 h

theorem lex_skipSpace {a : PyStr} (h : lex .outside a = .outside) :
    lex .outside (skipSpace a) = .outside := by
  induction a with
  | nil => exact h
  | cons c a ih =>
      rw [skipSpace]
      by_cases hc : isJsonSpace c = true
      · rw [List.dropWhile_cons_of_pos hc]
        refine ih ?_
        rwa [lex, List.foldl_cons, lexStep_outside (quote_ne_space hc)] at h
      · rwa [List.dropWhile_cons_of_neg hc]

theorem Ahead.skip (h : Ahead site strict z z' cs cs') :
    Ahead site strict z z' (skipSpace cs) (skipSpace cs') := by
  cases h with
  | same => exact .same _
  | before a ha =>
      rw [Site.name_append, Site.name_append, skipSpace_append rfl, skipSpace_append rfl,
        ← Site.name_append, ← Site.name_append]
      exact .before _ fun hstrict => lex_skipSpace (ha hstrict)

/-- What a name begins with stands for nothing else. -/
theorem Site.key_head (site : Site) :
    ∃ c cs, site.key = c :: cs ∧ isJsonSpace c = false ∧
      (∀ d ∈ [colon, comma, closeBrace, closeBracket], c ≠ d) := by
  obtain ⟨-, c, cs, hkey, rfl | rfl⟩ := site.spells.token_text
  · exact ⟨_, cs, hkey, by decide, by decide⟩
  · exact ⟨_, cs, hkey, by decide, by decide⟩

theorem Torn.skip (h : Torn site z z' cs cs') : skipSpace cs = cs ∧ skipSpace cs' = cs' ∧
    ∃ c, cs.head? = some c ∧ cs'.head? = some c ∧
      (∀ d ∈ [colon, comma, closeBrace, closeBracket], c ≠ d) := by
  cases h with
  | mk =>
      obtain ⟨c, rest, hkey, hspace, hc⟩ := site.key_head
      rw [hkey]
      exact ⟨List.dropWhile_cons_of_neg (by simp [hspace]),
        List.dropWhile_cons_of_neg (by simp [hspace]), c, rfl, rfl, hc⟩

theorem Named.skip (h : Named site z z' cs cs') :
    skipSpace cs = colon :: (site.sp' ++ quote :: z) ∧
      skipSpace cs' = colon :: (site.sp' ++ quote :: z') := by
  cases h with
  | mk w hw =>
      rw [skipSpace_append rfl, skipSpace_append rfl, skipSpace_blank hw]
      exact ⟨rfl, rfl⟩

/-! ## Delimiters -/

theorem agree_scanDelimiter {close : Nat} {trailing : String}
    (hclose : close = closeBrace ∨ close = closeBracket) (h : Behind site strict z z' cs cs') :
    Agree z z' (Same site strict z z')
      (scanDelimiter close trailing cs) (scanDelimiter close trailing cs') := by
  rw [scanDelimiter, scanDelimiter]
  rcases h with h | ⟨-, h⟩ | h
  · have hskip := h.skip
    simp only [← hskip.head]
    split
    · next hhead =>
        refine .ok ⟨rfl, hskip.drop hhead ?_⟩
        rcases hclose with rfl | rfl <;> decide
    · split
      · next hhead =>
          have hnext := (hskip.drop hhead (by decide)).skip
          rw [← hnext.head]
          split
          · exact .error _ hskip.apart
          · exact .ok ⟨rfl, hnext⟩
      · exact .error _ hskip.apart
  · obtain ⟨hskip, hskip', c, hhead, hhead', hc⟩ := h.skip
    have hne : ∀ d ∈ [colon, comma, closeBrace, closeBracket], some c ≠ some d :=
      fun d hd heq => hc d hd (Option.some.inj heq)
    have hmem : close ∈ [colon, comma, closeBrace, closeBracket] := by
      rcases hclose with rfl | rfl <;> decide
    rw [hskip, hskip', hhead, hhead', if_neg (hne close hmem), if_neg (hne close hmem),
      if_neg (hne comma (by decide)), if_neg (hne comma (by decide))]
    exact .error _ h.apart
  · obtain ⟨hskip, hskip'⟩ := h.skip
    have hne : ¬ some colon = some close := by
      rcases hclose with rfl | rfl <;> decide
    rw [hskip, hskip', List.head?_cons, List.head?_cons, if_neg hne, if_neg hne,
      if_neg (by decide), if_neg (by decide)]
    exact .error _ (Named.mk [] (by simp)).apart

theorem agree_scanColon (h : Ahead site strict z z' cs cs' ∨ Torn site z z' cs cs') :
    Agree z z' (Same site strict z z')
      (scanColon cs) (scanColon cs') := by
  rw [scanColon, scanColon]
  rcases h with h | h
  · have hskip := h.skip
    rw [← hskip.head]
    split
    · next hhead => exact .ok ⟨rfl, (hskip.drop hhead (by decide)).skip⟩
    · exact .error _ hskip.apart
  · obtain ⟨hskip, hskip', c, hhead, hhead', hc⟩ := h.skip
    have hne : ¬ some c = some colon := fun heq => hc colon (by decide) (Option.some.inj heq)
    rw [hskip, hskip', hhead, hhead', if_neg hne, if_neg hne]
    exact .error _ h.apart

theorem scanColon_named (h : Named site z z' cs cs') :
    scanColon cs = .ok () (quote :: z) ∧ scanColon cs' = .ok () (quote :: z') := by
  obtain ⟨hskip, hskip'⟩ := h.skip
  have hopen : ∀ z, skipSpace (site.sp' ++ quote :: z) = quote :: z := by
    intro z
    rw [skipSpace_append rfl, skipSpace_blank site.blank', List.nil_append]
  rw [scanColon, scanColon, hskip, hskip', List.head?_cons, List.head?_cons, if_pos rfl,
    if_pos rfl, List.drop_one, List.drop_one, List.tail_cons, List.tail_cons, hopen, hopen]
  exact ⟨rfl, rfl⟩

/-! ## Strings -/

theorem agree_scanChars {a opening opening' : PyStr} {st : CharState} {acc : List ReadChar}
    (h : strict → lex st.lexed a = .outside) :
    Agree z z' (Within site strict z z')
      (scanChars opening st acc (a ++ (site.name ++ z)))
      (scanChars opening' st acc (a ++ (site.name ++ z'))) := by
  induction a generalizing st acc with
  | nil =>
      rw [List.nil_append, List.nil_append, Site.name_append, Site.name_append]
      have hmore : ∀ z, (!(site.key ++ quote :: (site.behind ++ z)).isEmpty) = true := by simp
      rw [scanChars, scanChars, hmore, hmore]
      cases st with
      | plain =>
          have hloose : ¬ strict := by
            intro hstrict
            cases h hstrict
          exact .ok ⟨rfl, .inr ⟨hloose, .inl .mk⟩⟩
      | escape =>
          have hloose : ¬ strict := by
            intro hstrict
            cases h hstrict
          obtain ⟨us, hread, -⟩ := site.spells.read
          have hname : ∀ opening z, scanChars opening .plain ([(quote, false)] ++ acc)
              (site.key ++ quote :: (site.behind ++ z)) =
                .ok (us ++ ([(quote, false)] ++ acc)) (site.behind ++ z) := by
            intro opening z
            rw [scanChars_of_read hread (List.cons_ne_nil _ _)]
            rfl
          show Agree z z' _ (scanChars opening .plain _ _) (scanChars opening' .plain _ _)
          rw [hname, hname, Site.behind_append, Site.behind_append]
          exact .ok ⟨rfl, .inr ⟨hloose, .inr (.mk _ site.blank)⟩⟩
      | hex seen value =>
          refine .error _ (.inr ⟨0x75 :: (seen.reverse ++ site.name), ?_, ?_⟩) <;>
            simp [Site.name]
  | cons c a ih =>
      have hmore : ∀ z, (!(a ++ (site.name ++ z)).isEmpty) = true := by simp [Site.name]
      rw [List.cons_append, List.cons_append, scanChars, scanChars, hmore, hmore]
      cases hstep : charStep st c true with
      | done =>
          obtain ⟨rfl, rfl⟩ := charStep_done hstep
          exact .ok ⟨rfl, .inl (.before a h)⟩
      | fail msg before =>
          exact .error msg (.inr ⟨before ++ c :: (a ++ site.name), by simp, by simp⟩)
      | next st' read =>
          refine ih fun hstrict => ?_
          have := h hstrict
          rwa [lex, List.foldl_cons, lexStep_charStep hstep] at this

theorem agree_scanString {a : PyStr} (h : strict → lex .inside a = .outside) :
    Agree z z' (Within site strict z z')
      (scanString (a ++ (site.name ++ z))) (scanString (a ++ (site.name ++ z'))) := by
  rw [scanString, scanString]
  have hplain : strict → lex CharState.plain.lexed a = .outside := h
  refine (agree_scanChars hplain).bind fun v r v' r' _ _ hr => ?_
  rw [hr.1]
  exact .ok ⟨rfl, hr.2⟩

/-- The name itself. -/
theorem scanString_name (z : PyStr) :
    scanString (site.key ++ quote :: (site.behind ++ z)) = .ok token (site.behind ++ z) :=
  site.spells.scan _

/-! ## Atoms -/

theorem isPrefixOf_append_quote {w : PyStr} (h : quote ∉ w) (a rest : PyStr) :
    w.isPrefixOf (a ++ quote :: rest) = w.isPrefixOf a := by
  induction w generalizing a with
  | nil => simp
  | cons c w ih =>
      rw [List.mem_cons, not_or] at h
      cases a with
      | nil =>
          have hc : (c == quote) = false := beq_eq_false_iff_ne.2 (Ne.symm h.1)
          show (c == quote && w.isPrefixOf rest) = false
          rw [hc, Bool.false_and]
      | cons d a =>
          rw [List.cons_append, List.isPrefixOf, List.isPrefixOf, ih h.2]

theorem takeWhile_append_quote {p : Nat → Bool} (hp : p quote = false) (a rest : PyStr) :
    (a ++ quote :: rest).takeWhile p = a.takeWhile p := by
  induction a with
  | nil => exact List.takeWhile_cons_of_neg (by simp [hp])
  | cons c a ih =>
      rw [List.cons_append, List.takeWhile_cons, List.takeWhile_cons, ih]

/-- An atom ends before a quote, whatever comes behind it. -/
theorem scanAtom_append_quote (readFloat : PyStr → PyFloat) (a : PyStr) :
    (∃ v n, n ≤ a.length ∧ quote ∉ a.take n ∧
      ∀ rest, scanAtom readFloat (a ++ quote :: rest) = .ok v (a.drop n ++ quote :: rest)) ∨
    (∀ rest, scanAtom readFloat (a ++ quote :: rest) = .error expectingValue (a ++ quote :: rest)) ∨
    ∀ rest, scanAtom readFloat (a ++ quote :: rest) = .valueError := by
  have hword : ∀ k ∈ constants, quote ∉ k.1 := by decide
  have hfind : ∀ rest, constants.find? (fun k => k.1.isPrefixOf (a ++ quote :: rest)) =
      constants.find? fun k => k.1.isPrefixOf a := by
    intro rest
    exact List.find?_congr fun k hk => isPrefixOf_append_quote (hword k hk) a rest
  have htake : ∀ {n : Nat}, n ≤ a.length → ∀ rest : PyStr,
      (a ++ quote :: rest).take n = a.take n ∧
        (a ++ quote :: rest).drop n = a.drop n ++ quote :: rest := by
    intro n hn rest
    exact ⟨List.take_append_of_le_length hn, List.drop_append_of_le_length hn⟩
  simp only [scanAtom, hfind]
  cases hconst : constants.find? fun k => k.1.isPrefixOf a with
  | some k =>
      left
      have hpre := List.find?_some hconst
      have hle : k.1.length ≤ a.length := (List.isPrefixOf_iff_prefix.1 hpre).length_le
      refine ⟨k.2, k.1.length, hle, ?_, fun rest => ?_⟩
      · rw [← List.prefix_iff_eq_take.1 (List.isPrefixOf_iff_prefix.1 hpre)]
        exact hword k (List.mem_of_find?_eq_some hconst)
      · simp only [(htake hle rest).2]
  | none =>
      simp only [scanNumber, takeWhile_append_quote (p := isNumberCode) rfl]
      cases hrun : numeralRun (a.takeWhile isNumberCode) with
      | none => exact .inr (.inl fun rest => rfl)
      | some r =>
          obtain ⟨whole, more⟩ := r
          obtain ⟨-, hle⟩ := numeralRun_le hrun
          have hlen := (List.takeWhile_prefix (l := a) isNumberCode).length_le
          have hquote : ∀ n, n ≤ (a.takeWhile isNumberCode).length → quote ∉ a.take n := by
            intro n hn hmem
            cases all_take hn quote hmem
          simp only
          by_cases hmore : more = 0
          · by_cases hbig : intMaxDigits < ((a.take whole).filter isDigitCode).length
            · right
              right
              intro rest
              rw [if_neg (by simp [hmore]), (htake (by omega) rest).1, if_pos hbig]
            · left
              refine ⟨.int (intOf (a.take whole)), whole, by omega, hquote _ (by omega), ?_⟩
              intro rest
              rw [if_neg (by simp [hmore]), (htake (by omega) rest).1, if_neg hbig,
                (htake (by omega) rest).2]
          · left
            refine ⟨.float (readFloat (a.take (whole + more))), whole + more, by omega,
              hquote _ hle, fun rest => ?_⟩
            rw [if_pos hmore, (htake (by omega) rest).1, (htake (by omega) rest).2]

/-! ## Values -/

/-- What redaction makes of an item. -/
def redactItem (key : PyStr) (v : Json) : Json :=
  if key = token then .str redacted else redactSecrets v

theorem redactItems_setItem (key : PyStr) (v : Json) (kvs : JsonObject) :
    redactItems (setItem key v kvs) = setItem key (redactItem key v) (redactItems kvs) := by
  induction kvs with
  | nil => rfl
  | cons kv kvs ih =>
      obtain ⟨k, w⟩ := kv
      rw [setItem, redactItems, setItem]
      split
      · next hk =>
          rw [hk]
          rfl
      · rw [redactItems, ih]

theorem redactList_append (xs ys : List Json) :
    redactList (xs ++ ys) = redactList xs ++ redactList ys := by
  induction xs with
  | nil => rfl
  | cons x xs ih => rw [List.cons_append, redactList, redactList, ih, List.cons_append]

end

section
variable (site : Site) (strict : Prop) (z z' : PyStr)

/-- Values that redaction makes one of, and what is behind them. -/
def Alike (v : Json) (r : PyStr) (v' : Json) (r' : PyStr) : Prop :=
  (strict → redactSecrets v = redactSecrets v') ∧ Behind site strict z z' r r'

/-- Where a value may come, the two scans agree. -/
def Simulates (scan : PyStr → Outcome Json) : Prop :=
  ∀ cs cs', Ahead site strict z z' cs cs' →
    Agree z z' (Alike site strict z z') (scan cs) (scan cs')

/-- A scan reads a string as a string. -/
def ReadsStrings (scan : PyStr → Outcome Json) : Prop :=
  ∀ rest, scan (quote :: rest) = (scanString rest).bind fun s left => .ok (.str s) left

end

section
variable {site : Site} {strict : Prop} {z z' cs cs' : PyStr} {scan : PyStr → Outcome Json}

theorem Ahead.nil_iff (h : Ahead site strict z z' cs cs') : cs = [] ↔ cs' = [] := by
  rw [← List.head?_eq_none_iff, h.head, List.head?_eq_none_iff]

theorem scanMembers_nil (fuel : Nat) (kvs : JsonObject) :
    scanMembers scan fuel kvs [] = .error expectingName [] := by
  cases fuel <;> rfl

theorem agree_scanKey (h : Ahead site strict z z' cs cs') :
    Agree z z' (fun s r s' r' => s = s' ∧ (Ahead site strict z z' r r' ∨
      (¬ strict ∧ Torn site z z' r r') ∨ ((strict → s = token) ∧ Named site z z' r r')))
      (scanKey cs) (scanKey cs') := by
  cases h with
  | same cs => exact .refl (fun s r => ⟨rfl, .inl (.same r)⟩) _
  | before a ha =>
      cases a with
      | nil =>
          rw [List.nil_append, List.nil_append, Site.name_append, Site.name_append, scanKey,
            scanKey]
          simp only [List.head?_cons, if_true, List.drop_one, List.tail_cons]
          rw [scanString_name, scanString_name, Site.behind_append, Site.behind_append]
          exact .ok ⟨rfl, .inr (.inr ⟨fun _ => rfl, .mk _ site.blank⟩)⟩
      | cons c a =>
          rw [List.cons_append, List.cons_append, scanKey, scanKey]
          simp only [List.head?_cons, List.drop_one, List.tail_cons]
          split
          · next hc =>
              cases hc
              refine (agree_scanString ha).weaken fun s r s' r' hr => ⟨hr.1, ?_⟩
              rcases hr.2 with h | ⟨hloose, h | h⟩
              · exact .inl h
              · exact .inr (.inl ⟨hloose, h⟩)
              · exact .inr (.inr ⟨fun hstrict => absurd hstrict hloose, h⟩)
          · exact .error _ (.inr ⟨c :: (a ++ site.name), by simp, by simp⟩)

theorem length_scanString {s rest : PyStr} (h : scanString cs = .ok s rest) :
    rest.length ≤ cs.length := by
  have hruns : Runs (.inside true) cs rest (· = .gap .name) := runs_scanString h
  exact hruns.length_le

/-- A key is behind its quote. -/
theorem length_scanKey {s rest : PyStr} (h : scanKey cs = .ok s rest) :
    rest.length < cs.length := by
  rw [scanKey] at h
  split at h
  · next hhead =>
      have hle := length_scanString h
      rw [eq_cons_of_head hhead, List.length_cons]
      omega
  · cases h

theorem length_skipSpace (cs : PyStr) : (skipSpace cs).length ≤ cs.length :=
  (List.dropWhile_suffix isJsonSpace).length_le

theorem length_scanDelimiter {close : Nat} {trailing : String} {closed : Bool} {rest : PyStr}
    (h : scanDelimiter close trailing cs = .ok closed rest) : rest.length < cs.length := by
  have hle := length_skipSpace cs
  have hdrop : ∀ c, (skipSpace cs).head? = some c →
      ((skipSpace cs).drop 1).length + 1 = (skipSpace cs).length := by
    intro c hhead
    conv_rhs => rw [eq_cons_of_head hhead, List.length_cons]
  rw [scanDelimiter] at h
  split at h
  · next hhead =>
      cases h
      have := hdrop _ hhead
      omega
  · simp only at h
    split at h
    · next hhead =>
        split at h
        · cases h
        · cases h
          have := hdrop _ hhead
          have := length_skipSpace ((skipSpace cs).drop 1)
          omega
    · cases h

section
variable {s₀ s₀' : PyStr} (hz : scanString z = .ok s₀ site.back)
  (hz' : scanString z' = .ok s₀' site.back)

include hz hz'

theorem agree_scanMembers (hacc : Accepts scan) (hstr : ReadsStrings scan)
    (hsim : Simulates site strict z z' scan) {fuel fuel' : Nat} {kvs kvs' : JsonObject}
    (hfuel : cs.length ≤ fuel) (hfuel' : cs'.length ≤ fuel')
    (hkvs : strict → redactItems kvs = redactItems kvs') (h : Ahead site strict z z' cs cs') :
    Agree z z' (Alike site strict z z') (scanMembers scan fuel kvs cs)
      (scanMembers scan fuel' kvs' cs') := by
  induction fuel generalizing fuel' kvs kvs' cs cs' with
  | zero =>
      have hnil : cs = [] := List.length_eq_zero_iff.1 (by omega)
      have hnil' := h.nil_iff.1 hnil
      rw [hnil, hnil', scanMembers_nil, scanMembers_nil]
      exact .error _ (.inl rfl)
  | succ fuel ih =>
      cases fuel' with
      | zero =>
          have hnil' : cs' = [] := List.length_eq_zero_iff.1 (by omega)
          have hnil := h.nil_iff.2 hnil'
          rw [hnil, hnil', scanMembers_nil, scanMembers_nil]
          exact .error _ (.inl rfl)
      | succ fuel' =>
          rw [scanMembers, scanMembers]
          refine (agree_scanKey h).bind ?_
          rintro key r key' r' hkey hkey' ⟨rfl, hr⟩
          have hlen := length_scanKey hkey
          have hlen' := length_scanKey hkey'
          -- what follows a member, wherever the value came from
          have hrest : ∀ v r₁ v' r₁', r₁.length ≤ r.length → r₁'.length ≤ r'.length →
              (strict → redactItem key v = redactItem key v') → Behind site strict z z' r₁ r₁' →
              Agree z z' (Alike site strict z z')
                ((scanDelimiter closeBrace trailingInObject r₁).bind fun closed cs =>
                  if closed then .ok (.obj (setItem key v kvs)) cs
                  else scanMembers scan fuel (setItem key v kvs) cs)
                ((scanDelimiter closeBrace trailingInObject r₁').bind fun closed cs =>
                  if closed then .ok (.obj (setItem key v' kvs')) cs
                  else scanMembers scan fuel' (setItem key v' kvs') cs) := by
            intro v r₁ v' r₁' hle hle' hitem hbehind
            refine (agree_scanDelimiter (.inl rfl) hbehind).bind ?_
            rintro closed r₂ closed' r₂' hclosed hclosed' ⟨rfl, hahead⟩
            have hle₂ := length_scanDelimiter hclosed
            have hle₂' := length_scanDelimiter hclosed'
            have hset : strict → redactItems (setItem key v kvs) =
                redactItems (setItem key v' kvs') := by
              intro hstrict
              rw [redactItems_setItem, redactItems_setItem, hitem hstrict, hkvs hstrict]
            cases closed with
            | true =>
                refine .ok ⟨fun hstrict => ?_, .inl hahead⟩
                rw [redactSecrets, redactSecrets, hset hstrict]
            | false => exact ih (by omega) (by omega) hset hahead
          have hplace : (Ahead site strict z z' r r' ∨ Torn site z z' r r') ∨
              ((strict → key = token) ∧ Named site z z' r r') := by
            rcases hr with hr | ⟨-, hr⟩ | hr
            · exact .inl (.inl hr)
            · exact .inl (.inr hr)
            · exact .inr hr
          rcases hplace with hr | ⟨htoken, hr⟩
          · refine (agree_scanColon hr).bind ?_
            rintro u r₁ u' r₁' hcolon hcolon' ⟨-, hahead⟩
            have hle := (runs_scanColon hcolon).length_le
            have hle' := (runs_scanColon hcolon').length_le
            refine (hsim _ _ hahead).bind ?_
            rintro v r₂ v' r₂' hv hv' ⟨halike, hbehind⟩
            have hle₂ := (hacc _ _ _ hv .colon rfl).length_le
            have hle₂' := (hacc _ _ _ hv' .colon rfl).length_le
            refine hrest v r₂ v' r₂' (by omega) (by omega) (fun hstrict => ?_) hbehind
            rw [redactItem, redactItem, halike hstrict]
          · obtain ⟨hcolon, hcolon'⟩ := scanColon_named hr
            have hle := (runs_scanColon hcolon).length_le
            have hle' := (runs_scanColon hcolon').length_le
            have hback := length_scanString hz
            have hback' := length_scanString hz'
            rw [List.length_cons] at hle hle'
            have hv : scan (quote :: z) = .ok (.str s₀) site.back := by
              rw [hstr, hz, Outcome.ok_bind]
            have hv' : scan (quote :: z') = .ok (.str s₀') site.back := by
              rw [hstr, hz', Outcome.ok_bind]
            rw [hcolon, hcolon', Outcome.ok_bind, Outcome.ok_bind, hv, hv', Outcome.ok_bind,
              Outcome.ok_bind]
            refine hrest (.str s₀) site.back (.str s₀') site.back (by omega) (by omega)
              (fun hstrict => ?_) (.inl (.same _))
            rw [redactItem, redactItem, if_pos (htoken hstrict), if_pos (htoken hstrict)]

end

theorem scanElements_nil (hnil : scan [] = .error expectingValue []) (fuel : Nat)
    (xs : List Json) : scanElements scan fuel xs [] = .error expectingValue [] := by
  cases fuel with
  | zero => rfl
  | succ fuel =>
      rw [scanElements, hnil]
      rfl

theorem agree_scanElements (hacc : Accepts scan) (hnil : scan [] = .error expectingValue [])
    (hsim : Simulates site strict z z' scan) {fuel fuel' : Nat} {xs xs' : List Json}
    (hfuel : cs.length ≤ fuel) (hfuel' : cs'.length ≤ fuel')
    (hxs : strict → redactList xs = redactList xs') (h : Ahead site strict z z' cs cs') :
    Agree z z' (Alike site strict z z') (scanElements scan fuel xs cs)
      (scanElements scan fuel' xs' cs') := by
  induction fuel generalizing fuel' xs xs' cs cs' with
  | zero =>
      have hcs : cs = [] := List.length_eq_zero_iff.1 (by omega)
      rw [hcs, h.nil_iff.1 hcs, scanElements_nil hnil, scanElements_nil hnil]
      exact .error _ (.inl rfl)
  | succ fuel ih =>
      cases fuel' with
      | zero =>
          have hcs' : cs' = [] := List.length_eq_zero_iff.1 (by omega)
          rw [hcs', h.nil_iff.2 hcs', scanElements_nil hnil, scanElements_nil hnil]
          exact .error _ (.inl rfl)
      | succ fuel' =>
          rw [scanElements, scanElements]
          refine (hsim _ _ h).bind ?_
          rintro v r v' r' hv hv' ⟨halike, hbehind⟩
          have hle := (hacc _ _ _ hv .start rfl).length_le
          have hle' := (hacc _ _ _ hv' .start rfl).length_le
          refine (agree_scanDelimiter (.inr rfl) hbehind).bind ?_
          rintro closed r₁ closed' r₁' hclosed hclosed' ⟨rfl, hahead⟩
          have hlt := length_scanDelimiter hclosed
          have hlt' := length_scanDelimiter hclosed'
          have hsnoc : strict → redactList (xs ++ [v]) = redactList (xs' ++ [v']) := by
            intro hstrict
            rw [redactList_append, redactList_append, hxs hstrict]
            simp only [redactList, halike hstrict]
          cases closed with
          | true =>
              refine .ok ⟨fun hstrict => ?_, .inl hahead⟩
              rw [redactSecrets, redactSecrets, hsnoc hstrict]
          | false => exact ih (by omega) (by omega) hsnoc hahead

/-- An empty object or array. -/
theorem agree_closed {close : Nat} {v : Json} {o o' : Outcome Json}
    (hclose : close = closeBrace ∨ close = closeBracket) (h : Ahead site strict z z' cs cs')
    (ho : Agree z z' (Alike site strict z z') o o') :
    Agree z z' (Alike site strict z z')
      (if cs.head? = some close then .ok v (cs.drop 1) else o)
      (if cs'.head? = some close then .ok v (cs'.drop 1) else o') := by
  rw [← h.head]
  split
  · next hhead =>
      refine .ok ⟨fun _ => rfl, .inl (h.drop hhead ?_)⟩
      rcases hclose with rfl | rfl <;> decide
  · exact ho

theorem agree_scanAtom (readFloat : PyStr → PyFloat) {a : PyStr}
    (ha : strict → lex .outside a = .outside) :
    Agree z z' (Alike site strict z z') (scanAtom readFloat (a ++ (site.name ++ z)))
      (scanAtom readFloat (a ++ (site.name ++ z'))) := by
  rw [Site.name_append, Site.name_append]
  rcases scanAtom_append_quote readFloat a with ⟨v, n, hn, hquote, hscan⟩ | hscan | hscan
  · rw [hscan, hscan, ← Site.name_append, ← Site.name_append]
    refine .ok ⟨fun _ => rfl, .inl (.before _ fun hstrict => ?_)⟩
    have hlex := ha hstrict
    rwa [← List.take_append_drop n a, lex_append, lex_of_not_mem hquote] at hlex
  · rw [hscan, hscan]
    exact .error _ (.inr ⟨a ++ site.name, by simp [Site.name], by simp [Site.name]⟩)
  · rw [hscan, hscan]
    exact .valueError

theorem agree_atEnd {v v' : Json} (hv : strict → redactSecrets v = redactSecrets v')
    (h : Behind site strict z z' cs cs') :
    Agree z z' (Alike site strict z z') (atEnd v cs) (atEnd v' cs') := by
  rw [atEnd, atEnd]
  rcases h with h | ⟨-, h⟩ | h
  · have hskip := h.skip
    by_cases hnil : skipSpace cs = []
    · rw [if_pos hnil, if_pos (hskip.nil_iff.1 hnil)]
      exact .ok ⟨hv, .inl (.same _)⟩
    · rw [if_neg hnil, if_neg fun hnil' => hnil (hskip.nil_iff.2 hnil')]
      exact .error _ hskip.apart
  · obtain ⟨hskip, hskip', c, hhead, hhead', -⟩ := h.skip
    rw [hskip, hskip', if_neg, if_neg]
    · exact .error _ h.apart
    · rintro rfl
      cases hhead'
    · rintro rfl
      cases hhead
  · obtain ⟨hskip, hskip'⟩ := h.skip
    rw [hskip, hskip', if_neg (List.cons_ne_nil _ _), if_neg (List.cons_ne_nil _ _)]
    exact .error _ (Named.mk [] (by simp)).apart

section
variable {s₀ s₀' : PyStr} (hz : scanString z = .ok s₀ site.back)
  (hz' : scanString z' = .ok s₀' site.back)

include hz hz'

/-- What a scan of the values within has to be. -/
structure Inner (site : Site) (strict : Prop) (z z' : PyStr) (scan : PyStr → Outcome Json) :
    Prop where
  accepts : Accepts scan
  nil : scan [] = .error expectingValue []
  strings : ReadsStrings scan
  simulates : Simulates site strict z z' scan

theorem simulates_scanValue (readFloat : PyStr → PyFloat)
    {within : Option (PyStr → Outcome Json)}
    (hwithin : ∀ scan, within = some scan → Inner site strict z z' scan) :
    Simulates site strict z z' (scanValue readFloat within) := by
  intro cs cs' h
  cases h with
  | same cs => exact .refl (fun v r => ⟨fun _ => rfl, .inl (.same r)⟩) _
  | before a ha =>
      cases a with
      | nil =>
          rw [List.nil_append, List.nil_append, Site.name_append, Site.name_append]
          simp only [scanValue, if_true]
          rw [scanString_name, scanString_name, Outcome.ok_bind, Outcome.ok_bind,
            Site.behind_append, Site.behind_append]
          exact .ok ⟨fun _ => rfl, .inr (.inr (.mk _ site.blank))⟩
      | cons c a =>
          have htail : c ≠ quote → Ahead site strict z z' (a ++ (site.name ++ z))
              (a ++ (site.name ++ z')) := fun hc => (Ahead.before _ ha).drop rfl hc
          rw [List.cons_append, List.cons_append]
          simp only [scanValue]
          split
          · next hc =>
              have hinside : strict → lex .inside a = .outside := by
                intro hstrict
                have := ha hstrict
                rwa [lex, List.foldl_cons, hc] at this
              refine (agree_scanString hinside).bind ?_
              rintro s r s' r' - - ⟨rfl, hr⟩
              refine .ok ⟨fun _ => rfl, ?_⟩
              rcases hr with hr | ⟨hloose, hr | hr⟩
              · exact .inl hr
              · exact .inr (.inl ⟨hloose, hr⟩)
              · exact .inr (.inr hr)
          · next hc =>
              split
              · cases hw : within with
                | none => exact .recursionError
                | some scan =>
                    obtain ⟨hacc, hnil, hstr, hsim⟩ := hwithin scan hw
                    simp only [scanObject]
                    exact agree_closed (.inl rfl) (htail hc).skip
                      (agree_scanMembers hz hz' hacc hstr hsim (Nat.le_refl _) (Nat.le_refl _)
                        (fun _ => rfl) (htail hc).skip)
              · split
                · cases hw : within with
                  | none => exact .recursionError
                  | some scan =>
                      obtain ⟨hacc, hnil, hstr, hsim⟩ := hwithin scan hw
                      simp only [scanArray]
                      exact agree_closed (.inr rfl) (htail hc).skip
                        (agree_scanElements hacc hnil hsim (Nat.le_refl _) (Nat.le_refl _)
                          (fun _ => rfl) (htail hc).skip)
                · exact agree_scanAtom readFloat ha

theorem inner_scanOnce (readFloat : PyStr → PyFloat) (limit : Nat) :
    Inner site strict z z' (scanOnce readFloat limit) := by
  have hstr : ∀ within, ReadsStrings (scanValue readFloat within) := fun within rest => rfl
  induction limit with
  | zero =>
      refine ⟨accepts_scanOnce readFloat 0, rfl, hstr none, ?_⟩
      refine simulates_scanValue hz hz' readFloat fun scan hscan => ?_
      cases hscan
  | succ limit ih =>
      refine ⟨accepts_scanOnce readFloat (limit + 1), rfl, hstr _, ?_⟩
      refine simulates_scanValue hz hz' readFloat fun scan hscan => ?_
      cases hscan
      exact ih

/-- The decoder reads the two texts alike. -/
theorem agree_loads (readFloat : PyStr → PyFloat) (limit : Nat)
    (hfront : strict → lex .outside site.front = .outside) :
    Agree z z' (Alike site strict z z')
      (loads readFloat limit (site.front ++ (site.name ++ z)))
      (loads readFloat limit (site.front ++ (site.name ++ z'))) := by
  have hahead : Ahead site strict z z' (site.front ++ (site.name ++ z))
      (site.front ++ (site.name ++ z')) := .before _ hfront
  rw [loads, loads, ← hahead.head]
  split
  · exact .error _ hahead.apart
  · refine ((inner_scanOnce hz hz' readFloat limit).simulates _ _ hahead.skip).bind ?_
    rintro v r v' r' - - ⟨halike, hbehind⟩
    exact agree_atEnd halike hbehind

end

end

end TradingBroker.Security
