import TradingBroker.Security.Hidden

/-!
# The window around a syntax error

`json_syntax_error` (`broker/app.py`) shows forty characters of a rejected body on either side of
where it stopped being JSON, cut out first and redacted then. The token is hidden if the pattern
finds its name in the window. If the window begins within the name, what it shows of the token
stays in it, and so it does if a match from before runs into the name.

So a position decides, together with how far the name lies in front of it, and with what
stands before the name in the window: a match that begins there and takes the name for a
value goes on behind it, and the string is then put out as it is. `redactText_window_iff`
says it of two strings of one length that hold nothing to escape: their windows are
redacted to one text exactly if the windows show the same of both, or hold the whole name,
spelled as the pattern has it, with no match from before in the way.
-/

namespace TradingBroker.Security

open Lib.Regex

/-! ## The error -/

/-- An item of a `loc`. -/
inductive LocItem where
  | name (s : String)
  | index (n : Nat)
  deriving DecidableEq

/-- The `input` of an error; bytes as `decode("utf-8", "replace")` gives them. -/
inductive ErrorInput where
  | text (raw : PyStr)
  | bytes (decoded : PyStr)
  | other

structure RequestError where
  loc : List LocItem
  input : ErrorInput

def ErrorInput.raw : ErrorInput → Option PyStr
  | .text raw => some raw
  | .bytes decoded => some decoded
  | .other => none

def isLineFeed (c : Nat) : Bool := c == 0x0a

/-- `exc.lineno` and `exc.colno`. -/
def lineno (raw : PyStr) (pos : Nat) : Nat := (raw.take pos).countP isLineFeed + 1

def colno (raw : PyStr) (pos : Nat) : Nat :=
  ((raw.take pos).reverse.takeWhile fun c => !isLineFeed c).length + 1

/-- `raw[max(0, exc.pos - 40) : exc.pos + 40]`. -/
def snippet (raw : PyStr) (pos : Nat) : PyStr := (raw.take (pos + 40)).drop (pos - 40)

def describe (msg : String) (raw : PyStr) (pos : Nat) : PyStr :=
  pyStr (msg ++ " at line " ++ toString (lineno raw pos) ++ " column " ++
    toString (colno raw pos) ++ " — near: …") ++ (redactText (snippet raw pos) ++ [0x2026])

/-- `json_syntax_error`; the outer `none` is the `RecursionError`. -/
def jsonSyntaxError (readFloat : PyStr → PyFloat) (limit : Nat) :
    List RequestError → Option (Option PyStr)
  | [] => some none
  | e :: es =>
      if e.loc = [.name "body"] then
        match e.input.raw with
        | none => jsonSyntaxError readFloat limit es
        | some raw =>
            match loads readFloat limit raw with
            | .error msg left => some (some (describe msg raw (raw.length - left.length)))
            | .recursionError => none
            | _ => jsonSyntaxError readFloat limit es
      else jsonSyntaxError readFloat limit es

/-- What is reported of a body that is no JSON. -/
def bodyError (raw : PyStr) : List RequestError := [⟨[.name "body"], .text raw⟩]

theorem jsonSyntaxError_body {readFloat : PyStr → PyFloat} {limit : Nat} {raw left : PyStr}
    {msg : String} (h : loads readFloat limit raw = .error msg left) :
    jsonSyntaxError readFloat limit (bodyError raw) =
      some (some (describe msg raw (raw.length - left.length))) := by
  rw [bodyError, jsonSyntaxError, if_pos rfl]
  simp only [ErrorInput.raw, h]

/-! ## Plain strings -/

/-- Free of quotes, backslashes and control characters. -/
def Plain (s : PyStr) : Prop := ∀ c ∈ s, c ≠ quote ∧ c ≠ backslash ∧ 0x1f < c

instance (s : PyStr) : Decidable (Plain s) :=
  inferInstanceAs (Decidable (∀ c ∈ s, c ≠ quote ∧ c ≠ backslash ∧ 0x1f < c))

variable {s s' : PyStr} {site : Site} {pos : Nat}

theorem Plain.quote_not_mem (h : Plain s) : quote ∉ s := fun hmem => (h quote hmem).1 rfl

theorem Plain.read (h : Plain s) :
    readChars .plain s = some (.plain, (s.map fun c => (c, false)).reverse) := by
  induction s with
  | nil => rfl
  | cons c s ih =>
      rw [Plain, List.forall_mem_cons] at h
      obtain ⟨⟨hquote, hslash, hcontrol⟩, hs⟩ := h
      have hstep : charStep .plain c true = .next .plain [(c, false)] := by
        rw [charStep, if_neg hquote, if_neg hslash, if_neg (by omega)]
      rw [readChars, hstep]
      simp only
      rw [ih hs, Option.map_some, List.map_cons, List.reverse_cons]

theorem joinSurrogates_map (s : PyStr) : joinSurrogates (s.map fun c => (c, false)) = s := by
  induction s with
  | nil => rfl
  | cons c s ih => rw [List.map_cons, joinSurrogates_cons, ih]

/-- A plain string is its own text. -/
theorem Plain.encodes (h : Plain s) : Encodes s s := by
  rw [Encodes, scanString, scanChars_of_read h.read (by simp)]
  show Outcome.ok (joinSurrogates ((s.map fun c => (c, false)).reverse ++ []).reverse) [] = _
  rw [List.append_nil, List.reverse_reverse, joinSurrogates_map]

theorem Plain.map_isLineFeed (h : Plain s) :
    s.map isLineFeed = List.replicate s.length false := by
  refine List.eq_replicate_iff.2 ⟨List.length_map _, fun b hb => ?_⟩
  obtain ⟨c, hc, rfl⟩ := List.mem_map.1 hb
  have := (h c hc).2.2
  exact beq_eq_false_iff_ne.2 (by omega)

/-! ## Positions -/

theorem lineno_eq (raw : PyStr) (pos : Nat) :
    lineno raw pos = ((raw.map isLineFeed).take pos).countP id + 1 := by
  rw [lineno, ← List.map_take, List.countP_map]
  rfl

theorem colno_eq (raw : PyStr) (pos : Nat) :
    colno raw pos = (((raw.map isLineFeed).take pos).reverse.takeWhile not).length + 1 := by
  rw [colno, ← List.map_take, ← List.map_reverse, List.takeWhile_map, List.length_map]
  rfl

theorem map_isLineFeed_text (hs : Plain s) (hs' : Plain s') (hlen : s.length = s'.length) :
    (site.text s).map isLineFeed = (site.text s').map isLineFeed := by
  simp only [Site.text, List.map_append, hs.map_isLineFeed, hs'.map_isLineFeed, hlen]

/-- The position is in the same line and column of both. -/
theorem describe_eq_iff {msg : String} (hs : Plain s) (hs' : Plain s')
    (hlen : s.length = s'.length) :
    describe msg (site.text s) pos = describe msg (site.text s') pos ↔
      redactText (snippet (site.text s) pos) = redactText (snippet (site.text s') pos) := by
  rw [describe, describe, lineno_eq, lineno_eq, colno_eq, colno_eq,
    map_isLineFeed_text hs hs' hlen, List.append_cancel_left_eq, List.append_cancel_right_eq]

/-! ## What the window shows -/

/-- How much of a text is before the string. -/
def Site.start (site : Site) : Nat := (site.front ++ site.name).length

/-- What a window around a position shows of the string. -/
def Site.visible (site : Site) (pos : Nat) (s : PyStr) : PyStr :=
  (s.take (pos + 40 - site.start)).drop (pos - 40 - site.start)

theorem window_append (a b : PyStr) (v w : Nat) :
    ((a ++ b).take w).drop v =
      (a.take w).drop v ++ (b.take (w - a.length)).drop (v - a.length) := by
  rw [List.take_append, List.drop_append, List.length_take]
  rcases Nat.le_total w a.length with h | h
  · have hzero : w - a.length = 0 := by omega
    rw [hzero, List.take_zero, List.drop_nil, List.drop_nil]
  · rw [Nat.min_eq_right h]

theorem length_visible (hlen : s.length = s'.length) :
    (site.visible pos s).length = (site.visible pos s').length := by
  simp only [Site.visible, List.length_drop, List.length_take, hlen]

theorem Plain.visible (h : Plain s) : quote ∉ site.visible pos s := fun hmem =>
  h.quote_not_mem (List.mem_of_mem_take (List.mem_of_mem_drop hmem))

/-- What the window shows behind the string. -/
def Site.shownBehind (site : Site) (pos n : Nat) : PyStr :=
  ((quote :: site.back).take (pos + 40 - site.start - n)).drop (pos - 40 - site.start - n)

theorem snippet_text (s : PyStr) (pos : Nat) :
    snippet (site.text s) pos = snippet (site.front ++ site.name) pos ++
      (site.visible pos s ++ site.shownBehind pos s.length) := by
  rw [snippet, Site.text, ← List.append_assoc, window_append (site.front ++ site.name),
    window_append s]
  rfl

/-- Where something of the string shows, the window goes as far as the string. -/
theorem snippet_name (h : site.visible pos s ≠ []) :
    snippet (site.front ++ site.name) pos =
      site.front.drop (pos - 40) ++ site.name.drop (pos - 40 - site.front.length) := by
  have hlong : site.start ≤ pos + 40 := by
    by_contra hshort
    refine h ?_
    have hzero : pos + 40 - site.start = 0 := by omega
    rw [Site.visible, hzero, List.take_zero, List.drop_nil]
  rw [snippet, List.take_of_length_le hlong, List.drop_append]

/-! ## What leaks -/

/-- Behind a quote that begins no match within the name, a string shows. -/
theorem redactText_quote {v : PyStr} (hv : quote ∉ v) (rest : PyStr) :
    ∃ more, redactText (quote :: (v ++ rest)) = quote :: (v ++ more) := by
  cases hfind : secretInText (quote :: (v ++ rest)) with
  | none =>
      refine ⟨redactText rest, ?_⟩
      rw [redactText, sub_cons_of_none hfind, ← redactText, redactText_append_of_not_mem hv]
  | some r =>
      obtain ⟨sp, sp', value, -, -, htext, hout, hrest⟩ := secretInText_eq_some.1 hfind
      rw [opener] at htext hout
      have hword : v ++ rest = token ++ quote :: (sp ++ colon :: (sp' ++ quote :: value)) := by
        refine (List.cons.inj htext).2.trans ?_
        simp
      have hpre : ∃ more, token = v ++ more := by
        rcases List.append_eq_append_iff.1 hword with ⟨more, h, -⟩ | ⟨more, h, h'⟩
        · exact ⟨more, h⟩
        · cases more with
          | nil => exact ⟨[], by rw [h, List.append_nil, List.append_nil]⟩
          | cons c more =>
              refine absurd ?_ hv
              rw [h, (List.cons.inj h').1]
              exact List.mem_append_right _ List.mem_cons_self
      obtain ⟨more, hmore⟩ := hpre
      have hsuffix : r.2 <:+ v ++ rest := by
        have hvalue : r.2 <:+ value := by
          rw [hrest]
          exact (List.drop_suffix 1 _).trans (List.dropWhile_suffix notQuote)
        refine hvalue.trans ⟨token ++ quote :: (sp ++ colon :: (sp' ++ [quote])), ?_⟩
        rw [hword]
        simp
      rw [redactText, sub_of_some hfind hsuffix, hout, hmore]
      simp only [List.cons_append, List.append_assoc]
      exact ⟨_, rfl⟩

/-- From within the name on, or from its first quote if it is not spelled as the pattern has it,
the string shows. -/
theorem redactText_shows {j : Nat} {v : PyStr} (hwhole : j ≠ 0 ∨ site.key ≠ token)
    (hv : quote ∉ v) (rest : PyStr) :
    ∃ more, redactText (site.name.drop j ++ (v ++ rest)) = site.name.drop j ++ (v ++ more) := by
  rcases Nat.lt_or_ge site.lead.length j with hj | hj
  · have hnil : site.name.drop j = [] := by
      rw [List.drop_eq_nil_iff, Site.name_eq_lead, List.length_append, List.length_singleton]
      omega
    refine ⟨redactText rest, ?_⟩
    rw [hnil, List.nil_append, List.nil_append, redactText_append_of_not_mem hv]
  · obtain ⟨more, hmore⟩ := redactText_quote hv rest
    refine ⟨more, ?_⟩
    rw [Site.name_eq_lead, List.drop_append_of_le_length hj, List.append_assoc,
      List.singleton_append, redactText_lead hwhole, hmore, List.append_assoc,
      List.singleton_append]

/-- No match that begins in the window before the name runs into it. -/
def Site.Reached (site : Site) (from' : Nat) : Prop :=
  pending secretInText site.name 0 (site.front.drop from') = 0

/-- The window shows the same of the two strings, or it has the whole name, spelled as the pattern
has it, and the pattern comes to it. -/
def Site.WindowHidden (site : Site) (pos : Nat) (s s' : PyStr) : Prop :=
  site.visible pos s = site.visible pos s' ∨
    site.key = token ∧ pos - 40 ≤ site.front.length ∧ site.Reached (pos - 40)

/-! ## Two windows -/

/-- Where the window has the whole name and the pattern comes to it, what it puts out does not
depend on the string. -/
theorem redactText_covered (hkey : site.key = token) (hreached : site.Reached (pos - 40))
    {v : PyStr} (hv : quote ∉ v) (rest : PyStr) :
    redactText (site.front.drop (pos - 40) ++ (site.name ++ (v ++ rest))) =
      emitted secretInText site.name 0 (site.front.drop (pos - 40)) ++
        (site.name ++ (redacted ++ [quote]) ++ redactText (afterQuote rest)) := by
  rw [redactText_before, hreached, List.drop_zero, redactText_name hkey, afterQuote_of_not_mem hv]

/-- What is put out before the string, where the string shows. -/
def Site.putBefore (site : Site) (pos : Nat) : PyStr :=
  emitted secretInText site.name 0 (site.front.drop (pos - 40)) ++
    site.name.drop (max (pos - 40 - site.front.length)
      (pending secretInText site.name 0 (site.front.drop (pos - 40))))

/-- Where the window has not the whole name, or the pattern does not come to it, the string
shows. -/
theorem redactText_uncovered
    (h : ¬ (site.key = token ∧ pos - 40 ≤ site.front.length ∧ site.Reached (pos - 40)))
    {v : PyStr} (hv : quote ∉ v) (rest : PyStr) :
    ∃ more, redactText (site.front.drop (pos - 40) ++
        (site.name.drop (pos - 40 - site.front.length) ++ (v ++ rest))) =
      site.putBefore pos ++ (v ++ more) := by
  rcases Nat.lt_or_ge site.front.length (pos - 40) with hin | hbefore
  · obtain ⟨more, hmore⟩ : ∃ more, redactText (site.name.drop (pos - 40 - site.front.length) ++
        (v ++ rest)) = site.name.drop (pos - 40 - site.front.length) ++ (v ++ more) :=
      redactText_shows (.inl (by omega)) hv rest
    refine ⟨more, ?_⟩
    rw [Site.putBefore, List.drop_eq_nil_of_le (by omega), emitted, pending, Nat.max_zero,
      List.nil_append, List.nil_append, hmore]
  · have hwhole : pending secretInText site.name 0 (site.front.drop (pos - 40)) ≠ 0 ∨
        site.key ≠ token := by
      by_contra hboth
      rw [not_or, not_not, not_not] at hboth
      exact h ⟨hboth.2, hbefore, hboth.1⟩
    have hzero : pos - 40 - site.front.length = 0 := by omega
    obtain ⟨more, hmore⟩ := redactText_shows hwhole hv rest
    refine ⟨more, ?_⟩
    rw [Site.putBefore, hzero, List.drop_zero, redactText_before,
      List.drop_append_of_le_length (pending_le (Nat.zero_le _)), hmore, Nat.zero_max,
      List.append_assoc]

/-- Two windows around one position are redacted to one text only where they hide the string. -/
theorem redactText_window_iff (hs : Plain s) (hs' : Plain s') (hlen : s.length = s'.length) :
    redactText (snippet (site.text s) pos) = redactText (snippet (site.text s') pos) ↔
      site.WindowHidden pos s s' := by
  have hlength : (site.visible pos s).length = (site.visible pos s').length :=
    length_visible hlen
  by_cases hshown : site.visible pos s = site.visible pos s'
  · rw [snippet_text, snippet_text, hshown, hlen]
    exact iff_of_true rfl (.inl hshown)
  · have hne : site.visible pos s ≠ [] := by
      intro hnil
      rw [hnil, List.length_nil] at hlength
      exact hshown (hnil.trans (List.length_eq_zero_iff.1 hlength.symm).symm)
    have hne' : site.visible pos s' ≠ [] := by
      intro hnil
      rw [hnil, List.length_nil] at hlength
      exact hne (List.length_eq_zero_iff.1 hlength)
    have hsnippet : snippet (site.text s) pos = site.front.drop (pos - 40) ++
        (site.name.drop (pos - 40 - site.front.length) ++
          (site.visible pos s ++ site.shownBehind pos s.length)) := by
      rw [snippet_text, snippet_name hne, List.append_assoc]
    have hsnippet' : snippet (site.text s') pos = site.front.drop (pos - 40) ++
        (site.name.drop (pos - 40 - site.front.length) ++
          (site.visible pos s' ++ site.shownBehind pos s.length)) := by
      rw [snippet_text, snippet_name hne', List.append_assoc, hlen]
    rw [hsnippet, hsnippet', Site.WindowHidden, or_iff_right hshown]
    constructor
    · intro heq
      by_contra hcovered
      obtain ⟨more, hmore⟩ := redactText_uncovered hcovered hs.visible
        (site.shownBehind pos s.length)
      obtain ⟨more', hmore'⟩ := redactText_uncovered hcovered hs'.visible
        (site.shownBehind pos s.length)
      rw [hmore, hmore', List.append_cancel_left_eq] at heq
      exact hshown (List.append_inj heq hlength).1
    · rintro ⟨hkey, hbefore, hreached⟩
      have hzero : pos - 40 - site.front.length = 0 := by omega
      rw [hzero, List.drop_zero, redactText_covered hkey hreached hs.visible,
        redactText_covered hkey hreached hs'.visible]

/-- Two bodies, one plain token apart, that are no JSON: what is reported of them is one if the
window hides the token. -/
theorem window_hidden {readFloat : PyStr → PyFloat} {limit : Nat} {msg : String} {left : PyStr}
    (hs : Plain s) (hs' : Plain s') (hlen : s.length = s'.length)
    (h : loads readFloat limit (site.text s) = .error msg left) :
    jsonSyntaxError readFloat limit (bodyError (site.text s)) =
        jsonSyntaxError readFloat limit (bodyError (site.text s')) ↔
      site.WindowHidden ((site.text s).length - left.length) s s' := by
  have hagree : Agree (s ++ quote :: site.back) (s' ++ quote :: site.back)
      (Alike site False (s ++ quote :: site.back) (s' ++ quote :: site.back))
      (loads readFloat limit (site.text s)) (loads readFloat limit (site.text s')) :=
    agree_loads (hs.encodes.scan site.back) (hs'.encodes.scan site.back) readFloat limit False.elim
  rw [h] at hagree
  generalize ho : loads readFloat limit (site.text s') = o at hagree
  cases hagree with
  | error msg hapart =>
      rename_i left'
      have htext : (site.text s).length = (site.text s').length := by
        simp only [Site.text, List.length_append, List.length_cons, hlen]
      have hleft : left.length = left'.length := by
        rcases hapart with rfl | ⟨a, rfl, rfl⟩
        · rfl
        · simp only [List.length_append, List.length_cons, hlen]
      rw [jsonSyntaxError_body h, jsonSyntaxError_body ho, ← htext, ← hleft, Option.some_inj,
        Option.some_inj, describe_eq_iff hs hs' hlen]
      exact redactText_window_iff hs hs' hlen

/-! ## What redaction hides -/

/-- Redaction hides the token in the value of a document always, in its text where the name is
spelled as the pattern has it and the two strings are the same behind their first quotes, and in
the window of a syntax error where the window hides it. -/
theorem redaction_hides_token_iff (readFloat : PyStr → PyFloat) (limit : Nat) (site : Site) :
    (∀ (body body' s s' : PyStr) (v : Json) (rest : PyStr), site.InDocument → Encodes body s →
      Encodes body' s' → loads readFloat limit (site.text body) = .ok v rest →
      ∃ v' rest', loads readFloat limit (site.text body') = .ok v' rest' ∧
        ((redactSecrets v = redactSecrets v' ∧
            redactText (site.text body) = redactText (site.text body')) ↔
          site.TextHidden body body')) ∧
    (∀ (s s' : PyStr) (msg : String) (left : PyStr), Plain s → Plain s' → s.length = s'.length →
      loads readFloat limit (site.text s) = .error msg left →
      (jsonSyntaxError readFloat limit (bodyError (site.text s)) =
          jsonSyntaxError readFloat limit (bodyError (site.text s')) ↔
        site.WindowHidden ((site.text s).length - left.length) s s')) :=
  ⟨fun _ _ _ _ _ _ hsite hbody hbody' h => document_hidden hbody hbody' hsite h,
    fun _ _ _ _ hs hs' hlen h => window_hidden hs hs' hlen h⟩

/-- An object of one token, and what is behind it. -/
def tokenSite (back : PyStr) : Site where
  front := [0x7b]
  key := token
  sp := []
  sp' := [0x20]
  back := back
  spells := by decide
  blank := by decide
  blank' := by decide

def escapedToken (c : Nat) : PyStr := [0x61, backslash, quote, c]

/-- As long as a uuid. -/
def longToken (c : Nat) : PyStr := List.replicate 36 c

/-- `{"token": "a\"b"}`, and `{"token": "aaa…", x}`. -/
theorem redaction_hides_token_iff_sample :
    (∃ v' rest', loads (fun _ => .nan) 9 ((tokenSite [0x7d]).text (escapedToken 0x63)) =
        .ok v' rest' ∧
      ((redactSecrets (.obj [(token, .str [0x61, quote, 0x62])]) = redactSecrets v' ∧
          redactText ((tokenSite [0x7d]).text (escapedToken 0x62)) =
            redactText ((tokenSite [0x7d]).text (escapedToken 0x63))) ↔
        (tokenSite [0x7d]).TextHidden (escapedToken 0x62) (escapedToken 0x63))) ∧
    (jsonSyntaxError (fun _ => .nan) 9 (bodyError ((tokenSite (pyStr ", x\x7d")).text
          (longToken 0x61))) =
        jsonSyntaxError (fun _ => .nan) 9 (bodyError ((tokenSite (pyStr ", x\x7d")).text
          (longToken 0x62))) ↔
      (tokenSite (pyStr ", x\x7d")).WindowHidden 50 (longToken 0x61) (longToken 0x62)) := by
  constructor
  · exact (redaction_hides_token_iff (fun _ => .nan) 9 (tokenSite [0x7d])).1
      (escapedToken 0x62) (escapedToken 0x63) [0x61, quote, 0x62] [0x61, quote, 0x63]
      (.obj [(token, .str [0x61, quote, 0x62])]) [] (by decide) (by decide) (by decide) rfl
  · exact (redaction_hides_token_iff (fun _ => .nan) 9 (tokenSite (pyStr ", x\x7d"))).2
      (longToken 0x61) (longToken 0x62) expectingName (pyStr "x\x7d") (by decide) (by decide) rfl rfl

/-- The rest of a token behind an escaped quote is in the text, and a window that begins behind
the name shows the token. -/
theorem not_redaction_hides_token :
    (¬ ∀ (readFloat : PyStr → PyFloat) (limit : Nat) (site : Site) (body body' s s' : PyStr)
        (v v' : Json) (rest rest' : PyStr), site.InDocument → Encodes body s → Encodes body' s' →
      loads readFloat limit (site.text body) = .ok v rest →
      loads readFloat limit (site.text body') = .ok v' rest' →
      redactSecrets v = redactSecrets v' ∧
        redactText (site.text body) = redactText (site.text body')) ∧
    (¬ ∀ (readFloat : PyStr → PyFloat) (limit : Nat) (site : Site) (s s' : PyStr) (msg : String)
        (left : PyStr), Plain s → Plain s' → s.length = s'.length →
      loads readFloat limit (site.text s) = .error msg left →
      jsonSyntaxError readFloat limit (bodyError (site.text s)) =
        jsonSyntaxError readFloat limit (bodyError (site.text s'))) := by
  constructor
  · intro h
    have heq := (h (fun _ => .nan) 9 (tokenSite [0x7d]) (escapedToken 0x62) (escapedToken 0x63)
      [0x61, quote, 0x62] [0x61, quote, 0x63] _ _ [] [] (by decide) (by decide) (by decide)
      rfl rfl).2
    revert heq
    decide +kernel
  · intro h
    have heq := h (fun _ => .nan) 9 (tokenSite (pyStr ", x\x7d")) (longToken 0x61) (longToken 0x62)
      expectingName (pyStr "x\x7d") (by decide) (by decide) rfl rfl
    revert heq
    decide +kernel

end TradingBroker.Security
