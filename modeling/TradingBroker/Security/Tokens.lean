import TradingBroker.Security.Lexed

/-!
# The token before

`run` reads a text of JSON character by character and keeps the token before, as much of it as
tells what may come next: behind a value a comma or a closing bracket, behind a string that may be
a name also a colon. It takes more than the decoder does, an array closed by a brace for one, but
all that the decoder takes (`run_of_loads`).

What it is for is to say what a text that the decoder takes looks like at a given place,
without running the decoder there: behind a prefix that `run` takes, the place is known,
and with it whether a name may come next. So `Accepts` is shown of each scanner, one
within the other, by induction on the recursion limit.
-/

namespace TradingBroker.Security

/-- The token before; `start` is also an opening bracket, and `name` a string that may be one. -/
inductive Prev where
  | start
  | brace
  | comma
  | colon
  | name
  | value
  deriving DecidableEq

/-- Whether a value may come next. -/
def Prev.opens (prev : Prev) : Bool := prev != .name && prev != .value

/-- Whether a name may. -/
def Prev.names (prev : Prev) : Bool := prev == .brace || prev == .comma

/-- Between tokens, or within one. -/
inductive Place where
  | gap (prev : Prev)
  | atom
  | inside (named : Bool)
  | escaped (named : Bool)
  deriving DecidableEq

def isAtomCode (c : Nat) : Bool :=
  !(isJsonSpace c ||
    [quote, comma, colon, openBrace, closeBrace, openBracket, closeBracket].contains c)

/-- Behind a value. -/
def endStep (c : Nat) : Option Place :=
  if c = comma then some (.gap .comma)
  else if c = closeBrace ∨ c = closeBracket then some (.gap .value)
  else none

/-- Where a value may come. -/
def openStep (prev : Prev) (c : Nat) : Option Place :=
  if c = quote then some (.inside prev.names)
  else if c = openBrace then some (.gap .brace)
  else if c = openBracket then some (.gap .start)
  else if c = closeBrace ∨ c = closeBracket then
    if prev = .brace ∨ prev = .start then some (.gap .value) else none
  else if isAtomCode c then some .atom
  else none

def placeStep : Place → Nat → Option Place
  | .gap prev, c =>
      if isJsonSpace c then some (.gap prev)
      else if prev.opens then openStep prev c
      else if prev = .name ∧ c = colon then some (.gap .colon)
      else endStep c
  | .atom, c =>
      if isJsonSpace c then some (.gap .value)
      else if isAtomCode c then some .atom
      else endStep c
  | .inside named, c =>
      if c = quote then some (.gap (if named then .name else .value))
      else if c = backslash then some (.escaped named)
      else some (.inside named)
  | .escaped named, _ => some (.inside named)

def run : Place → PyStr → Option Place
  | p, [] => some p
  | p, c :: cs => (placeStep p c).bind fun p => run p cs

theorem run_append (p : Place) (cs ds : PyStr) :
    run p (cs ++ ds) = (run p cs).bind fun p => run p ds := by
  induction cs generalizing p with
  | nil => rfl
  | cons c cs ih =>
      rw [List.cons_append, run, run]
      cases placeStep p c with
      | none => rfl
      | some q => exact ih q

def Place.lexed : Place → Lex
  | .gap _ => .outside
  | .atom => .outside
  | .inside _ => .inside
  | .escaped _ => .escaped

theorem quote_ne_space {c : Nat} (h : isJsonSpace c = true) : c ≠ quote := by
  rintro rfl
  cases h

theorem lexed_endStep {c : Nat} {q : Place} (h : endStep c = some q) :
    lexStep .outside c = q.lexed := by
  rw [endStep] at h
  split at h
  · next hc =>
      cases h
      rw [hc]
      rfl
  · split at h
    · next hc =>
        cases h
        rcases hc with rfl | rfl <;> rfl
    · cases h

/-- What may open a value, or close an empty object or array. -/
theorem openStep_cases {prev : Prev} {c : Nat} {q : Place} (h : openStep prev c = some q) :
    c = quote ∧ q = .inside prev.names ∨ c = openBrace ∧ q = .gap .brace ∨
      c = openBracket ∧ q = .gap .start ∨ (c = closeBrace ∨ c = closeBracket) ∧ q = .gap .value ∨
        isAtomCode c = true ∧ q = .atom := by
  rw [openStep] at h
  split at h
  · next hc => exact .inl ⟨hc, (Option.some.inj h).symm⟩
  · split at h
    · next hc => exact .inr (.inl ⟨hc, (Option.some.inj h).symm⟩)
    · split at h
      · next hc => exact .inr (.inr (.inl ⟨hc, (Option.some.inj h).symm⟩))
      · split at h
        · next hc =>
            split at h
            · exact .inr (.inr (.inr (.inl ⟨hc, (Option.some.inj h).symm⟩)))
            · cases h
        · split at h
          · next hc => exact .inr (.inr (.inr (.inr ⟨hc, (Option.some.inj h).symm⟩)))
          · cases h

theorem lexed_openStep {prev : Prev} {c : Nat} {q : Place} (h : openStep prev c = some q) :
    lexStep .outside c = q.lexed := by
  rcases openStep_cases h with ⟨rfl, rfl⟩ | ⟨rfl, rfl⟩ | ⟨rfl, rfl⟩ | ⟨hc, rfl⟩ | ⟨hc, rfl⟩
  · rfl
  · rfl
  · rfl
  · rcases hc with rfl | rfl <;> rfl
  · refine if_neg ?_
    rintro rfl
    cases hc

theorem lexed_placeStep {p q : Place} {c : Nat} (h : placeStep p c = some q) :
    lexStep p.lexed c = q.lexed := by
  cases p with
  | gap prev =>
      simp only [placeStep] at h
      split at h
      · next hspace =>
          cases h
          exact if_neg (quote_ne_space hspace)
      · split at h
        · exact lexed_openStep h
        · split at h
          · next hc =>
              cases h
              rw [hc.2]
              rfl
          · exact lexed_endStep h
  | atom =>
      simp only [placeStep] at h
      split at h
      · next hspace =>
          cases h
          exact if_neg (quote_ne_space hspace)
      · split at h
        · next hatom =>
            cases h
            refine if_neg ?_
            rintro rfl
            cases hatom
        · exact lexed_endStep h
  | inside named =>
      simp only [placeStep] at h
      rw [Place.lexed, lexStep]
      split at h
      · next hc =>
          cases h
          rw [if_pos hc]
          rfl
      · next hc =>
          rw [if_neg hc]
          split at h
          · next hslash =>
              cases h
              rw [if_pos hslash]
              rfl
          · next hslash =>
              cases h
              rw [if_neg hslash]
              rfl
  | escaped named =>
      cases h
      rfl

theorem lexed_run {p q : Place} {cs : PyStr} (h : run p cs = some q) :
    lex p.lexed cs = q.lexed := by
  induction cs generalizing p with
  | nil =>
      cases h
      rfl
  | cons c cs ih =>
      obtain ⟨mid, hstep, hrun⟩ := Option.bind_eq_some_iff.1 h
      rw [lex, List.foldl_cons, lexed_placeStep hstep]
      exact ih hrun

/-! ## What a scan takes -/

/-- A text is run down to what is left of it, to a place that meets a condition. -/
def Runs (p : Place) (cs rest : PyStr) (good : Place → Prop) : Prop :=
  ∃ used q, cs = used ++ rest ∧ run p used = some q ∧ good q

/-- Behind a value. -/
def Place.Done (p : Place) : Prop := p = .atom ∨ p = .gap .name ∨ p = .gap .value

section
variable {p q : Place} {cs mid rest : PyStr} {good good' : Place → Prop}

theorem Runs.nil (h : good p) : Runs p cs cs good := ⟨[], p, rfl, rfl, h⟩

theorem Runs.trans (h : Runs p cs mid good) (h' : ∀ q, good q → Runs q mid rest good') :
    Runs p cs rest good' := by
  obtain ⟨used, q, rfl, hrun, hgood⟩ := h
  obtain ⟨used', r, rfl, hrun', hgood'⟩ := h' q hgood
  refine ⟨used ++ used', r, (List.append_assoc _ _ _).symm, ?_, hgood'⟩
  rw [run_append, hrun]
  exact hrun'

theorem Runs.step {c : Nat} (hstep : placeStep p c = some q) (h : Runs q cs rest good) :
    Runs p (c :: cs) rest good := by
  obtain ⟨used, r, rfl, hrun, hgood⟩ := h
  refine ⟨c :: used, r, rfl, ?_, hgood⟩
  rw [run, hstep]
  exact hrun

theorem Runs.length_le (h : Runs p cs rest good) : rest.length ≤ cs.length := by
  obtain ⟨used, q, rfl, -, -⟩ := h
  rw [List.length_append]
  omega

theorem runs_skipSpace (prev : Prev) : Runs (.gap prev) cs (skipSpace cs) (· = .gap prev) := by
  induction cs with
  | nil => exact .nil rfl
  | cons c cs ih =>
      rw [skipSpace]
      by_cases hc : isJsonSpace c = true
      · rw [List.dropWhile_cons_of_pos hc]
        exact .step (if_pos hc) ih
      · rw [List.dropWhile_cons_of_neg hc]
        exact .nil rfl

theorem runs_skipSpace_done (h : p.Done) : Runs p cs (skipSpace cs) Place.Done := by
  have hgap : ∀ prev : Prev, (Place.gap prev).Done →
    Runs (.gap prev) cs (skipSpace cs) Place.Done := by
    intro prev hprev
    refine (runs_skipSpace prev).trans ?_
    rintro q rfl
    exact .nil hprev
  rcases h with rfl | rfl | rfl
  · cases cs with
    | nil => exact .nil (.inl rfl)
    | cons c cs =>
        rw [skipSpace]
        by_cases hc : isJsonSpace c = true
        · rw [List.dropWhile_cons_of_pos hc]
          refine .step (if_pos hc) ((runs_skipSpace .value).trans ?_)
          rintro q rfl
          exact .nil (.inr (.inr rfl))
        · rw [List.dropWhile_cons_of_neg hc]
          exact .nil (.inl rfl)
  · exact hgap .name (.inr (.inl rfl))
  · exact hgap .value (.inr (.inr rfl))

/-- What may come behind a value. -/
theorem placeStep_done {c : Nat} (h : p.Done) (hc : c = comma ∨ c = closeBrace ∨ c = closeBracket) :
    placeStep p c = endStep c := by
  rcases h with rfl | rfl | rfl <;> rcases hc with rfl | rfl | rfl <;> rfl

theorem eq_cons_of_head {c : Nat} (h : cs.head? = some c) : cs = c :: cs.drop 1 := by
  cases cs with
  | nil => cases h
  | cons d cs =>
      cases h
      rfl

theorem runs_delimiter {close : Nat} {trailing : String} {closed : Bool} (hp : p.Done)
    (hclose : close = closeBrace ∨ close = closeBracket)
    (h : scanDelimiter close trailing cs = .ok closed rest) :
    Runs p cs rest (· = .gap (if closed then .value else .comma)) := by
  rw [scanDelimiter] at h
  refine (runs_skipSpace_done hp).trans fun q hq => ?_
  split at h
  · next hhead =>
      cases h
      have hend : placeStep q close = some (.gap .value) := by
        rw [placeStep_done hq (.inr hclose)]
        rcases hclose with rfl | rfl <;> rfl
      rw [eq_cons_of_head hhead]
      exact .step hend (.nil rfl)
  · simp only at h
    split at h
    · next hhead =>
        split at h
        · cases h
        · cases h
          rw [eq_cons_of_head hhead]
          have hend : placeStep q comma = some (.gap .comma) := placeStep_done hq (.inl rfl)
          exact .step hend (runs_skipSpace .comma)
    · cases h

theorem runs_scanColon {u : Unit} (h : scanColon cs = .ok u rest) :
    Runs (.gap .name) cs rest (· = .gap .colon) := by
  rw [scanColon] at h
  refine (runs_skipSpace .name).trans ?_
  rintro q rfl
  split at h
  · next hhead =>
      cases h
      rw [eq_cons_of_head hhead]
      exact .step rfl (runs_skipSpace .colon)
  · cases h

end

/-! ## Strings and atoms -/

def CharState.place (named : Bool) : CharState → Place
  | .escape => .escaped named
  | _ => .inside named

section
variable {st st' : CharState} {named more : Bool} {c : Nat} {cs rest body opening : PyStr}
  {acc acc' us : List ReadChar}

theorem placeStep_inside (hquote : c ≠ quote) (hslash : c ≠ backslash) :
    placeStep (.inside named) c = some (.inside named) := by
  rw [placeStep, if_neg hquote, if_neg hslash]

theorem placeStep_charStep (h : charStep st c more = .next st' us) :
    placeStep (st.place named) c = some (st'.place named) := by
  cases st with
  | plain =>
      simp only [charStep] at h
      split at h
      · cases h
      · next hquote =>
          split at h
          · next hslash =>
              cases h
              show placeStep (.inside named) c = _
              rw [placeStep, if_neg hquote, if_pos hslash]
              rfl
          · next hslash =>
              split at h
              · cases h
              · cases h
                exact placeStep_inside hquote hslash
  | escape =>
      simp only [charStep] at h
      split at h
      · cases h
        rfl
      · split at h
        · cases h
          rfl
        · cases h
  | hex seen value =>
      simp only [charStep] at h
      split at h
      · cases h
      · next d hd =>
          obtain ⟨hquote, hslash⟩ := ne_of_hexDigit hd
          split at h
          · cases h
            exact placeStep_inside hquote hslash
          · split at h
            · cases h
              exact placeStep_inside hquote hslash
            · cases h

theorem charStep_done (h : charStep st c more = .done) : st = .plain ∧ c = quote := by
  cases st with
  | plain =>
      simp only [charStep] at h
      split at h
      · next hc => exact ⟨rfl, hc⟩
      · split at h
        · cases h
        · split at h <;> cases h
  | escape =>
      simp only [charStep] at h
      split at h
      · cases h
      · split at h <;> cases h
  | hex seen value =>
      simp only [charStep] at h
      split at h
      · cases h
      · split at h
        · cases h
        · split at h <;> cases h

theorem run_read (h : readChars st body = some (st', us)) :
    run (st.place named) body = some (st'.place named) := by
  induction body generalizing st us with
  | nil =>
      cases h
      rfl
  | cons c cs ih =>
      obtain ⟨mid, read, us', hstep, hread, -⟩ := readChars_cons h
      rw [run, placeStep_charStep hstep]
      exact ih hread

theorem runs_scanChars (h : scanChars opening st acc cs = .ok acc' rest) :
    Runs (st.place named) cs rest (· = .gap (if named then .name else .value)) := by
  induction cs generalizing st acc with
  | nil =>
      rw [scanChars] at h
      cases st <;> cases h
  | cons c cs ih =>
      rw [scanChars] at h
      split at h
      · next hstep =>
          cases h
          obtain ⟨rfl, rfl⟩ := charStep_done hstep
          exact .step rfl (.nil rfl)
      · cases h
      · next mid read hstep => exact .step (placeStep_charStep hstep) (ih h)

theorem runs_scanString {s : PyStr} (h : scanString cs = .ok s rest) :
    Runs (.inside named) cs rest (· = .gap (if named then .name else .value)) := by
  rw [scanString] at h
  cases hscan : scanChars (quote :: cs) .plain [] cs with
  | ok acc left =>
      rw [hscan] at h
      cases h
      have hruns : Runs (CharState.plain.place named) cs rest
          (· = .gap (if named then .name else .value)) := runs_scanChars hscan
      exact hruns
  | error msg left => rw [hscan] at h; cases h
  | valueError => rw [hscan] at h; cases h
  | recursionError => rw [hscan] at h; cases h

theorem digitRun_le (cs : PyStr) : digitRun cs ≤ cs.length :=
  (List.takeWhile_prefix isDigitCode).length_le

theorem fractionRun_le (cs : PyStr) : fractionRun cs ≤ cs.length := by
  have hle := digitRun_le (cs.drop 1)
  rw [List.length_drop] at hle
  rw [fractionRun]
  split <;> omega

theorem exponentRun_le (cs : PyStr) : exponentRun cs ≤ cs.length := by
  rw [exponentRun]
  split
  · simp only
    generalize (if (cs.drop 1).head? = some 0x2b ∨
      (cs.drop 1).head? = some 0x2d then 1 else 0 : Nat)
      = sign
    have hle := digitRun_le (cs.drop (1 + sign))
    rw [List.length_drop] at hle
    split <;> omega
  · omega

/-- A numeral has digits, and is within the text. -/
theorem numeralRun_le {whole more : Nat} (h : numeralRun cs = some (whole, more)) :
    0 < whole ∧ whole + more ≤ cs.length := by
  simp only [numeralRun] at h
  generalize (if cs.head? = some 0x2d then 1 else 0 : Nat) = sign at h
  generalize hwhole : (if (cs.drop sign).head? = some 0x30 then 1 else digitRun (cs.drop sign)) =
    len at h
  have hlen : len ≤ cs.length - sign := by
    rw [← List.length_drop, ← hwhole]
    split
    · next hhead =>
        rw [eq_cons_of_head hhead, List.length_cons]
        omega
    · exact digitRun_le _
  split at h
  · cases h
  · next hne =>
      cases h
      have hfraction := fractionRun_le (cs.drop (sign + len))
      have hexponent := exponentRun_le
        (cs.drop (sign + len + fractionRun (cs.drop (sign + len))))
      simp only [List.length_drop] at hfraction hexponent
      omega

theorem isAtomCode_of_number (h : isNumberCode c = true) : isAtomCode c = true := by
  rw [isNumberCode] at h
  simp only [isDigitCode, Bool.or_eq_true, Bool.and_eq_true, decide_eq_true_eq, beq_iff_eq] at h
  simp [isAtomCode, isJsonSpace, quote, comma, colon, openBrace, closeBrace, openBracket,
    closeBracket]
  omega

theorem run_atom {p : Place} {used : PyStr} (hused : ∀ c ∈ used, isAtomCode c = true)
    (hp : p = .atom ∨ ∃ prev : Prev, p = .gap prev ∧ prev.opens = true ∧ used ≠ []) :
    run p used = some .atom := by
  induction used generalizing p with
  | nil =>
      rcases hp with rfl | ⟨prev, -, -, hne⟩
      · rfl
      · exact absurd rfl hne
  | cons c cs ih =>
      rw [List.forall_mem_cons] at hused
      obtain ⟨hc, hcs⟩ := hused
      have hnot := hc
      rw [isAtomCode] at hnot
      simp only [Bool.not_eq_true', Bool.or_eq_false_iff, List.contains_cons, List.contains_nil,
        beq_eq_false_iff_ne] at hnot
      have hstep : placeStep p c = some .atom := by
        rcases hp with rfl | ⟨prev, rfl, hopens, -⟩
        · rw [placeStep, if_neg (by simp [hnot.1]), if_pos hc]
        · rw [placeStep, if_neg (by simp [hnot.1]), if_pos hopens, openStep]
          simp [hnot, hc]
      rw [run, hstep]
      exact ih hcs (.inl rfl)

/-- The characters of a run, cut anywhere. -/
theorem all_take {p : Nat → Bool} {n : Nat} (h : n ≤ (cs.takeWhile p).length) :
    ∀ c ∈ cs.take n, p c = true := by
  intro c hc
  rw [List.prefix_iff_eq_take.1 (List.takeWhile_prefix (l := cs) p)] at h
  have htake : cs.take n = (cs.takeWhile p).take n := by
    conv_rhs => rw [List.prefix_iff_eq_take.1 (List.takeWhile_prefix (l := cs) p)]
    rw [List.take_take, Nat.min_eq_left (Nat.le_trans h (List.length_take_le _ _))]
  rw [htake] at hc
  exact List.mem_takeWhile_imp (List.mem_of_mem_take hc)

/-- An atom is a word of characters that stand for nothing else. -/
theorem scanAtom_ok {readFloat : PyStr → PyFloat} {v : Json}
    (h : scanAtom readFloat cs = .ok v rest) :
    ∃ used, cs = used ++ rest ∧ used ≠ [] ∧ ∀ c ∈ used, isAtomCode c = true := by
  rw [scanAtom] at h
  cases hfind : constants.find? fun k => k.1.isPrefixOf cs with
  | some k =>
      rw [hfind] at h
      cases h
      have hword : ∀ k ∈ constants, k.1 ≠ [] ∧ ∀ c ∈ k.1, isAtomCode c = true := by decide
      obtain ⟨hne, hall⟩ := hword k (List.mem_of_find?_eq_some hfind)
      have hpre := List.find?_some hfind
      obtain ⟨rest, rfl⟩ := List.isPrefixOf_iff_prefix.1 hpre
      exact ⟨k.1, by rw [List.drop_left], hne, hall⟩
  | none =>
      rw [hfind] at h
      simp only [scanNumber] at h
      cases hrun : numeralRun (cs.takeWhile isNumberCode) with
      | none => rw [hrun] at h; cases h
      | some r =>
          obtain ⟨whole, more⟩ := r
          obtain ⟨hpos, hle⟩ := numeralRun_le hrun
          have hword : ∀ n, 0 < n → n ≤ (cs.takeWhile isNumberCode).length →
              cs = cs.take n ++ cs.drop n ∧ cs.take n ≠ [] ∧
                ∀ c ∈ cs.take n, isAtomCode c = true := by
            intro n hn hrun
            have hlen := (List.takeWhile_prefix (l := cs) isNumberCode).length_le
            refine ⟨(List.take_append_drop n cs).symm, ?_, fun c hc => ?_⟩
            · intro hnil
              have := congrArg List.length hnil
              rw [List.length_take, List.length_nil] at this
              omega
            · exact isAtomCode_of_number (all_take hrun c hc)
          rw [hrun] at h
          simp only at h
          split at h
          · cases h
            exact ⟨_, hword _ (by omega) hle⟩
          · split at h
            · cases h
            · cases h
              exact ⟨_, hword _ hpos (by omega)⟩

end

/-! ## Values -/

/-- Where a value may come, what a scan takes of the text is run down to its end. -/
def Accepts (scan : PyStr → Outcome Json) : Prop :=
  ∀ cs v rest, scan cs = .ok v rest → ∀ prev : Prev, prev.opens = true →
    Runs (.gap prev) cs rest Place.Done

theorem Outcome.bind_eq_ok {α β : Type} {o : Outcome α} {f : α → PyStr → Outcome β} {b : β}
    {rest : PyStr} (h : o.bind f = .ok b rest) : ∃ a mid, o = .ok a mid ∧ f a mid = .ok b rest := by
  cases o with
  | ok a mid => exact ⟨a, mid, rfl, h⟩
  | error msg left => cases h
  | valueError => cases h
  | recursionError => cases h

section
variable {scan : PyStr → Outcome Json} {cs rest : PyStr} {v : Json}

theorem runs_scanKey {s : PyStr} {prev : Prev} (hprev : prev.names = true)
    (h : scanKey cs = .ok s rest) : Runs (.gap prev) cs rest (· = .gap .name) := by
  have hstep : placeStep (.gap prev) quote = some (.inside true) := by
    cases prev <;> first | rfl | cases hprev
  rw [scanKey] at h
  split at h
  · next hhead =>
      rw [eq_cons_of_head hhead]
      exact .step hstep (runs_scanString h)
  · cases h

theorem runs_scanMembers (hscan : Accepts scan) {fuel : Nat} {kvs : JsonObject} {prev : Prev}
    (hprev : prev.names = true) (h : scanMembers scan fuel kvs cs = .ok v rest) :
    Runs (.gap prev) cs rest (· = .gap .value) := by
  induction fuel generalizing kvs cs prev with
  | zero => cases h
  | succ fuel ih =>
      rw [scanMembers] at h
      obtain ⟨key, mid, hkey, h⟩ := Outcome.bind_eq_ok h
      obtain ⟨u, mid', hcolon, h⟩ := Outcome.bind_eq_ok h
      obtain ⟨w, next, hvalue, h⟩ := Outcome.bind_eq_ok h
      obtain ⟨closed, more, hclosed, h⟩ := Outcome.bind_eq_ok h
      refine (runs_scanKey hprev hkey).trans ?_
      rintro q rfl
      refine (runs_scanColon hcolon).trans ?_
      rintro q rfl
      refine (hscan _ _ _ hvalue .colon rfl).trans fun q hq => ?_
      refine (runs_delimiter hq (.inl rfl) hclosed).trans ?_
      rintro q rfl
      cases closed with
      | true =>
          cases h
          exact .nil rfl
      | false => exact ih rfl h

theorem runs_scanElements (hscan : Accepts scan) {fuel : Nat} {xs : List Json} {prev : Prev}
    (hprev : prev.opens = true) (h : scanElements scan fuel xs cs = .ok v rest) :
    Runs (.gap prev) cs rest (· = .gap .value) := by
  induction fuel generalizing xs cs prev with
  | zero => cases h
  | succ fuel ih =>
      rw [scanElements] at h
      obtain ⟨w, mid, hvalue, h⟩ := Outcome.bind_eq_ok h
      obtain ⟨closed, mid', hclosed, h⟩ := Outcome.bind_eq_ok h
      refine (hscan _ _ _ hvalue prev hprev).trans fun q hq => ?_
      refine (runs_delimiter hq (.inr rfl) hclosed).trans ?_
      rintro q rfl
      cases closed with
      | true =>
          cases h
          exact .nil rfl
      | false => exact ih rfl h

theorem runs_scanObject (hscan : Accepts scan) (h : scanObject scan cs = .ok v rest) :
    Runs (.gap .brace) cs rest (· = .gap .value) := by
  rw [scanObject] at h
  refine (runs_skipSpace .brace).trans ?_
  rintro q rfl
  split at h
  · next hhead =>
      cases h
      rw [eq_cons_of_head hhead]
      exact .step rfl (.nil rfl)
  · exact runs_scanMembers hscan rfl h

theorem runs_scanArray (hscan : Accepts scan) (h : scanArray scan cs = .ok v rest) :
    Runs (.gap .start) cs rest (· = .gap .value) := by
  rw [scanArray] at h
  refine (runs_skipSpace .start).trans ?_
  rintro q rfl
  split at h
  · next hhead =>
      cases h
      rw [eq_cons_of_head hhead]
      exact .step rfl (.nil rfl)
  · exact runs_scanElements hscan rfl h

theorem placeStep_opens {prev : Prev} (hprev : prev.opens = true) :
    placeStep (.gap prev) quote = some (.inside prev.names) ∧
      placeStep (.gap prev) openBrace = some (.gap .brace) ∧
      placeStep (.gap prev) openBracket = some (.gap .start) := by
  cases prev <;> first | exact ⟨rfl, rfl, rfl⟩ | cases hprev

theorem done_of_value : ∀ q : Place, q = .gap .value → q.Done := by
  rintro q rfl
  exact .inr (.inr rfl)

theorem accepts_scanValue (readFloat : PyStr → PyFloat) {within : Option (PyStr → Outcome Json)}
    (hwithin : ∀ scan, within = some scan → Accepts scan) :
    Accepts (scanValue readFloat within) := by
  intro cs v rest h prev hprev
  obtain ⟨hquote, hbrace, hbracket⟩ := placeStep_opens hprev
  cases cs with
  | nil => cases h
  | cons c cs =>
      simp only [scanValue] at h
      split at h
      · next hc =>
          obtain ⟨s, mid, hs, h⟩ := Outcome.bind_eq_ok h
          cases h
          rw [hc]
          refine .step hquote ((runs_scanString hs).trans ?_)
          rintro q rfl
          refine .nil ?_
          cases prev.names
          · exact .inr (.inr rfl)
          · exact .inr (.inl rfl)
      · split at h
        · next hc =>
            rw [hc]
            split at h
            · cases h
            · exact .step hbrace ((runs_scanObject (hwithin _ rfl) h).trans fun q hq =>
                .nil (done_of_value q hq))
        · split at h
          · next hc =>
              rw [hc]
              split at h
              · cases h
              · exact .step hbracket ((runs_scanArray (hwithin _ rfl) h).trans fun q hq =>
                  .nil (done_of_value q hq))
          · obtain ⟨used, hused, hne, hall⟩ := scanAtom_ok h
            exact ⟨used, .atom, hused, run_atom hall (.inr ⟨prev, rfl, hprev, hne⟩), .inl rfl⟩

theorem accepts_scanOnce (readFloat : PyStr → PyFloat) (limit : Nat) :
    Accepts (scanOnce readFloat limit) := by
  induction limit with
  | zero =>
      refine accepts_scanValue readFloat fun scan h => ?_
      cases h
  | succ limit ih =>
      refine accepts_scanValue readFloat fun scan h => ?_
      cases h
      exact ih

/-- A document is run to its end. -/
theorem run_of_loads {readFloat : PyStr → PyFloat} {limit : Nat}
    (h : loads readFloat limit cs = .ok v rest) : ∃ q, run (.gap .start) cs = some q := by
  rw [loads] at h
  split at h
  · cases h
  · obtain ⟨w, mid, hscan, hend⟩ := Outcome.bind_eq_ok h
    rw [atEnd] at hend
    split at hend
    · next hnil =>
        have hruns : Runs (.gap .start) cs [] Place.Done := by
          refine (runs_skipSpace .start).trans ?_
          rintro q rfl
          refine (accepts_scanOnce readFloat limit _ _ _ hscan .start rfl).trans fun q hq => ?_
          exact hnil ▸ runs_skipSpace_done hq
        obtain ⟨used, q, rfl, hrun, -⟩ := hruns
        exact ⟨q, by rw [List.append_nil]; exact hrun⟩
    · cases hend

end

end TradingBroker.Security
