import TradingBroker.Security.Decoder

/-!
# What a text of JSON looks like from afar

Two readings of a text that are coarser than the decoder's. `lex` only tells what is inside a
string. `run` also keeps the token before: behind the quote that ends a string it takes no
character that may not stand there, and a colon only behind a name. What the decoder takes, it
takes too (`run_of_loads`), so that the tokens around a place in a document are known from the
document's being one.
-/

namespace TradingBroker.Security

/-! ## Reading the characters of a string -/

/-- The characters of a string that goes on behind them. -/
def readChars : CharState → PyStr → Option (CharState × List ReadChar)
  | st, [] => some (st, [])
  | st, c :: cs =>
      match charStep st c true with
      | .next st read => (readChars st cs).map fun r => (r.1, r.2 ++ read)
      | _ => none

theorem readChars_cons {st st' : CharState} {c : Nat} {cs : PyStr} {us : List ReadChar}
    (h : readChars st (c :: cs) = some (st', us)) :
    ∃ mid read us', charStep st c true = .next mid read ∧ readChars mid cs = some (st', us') ∧
      us = us' ++ read := by
  rw [readChars] at h
  split at h
  · next mid read hstep =>
      obtain ⟨r, hr, heq⟩ := Option.map_eq_some_iff.1 h
      cases heq
      exact ⟨mid, read, r.2, hstep, hr, rfl⟩
  · cases h

theorem scanChars_of_read {opening body rest : PyStr} {st st' : CharState}
    {acc us : List ReadChar} (h : readChars st body = some (st', us)) (hrest : rest ≠ []) :
    scanChars opening st acc (body ++ rest) = scanChars opening st' (us ++ acc) rest := by
  induction body generalizing st acc us with
  | nil =>
      cases h
      rfl
  | cons c cs ih =>
      obtain ⟨mid, read, us', hstep, hread, rfl⟩ := readChars_cons h
      have hmore : (!(cs ++ rest).isEmpty) = true := by simp [hrest]
      rw [List.cons_append, scanChars, hmore, hstep]
      simp only
      rw [ih hread, List.append_assoc]

theorem read_of_scan {opening body : PyStr} {st : CharState} {acc acc' : List ReadChar}
    (h : scanChars opening st acc (body ++ [quote]) = .ok acc' []) :
    ∃ us, readChars st body = some (.plain, us) ∧ acc' = us ++ acc := by
  induction body generalizing st acc with
  | nil =>
      rw [List.nil_append, scanChars] at h
      cases st with
      | plain =>
          cases h
          exact ⟨[], rfl, rfl⟩
      | escape => cases h
      | hex seen value => cases h
  | cons c cs ih =>
      have hmore : (!(cs ++ [quote]).isEmpty) = true := by simp
      rw [List.cons_append, scanChars, hmore] at h
      split at h
      · simp at h
      · cases h
      · next mid read hstep =>
          obtain ⟨us, hread, rfl⟩ := ih h
          refine ⟨us ++ read, ?_, (List.append_assoc _ _ _).symm⟩
          rw [readChars, hstep]
          simp only [hread, Option.map_some]

/-- The text between the quotes, and the string. -/
def Encodes (body s : PyStr) : Prop := scanString (body ++ [quote]) = .ok s []

instance (body s : PyStr) : Decidable (Encodes body s) :=
  inferInstanceAs (Decidable (scanString (body ++ [quote]) = .ok s []))

variable {body s : PyStr}

theorem Encodes.read (h : Encodes body s) :
    ∃ us, readChars .plain body = some (.plain, us) ∧ s = joinSurrogates us.reverse := by
  rw [Encodes, scanString] at h
  cases hscan : scanChars (quote :: (body ++ [quote])) .plain [] (body ++ [quote]) with
  | ok acc left =>
      rw [hscan] at h
      simp only [Outcome.bind, Outcome.ok.injEq] at h
      obtain ⟨rfl, rfl⟩ := h
      obtain ⟨us, hread, rfl⟩ := read_of_scan hscan
      exact ⟨us, hread, by rw [List.append_nil]⟩
  | error msg left => rw [hscan] at h; cases h
  | valueError => rw [hscan] at h; cases h
  | recursionError => rw [hscan] at h; cases h

theorem Encodes.scan (h : Encodes body s) (rest : PyStr) :
    scanString (body ++ quote :: rest) = .ok s rest := by
  obtain ⟨us, hread, rfl⟩ := h.read
  rw [scanString, scanChars_of_read hread (List.cons_ne_nil _ _), List.append_nil]
  rfl

/-! ## The letters of a key -/

theorem joinSurrogates_cons (c : Nat) (us : List ReadChar) :
    joinSurrogates ((c, false) :: us) = c :: joinSurrogates us := by
  cases us with
  | nil => rfl
  | cons u us =>
      rw [joinSurrogates]
      exact if_neg fun h => Bool.false_ne_true h.1

theorem mem_joinSurrogates {c : Nat} {us : List ReadChar} (h : (c, false) ∈ us) :
    c ∈ joinSurrogates us := by
  induction us using joinSurrogates.induct with
  | case1 => cases h
  | case2 d escaped =>
      cases List.mem_singleton.1 h
      exact List.mem_singleton.2 rfl
  | case3 d escaped e escaped' rest hpair ih =>
      rw [joinSurrogates]
      simp only [if_pos hpair]
      rcases List.mem_cons.1 h with heq | h
      · cases heq
        exact absurd hpair.1 Bool.false_ne_true
      · rcases List.mem_cons.1 h with heq | h
        · cases heq
          exact absurd hpair.2.1 Bool.false_ne_true
        · exact List.mem_cons_of_mem _ (ih h)
  | case4 d escaped e escaped' rest hpair ih =>
      rw [joinSurrogates]
      simp only [if_neg hpair]
      rcases List.mem_cons.1 h with heq | h
      · cases heq
        exact List.mem_cons_self
      · exact List.mem_cons_of_mem _ (ih h)

theorem quote_mem_read {st st' : CharState} {us : List ReadChar}
    (h : readChars st body = some (st', us)) (hmem : quote ∈ body) : (quote, false) ∈ us := by
  induction body generalizing st us with
  | nil => cases hmem
  | cons c cs ih =>
      obtain ⟨mid, read, us', hstep, hread, rfl⟩ := readChars_cons h
      rcases List.mem_cons.1 hmem with rfl | hmem
      · cases st with
        | plain => cases hstep
        | escape =>
            cases hstep
            exact List.mem_append_right _ List.mem_cons_self
        | hex seen value => cases hstep
      · exact List.mem_append_left _ (ih hread hmem)

/-- What spells `token` holds no quote, and begins with a letter or a backslash. -/
theorem Encodes.token_text {key : PyStr} (h : Encodes key token) :
    quote ∉ key ∧ ∃ c cs, key = c :: cs ∧ (c = 0x74 ∨ c = backslash) := by
  obtain ⟨us, hread, hs⟩ := h.read
  constructor
  · intro hmem
    have := mem_joinSurrogates (List.mem_reverse.2 (quote_mem_read hread hmem))
    rw [← hs] at this
    revert this
    decide
  · cases key with
    | nil =>
        cases hread
        cases hs
    | cons c cs =>
        refine ⟨c, cs, rfl, ?_⟩
        obtain ⟨mid, read, us', hstep, -, rfl⟩ := readChars_cons hread
        simp only [charStep] at hstep
        split at hstep
        · cases hstep
        · split at hstep
          · next hc => exact .inr hc
          · split at hstep
            · cases hstep
            · cases hstep
              rw [List.reverse_append, List.reverse_singleton, List.singleton_append,
                joinSurrogates_cons] at hs
              exact .inl (List.cons.inj hs).1.symm

/-! ## Inside and outside of strings -/

inductive Lex where
  | outside
  | inside
  | escaped
  deriving DecidableEq

def lexStep : Lex → Nat → Lex
  | .outside, c => if c = quote then .inside else .outside
  | .inside, c => if c = quote then .outside else if c = backslash then .escaped else .inside
  | .escaped, _ => .inside

def lex (st : Lex) (cs : PyStr) : Lex := cs.foldl lexStep st

def CharState.lexed : CharState → Lex
  | .escape => .escaped
  | _ => .inside

theorem lex_append (st : Lex) (cs ds : PyStr) : lex st (cs ++ ds) = lex (lex st cs) ds :=
  List.foldl_append

theorem lex_of_not_mem {cs : PyStr} (h : quote ∉ cs) : lex .outside cs = .outside := by
  induction cs with
  | nil => rfl
  | cons c cs ih =>
      rw [List.mem_cons, not_or] at h
      have hstep : lexStep .outside c = .outside := if_neg (Ne.symm h.1)
      rw [lex, List.foldl_cons, hstep]
      exact ih h.2

theorem ne_of_hexDigit {c d : Nat} (h : hexDigit c = some d) : c ≠ quote ∧ c ≠ backslash := by
  constructor <;> (rintro rfl; cases h)

theorem lexStep_charStep {st st' : CharState} {c : Nat} {more : Bool} {read : List ReadChar}
    (h : charStep st c more = .next st' read) : lexStep st.lexed c = st'.lexed := by
  cases st with
  | plain =>
      simp only [charStep] at h
      show lexStep .inside c = st'.lexed
      rw [lexStep]
      split at h
      · cases h
      · next hquote =>
          rw [if_neg hquote]
          split at h
          · next hslash =>
              cases h
              rw [if_pos hslash]
              rfl
          · next hslash =>
              rw [if_neg hslash]
              split at h
              · cases h
              · cases h
                rfl
  | escape =>
      simp only [charStep] at h
      split at h
      · cases h
        rfl
      · split at h
        · cases h
          rfl
        · cases h
  | hex seen value =>
      simp only [charStep] at h
      split at h
      · cases h
      · next d hd =>
          have hstep : lexStep .inside c = .inside := by
            obtain ⟨hquote, hslash⟩ := ne_of_hexDigit hd
            rw [lexStep, if_neg hquote, if_neg hslash]
          split at h
          · cases h
            exact hstep
          · split at h
            · cases h
              exact hstep
            · cases h

end TradingBroker.Security
