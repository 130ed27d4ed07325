import Mathlib.Data.List.Basic

/-!
# Subjects

The subjects of a NATS server. A subject is tokens with full stops between them. A subscription
names one, or a kind of them: `*` stands for any one token, and a `>` at the end for one or more.
Two subscriptions whose first tokens differ, and are no wildcards, have no message in common,
whatever else the subjects hold.

So a publisher and a subscriber are shown to miss each other by their first tokens, and
one that may meet is looked at by what the rest of its subject says.
-/

namespace TradingBroker.Lib.Subjects

abbrev Token := List Char

def tokens (subject : String) : List Token := subject.toList.splitOn '.'

/-- Whether the tokens of a subscription stand for those of a subject. -/
def covers : List Token → List Token → Bool
  | [], ts => ts.isEmpty
  | _ :: _, [] => false
  | p :: ps, t :: ts =>
      if p = ['>'] ∧ ps = [] then true
      else if p = ['*'] then covers ps ts
      else p == t && covers ps ts

/-- A subscription to `filter` is given what is published on `subject`. -/
def hears (filter subject : String) : Bool := covers (tokens filter) (tokens subject)

/-- A token that stands for itself. -/
def Literal (t : Token) : Prop := t ≠ ['>'] ∧ t ≠ ['*']

instance (t : Token) : Decidable (Literal t) := inferInstanceAs (Decidable (_ ∧ _))

variable {filter filter' subject rest : String} {p q : Token} {ps qs : List Token}

theorem covers_literal {ts : List Token} (hp : Literal p) (h : covers (p :: ps) ts = true) :
    ∃ us, ts = p :: us ∧ covers ps us = true := by
  cases ts with
  | nil => cases h
  | cons t us =>
      rw [covers, if_neg fun hend => hp.1 hend.1, if_neg hp.2, Bool.and_eq_true, beq_iff_eq] at h
      exact ⟨us, by rw [h.1], h.2⟩

/-- What is heard begins with the token the subscription begins with. -/
theorem head_of_hears (hfilter : tokens filter = p :: ps) (hp : Literal p)
    (h : hears filter subject = true) : (tokens subject).head? = some p := by
  rw [hears, hfilter] at h
  obtain ⟨us, hus, -⟩ := covers_literal hp h
  rw [hus, List.head?_cons]

/-- The tokens of a subject that is put together. -/
theorem tokens_append {start : String} (hstart : '.' ∉ start.toList) (rest : String) :
    tokens (start ++ "." ++ rest) = start.toList :: tokens rest := by
  have hchars : (start ++ "." ++ rest).toList = start.toList ++ '.' :: rest.toList := by
    rw [String.toList_append, String.toList_append, List.append_assoc]
    rfl
  rw [tokens, hchars, List.splitOn_append_cons_self_of_not_mem hstart]
  rfl

/-- A subscription to all there is below a token. -/
theorem hears_below {start : String} (hstart : '.' ∉ start.toList)
    (hfilter : tokens filter = [start.toList, ['>']]) (hliteral : Literal start.toList)
    (rest : String) : hears filter (start ++ "." ++ rest) = true := by
  rw [hears, hfilter, tokens_append hstart]
  cases hrest : tokens rest with
  | nil => exact absurd hrest (List.splitOn_ne_nil _ _)
  | cons t ts =>
      rw [covers, if_neg fun hend => hliteral.1 hend.1, if_neg hliteral.2, covers,
        if_pos ⟨rfl, rfl⟩, beq_self_eq_true, Bool.true_and]

end TradingBroker.Lib.Subjects
