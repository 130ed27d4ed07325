import TradingBroker.Cards.Render
import TradingBroker.Helpers.Numbers

/-!
# Whether the two cards are one

The broker posts a card and the bot rewrites it when a button is tapped, so both have to
render the same text from the row and from its response. They do, line by line, but for
the market of a trade that has none: the broker writes `str` of the empty column, the bot
a dash. That line is in the detailed view only.

Each helper is shown to be the same function on both sides, from the numbers and the
times up to the blocks, and the two cards are then the same list of lines but for the
one. The times go through a text on the way to the bot, which is read back to the very
instant, and where the zone takes one out of the calendar both sides raise. The converse
needs the two market lines to differ wherever they stand in the card: a `str` of `None`
and a dash.
-/

namespace TradingBroker.Cards

open Lib Lib.Numerals Lib.Datetime Helpers

/-! ## Numbers -/

theorem trimmed_ne_nil (places v : Nat) : trimmed places v ≠ [] := by
  induction places generalizing v with
  | zero => exact Nat.toDigits_ne_nil
  | succ places ih =>
      rw [trimmed]
      split
      · exact ih _
      · simp [dotted]

theorem signed_ne_empty (negative : Bool) {cs : List Char} (h : cs ≠ []) :
    signed negative cs ≠ "" := by
  intro heq
  have hnil := congrArg String.toList heq
  rw [signed, String.toList_ofList] at hnil
  split at hnil
  · cases hnil
  · exact h hnil

/-- A column of at most eight places. -/
theorem fixedText_eq {precision scale : Nat} (hscale : scale ≤ 8) (x : Numeric precision scale) :
    Bot.fixedText x.value = x.decimal.plain := by
  have hplain := plain_eq_fixed x.units scale (8 - scale) (by omega)
  rw [Nat.add_sub_cancel' hscale] at hplain
  rw [Bot.fixedText, formatFixed, stripZeros_signed, Numeric.value, Numeric.decimal, hplain]

theorem plain_ne_empty {precision scale : Nat} (x : Numeric precision scale) :
    x.decimal.plain ≠ "" := by
  rw [Numeric.decimal, plain_eq, stripZeros_dotted]
  exact signed_ne_empty _ (trimmed_ne_nil _ _)

theorem num_eq {precision scale : Nat} (hscale : scale ≤ 8) (x : Numeric precision scale) :
    Bot.num (some x.value) = formatNumber (some x.decimal) := by
  rw [Bot.num, fixedText_eq hscale, if_neg (plain_ne_empty x), formatNumber]

/-- A column has too few digits for the context to touch it. -/
theorem formatNumberOf_numeric {precision scale : Nat} (hprecision : precision ≤ 28)
    (hscale : scale ≤ 28) (x : Numeric precision scale) :
    formatNumberOf (.decimal x.decimal) = some (formatNumber (some x.decimal)) := by
  have hle : tenPow precision ≤ tenPow 28 := by
    rw [tenPow_eq, tenPow_eq]
    exact Nat.pow_le_pow_right (by decide) hprecision
  refine formatNumberOf_column (Nat.lt_of_lt_of_le x.fits hle) ?_ ?_
  · show -28 ≤ -(scale : Int)
    omega
  · show -(scale : Int) ≤ 0
    omega

theorem num_map_eq {precision scale : Nat} (hscale : scale ≤ 8)
    (x : Option (Numeric precision scale)) :
    Bot.num (x.map Numeric.value) = formatNumber (x.map Numeric.decimal) := by
  cases x with
  | none => rfl
  | some x => exact num_eq hscale x

/-! ## Words -/

theorem terminal_eq (s : TradeStatus) :
    Bot.terminalTradeStatuses.contains s.value = isTerminal s := by
  cases s <;> decide

theorem mem_terminal_iff (s : TradeStatus) :
    s.value ∈ Bot.terminalTradeStatuses ↔ isTerminal s = true := by
  rw [← terminal_eq, List.contains_iff_mem]

theorem actionEmoji_eq : Bot.actionEmoji =
    [SignalAction.long, .short, .tp1, .tp2, .rSl, .sl, .flat].map fun a =>
      (a.value, actionToEmoji a) := by decide

theorem statusEmoji_eq (s : TradeStatus) (default : String) :
    Bot.getD Bot.statusEmoji s.value default = Broker.statusEmoji s := by
  cases s <;> rfl

theorem getD_actionEmoji (word default : String) :
    Bot.getD Bot.actionEmoji word default =
      ((Broker.actionOf word).map actionToEmoji).getD default := by
  rw [Bot.getD, actionEmoji_eq, List.find?_map, Broker.actionOf, Option.map_map]
  rfl

theorem actionOf_value (a : SignalAction) : Broker.actionOf a.value = some a := by
  cases a <;> decide

theorem actionIcon_eq (lastAction : String) (s : TradeStatus) :
    Bot.actionIcon lastAction s.value = Broker.actionIcon lastAction s := by
  rw [Bot.actionIcon, getD_actionEmoji, statusEmoji_eq, Broker.actionIcon]
  cases Broker.actionOf lastAction with
  | none => rfl
  | some a => rfl

theorem partiallyClosed_iff (s : TradeStatus) : s.value = "PARTIALLY_CLOSED" ↔
    s = .partiallyClosed := by
  cases s <;> decide

theorem headerStatus_eq (r : TradeRow) :
    Bot.headerStatus r.response = Broker.headerStatus r := by
  unfold Bot.headerStatus Broker.headerStatus
  simp only [TradeRow.response, mem_terminal_iff, partiallyClosed_iff]
  rfl

theorem lastActionBlock_eq (r : TradeRow) :
    Bot.lastActionBlock r.response = Broker.lastActionBlock r := by
  unfold Bot.lastActionBlock Broker.lastActionBlock
  simp only [TradeRow.response, actionIcon_eq]

/-! ## Times -/

theorem lastDigits_no_z (n v : Nat) : 'Z' ∉ lastDigits n v := by
  intro hmem
  have := Numeral.ofLastDigits n v 'Z' hmem
  revert this
  decide

theorem isoformat_no_z (c : Civil) : 'Z' ∉ c.isoformat := by
  have hfraction : 'Z' ∉ if c.microsecond = 0 then [] else '.' :: lastDigits 6 c.microsecond := by
    split
    · exact List.not_mem_nil
    · simp [lastDigits_no_z]
  unfold Civil.isoformat Civil.dateText Civil.clockText
  simp [lastDigits_no_z, hfraction]

theorem replaceZ_no_z {cs : List Char} (h : 'Z' ∉ cs) :
    (cs.flatMap fun c => if c = 'Z' then utcText else [c]) = cs := by
  induction cs with
  | nil => rfl
  | cons c cs ih =>
      rw [List.mem_cons, not_or] at h
      rw [List.flatMap_cons, ih h.2, if_neg (Ne.symm h.1), List.singleton_append]

/-- The bot reads a time back as the broker has it. -/
theorem localTime_eq (defaultHours : Hours) (c : Civil) (timezone : Option String) :
    Bot.formatLocalTime (jsonTime c) (parseOffsetHours defaultHours timezone) =
      formatNotificationTime defaultHours (c, some 0) timezone := by
  have hread : Bot.replaceZ (jsonTime c) = c.isoformat ++ utcText := by
    rw [Bot.replaceZ, jsonTime, String.toList_ofList, List.flatMap_append,
      replaceZ_no_z (isoformat_no_z c)]
    rfl
  rw [Bot.formatLocalTime, hread, fromisoformat_utc, formatNotificationTime]

/-! ## Lines -/

theorem entryLines_eq (r : TradeRow) : Bot.entryLines r.response = Broker.entryLines r := by
  unfold Bot.entryLines Broker.entryLines
  rw [headerStatus_eq]
  simp only [TradeRow.response, mem_terminal_iff, getD_actionEmoji, actionOf_value,
    num_eq (Nat.le_refl 8), num_eq (by decide : 4 ≤ 8), num_map_eq (Nat.le_refl 8)]
  rfl

theorem balanceLines_eq (r : TradeRow) : Bot.balanceLines r.response = Broker.balanceLines r := by
  unfold Bot.balanceLines Broker.balanceLines
  cases hb : r.accountBalance with
  | none =>
      simp only [TradeRow.response, hb]
      rfl
  | some balance =>
      cases hi : r.accountBalanceInit with
      | none =>
          simp only [TradeRow.response, hb, hi, Option.map_some, num_eq (Nat.le_refl 8)]
          rfl
      | some balanceInit =>
          simp only [TradeRow.response, hb, hi, Option.map_some, num_eq (Nat.le_refl 8)]

theorem marketLine_eq {r : TradeRow} (h : r.market.isSome = true) :
    Bot.marketLine r.response = Broker.marketLine r := by
  obtain ⟨market, hmarket⟩ := Option.isSome_iff_exists.1 h
  rw [Bot.marketLine, Broker.marketLine, TradeRow.response, hmarket]
  rfl

/-! ## Cards -/

/-- The detailed view's lines around the line of the market. -/
def detailWith (r : TradeRow) (market opened : String) : List String :=
  Broker.accountLines r ++ (market :: (Broker.referenceLines r ++ ["Opened: " ++ opened]))

/-- The card of a row with these lines in it. -/
def cardWith (r : TradeRow) (footer : Option String) (details : List String) (updated : String) :
    String :=
  joinLines (Broker.entryLines r ++ (Broker.balanceLines r ++ (details ++
    (("Updated: " ++ updated) :: (Broker.lastActionBlock r ++ footerLines footer)))))

section
variable (defaultHours : Hours) (r : TradeRow) (timezone : Option String) (detailed : Bool)
  (footer : Option String)

/-- A time of the row, as both show it. -/
def shownTime (c : Civil) : Except TimeError String :=
  formatNotificationTime defaultHours (c, some 0) timezone

/-- What the detailed view adds, with one line or another for the market. -/
def detailsOf (market : String) : Except TimeError (List String) :=
  if detailed then (shownTime defaultHours timezone r.createdAt).map (detailWith r market)
  else .ok []

def cardOf (market : String) : Except TimeError String := do
  let details ← detailsOf defaultHours r timezone detailed market
  let updated ← shownTime defaultHours timezone r.updatedAt
  return cardWith r footer details updated

theorem broker_details : Broker.detailLines defaultHours r timezone detailed =
    detailsOf defaultHours r timezone detailed (Broker.marketLine r) := by
  cases detailed with
  | false => rfl
  | true =>
      rw [Broker.detailLines, if_pos rfl, detailsOf, if_pos rfl, shownTime]
      cases formatNotificationTime defaultHours (r.createdAt, some 0) timezone with
      | error e => rfl
      | ok opened => rfl

theorem broker_card : Broker.formatTradeCard defaultHours r timezone detailed footer =
    cardOf defaultHours r timezone detailed footer (Broker.marketLine r) := by
  unfold Broker.formatTradeCard cardOf cardWith shownTime
  rw [broker_details]

theorem bot_details : Bot.detailLines r.response (parseOffsetHours defaultHours timezone) detailed =
    detailsOf defaultHours r timezone detailed (Bot.marketLine r.response) := by
  cases detailed with
  | false => rw [Bot.detailLines, if_neg Bool.false_ne_true, detailsOf, if_neg Bool.false_ne_true]
  | true =>
      have htime :
        Bot.formatLocalTime r.response.createdAt (parseOffsetHours defaultHours timezone) =
          shownTime defaultHours timezone r.createdAt := localTime_eq _ _ _
      rw [Bot.detailLines, if_pos rfl, detailsOf, if_pos rfl, htime]
      cases shownTime defaultHours timezone r.createdAt with
      | error e => rfl
      | ok opened => rfl

theorem bot_card :
    Bot.formatTradeCard r.response (parseOffsetHours defaultHours timezone) detailed footer =
      cardOf defaultHours r timezone detailed footer (Bot.marketLine r.response) := by
  have htime : Bot.formatLocalTime r.response.updatedAt (parseOffsetHours defaultHours timezone) =
      shownTime defaultHours timezone r.updatedAt := localTime_eq _ _ _
  unfold Bot.formatTradeCard cardOf cardWith
  rw [bot_details, htime, entryLines_eq, balanceLines_eq, lastActionBlock_eq]

end

/-! ## Where they differ -/

/-- The text around one line of a card. -/
theorem joinLines_split (before after : List String) :
    ∃ p q : String, ∀ x, joinLines (before ++ x :: after) = p ++ x ++ q := by
  have hafter : ∃ q : String, ∀ x, joinLines (x :: after) = x ++ q := by
    cases after with
    | nil =>
        exact ⟨"", fun x => by rw [joinLines, String.intercalate_singleton, String.append_empty]⟩
    | cons y after =>
        exact ⟨"\n" ++ joinLines (y :: after), fun x => by
          rw [joinLines, String.intercalate_cons_cons, String.append_assoc, joinLines]⟩
  obtain ⟨q, hq⟩ := hafter
  by_cases hbefore : before = []
  · subst hbefore
    exact ⟨"", q, fun x => by rw [List.nil_append, hq, String.empty_append]⟩
  · refine ⟨joinLines before ++ "\n", q, fun x => ?_⟩
    have happend : joinLines (before ++ x :: after) =
        joinLines before ++ "\n" ++ joinLines (x :: after) :=
      String.intercalate_append_of_ne_nil hbefore (List.cons_ne_nil _ _)
    rw [happend, hq, ← String.append_assoc]

theorem append_cancel {p q x y : String} (h : p ++ x ++ q = p ++ y ++ q) : x = y := by
  have hlist := congrArg String.toList h
  simp only [String.toList_append, List.append_assoc, List.append_cancel_left_eq,
    List.append_cancel_right_eq] at hlist
  exact String.toList_inj.1 hlist

theorem cardWith_inj {r : TradeRow} {footer : Option String}
    {market market' opened updated : String}
    (h : cardWith r footer (detailWith r market opened) updated =
      cardWith r footer (detailWith r market' opened) updated) : market = market' := by
  have hshape : ∀ m, cardWith r footer (detailWith r m opened) updated =
      joinLines ((Broker.entryLines r ++ (Broker.balanceLines r ++ Broker.accountLines r)) ++
        m :: (Broker.referenceLines r ++ ["Opened: " ++ opened] ++
          (("Updated: " ++ updated) :: (Broker.lastActionBlock r ++ footerLines footer)))) := by
    intro m
    simp only [cardWith, detailWith, List.append_assoc, List.cons_append]
  obtain ⟨p, q, hsplit⟩ := joinLines_split
    (Broker.entryLines r ++ (Broker.balanceLines r ++ Broker.accountLines r))
    (Broker.referenceLines r ++ ["Opened: " ++ opened] ++
      (("Updated: " ++ updated) :: (Broker.lastActionBlock r ++ footerLines footer)))
  rw [hshape, hshape, hsplit, hsplit] at h
  exact append_cancel h

/-- The line of a market that is missing. -/
theorem marketLine_ne {r : TradeRow} (h : r.market = none) :
    Bot.marketLine r.response ≠ Broker.marketLine r := by
  intro heq
  have hbot : Bot.marketLine r.response =
      "Market: <b>" ++ "—" ++ ("</b> / <b>" ++ esc r.gateway ++ "</b>") := by
    rw [Bot.marketLine, TradeRow.response, h]
    simp only [Option.map_none, esc, String.append_assoc]
  have hbroker : Broker.marketLine r =
      "Market: <b>" ++ "None" ++ ("</b> / <b>" ++ esc r.gateway ++ "</b>") := by
    have hword : Html.escape "None" = "None" := by decide
    rw [Broker.marketLine, h]
    simp only [Broker.marketWord, esc, hword, String.append_assoc]
  rw [hbot, hbroker] at heq
  have := append_cancel heq
  revert this
  decide

/-! ## The card -/

theorem keyboard_eq (r : TradeRow) (detailed : Bool) :
    Bot.keyboard r.response detailed = tradeCardKeyboard r.trade detailed := by
  have hclosed : Bot.isClosed r.response = isTerminal r.trade.status := terminal_eq r.status
  rw [Bot.keyboard, Bot.tradeCard, hclosed, tradeCardKeyboard]
  cases isTerminal r.trade.status with
  | true => rfl
  | false => cases detailed <;> rfl

/-- Broker and bot render the same text and the same buttons. -/
def SameCard (defaultHours : Hours) (r : TradeRow) (timezone : Option String) (detailed : Bool)
    (footer : Option String) : Prop :=
  Bot.formatTradeCard r.response (parseOffsetHours defaultHours timezone) detailed footer =
      Broker.formatTradeCard defaultHours r timezone detailed footer ∧
    Bot.keyboard r.response detailed = tradeCardKeyboard r.trade detailed

/-- The times of a row can be shown in the zone: it takes neither of them out of the
calendar. Otherwise both renderers raise. -/
def TimesShown (defaultHours : Hours) (timezone : Option String) (r : TradeRow) : Prop :=
  ∃ opened updated, shownTime defaultHours timezone r.createdAt = .ok opened ∧
    shownTime defaultHours timezone r.updatedAt = .ok updated

section
variable {defaultHours : Hours} {r : TradeRow} {timezone : Option String} {footer : Option String}

theorem cardOf_detailed {market opened updated : String}
    (hopened : shownTime defaultHours timezone r.createdAt = .ok opened)
    (hupdated : shownTime defaultHours timezone r.updatedAt = .ok updated) :
    cardOf defaultHours r timezone true footer market =
      .ok (cardWith r footer (detailWith r market opened) updated) := by
  rw [cardOf, detailsOf, if_pos rfl, hopened, hupdated]
  rfl

theorem cardOf_not_shown (h : ¬ TimesShown defaultHours timezone r) (market market' : String) :
    cardOf defaultHours r timezone true footer market =
      cardOf defaultHours r timezone true footer market' := by
  rw [cardOf, cardOf, detailsOf, detailsOf, if_pos rfl, if_pos rfl]
  cases hopened : shownTime defaultHours timezone r.createdAt with
  | error e => rfl
  | ok opened =>
      cases hupdated : shownTime defaultHours timezone r.updatedAt with
      | error e => rfl
      | ok updated => exact absurd ⟨opened, updated, hopened, hupdated⟩ h

end

/-- The two cards are the same in the summary, and in the detailed view exactly if the
trade has a market. -/
theorem cards_same_iff (defaultHours : Hours) (r : TradeRow) (timezone : Option String)
    (detailed : Bool) (footer : Option String) :
    SameCard defaultHours r timezone detailed footer ↔
      detailed = false ∨ r.market.isSome = true ∨ ¬ TimesShown defaultHours timezone r := by
  rw [SameCard, and_iff_left (keyboard_eq r detailed), bot_card, broker_card]
  cases detailed with
  | false => exact ⟨fun _ => .inl rfl, fun _ => rfl⟩
  | true =>
      cases hmarket : r.market with
      | some market =>
          have hline := marketLine_eq (r := r) (by rw [hmarket]; rfl)
          rw [hline]
          exact ⟨fun _ => .inr (.inl rfl), fun _ => rfl⟩
      | none =>
          constructor
          · intro heq
            refine .inr (.inr ?_)
            rintro ⟨opened, updated, hopened, hupdated⟩
            rw [cardOf_detailed hopened hupdated, cardOf_detailed hopened hupdated,
              Except.ok.injEq] at heq
            exact marketLine_ne hmarket (cardWith_inj heq)
          · rintro (h | h | h)
            · cases h
            · cases h
            · exact cardOf_not_shown h _ _

namespace Sample

/-- UTC+7. -/
def hours : Hours := ⟨false, 7⟩

end Sample

/-- Its detailed card changes when the bot redraws it. -/
theorem not_same_card : ¬ SameCard Sample.hours Sample.row none true none := by
  rintro ⟨htext, -⟩
  rw [bot_card, broker_card] at htext
  cases hshown : shownTime Sample.hours none Sample.noon with
  | error e =>
      have hok : (shownTime Sample.hours none Sample.noon).isOk = true := by decide +kernel
      rw [hshown] at hok
      cases hok
  | ok shown =>
      rw [cardOf_detailed (r := Sample.row) hshown hshown,
        cardOf_detailed (r := Sample.row) hshown hshown, Except.ok.injEq] at htext
      exact marketLine_ne rfl (cardWith_inj htext)

end TradingBroker.Cards
