import TradingBroker.Alerts.ErrorLog
import TradingBroker.Lib.Display

/-!
# The text of a forwarded log line

`TelegramLogNotification.format_text` of `broker/services/notification_service.py`, with what the
worker puts in front. A log line is any text at all, and Telegram drops a message that is not
markup; escaped and boxed, every line is, and shows what was logged, tags and all.

What is put in front has no markup of its own, so the text is one literal, one value and
one literal more, and the grammar is followed through these three. Blanks at the ends are
trimmed before the box is put around it.
-/

namespace TradingBroker.Alerts

open TradingBroker.Lib.Markup TradingBroker.Lib.Display

/-- `em.ERROR_ALERT`. -/
def errorAlert : PyStr := [0x1f6a8]

/-- `_box`. -/
def box (text : PyStr) : PyStr := pyStr "<pre>" ++ (pyStrip text ++ pyStr "</pre>")

/-- `TelegramLogNotification.format_text`. -/
def formatText (messageText : PyStr) : PyStr := box (escapeQuoted messageText)

/-- What `_worker` sends of a message. -/
def alertText (message : PyStr) : PyStr := errorAlert ++ ([0x20] ++ message)

theorem escapeQuotedCode_of_space {c : Nat} (h : isPySpace c = true) :
    escapeQuotedCode c = [c] := by
  simp only [isPySpace, Bool.or_eq_true, Bool.and_eq_true, decide_eq_true_eq, beq_iff_eq] at h
  rw [escapeQuotedCode, if_neg (by omega), if_neg (by omega), if_neg (by omega),
    if_neg (by omega), if_neg (by omega)]

/-- Nothing but a space is escaped into a text with a space around. -/
theorem escapeQuotedCode_ends {c : Nat} (h : isPySpace c = false) :
    (∃ d ds, escapeQuotedCode c = d :: ds ∧ isPySpace d = false) ∧
      ∃ d ds, (escapeQuotedCode c).reverse = d :: ds ∧ isPySpace d = false := by
  have hreference : ∀ s : String, codesOf s = 0x26 :: (codesOf s).tail →
      (codesOf s).reverse = 0x3b :: (codesOf s).reverse.tail →
      (∃ d ds, codesOf s = d :: ds ∧ isPySpace d = false) ∧
        ∃ d ds, (codesOf s).reverse = d :: ds ∧ isPySpace d = false :=
    fun s hfirst hlast => ⟨⟨_, _, hfirst, by decide⟩, ⟨_, _, hlast, by decide⟩⟩
  rw [escapeQuotedCode]
  split
  · exact hreference _ (by decide) (by decide)
  · split
    · exact hreference _ (by decide) (by decide)
    · split
      · exact hreference _ (by decide) (by decide)
      · split
        · exact hreference _ (by decide) (by decide)
        · split
          · exact hreference _ (by decide) (by decide)
          · exact ⟨⟨c, [], rfl, h⟩, ⟨c, [], rfl, h⟩⟩

theorem pyStrip_escapeQuoted (t : PyStr) : pyStrip (escapeQuoted t) = escapeQuoted (pyStrip t) := by
  have hfront : (escapeQuoted t).dropWhile isPySpace = escapeQuoted (t.dropWhile isPySpace) :=
    dropWhile_flatMap (fun _ => escapeQuotedCode_of_space)
      (fun _ hc => (escapeQuotedCode_ends hc).1) t
  rw [pyStrip, trim, hfront, pyStrip, trim, escapeQuoted, reverse_flatMap,
    dropWhile_flatMap (fun c hc => by rw [escapeQuotedCode_of_space hc, List.reverse_singleton])
      (fun _ hc => (escapeQuotedCode_ends hc).2), reverse_flatMap]
  simp only [List.reverse_reverse, escapeQuoted]

/-- The one tag of a log message. -/
def logGrammar : Grammar := ⟨[codesOf "pre"], [codesOf "pre"]⟩

/-- Whatever is logged, what is sent is markup, and shows the line as it was logged, in one
box. -/
theorem log_text_shown (message : PyStr) :
    display logGrammar (formatText (alertText message)) =
      some ((pyStrip (alertText message)).map fun c => ([codesOf "pre"], c)) := by
  have hopen : Reader.read logGrammar ⟨[], .text⟩ (pyStr "<pre>") =
      some (⟨[codesOf "pre"], .text⟩, []) := by decide
  have hclose : Reader.read logGrammar ⟨[codesOf "pre"], .text⟩ (pyStr "</pre>") =
      some (⟨[], .text⟩, []) := by decide
  have hinside : Reader.read logGrammar ⟨[codesOf "pre"], .text⟩
      (escapeQuoted (pyStrip (alertText message))) =
        some (⟨[codesOf "pre"], .text⟩,
          (pyStrip (alertText message)).map fun c => ([codesOf "pre"], c)) :=
    read_escapeQuoted rfl _
  have hall := read_append hopen (read_append hinside hclose)
  rw [formatText, box, pyStrip_escapeQuoted, display, hall, Option.bind_some, if_pos rfl,
    List.nil_append, List.append_nil]

end TradingBroker.Alerts
