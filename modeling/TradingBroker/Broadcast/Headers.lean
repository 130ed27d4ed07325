import Mathlib.Data.List.Induction
import TradingBroker.Broadcast.Formatter

/-!
# The status a cycle's texts show

The status is folded in three places: by `record_event`, one event at a time; by the
body, from all the events and the row; and by the notice of an event, from the events up
to it. The row's fold and the events' agree in every cycle that was recorded, and since
the events of a cycle only ever grow at the end, what a notice shows is what the row said
when the notice's event had just been recorded.

Three folds over one list are equal if they agree on the way, so the induction is on the
history, with `Folded` as its invariant: recording an event appends it and folds it, and
recording an execution does neither. The notice of event `i` folds the first `i + 1`
events, which are those of the cycle as it was when event `i` had just been recorded
(`RecordedAt`), and this is why notices cannot contradict the row. What is compared is
not the value that is computed but the first line of the text, read back by its emoji and
words (`shownStatus`).
-/

namespace TradingBroker.Broadcast

open Lib.Markup Helpers

/-! ## What a text shows -/

/-- The line a text begins with. -/
def firstLine (t : Text) : List Nat := t.codes.takeWhile (· != 0x0a)

/-- The status in brackets that a text begins with. -/
def shownStatus (t : Text) : Option BroadcastStatus :=
  [BroadcastStatus.running, .tp1, .closed].find? fun s => codesOf (statusLine s) == firstLine t

theorem codes_lit (s : String) : (lit s).codes = codesOf s := by
  rw [lit, Text.codes, List.map_map]
  rfl

theorem statusLine_no_newline (s : BroadcastStatus) : ∀ c ∈ codesOf (statusLine s), c ≠ 0x0a := by
  cases s <;> decide

theorem firstLine_statusLine (s : BroadcastStatus) (t : Text) :
    firstLine (lit (statusLine s) ++ (newline ++ t)) = codesOf (statusLine s) := by
  have hline : ∀ c ∈ codesOf (statusLine s), (c != 0x0a) = true := by
    intro c hc
    simpa using statusLine_no_newline s c hc
  rw [firstLine, codes_append, codes_lit, List.takeWhile_append_of_pos hline]
  exact List.append_nil _

theorem shownStatus_of_firstLine {t : Text} {s : BroadcastStatus}
    (h : firstLine t = codesOf (statusLine s)) : shownStatus t = some s := by
  rw [shownStatus, h]
  cases s <;> decide

/-- The notice of an event ends in its action's word: there is nothing to strip. -/
theorem firstLine_notice (s : BroadcastStatus) (e : BroadcastEvent) :
    firstLine (rstrip isPySpace (lit (statusLine s) ++ (newline ++ actionLine e))) =
      codesOf (statusLine s) := by
  rw [actionLine]
  cases s <;> cases e.action <;> decide

/-! ## The folds -/

/-- The events of a row, folded, give its status. -/
def Folded (m : BroadcastMessage) : Prop := m.events.foldl foldStatus none = some m.status

theorem mergeStatus_self (s : BroadcastStatus) : mergeStatus s s = s := if_neg (Nat.lt_irrefl _)

theorem foldStatus_some (s : BroadcastStatus) (events : List BroadcastEvent) :
    ∃ t, events.foldl foldStatus (some s) = some t ∧ s.rank ≤ t.rank := by
  induction events generalizing s with
  | nil => exact ⟨s, rfl, Nat.le_refl _⟩
  | cons e events ih =>
      obtain ⟨t, ht, hle⟩ := ih (mergeStatus s (statusForAction e.action))
      rw [rank_mergeStatus] at hle
      exact ⟨t, ht, by omega⟩

/-- Up to a later event the cycle is as far along, or further. -/
theorem statusThrough_mono {events : List BroadcastEvent} {i j : Nat} (hij : i ≤ j)
    (hi : i < events.length) (fallback : BroadcastStatus) :
    (statusThrough events i fallback).rank ≤ (statusThrough events j fallback).rank := by
  cases events with
  | nil => cases hi
  | cons e events =>
      obtain ⟨s, hs, -⟩ := foldStatus_some (statusForAction e.action) (events.take i)
      have hsplit : (e :: events).take (j + 1) =
          (e :: events.take i) ++ (events.take j).drop i := by
        rw [List.take_succ_cons, List.cons_append]
        refine congrArg (e :: ·) ?_
        have hmin : events.take i = (events.take j).take i := by
          rw [List.take_take, Nat.min_eq_left hij]
        rw [hmin, List.take_append_drop]
      obtain ⟨t, ht, hle⟩ := foldStatus_some s ((events.take j).drop i)
      have hone : (e :: events.take i).foldl foldStatus none = some s := hs
      rw [statusThrough, statusThrough, hsplit, List.foldl_append, List.take_succ_cons, hone, ht]
      exact hle

theorem folded_append {m : BroadcastMessage} (h : Folded m) (e : BroadcastEvent) :
    Folded (m.append e) := by
  show (m.events ++ [e]).foldl foldStatus none =
    some (mergeStatus m.status (statusForAction e.action))
  rw [List.foldl_append, h]
  rfl

theorem folded_run {e : Request} {c : Option Cycle} (h : ∀ d, c = some d → Folded d.message)
    {d : Cycle} (hd : e.run c = some d) : Folded d.message := by
  cases c with
  | none =>
      cases e with
      | event r now =>
          cases hd
          rfl
      | execution x now => cases hd
  | some c =>
      have hc := h c rfl
      cases e with
      | event r now =>
          cases hd
          unfold Cycle.recordEvent
          split
          · exact hc
          · exact folded_append hc r.event
      | execution x now =>
          cases hd
          unfold Cycle.recordExecution
          split
          · exact hc
          · exact hc

theorem folded_history {es : List Request} {c : Cycle} (h : history es = some c) :
    Folded c.message := by
  induction es using List.reverseRecOn generalizing c with
  | nil => cases h
  | append_singleton es e ih =>
      rw [history_concat] at h
      exact folded_run (fun d hd => ih hd) h

theorem statusThrough_all {m : BroadcastMessage} (h : Folded m) (fallback : BroadcastStatus) :
    statusThrough m.events (m.events.length - 1) fallback = m.status := by
  rw [statusThrough, List.take_of_length_le (by omega), h]
  rfl

theorem headerStatus_eq {m : BroadcastMessage} (h : Folded m) : headerStatus m = m.status := by
  unfold headerStatus
  split
  · rfl
  · rw [statusThrough_all h, mergeStatus_self]

/-! ## The row as an event left it -/

/-- A call appends its event, or nothing. -/
theorem events_run {e : Request} {c d : Cycle} (h : e.run (some c) = some d) :
    d.message.events = c.message.events ∨
      ∃ r now, e = .event r now ∧ d.message.events = c.message.events ++ [r.event] := by
  cases e with
  | event r now =>
      cases h
      unfold Cycle.recordEvent
      split
      · exact .inl rfl
      · exact .inr ⟨r, now, rfl, rfl⟩
  | execution x now =>
      cases h
      unfold Cycle.recordExecution
      split
      · exact .inl rfl
      · exact .inl rfl

theorem run_some (e : Request) (c : Cycle) : ∃ d, e.run (some c) = some d := by
  cases e with
  | event r now => exact ⟨_, rfl⟩
  | execution x now => exact ⟨_, rfl⟩

theorem history_append_ne_none {es : List Request} {d : Cycle} (hd : history es = some d)
    (fs : List Request) : history (es ++ fs) ≠ none := by
  induction fs using List.reverseRecOn with
  | nil => simp [hd]
  | append_singleton fs f ih =>
      obtain ⟨b, hb⟩ := Option.ne_none_iff_exists'.1 ih
      rw [← List.append_assoc, history_concat, hb]
      obtain ⟨c, hc⟩ := run_some f b
      rw [hc]
      exact Option.some_ne_none c

/-- The events of a cycle are never rewritten. -/
theorem events_isPrefix {es fs : List Request} {d c : Cycle} (hd : history es = some d)
    (hc : history (es ++ fs) = some c) : d.message.events <+: c.message.events := by
  induction fs using List.reverseRecOn generalizing c with
  | nil =>
      rw [List.append_nil, hd] at hc
      cases hc
      exact List.prefix_refl _
  | append_singleton fs f ih =>
      rw [← List.append_assoc, history_concat] at hc
      cases hb : history (es ++ fs) with
      | none => exact absurd hb (history_append_ne_none hd fs)
      | some b =>
          rw [hb] at hc
          refine (ih hb).trans ?_
          rcases events_run hc with heq | ⟨r, now, -, heq⟩
          · exact heq ▸ List.prefix_rfl
          · exact heq ▸ List.prefix_append _ _

/-- `d` is the cycle as the call left it that recorded its event number `i`. -/
def RecordedAt (es : List Request) (i : Nat) (d : Cycle) : Prop :=
  ∃ before r now after, es = before ++ Request.event r now :: after ∧
    history (before ++ [.event r now]) = some d ∧ d.message.events[i]? = some r.event ∧
      ∀ b, history before = some b → b.message.events.length = i

theorem RecordedAt.length {es : List Request} {i : Nat} {d : Cycle} (h : RecordedAt es i d) :
    d.message.events.length = i + 1 := by
  obtain ⟨before, r, now, after, -, hd, hev, hlen⟩ := h
  have hlt := (List.getElem?_eq_some_iff.1 hev).1
  rw [history_concat] at hd
  cases hb : history before with
  | none =>
      rw [hb] at hd
      cases hd
      have : i < 1 := hlt
      show 1 = i + 1
      omega
  | some b =>
      have hi := hlen b hb
      rw [hb] at hd
      rcases events_run hd with heq | ⟨_, _, -, heq⟩
      · rw [heq] at hlt
        omega
      · rw [heq, List.length_append, hi]
        rfl

/-- The events up to number `i` are what the cycle had when it was recorded. -/
theorem RecordedAt.take {es : List Request} {i : Nat} {c d : Cycle} (h : RecordedAt es i d)
    (hc : history es = some c) : c.message.events.take (i + 1) = d.message.events := by
  have hlen := h.length
  obtain ⟨before, r, now, after, rfl, hd, -, -⟩ := h
  rw [← List.singleton_append, ← List.append_assoc] at hc
  rw [← hlen]
  exact List.prefix_iff_eq_take.1 (events_isPrefix hd hc) |>.symm

theorem RecordedAt.mono {es : List Request} {i : Nat} {d : Cycle} (h : RecordedAt es i d)
    (e : Request) : RecordedAt (es ++ [e]) i d := by
  obtain ⟨before, r, now, after, rfl, hrest⟩ := h
  exact ⟨before, r, now, after ++ [e], by simp, hrest⟩

theorem exists_recordedAt {es : List Request} {c : Cycle} (h : history es = some c) {i : Nat}
    (hi : i < c.message.events.length) : ∃ d, RecordedAt es i d := by
  induction es using List.reverseRecOn generalizing c with
  | nil => cases h
  | append_singleton es e ih =>
      have hlast := h
      rw [history_concat] at h
      cases hb : history es with
      | none =>
          rw [hb] at h
          cases e with
          | event r now =>
              cases h
              have hzero : i = 0 := Nat.lt_one_iff.1 hi
              subst hzero
              exact ⟨_, es, r, now, [], rfl, hlast, rfl, fun b hb' => by rw [hb] at hb'; cases hb'⟩
          | execution x now => cases h
      | some b =>
          rw [hb] at h
          rcases Nat.lt_or_ge i b.message.events.length with hlt | hge
          · obtain ⟨d, hd⟩ := ih hb hlt
            exact ⟨d, hd.mono e⟩
          · rcases events_run h with heq | ⟨r, now, rfl, heq⟩
            · rw [heq] at hi
              omega
            · have hi' : i = b.message.events.length := by
                rw [heq, List.length_append, List.length_singleton] at hi
                omega
              refine ⟨c, es, r, now, [], rfl, hlast, ?_, ?_⟩
              · rw [heq, hi', List.getElem?_concat_length]
              · intro b' hb'
                rw [hb] at hb'
                cases hb'
                exact hi'.symm

/-! ## The texts -/

theorem shownStatus_body {env : Env} {c : Cycle} {timezone : Option String} {includeRaw : Bool}
    {audience : Audience} {text : Text} (hfold : Folded c.message)
    (h : audienceBody env c timezone includeRaw audience = some text) :
    shownStatus text = some c.message.status := by
  have hmessage : ∀ {workers : List BroadcastWorker} {raw full : Bool},
      formatBroadcastMessage env c.message workers timezone raw full = some text →
        shownStatus text = some c.message.status := by
    intro workers raw full h
    obtain ⟨position, hposition, h⟩ := Option.bind_eq_some_iff.1 h
    obtain ⟨boxes, -, h⟩ := Option.bind_eq_some_iff.1 h
    obtain ⟨block, -, hposition⟩ := Option.bind_eq_some_iff.1 hposition
    cases hposition
    cases h
    rw [headerStatus_eq hfold, List.append_assoc, List.append_assoc]
    exact shownStatus_of_firstLine (firstLine_statusLine _ _)
  cases audience with
  | privateChats => exact hmessage h
  | publicChats => exact hmessage h

theorem shownStatus_notice {m : BroadcastMessage} {i : Nat} {notice : Text}
    (h : formatBroadcastUpdateNotice m i = some notice) :
    shownStatus notice = some (statusThrough m.events i m.status) := by
  obtain ⟨e, -, rfl⟩ := Option.map_eq_some_iff.1 h
  exact shownStatus_of_firstLine (firstLine_notice _ _)

/-- The notice of an event shows the status the row had when the event had just been
recorded. -/
theorem shownStatus_recordedAt {es : List Request} {c d : Cycle} {i : Nat} {notice : Text}
    (hc : history es = some c) (hd : RecordedAt es i d)
    (h : formatBroadcastUpdateNotice c.message i = some notice) :
    shownStatus notice = some d.message.status := by
  have hfold : Folded d.message := by
    obtain ⟨_, _, _, _, -, hd, -⟩ := hd
    exact folded_history hd
  rw [shownStatus_notice h, statusThrough, hd.take hc, hfold]
  rfl

theorem notice_of_lt {m : BroadcastMessage} {i : Nat} (hi : i < m.events.length) :
    ∃ notice, formatBroadcastUpdateNotice m i = some notice := by
  rw [formatBroadcastUpdateNotice, List.getElem?_eq_getElem hi]
  exact ⟨_, rfl⟩

theorem lt_of_notice {m : BroadcastMessage} {i : Nat} {notice : Text}
    (h : formatBroadcastUpdateNotice m i = some notice) : i < m.events.length := by
  obtain ⟨e, he, -⟩ := Option.map_eq_some_iff.1 h
  exact (List.getElem?_eq_some_iff.1 he).1

theorem events_pos {m : BroadcastMessage} (h : Folded m) : 0 < m.events.length := by
  refine List.length_pos_iff.2 fun hnil => ?_
  rw [Folded, hnil] at h
  cases h

/-- In a cycle that was recorded the header of the message, for either audience, the row
and the last notice show one status, and the notice of an event shows the status the row
had when that event was recorded, so that no notice falls behind an earlier one. -/
theorem headers_and_notices {es : List Request} {c : Cycle} (h : history es = some c) :
    (∀ (env : Env) (audience : Audience) (timezone : Option String) (includeRaw : Bool)
      (text : Text), audienceBody env c timezone includeRaw audience = some text →
        shownStatus text = some c.message.status) ∧
    (∃ notice, formatBroadcastUpdateNotice c.message (c.message.events.length - 1) = some notice ∧
      shownStatus notice = some c.message.status) ∧
    (∀ i, i < c.message.events.length →
      ∃ notice d, formatBroadcastUpdateNotice c.message i = some notice ∧ RecordedAt es i d ∧
        shownStatus notice = some d.message.status) ∧
    ∀ i j a b s t, i ≤ j → formatBroadcastUpdateNotice c.message i = some a →
      formatBroadcastUpdateNotice c.message j = some b → shownStatus a = some s →
        shownStatus b = some t → s.rank ≤ t.rank := by
  have hfold := folded_history h
  refine ⟨fun _ _ _ _ _ htext => shownStatus_body hfold htext, ?_, ?_, ?_⟩
  · have hpos := events_pos hfold
    obtain ⟨notice, hnotice⟩ := notice_of_lt (m := c.message)
      (i := c.message.events.length - 1) (by omega)
    refine ⟨notice, hnotice, ?_⟩
    rw [shownStatus_notice hnotice, statusThrough_all hfold]
  · intro i hi
    obtain ⟨notice, hnotice⟩ := notice_of_lt hi
    obtain ⟨d, hd⟩ := exists_recordedAt h hi
    exact ⟨notice, d, hnotice, hd, shownStatus_recordedAt h hd hnotice⟩
  · intro i j a b s t hij ha hb hs ht
    rw [shownStatus_notice ha] at hs
    rw [shownStatus_notice hb] at ht
    cases hs
    cases ht
    exact statusThrough_mono hij (lt_of_notice ha) _

namespace Sample

def env : Env where
  spell q := ⟨q.num < 0, q.num.natAbs, 0⟩
  printable _ := true
  defaultHours := ⟨false, 7⟩

/-- An entry, its first target, and the entry's alert once more. -/
def repeated : List Request :=
  [.event (record .long "t0") 0, .event (record .tp1 "t1") 1, .event (record .long "t0") 2]

end Sample

/-- The message is rendered for the public chats, and shows what the last notice shows. -/
theorem headers_and_notices_entry_tp1 : ∃ (c : Cycle) (text notice : Text),
    history Sample.repeated = some c ∧ c.message.status = .tp1 ∧ c.message.events.length = 3 ∧
    audienceBody Sample.env c none false .publicChats = some text ∧
    formatBroadcastUpdateNotice c.message (c.message.events.length - 1) = some notice ∧
    shownStatus text = some .tp1 ∧ shownStatus notice = some .tp1 := by
  have hrendered : ((history Sample.repeated).bind fun c =>
      audienceBody Sample.env c none false .publicChats).isSome = true := by decide +kernel
  obtain ⟨text, htext⟩ := Option.isSome_iff_exists.1 hrendered
  obtain ⟨c, h, htext⟩ := Option.bind_eq_some_iff.1 htext
  have hstatus : (history Sample.repeated).map (fun c => c.message.status) = some .tp1 := by decide
  have hcount : (history Sample.repeated).map (fun c => c.message.events.length) = some 3 := by
    decide
  rw [h, Option.map_some, Option.some.injEq] at hstatus hcount
  obtain ⟨hbodies, ⟨notice, hnotice, hshown⟩, -, -⟩ := headers_and_notices h
  rw [hstatus] at hbodies hshown
  exact ⟨c, text, notice, h, hstatus, hcount, htext, hnotice, hbodies _ _ _ _ _ htext, hshown⟩

end TradingBroker.Broadcast
