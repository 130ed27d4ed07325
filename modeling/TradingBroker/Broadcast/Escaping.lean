import TradingBroker.Schemas.Coerce
import TradingBroker.Broadcast.Headers

/-!
# Markup in a cycle's texts

A message is sent as HTML, in `<pre>` boxes that the formatter opens and closes itself;
what it puts into them it takes over as it came. Here is which texts of a cycle an
audience's copy shows, and that the copy is sound markup exactly if none of them holds a
character that markup is read by. A notice shows none of them.

A text is a list of characters that know whether the formatter wrote them or took them
over (`Lib.Markup`), so soundness can be said without naming a field: the characters
that were taken over are none that markup is read by. The induction then runs along the
formatter, function by function, and collects what each line shows (`shownTexts`).
Numbers, times, labels and the names of enumerations are harmless whatever the cycle
says (`Tame`); strategy, symbol, timeframe and the like are what the sender wrote.
-/

namespace TradingBroker.Broadcast

open Lib.Markup Lib.Numerals Lib.Datetime Helpers

/-! ## The texts that are shown -/

/-- What is shown of a timeframe that is no number of minutes. -/
def timeframeTexts : Option String → List PyStr
  | none => []
  | some timeframe => if (pyInt timeframe).isSome then [] else [pyStr timeframe]

/-- The name of the scale-in rule. -/
def scaleTexts (e : BroadcastEvent) : List PyStr :=
  if e.isScalePosition.isSome then (e.scaleStrategy.map pyStr).toList else []

/-- The characters of an account number that are not masked. -/
def maskedTexts (accountId : String) : List PyStr :=
  let id := pyStr accountId
  if 10 < id.length then [id.take 4, id.drop (id.length - 4)]
  else if 4 < id.length then [id.drop (id.length - 4)]
  else [id]

def workerTexts (w : BroadcastWorker) : List PyStr :=
  (w.gateway.map pyStr).toList ++ maskedTexts w.accountId

mutual

/-- The strings and keys of a value. -/
def jsonTexts : Json → List PyStr
  | .str s => [s]
  | .arr xs => listTexts xs
  | .obj kvs => fieldTexts kvs
  | _ => []

def listTexts : List Json → List PyStr
  | [] => []
  | x :: xs => jsonTexts x ++ listTexts xs

def fieldTexts : List (PyStr × Json) → List PyStr
  | [] => []
  | (k, v) :: kvs => k :: (jsonTexts v ++ fieldTexts kvs)

end

/-- The keys of a dict that have a value, and the texts of the values. -/
def rawTexts (v : Json) : List PyStr :=
  (shownItems v).flatMap fun kv => kv.1 :: jsonTexts kv.2

def lastRawTexts (m : BroadcastMessage) (includeRaw : Bool) : List PyStr :=
  match m.events.getLast? with
  | none => []
  | some last =>
      if includeRaw then rawTexts (rawIndicators last) ++ rawTexts (rawInputs last) else []

/-- The texts of alerts and workers that an audience's copy of a cycle's message shows. -/
def shownTexts (c : Cycle) (includeRaw : Bool) : Audience → List PyStr
  | .publicChats => pyStr c.message.symbol :: timeframeTexts c.message.timeframe
  | .privateChats =>
      (pyStr c.message.symbol :: timeframeTexts c.message.timeframe) ++
        (pyStr c.message.strategy :: ((c.message.events.head?.map scaleTexts).getD [] ++
          (lastRawTexts c.message includeRaw ++ c.workers.flatMap workerTexts)))

/-! ## Numbers, times and words -/

theorem isSpecial_of_isNumeral {c : Char} (h : isNumeral c = true) :
    isSpecial c.toNat = false := by
  rw [isNumeral, Bool.or_eq_true] at h
  rcases h with h | h
  · simp only [Char.isDigit, Bool.and_eq_true, decide_eq_true_eq] at h
    have h1 : 48 ≤ c.toNat := h.1
    have h2 : c.toNat ≤ 57 := h.2
    simp only [isSpecial, Bool.or_eq_false_iff, beq_eq_false_iff_ne]
    omega
  · simp only [List.contains_eq_mem, List.mem_cons, List.not_mem_nil, or_false,
      decide_eq_true_eq] at h
    rcases h with rfl | rfl | rfl | rfl <;> decide

theorem tame_of_numeral {s : String} (h : Numeral s.toList) : Tame s :=
  fun c hc => isSpecial_of_isNumeral (h c hc)

theorem tame_ofList {cs : List Char} (h : Numeral cs) : Tame (String.ofList cs) := by
  refine tame_of_numeral ?_
  rw [String.toList_ofList]
  exact h

theorem tame_toString_nat (n : Nat) : Tame (toString n) := by
  have heq : toString n = String.ofList (digits n) := Nat.toString_eq_ofList_toDigits
  rw [heq]
  exact tame_ofList (Numeral.ofDigits n)

theorem tame_toString_int (n : Int) : Tame (toString n) := by
  cases n with
  | ofNat n => exact tame_toString_nat n
  | negSucc n => exact Tame.append (by decide) (tame_toString_nat (n + 1))

theorem tame_action (a : SignalAction) : Tame (actionToEmoji a ++ " " ++ a.value) := by
  cases a <;> decide

theorem tame_statusLine (s : BroadcastStatus) : Tame (statusLine s) := by
  cases s <;> decide

theorem tame_utcLabel (hours : Hours) : Tame (formatUtcLabel hours) := by
  refine Tame.append (Tame.append (by decide) ?_) ?_
  · split <;> decide
  · split
    · decide
    · exact tame_of_numeral (Numeral.ofGeneral _)

theorem tame_showTime (c : Civil) (hours : Hours) : Tame (showTime c hours) := by
  have hclock : Tame (String.ofList (c.dateText ++ ' ' :: c.clockText)) := by
    intro x hx
    rw [String.toList_ofList] at hx
    simp only [Civil.dateText, Civil.clockText, List.mem_append, List.mem_cons] at hx
    have hdigit : ∀ n v, x ∈ lastDigits n v → isSpecial x.toNat = false :=
      fun n v hmem => isSpecial_of_isNumeral (Numeral.ofLastDigits n v x hmem)
    rcases hx with (h | rfl | h | rfl | h) | rfl | h | rfl | h | rfl | h
    · exact hdigit _ _ h
    · decide
    · exact hdigit _ _ h
    · decide
    · exact hdigit _ _ h
    · decide
    · exact hdigit _ _ h
    · decide
    · exact hdigit _ _ h
    · decide
    · exact hdigit _ _ h
  exact ((hclock.append (by decide)).append (tame_utcLabel hours)).append (by decide)

theorem tame_notificationTime {defaultHours : Hours} {t : Civil × Option Int}
    {offset : Option String} {s : String}
    (h : formatNotificationTime defaultHours t offset = .ok s) : Tame s := by
  unfold formatNotificationTime at h
  cases hutc : toUtc t with
  | error e =>
      rw [hutc] at h
      cases h
  | ok utc =>
      rw [hutc] at h
      cases hshown : astimezone utc (parseOffsetHours defaultHours offset) with
      | error e =>
          simp only [bind, Except.bind, hshown] at h
          cases h
      | ok shown =>
          simp only [bind, Except.bind, hshown] at h
          cases h
          exact tame_showTime _ _

/-! ## Pieces -/

theorem shows_bar : Shows bar [] := .lit (by decide)

theorem shows_newline : Shows newline [] := .lit (by decide)

theorem shows_divider : Shows divider [] := .lit (by decide)

theorem shows_kept {t : Text} {ss : List PyStr} (h : Shows t ss) : Shows (kept t).flatten ss := by
  unfold kept
  split
  · next hnil =>
      rw [List.isEmpty_iff.1 hnil] at h
      exact h
  · rw [List.flatten_singleton]
    exact h

theorem shows_line {ts : List Text} (h : Shows ts.flatten []) : Shows (line ts).flatten [] := by
  unfold line
  split
  · exact .nil
  · rw [List.flatten_singleton]
    exact shows_bar.join h

theorem shows_field {env : Env} {label unit : String} {value : Option PyFloat} {ts : List Text}
    (hlabel : Tame label) (hunit : Tame unit) (h : field env label value unit = some ts) :
    Shows ts.flatten [] := by
  cases value with
  | none =>
      cases h
      exact .nil
  | some x =>
      obtain ⟨s, hs, rfl⟩ := Option.map_eq_some_iff.1 h
      cases x with
      | finite q =>
          obtain ⟨d, rfl⟩ := Context.eq_plain_of_render hs
          rw [List.flatten_singleton]
          exact .lit ((hlabel.append (tame_of_numeral (Numeral.ofPlain _))).append hunit)
      | nan => cases hs
      | posInf => cases hs
      | negInf => cases hs

theorem shows_append_nil {ts us : List Text} (ht : Shows ts.flatten []) (hu : Shows us.flatten []) :
    Shows (ts ++ us).flatten [] := by
  rw [List.flatten_append]
  exact ht.append hu

theorem shows_flag {label : String} (hlabel : Tame label) (b : Option Bool) :
    Shows (flag label b).flatten [] := by
  cases b with
  | none => exact .nil
  | some b =>
      rw [flag, List.flatten_singleton]
      exact .lit (hlabel.append (by cases b <;> decide))

theorem shows_scaleFlag (e : BroadcastEvent) : Shows (scaleFlag e).flatten (scaleTexts e) := by
  unfold scaleFlag scaleTexts
  cases e.isScalePosition with
  | none => exact .nil
  | some b =>
      rw [List.flatten_singleton, Option.isSome_some, if_pos rfl]
      refine Shows.behind (.lit (Tame.append (by decide) (by cases b <;> decide))) ?_
      cases e.scaleStrategy with
      | none => exact .nil
      | some s =>
          show Shows (if s = "" then [] else _) [pyStr s]
          split
          · next hempty =>
              subst hempty
              exact (Shows.omit (by decide)).2 .nil
          · exact Shows.behind (.lit (by decide)) (.data _)

theorem shows_flagsLine {env : Env} {e : BroadcastEvent} {t : Text}
    (h : broadcastFlagsLine env e = some t) : Shows t (scaleTexts e) := by
  obtain ⟨tp1Percent, htp1, h⟩ := Option.bind_eq_some_iff.1 h
  cases h
  refine shows_bar.join ?_
  simp only [List.flatten_append]
  exact Shows.behind (shows_field (by decide) (by decide) htp1)
    (Shows.behind (shows_flag (by decide) _)
      (Shows.behind (shows_flag (by decide) _) (shows_scaleFlag e)))

theorem shows_entryBlock {env : Env} {e : BroadcastEvent} {t : Text}
    (h : formatEntryBlock env e = some t) : Shows t [] := by
  obtain ⟨price, hprice, h⟩ := Option.bind_eq_some_iff.1 h
  obtain ⟨quantity, hquantity, h⟩ := Option.bind_eq_some_iff.1 h
  obtain ⟨risk, hrisk, h⟩ := Option.bind_eq_some_iff.1 h
  obtain ⟨sl, hsl, h⟩ := Option.bind_eq_some_iff.1 h
  obtain ⟨tp1, htp1, h⟩ := Option.bind_eq_some_iff.1 h
  obtain ⟨tp2, htp2, h⟩ := Option.bind_eq_some_iff.1 h
  cases h
  refine shows_newline.join (shows_append_nil (shows_field (by decide) (by decide) hprice)
    (shows_append_nil (shows_line ?_) (shows_line ?_)))
  · exact shows_append_nil (shows_field (by decide) (by decide) hquantity)
      (shows_field (by decide) (by decide) hrisk)
  · exact shows_append_nil (shows_field (by decide) (by decide) hsl)
      (shows_append_nil (shows_field (by decide) (by decide) htp1)
        (shows_field (by decide) (by decide) htp2))

/-- A time is shown, or the alert's own text of it. -/
theorem shows_eventTime {env : Env} {timezone : Option String} {timestamp : String} {t : Text}
    (hbare : Bare (pyStr timestamp)) (h : eventTime env timezone timestamp = some t) :
    Shows t [] := by
  have hdata : Shows (data (pyStr timestamp)) [] := (Shows.omit hbare).1 (.data _)
  unfold eventTime at h
  split at h
  · cases h
    exact hdata
  · split at h
    · next shown hshown =>
        cases h
        exact .lit (tame_notificationTime hshown)
    · cases h
      exact hdata
    · cases h

theorem shows_attemptNote (n : Option Int) : Shows (attemptNote n) [] := by
  cases n with
  | none => exact .nil
  | some n =>
      rw [attemptNote]
      split
      · exact .nil
      · have hlabel : Tame (" " ++ Emoji.cycleRetry ++ " attempt ") := by decide
        exact .lit (hlabel.append (tame_toString_int n))

theorem shows_actionLine (e : BroadcastEvent) : Shows (actionLine e) [] := .lit (tame_action _)

theorem shows_actionBlock {env : Env} {timezone : Option String} {e : BroadcastEvent} {t : Text}
    (hbare : Bare (pyStr e.timestamp)) (h : formatActionBlock env timezone e = some t) :
    Shows t [] := by
  obtain ⟨price, hprice, h⟩ := Option.bind_eq_some_iff.1 h
  obtain ⟨quantity, hquantity, h⟩ := Option.bind_eq_some_iff.1 h
  obtain ⟨risk, hrisk, h⟩ := Option.bind_eq_some_iff.1 h
  obtain ⟨stamp, hstamp, h⟩ := Option.bind_eq_some_iff.1 h
  cases h
  refine shows_newline.join ?_
  rw [List.flatten_cons]
  refine (shows_actionLine e).append (shows_append_nil (shows_line ?_) ?_)
  · exact shows_append_nil (shows_field (by decide) (by decide) hprice)
      (shows_append_nil (shows_field (by decide) (by decide) hquantity)
        (shows_field (by decide) (by decide) hrisk))
  · split
    · exact .nil
    · rw [List.flatten_singleton]
      exact (shows_eventTime hbare hstamp).append (shows_attemptNote _)

/-! ## Workers -/

theorem shows_maskedAccount (accountId : String) :
    Shows (maskedAccount accountId) (maskedTexts accountId) := by
  have hstars : Shows (lit "****") [] := .lit (by decide)
  unfold maskedAccount maskedTexts
  simp only []
  split
  · exact (Shows.data _).append (hstars.append (.data _))
  · split
    · exact hstars.append (.data _)
    · split
      · next hempty =>
          rw [List.isEmpty_iff.1 hempty]
          exact (Shows.omit (by decide)).2 (.lit (by decide))
      · exact .data _

theorem shows_gateway (w : BroadcastWorker) :
    Shows (workerGateway w) (w.gateway.map pyStr).toList := by
  have hmarket : Shows (lit ((w.market.map MarketType.value).getD "")) [] := by
    refine .lit ?_
    cases w.market with
    | none => decide
    | some market => cases market <;> decide
  unfold workerGateway
  cases w.gateway with
  | none => exact hmarket
  | some gateway =>
      show Shows (if gateway = "" then _ else _) [pyStr gateway]
      split
      · next hempty =>
          subst hempty
          exact (Shows.omit (by decide)).2 hmarket
      · exact .data _

theorem isSpecial_of_isPySpace {c : Nat} (h : isPySpace c = true) :
    c ≠ 0x3b ∧ isSpecial c = false := by
  simp only [isPySpace, Bool.or_eq_true, Bool.and_eq_true, decide_eq_true_eq, beq_iff_eq] at h
  simp only [isSpecial, Bool.or_eq_false_iff, beq_eq_false_iff_ne]
  omega

theorem shows_workerLabel (w : BroadcastWorker) : Shows (workerLabel w) (workerTexts w) :=
  Shows.strip ((shows_gateway w).append (Shows.behind (.lit (by decide))
    (shows_maskedAccount w.accountId))) fun _ hc => (isSpecial_of_isPySpace hc).2

theorem shows_workerTable (workers : List BroadcastWorker) :
    Shows (formatWorkerTable workers) (workers.flatMap workerTexts) := by
  unfold formatWorkerTable
  split
  · next hempty =>
      rw [List.isEmpty_iff.1 hempty]
      exact .nil
  · have htitle : Tame ("Workers (" ++ toString workers.length ++ ")\n") :=
      (Tame.append (by decide) (tame_toString_nat _)).append (by decide)
    refine Shows.behind (.lit htitle) (Shows.behind
      (Shows.ljust _ (.lit (by decide))) (Shows.behind (.lit (by decide))
        (shows_newline.join ?_)))
    rw [← List.flatMap_def]
    refine Shows.flatMap fun w _ => ?_
    refine (Shows.ljust _ (shows_workerLabel w)).ahead (.lit (Tame.append (by decide) ?_))
    cases w.latestStatus <;> decide

/-! ## Raw values -/

theorem tame_floatText (env : Env) (x : PyFloat) : Tame (floatText env x) := by
  cases x with
  | finite q =>
      unfold floatText
      simp only []
      split
      · exact tame_of_numeral (Numeral.ofSigned _ (Numeral.ofDigits _))
      · exact tame_of_numeral (Numeral.ofRepr _)
  | nan => exact (by decide : Tame "nan")
  | posInf => exact (by decide : Tame "inf")
  | negInf => exact (by decide : Tame "-inf")

theorem tame_hexDigits (n v : Nat) : Tame (String.ofList (hexDigits n v)) := by
  have hdigit : ∀ d, d < 16 → isSpecial (Nat.digitChar d).toNat = false := by decide
  intro c hc
  rw [String.toList_ofList] at hc
  induction n generalizing v with
  | zero => cases hc
  | succ n ih =>
      rcases List.mem_append.1 hc with h | h
      · exact ih _ h
      · rw [List.mem_singleton.1 h]
        exact hdigit _ (Nat.mod_lt v (by decide))

theorem shows_hexEscape {letter : String} (hletter : Tame ("\\" ++ letter)) (n c : Nat) :
    Shows (hexEscape letter n c) [] :=
  Shows.behind (.lit hletter) (.lit (tame_hexDigits n c))

/-- A character that is escaped is not special: those are written as they are. -/
theorem shows_reprChar (env : Env) (quote c : Nat) :
    Shows (reprChar env quote c) [[c]] := by
  have hescaped : ∀ {t : Text}, (c < 0x20 ∨ 0x7f ≤ c) → Shows t [] → Shows t [[c]] := by
    intro t hc h
    refine (Shows.omit ?_).2 h
    intro d hd
    rw [List.mem_singleton] at hd
    subst hd
    simp only [isSpecial, Bool.or_eq_false_iff, beq_eq_false_iff_ne]
    omega
  unfold reprChar
  split
  · exact Shows.behind (.lit (by decide)) (.data _)
  · split
    · exact hescaped (by omega) (.lit (by decide))
    · split
      · exact hescaped (by omega) (.lit (by decide))
      · split
        · exact hescaped (by omega) (.lit (by decide))
        · split
          · exact hescaped (by omega) (shows_hexEscape (by decide) _ _)
          · split
            · exact .data _
            · split
              · exact .data _
              · split
                · exact hescaped (by omega) (shows_hexEscape (by decide) _ _)
                · split
                  · exact hescaped (by omega) (shows_hexEscape (by decide) _ _)
                  · exact hescaped (by omega) (shows_hexEscape (by decide) _ _)

theorem shows_reprStr (env : Env) (s : PyStr) : Shows (reprStr env s) [s] := by
  have hquote : Shows (lit (if reprQuote s = 0x22 then "\"" else "'")) [] := by
    refine .lit ?_
    split <;> decide
  have hchars : ∀ t : PyStr, Shows (t.flatMap (reprChar env (reprQuote s))) [t] := by
    intro t
    induction t with
    | nil => exact (Shows.omit (by decide)).2 .nil
    | cons c t ih => exact Shows.cons ((shows_reprChar env _ c).append ih)
  exact hquote.append ((hchars s).append hquote)

mutual

theorem shows_reprJson (env : Env) (v : Json) : Shows (reprJson env v) (jsonTexts v) := by
  cases v with
  | null => exact .lit (by decide)
  | bool b => exact .lit (by cases b <;> decide)
  | int n => exact .lit (tame_toString_int n)
  | float x => exact .lit (tame_floatText env x)
  | str s => exact shows_reprStr env s
  | arr xs =>
      exact Shows.behind (.lit (by decide))
        ((Shows.join (.lit (by decide)) (shows_reprList env xs)).ahead (.lit (by decide)))
  | obj kvs =>
      exact Shows.behind (.lit (by decide))
        ((Shows.join (.lit (by decide)) (shows_reprFields env kvs)).ahead (.lit (by decide)))

theorem shows_reprList (env : Env) (xs : List Json) :
    Shows (reprList env xs).flatten (listTexts xs) := by
  cases xs with
  | nil => exact .nil
  | cons x xs => exact (shows_reprJson env x).append (shows_reprList env xs)

theorem shows_reprFields (env : Env) (kvs : List (PyStr × Json)) :
    Shows (reprFields env kvs).flatten (fieldTexts kvs) := by
  cases kvs with
  | nil => exact .nil
  | cons kv kvs =>
      obtain ⟨k, v⟩ := kv
      rw [reprFields, List.flatten_cons, List.append_assoc, List.append_assoc]
      exact (shows_reprStr env k).append (Shows.behind (.lit (by decide))
        ((shows_reprJson env v).append (shows_reprFields env kvs)))

end

theorem shows_strJson (env : Env) (v : Json) : Shows (strJson env v) (jsonTexts v) := by
  cases v with
  | str s => exact .data s
  | null => exact shows_reprJson env _
  | bool b => exact shows_reprJson env _
  | int n => exact shows_reprJson env _
  | float x => exact shows_reprJson env _
  | arr xs => exact shows_reprJson env _
  | obj kvs => exact shows_reprJson env _

theorem shows_rawBlock (env : Env) {title : String} (htitle : Tame title) (v : Json) :
    Shows (rawBlock env title v).flatten (rawTexts v) := by
  unfold rawBlock rawTexts
  split
  · next hempty =>
      rw [List.isEmpty_iff.1 hempty]
      exact .nil
  · rw [List.flatten_singleton]
    refine Shows.behind (.lit (htitle.append (by decide))) (shows_newline.join ?_)
    rw [← List.flatMap_def]
    exact Shows.flatMap fun kv _ => Shows.behind (.lit (by decide))
      ((Shows.data kv.1).append (Shows.behind (.lit (by decide)) (shows_strJson env kv.2)))

theorem shows_rawDicts (env : Env) (indicators inputs : Json) :
    Shows (formatRawDicts env indicators inputs) (rawTexts indicators ++ rawTexts inputs) := by
  have hparts : Shows (rawBlock env "Indicators" indicators ++ rawBlock env "Inputs" inputs).flatten
      (rawTexts indicators ++ rawTexts inputs) := by
    rw [List.flatten_append]
    exact (shows_rawBlock env (by decide) _).append (shows_rawBlock env (by decide) _)
  unfold formatRawDicts
  simp only []
  split
  · next hempty =>
      rw [List.isEmpty_iff.1 hempty] at hparts
      exact hparts
  · exact shows_newline.behind (shows_newline.join hparts)

theorem shows_rawLines (env : Env) (m : BroadcastMessage) (includeRaw : Bool) :
    Shows (rawLines env m includeRaw).flatten (lastRawTexts m includeRaw) := by
  unfold rawLines lastRawTexts
  cases m.events.getLast? with
  | none => exact .nil
  | some last =>
      have hraw := shows_rawDicts env (rawIndicators last) (rawInputs last)
      cases includeRaw with
      | false => exact .nil
      | true =>
          simp only [if_true, true_and]
          split
          · rw [List.flatten_cons, List.flatten_singleton]
            refine Shows.ahead (Shows.lstrip (· == 0x0a) hraw fun c hc => ?_) shows_divider
            rw [beq_iff_eq.1 hc]
            rfl
          · next hempty =>
              rw [not_not, List.isEmpty_iff] at hempty
              rw [hempty] at hraw
              exact hraw

/-! ## Boxes -/

theorem shows_uxid (u : Uxid) : Shows (lit "Signal: " ++ data u.1) [] := by
  have hbare : Bare u.1 := by
    intro c hc
    have hu := u.2
    simp only [isValidUxid, Bool.and_eq_true, List.all_eq_true] at hu
    have := hu.2 c hc
    simp only [isUpperHex, Bool.or_eq_true, Bool.and_eq_true, decide_eq_true_eq] at this
    simp only [isSpecial, Bool.or_eq_false_iff, beq_eq_false_iff_ne]
    omega
  exact Shows.behind (.lit (by decide)) ((Shows.omit hbare).1 (.data _))

theorem shows_formatTimeframe (minutes : String) :
    Shows (formatTimeframe minutes) (if (pyInt minutes).isSome then [] else [pyStr minutes]) := by
  unfold formatTimeframe
  cases pyInt minutes with
  | none => exact .data _
  | some m =>
      have hunit : ∀ {unit : String} (n : Int), Tame unit → Tame (unit ++ toString n) :=
        fun n hunit => hunit.append (tame_toString_int n)
      refine .lit ?_
      split
      · exact hunit _ (by decide)
      · split
        · exact hunit _ (by decide)
        · split
          · exact hunit _ (by decide)
          · exact hunit _ (by decide)

theorem shows_timeframe (timeframe : Option String) :
    Shows (timeframeNote timeframe) (timeframeTexts timeframe) := by
  cases timeframe with
  | none => exact .nil
  | some timeframe =>
      show Shows (if timeframe = "" then [] else _) (timeframeTexts (some timeframe))
      split
      · next hempty =>
          subst hempty
          exact (Shows.omit (by decide)).2 .nil
      · exact Shows.behind (.lit (by decide))
          ((shows_formatTimeframe timeframe).ahead (.lit (by decide)))

theorem shows_entryLine (m : BroadcastMessage) :
    Shows (entryLine m) (pyStr m.symbol :: timeframeTexts m.timeframe) := by
  have hsubject : Shows (data (pyStr m.symbol) ++ timeframeNote m.timeframe)
      (pyStr m.symbol :: timeframeTexts m.timeframe) :=
    (Shows.data _).append (shows_timeframe _)
  unfold entryLine
  cases m.events.head? with
  | none => exact Shows.behind (.lit (by decide)) hsubject
  | some entry => exact Shows.behind (.lit ((tame_action _).append (by decide))) hsubject

theorem shows_ofEntry {m : BroadcastMessage} {block : BroadcastEvent → Option Text} {t : Text}
    (texts : BroadcastEvent → List PyStr)
    (hblock : ∀ e t, block e = some t → Shows t (texts e)) (h : ofEntry m block = some t) :
    Shows t ((m.events.head?.map texts).getD []) := by
  unfold ofEntry at h
  split at h
  · next hnone =>
      cases h
      rw [hnone]
      exact .nil
  · next entry hentry =>
      rw [hentry]
      exact hblock entry t h

theorem shows_positionBox {env : Env} {m : BroadcastMessage} {full : Bool} {t : Text}
    (h : positionBox env m full = some t) :
    Shows t (pyStr m.symbol :: timeframeTexts m.timeframe) := by
  obtain ⟨block, hblock, h⟩ := Option.bind_eq_some_iff.1 h
  cases h
  have hentry : Shows block [] := by
    have := shows_ofEntry (fun _ => []) (fun _ _ => shows_entryBlock) hblock
    cases hhead : m.events.head? with
    | none =>
        rw [hhead] at this
        exact this
    | some e =>
        rw [hhead] at this
        exact this
  refine Shows.behind (.lit (tame_statusLine _)) (shows_newline.behind (shows_newline.join ?_))
  simp only [List.flatten_cons, List.flatten_append]
  refine (shows_entryLine m).ahead (shows_divider.append ((shows_kept hentry).append
    (shows_divider.append ?_)))
  split
  · exact .nil
  · rw [List.flatten_cons, List.flatten_singleton]
    exact (shows_uxid _).append shows_divider

theorem mem_mapM {α β : Type} {f : α → Option β} {xs : List α} {ys : List β}
    (h : xs.mapM f = some ys) : ∀ y ∈ ys, ∃ x ∈ xs, f x = some y := by
  induction xs generalizing ys with
  | nil =>
      cases h
      simp
  | cons x xs ih =>
      rw [List.mapM_cons] at h
      obtain ⟨y, hy, h⟩ := Option.bind_eq_some_iff.1 h
      obtain ⟨zs, hzs, h⟩ := Option.bind_eq_some_iff.1 h
      cases h
      intro z hz
      rcases List.mem_cons.1 hz with rfl | hz
      · exact ⟨x, List.mem_cons_self, hy⟩
      · obtain ⟨x', hx', hf⟩ := ih hzs z hz
        exact ⟨x', List.mem_cons_of_mem _ hx', hf⟩

/-- The times of a cycle's alerts hold no markup. -/
def BareTimes (m : BroadcastMessage) : Prop := ∀ e ∈ m.events, Bare (pyStr e.timestamp)

theorem shows_actionsBox {env : Env} {m : BroadcastMessage} {timezone : Option String}
    {ts : List Text} (htimes : BareTimes m) (h : actionsBox env m timezone = some ts) :
    Shows ts.flatten [] := by
  unfold actionsBox at h
  split at h
  · cases h
    exact .nil
  · obtain ⟨blocks, hblocks, h⟩ := Option.bind_eq_some_iff.1 h
    cases h
    have hall : Shows blocks.flatten [] := by
      refine Shows.flatten fun t ht => ?_
      obtain ⟨e, he, hblock⟩ := mem_mapM hblocks t ht
      exact shows_actionBlock (htimes e (List.mem_of_mem_tail he)) hblock
    rw [List.flatten_singleton]
    refine shows_newline.join ?_
    simp only [List.flatten_cons, List.flatten_nil]
    exact Shows.behind (.lit (by decide)) (shows_divider.append
      ((Shows.join (.lit (by decide)) hall).append (shows_divider.append .nil)))

theorem shows_settingsBox {env : Env} {m : BroadcastMessage} {includeRaw : Bool} {t : Text}
    (h : settingsBox env m includeRaw = some t) :
    Shows t (pyStr m.strategy :: ((m.events.head?.map scaleTexts).getD [] ++
      lastRawTexts m includeRaw)) := by
  obtain ⟨flags, hflags, h⟩ := Option.bind_eq_some_iff.1 h
  cases h
  have hentry := shows_ofEntry scaleTexts (fun _ _ => shows_flagsLine) hflags
  have hsettings : Shows (if flags.isEmpty then []
      else [lit (Emoji.barChart ++ "Settings:"), divider, flags, divider]).flatten
      ((m.events.head?.map scaleTexts).getD []) := by
    split
    · next hempty =>
        rw [List.isEmpty_iff.1 hempty] at hentry
        exact hentry
    · simp only [List.flatten_cons, List.flatten_nil, List.append_nil]
      exact Shows.behind (.lit (by decide)) (shows_divider.behind (hentry.ahead shows_divider))
  refine shows_newline.join ?_
  rw [List.flatten_append, List.flatten_append]
  show Shows _ ([pyStr m.strategy] ++ _)
  refine Shows.append ?_ (hsettings.append (shows_rawLines env m includeRaw))
  simp only [List.flatten_cons, List.flatten_nil, List.append_nil]
  exact Shows.behind (.lit (by decide)) (shows_divider.behind
    ((Shows.behind (.lit (by decide)) (.data _)).ahead ((shows_uxid _).append shows_divider)))

theorem shows_furtherBoxes {env : Env} {m : BroadcastMessage} {workers : List BroadcastWorker}
    {timezone : Option String} {includeRaw full : Bool} {ts : List Text} (htimes : BareTimes m)
    (h : furtherBoxes env m workers timezone includeRaw full = some ts) :
    Shows ts.flatten (if full then pyStr m.strategy ::
      ((m.events.head?.map scaleTexts).getD [] ++
        (lastRawTexts m includeRaw ++ workers.flatMap workerTexts)) else []) := by
  obtain ⟨actions, hactions, h⟩ := Option.bind_eq_some_iff.1 h
  have hact := shows_actionsBox htimes hactions
  cases full with
  | false =>
      cases h
      exact hact
  | true =>
      obtain ⟨settings, hsettings, h⟩ := Option.bind_eq_some_iff.1 h
      cases h
      rw [List.flatten_append, List.flatten_cons, if_pos rfl]
      have := hact.behind ((shows_settingsBox hsettings).append
        (shows_kept (shows_workerTable workers)))
      simpa only [List.cons_append, List.append_assoc] using this

/-! ## The boxed message -/

/-- The formatter's one tag. -/
def tags : List (List Nat) := [codesOf "pre"]

/-- Inside a box. -/
def inBox : Scan := ⟨some (codesOf "pre"), .text⟩

/-- Well-formed markup with no tags but the formatter's own, in which nothing that was
taken over is read as markup. -/
def Sound (t : Text) : Prop :=
  WellFormed tags t.codes ∧ ∀ g ∈ t, g.foreign = true → isSpecial g.code = false

theorem bare_codes {t : Text} (h : ∀ g ∈ t, isSpecial g.code = false) : Bare t.codes := by
  intro c hc
  obtain ⟨g, hg, rfl⟩ := List.mem_map.1 hc
  exact h g hg

/-- The separator closes a box and opens the next. -/
theorem run_boxes {boxes : List Text} (h : ∀ g ∈ boxes.flatten, isSpecial g.code = false) :
    inBox.run tags (Text.codes (boxes.flatMap fun b => nextBox ++ b)) = some inBox := by
  induction boxes with
  | nil => rfl
  | cons b boxes ih =>
      rw [List.flatten_cons] at h
      have hb : inBox.run tags b.codes = some inBox :=
        run_bare rfl (bare_codes fun g hg => h g (List.mem_append_left _ hg))
      have hnext : inBox.run tags nextBox.codes = some inBox := by decide
      rw [List.flatMap_cons, codes_append, codes_append, run_append, run_append, hnext,
        Option.bind_some, hb, Option.bind_some]
      exact ih fun g hg => h g (List.mem_append_right _ hg)

theorem wellFormed_box {t : Text} (h : inBox.run tags t.codes = some inBox) :
    WellFormed tags (box t).codes := by
  have hopen : Scan.start.run tags (lit "<pre>").codes = some inBox := by decide
  have hclose : inBox.run tags (lit "</pre>").codes = some .start := by decide
  have hstrip := run_strip (fun _ => isSpecial_of_isPySpace) rfl rfl h
  rw [WellFormed, box, codes_append, codes_append, run_append, hopen, Option.bind_some,
    run_append, hstrip, Option.bind_some, hclose]

theorem mem_box_of_special {t : Text} {g : Glyph} (hg : g ∈ t) (hsp : isSpecial g.code = true) :
    g ∈ box t := by
  obtain ⟨u, v, hu, hv, heq⟩ := strip_split isPySpace t
  rw [← heq, List.mem_append, List.mem_append] at hg
  rcases hg with hg | hg | hg
  · rw [(isSpecial_of_isPySpace (hu g hg)).2] at hsp
    cases hsp
  · exact List.mem_append_right _ (List.mem_append_left _ hg)
  · rw [(isSpecial_of_isPySpace (hv g hg)).2] at hsp
    cases hsp

theorem mem_of_mem_box {t : Text} {g : Glyph} (hg : g ∈ box t) (hforeign : g.foreign = true) :
    g ∈ t := by
  have hlit : ∀ s : String, g ∉ lit s := by
    intro s hmem
    obtain ⟨c, -, rfl⟩ := mem_lit.1 hmem
    cases hforeign
  rcases List.mem_append.1 hg with hg | hg
  · exact absurd hg (hlit _)
  · rcases List.mem_append.1 hg with hg | hg
    · obtain ⟨u, v, -, -, heq⟩ := strip_split isPySpace t
      rw [← heq]
      exact List.mem_append_right _ (List.mem_append_left _ hg)
    · exact absurd hg (hlit _)

/-- A boxed message is sound exactly if what its boxes show is free of markup. -/
theorem sound_box_iff {position : Text} {boxes : List Text} {ps bs : List PyStr}
    (hposition : Shows position ps) (hboxes : Shows boxes.flatten bs) :
    Sound (box (position ++ boxes.flatMap fun b => nextBox ++ b)) ↔
      ∀ s ∈ ps ++ bs, Bare s := by
  have hmem : ∀ g ∈ boxes.flatten, g ∈ boxes.flatMap fun b => nextBox ++ b := by
    intro g hg
    obtain ⟨b, hb, hg⟩ := List.mem_flatten.1 hg
    exact List.mem_flatMap.2 ⟨b, hb, List.mem_append_right _ hg⟩
  constructor
  · rintro ⟨-, hforeign⟩ s hs
    have hclean : ∀ {t : Text} {ss : List PyStr}, Shows t ss →
        (∀ g ∈ t, g ∈ position ++ boxes.flatMap fun b => nextBox ++ b) → ∀ s ∈ ss, Bare s := by
      intro t ss ht hsub
      refine ht.clean.1 fun g hg => ?_
      cases hown : g.foreign with
      | false => exact ht.own g hg hown
      | true =>
          by_contra hsp
          rw [Bool.not_eq_false] at hsp
          have := hforeign g (mem_box_of_special (hsub g hg) hsp) hown
          rw [hsp] at this
          cases this
    rcases List.mem_append.1 hs with hs | hs
    · exact hclean hposition (fun g hg => List.mem_append_left _ hg) s hs
    · exact hclean hboxes (fun g hg => List.mem_append_right _ (hmem g hg)) s hs
  · intro hbare
    have hp := hposition.clean.2 fun s hs => hbare s (List.mem_append_left _ hs)
    have hb := hboxes.clean.2 fun s hs => hbare s (List.mem_append_right _ hs)
    refine ⟨wellFormed_box ?_, fun g hg hforeign => ?_⟩
    · have hrun : inBox.run tags position.codes = some inBox := run_bare rfl (bare_codes hp)
      rw [codes_append, run_append, hrun, Option.bind_some, run_boxes hb]
    · rcases List.mem_append.1 (mem_of_mem_box hg hforeign) with hg | hg
      · exact hp g hg
      · obtain ⟨b, hbm, hg⟩ := List.mem_flatMap.1 hg
        rcases List.mem_append.1 hg with hg | hg
        · obtain ⟨c, -, rfl⟩ := mem_lit.1 hg
          cases hforeign
        · exact hb g (List.mem_flatten.2 ⟨b, hbm, hg⟩)

theorem sound_notice {m : BroadcastMessage} {i : Nat} {notice : Text}
    (h : formatBroadcastUpdateNotice m i = some notice) : Sound (box notice) := by
  obtain ⟨e, -, rfl⟩ := Option.map_eq_some_iff.1 h
  have hshows : Shows (rstrip isPySpace (lit (statusLine (statusThrough m.events i m.status)) ++
      (newline ++ actionLine e))) [] :=
    Shows.rstrip (Shows.behind (.lit (tame_statusLine _))
      (shows_newline.append (shows_actionLine e))) fun _ hc => (isSpecial_of_isPySpace hc).2
  have hnone : Shows ([] : List Text).flatten [] := .nil
  have hsound := (sound_box_iff hshows hnone).2 (by simp)
  rw [List.flatMap_nil, List.append_nil] at hsound
  exact hsound

/-! ## Recorded cycles -/

/-- What the service records: an alert, by its payload, and a worker's execution. -/
inductive Recorded where
  | alert (payload : WebhookPayload) (attemptNumber : Option Int) (now : Int)
  | execution (x : Execution) (now : Int)

/-- `SignalBroadcastService.broadcast` and `record_execution`. -/
def Recorded.request : Recorded → Request
  | .alert p attemptNumber now =>
      .event ⟨p.strategy, p.signalUxid, p.symbol, some p.timeframe,
        buildBroadcastEvent p attemptNumber⟩ now
  | .execution x now => .execution x now

theorem bare_isoformat (t : Timestamp) : Bare (pyStr t.isoformat) := by
  intro c hc
  obtain ⟨x, hx, rfl⟩ := List.mem_map.1 hc
  have hiso := List.all_eq_true.1 t.iso_chars x hx
  simp only [isIsoChar, Bool.or_eq_true, beq_iff_eq] at hiso
  rcases hiso with ((((h | rfl) | rfl) | rfl) | rfl) | rfl
  · exact isSpecial_of_isNumeral (by rw [isNumeral, h, Bool.true_or])
  · decide
  · decide
  · decide
  · decide
  · decide

theorem bareTimes_history {rs : List Recorded} {c : Cycle}
    (h : history (rs.map Recorded.request) = some c) : BareTimes c.message := by
  induction rs using List.reverseRecOn generalizing c with
  | nil => cases h
  | append_singleton rs r ih =>
      rw [List.map_append, List.map_singleton, history_concat] at h
      cases hb : history (rs.map Recorded.request) with
      | none =>
          rw [hb] at h
          cases r with
          | alert p attemptNumber now =>
              cases h
              intro e he
              rw [List.mem_singleton.1 he]
              exact bare_isoformat p.timestamp
          | execution x now => cases h
      | some b =>
          rw [hb] at h
          rcases events_run h with heq | ⟨record, now, hr, heq⟩
          · intro e he
            rw [heq] at he
            exact ih hb e he
          · intro e he
            rw [heq] at he
            rcases List.mem_append.1 he with he | he
            · exact ih hb e he
            · cases r with
              | alert p attemptNumber now' =>
                  cases hr
                  rw [List.mem_singleton.1 he]
                  exact bare_isoformat p.timestamp
              | execution x now' => cases hr

/-- What an audience is sent about a cycle, boxed, is sound markup exactly if none of the
texts its copy of the message shows holds a character that markup is read by. -/
theorem boxes_sound_iff {rs : List Recorded} {c : Cycle}
    (h : history (rs.map Recorded.request) = some c) {env : Env} {audience : Audience}
    {timezone : Option String} {includeRaw : Bool} {text : Text}
    (htext : audienceBody env c timezone includeRaw audience = some text) :
    (Sound (box text) ∧ ∀ i notice, formatBroadcastUpdateNotice c.message i = some notice →
      Sound (box notice)) ↔ ∀ s ∈ shownTexts c includeRaw audience, Bare s := by
  rw [and_iff_left fun _ _ hnotice => sound_notice hnotice]
  have htimes := bareTimes_history h
  cases audience with
  | privateChats =>
      obtain ⟨position, hposition, htext⟩ := Option.bind_eq_some_iff.1 htext
      obtain ⟨boxes, hboxes, htext⟩ := Option.bind_eq_some_iff.1 htext
      cases htext
      exact sound_box_iff (shows_positionBox hposition) (shows_furtherBoxes htimes hboxes)
  | publicChats =>
      obtain ⟨position, hposition, htext⟩ := Option.bind_eq_some_iff.1 htext
      obtain ⟨boxes, hboxes, htext⟩ := Option.bind_eq_some_iff.1 htext
      cases htext
      have hiff := sound_box_iff (shows_positionBox hposition) (shows_furtherBoxes htimes hboxes)
      rw [if_neg Bool.false_ne_true, List.append_nil] at hiff
      exact hiff

/-! ## A strategy with a comparison in its name -/

namespace Unescaped

theorem moment_length : "2026-04-10T22:55:00".length ≤ 42 := by decide

theorem moment_chars : "2026-04-10T22:55:00".toList.all isIsoChar = true := by decide

def moment : Timestamp where
  instant := 63911458500000000
  isoformat := "2026-04-10T22:55:00"
  length_le := moment_length
  iso_chars := moment_chars

/-- Reads the one date below. -/
def reads : LaxReads := Sample.readsDate moment fun n => some n

def raw (strategy : String) : JsonObject :=
  [(pyStr "strategy", .str (pyStr strategy)), (pyStr "symbol", .str (pyStr "BTCUSDT")),
    (pyStr "timeframe", .str (pyStr "15")), (pyStr "timestamp", .str moment.jsonText),
    (pyStr "position", .obj [(pyStr "action", .str (pyStr "LONG"))]),
    (pyStr "token", .str (pyStr "shared-webhook-token"))]

def payload (strategy : String) : WebhookPayload where
  strategy := strategy
  symbol := "BTCUSDT"
  timeframe := "15"
  timestamp := moment
  position := Sample.long none
  indicators := none
  inputs := none
  token := "shared-webhook-token"
  signalUxid := Sample.uxid

/-- The cycle its alert opens. -/
def cycle (strategy : String) : Cycle :=
  EventRecord.opened ⟨strategy, Sample.uxid, "BTCUSDT", some "15",
    buildBroadcastEvent (payload strategy) none⟩ 0

/-- The private copy of its message. -/
def text (strategy : String) : Text :=
  (audienceBody Sample.env (cycle strategy) none false .privateChats).getD []

theorem recorded (strategy : String) :
    history ([Recorded.alert (payload strategy) none 0].map Recorded.request) =
      some (cycle strategy) := rfl

theorem text_eq (strategy : String)
    (h : (audienceBody Sample.env (cycle strategy) none false .privateChats).isSome = true) :
    audienceBody Sample.env (cycle strategy) none false .privateChats = some (text strategy) := by
  obtain ⟨t, ht⟩ := Option.isSome_iff_exists.1 h
  rw [text, ht]
  rfl

end Unescaped

instance (t : Text) : Decidable (Sound t) := inferInstanceAs (Decidable (_ ∧ _))

/-- An accepted alert whose strategy's name opens a tag in the private copy. -/
theorem not_boxes_sound : ∃ p c text,
    WebhookPayload.parse Unescaped.reads (Unescaped.raw "EMA9<EMA21") Sample.uxid = some p ∧
    history ([Recorded.alert p none 0].map Recorded.request) = some c ∧
    audienceBody Sample.env c none false .privateChats = some text ∧ ¬ Sound (box text) := by
  refine ⟨Unescaped.payload "EMA9<EMA21", Unescaped.cycle "EMA9<EMA21",
    Unescaped.text "EMA9<EMA21", rfl, Unescaped.recorded _, Unescaped.text_eq _ ?_, ?_⟩
  · decide +kernel
  · decide +kernel

/-- Without the comparison the copy is sound. -/
theorem boxes_sound_plain : ∃ p c text,
    WebhookPayload.parse Unescaped.reads (Unescaped.raw "EMA9 under EMA21") Sample.uxid = some p ∧
    history ([Recorded.alert p none 0].map Recorded.request) = some c ∧
    audienceBody Sample.env c none false .privateChats = some text ∧ Sound (box text) := by
  have htext := Unescaped.text_eq "EMA9 under EMA21" (by decide +kernel)
  refine ⟨Unescaped.payload "EMA9 under EMA21", Unescaped.cycle "EMA9 under EMA21",
    Unescaped.text "EMA9 under EMA21", rfl, Unescaped.recorded _, htext, ?_⟩
  exact ((boxes_sound_iff (Unescaped.recorded _) htext).2 (by decide +kernel)).1

end TradingBroker.Broadcast
