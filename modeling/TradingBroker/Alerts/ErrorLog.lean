import Mathlib.Algebra.Order.Ring.Rat
import TradingBroker.Lib.Mailbox
import TradingBroker.Schemas.Core

/-!
# Error logs forwarded to a chat

`TelegramLogHandler` of `broker/services/notification_service.py`. A record that passes the
level and the filter is formatted, looked up among the messages of the last seconds, and
handed to the event loop; the loop puts it in the queue, and one task sends what is in it.
Records may be logged at any time and by anybody, the send path itself included: its own
are told by the name of their logger.

`_recent` forgets what is older than the window whenever a record comes. The history it
is read off, `forwarded`, is kept whole beside it, and says what the dictionary is for:
a message goes out exactly if it has not within the window. `Remembers` ties the two
together, and it needs the clock not to run back.

What is forwarded is then followed to the chat: into the list of callbacks the event loop
still owes a run, from there into the queue or, if that is full, nowhere, and out of the
queue in order (`Delivers`).
-/

namespace TradingBroker.Alerts

open TradingBroker.Lib

/-- A `logging.LogRecord`. `message` is what `getMessage` gives, which raises when the
arguments do not fit, and the other two are appended to it when they are there. -/
structure LogRecord where
  name : PyStr
  levelno : Int
  levelname : PyStr
  message : Option PyStr
  excText : Option PyStr
  stackInfo : Option PyStr
  deriving DecidableEq

def errorLevel : Int := 40

/-- The loggers of the send path. -/
def excludedPrefixes : List PyStr := [pyStr "broker.services.notification_service"]

def queueMaxsize : Nat := 100

/-- A line of its own. -/
def onOwnLine (text : PyStr) : Option PyStr → PyStr
  | none => text
  | some [] => text
  | some more => text ++ ((if text.getLast? = some 0x0a then [] else [0x0a]) ++ more)

/-- `Formatter.format`. -/
def format (r : LogRecord) : Option PyStr :=
  r.message.map fun message =>
    onOwnLine (onOwnLine
      (pyStr "[BROKER]\n" ++ r.levelname ++ pyStr " | " ++ r.name ++ pyStr "\n" ++ message)
      r.excText) r.stackInfo

/-- The handler's level and `_RecursionFilter`. -/
def LogRecord.passes (r : LogRecord) : Bool :=
  errorLevel ≤ r.levelno && ! excludedPrefixes.any (·.isPrefixOf r.name)

/-- The text of a record that is up for being forwarded. -/
def LogRecord.forwardable (r : LogRecord) : Option PyStr :=
  if r.passes then format r else none

/-- The event loop, once it is known. -/
inductive EventLoop where
  | unbound
  | running
  | closed
  deriving DecidableEq

/-- The handler, the callbacks the loop has been given, the time, and what was forwarded
when. `refused` are the messages that found the queue full. -/
structure LogHandler where
  loop : EventLoop
  box : Mailbox PyStr
  stopping : Bool
  scheduled : List PyStr
  recent : List (PyStr × Rat)
  clock : Rat
  forwarded : List (Rat × PyStr)
  refused : List PyStr

inductive Logging where
  | handle (r : LogRecord)
  | elapse (seconds : Rat)
  | start
  | callback
  | worker
  | stop
  | unwound
  | close
  deriving DecidableEq

namespace LogHandler

def new (clock : Rat) : LogHandler :=
  ⟨.unbound, .new queueMaxsize, false, [], [], clock, [], []⟩

/-- `_is_duplicate`, with the dictionary it leaves. -/
def isDuplicate (window : Rat) (recent : List (PyStr × Rat)) (now : Rat) (message : PyStr) :
    Bool × List (PyStr × Rat) :=
  let kept := recent.filter fun entry => now - entry.2 < window
  if kept.any fun entry => entry.1 == message then (true, kept)
  else (false, kept ++ [(message, now)])

/-- `emit`. -/
def emit (window : Rat) (s : LogHandler) (r : LogRecord) : LogHandler :=
  match s.loop with
  | .unbound => s
  | .closed => s
  | .running =>
      match format r with
      | none => s
      | some message =>
          match isDuplicate window s.recent s.clock message with
          | (true, recent) => { s with recent }
          | (false, recent) =>
              { s with
                recent
                scheduled := s.scheduled ++ [message]
                forwarded := s.forwarded ++ [(s.clock, message)] }

def step (window : Rat) (s : LogHandler) : Logging → LogHandler
  | .handle r => if r.passes then s.emit window r else s
  | .elapse seconds => if 0 ≤ seconds then { s with clock := s.clock + seconds } else s
  | .start =>
      if s.loop = .closed ∨ s.stopping then s
      else { s with loop := .running, box := s.box.start }
  | .callback =>
      -- `_enqueue`
      match s.loop, s.scheduled with
      | .running, message :: scheduled =>
          match s.box.put message with
          | some box => { s with box, scheduled }
          | none => { s with scheduled, refused := s.refused ++ [message] }
      | _, _ => s
  | .worker => if s.stopping then s else { s with box := s.box.turn }
  | .stop => if s.box.task = none then s else { s with stopping := true }
  | .unwound => if s.stopping then { s with stopping := false, box := s.box.cancel } else s
  | .close => { s with loop := .closed }

def run (window : Rat) (es : List Logging) (s : LogHandler) : LogHandler :=
  es.foldl (step window) s

/-! ## What the dictionary remembers -/

/-- The invariant: the dictionary has the last time of every message of the window, and
no other. What it has forgotten is out of the window already, so to look a message up
there and in all that was forwarded comes to the same. -/
structure Remembers (window : Rat) (s : LogHandler) : Prop where
  past : ∀ f ∈ s.forwarded, f.1 ≤ s.clock
  known : ∀ entry ∈ s.recent, (entry.2, entry.1) ∈ s.forwarded
  kept : ∀ f ∈ s.forwarded, (f.2, f.1) ∈ s.recent ∨ window ≤ s.clock - f.1
  apart : s.forwarded.Pairwise fun f g => f.2 = g.2 → window ≤ g.1 - f.1

theorem remembers_new (window clock : Rat) : (new clock).Remembers window where
  past := List.forall_mem_nil _
  known := List.forall_mem_nil _
  kept := List.forall_mem_nil _
  apart := .nil

/-- A message is new to the window, by everything that was ever forwarded. -/
def Fresh (window : Rat) (s : LogHandler) (message : PyStr) : Prop :=
  ∀ f ∈ s.forwarded, f.2 = message → window ≤ s.clock - f.1

instance (window : Rat) (s : LogHandler) (message : PyStr) :
    Decidable (s.Fresh window message) :=
  inferInstanceAs (Decidable (∀ f ∈ s.forwarded, f.2 = message → window ≤ s.clock - f.1))

variable {window : Rat} {s : LogHandler}

/-- The dictionary finds a duplicate exactly if the history does. -/
theorem Remembers.isDuplicate_iff (hs : s.Remembers window) (message : PyStr) :
    ((s.recent.filter fun entry => s.clock - entry.2 < window).any
      fun entry => entry.1 == message) = true ↔ ¬ s.Fresh window message := by
  rw [List.any_eq_true]
  constructor
  · intro h hfresh
    obtain ⟨entry, hmem, heq⟩ := h
    obtain ⟨hentry, hin⟩ := List.mem_filter.1 hmem
    have hold := hfresh _ (hs.known entry hentry) (beq_iff_eq.1 heq)
    exact absurd (of_decide_eq_true hin) (not_lt.2 hold)
  · intro hstale
    obtain ⟨f, hf, heq, hin⟩ : ∃ f ∈ s.forwarded, f.2 = message ∧ s.clock - f.1 < window := by
      simp only [Fresh, not_forall] at hstale
      obtain ⟨f, hf, heq, hin⟩ := hstale
      exact ⟨f, hf, heq, not_le.1 hin⟩
    rcases hs.kept f hf with hmem | hold
    · exact ⟨(f.2, f.1), List.mem_filter.2 ⟨hmem, decide_eq_true hin⟩, beq_iff_eq.2 heq⟩
    · exact absurd hin (not_lt.2 hold)

/-- What `emit` does, read off the history. -/
theorem Remembers.emit_cases (hs : s.Remembers window) (r : LogRecord) :
    (s.emit window r = s ∧ (s.loop ≠ .running ∨ format r = none)) ∨
    (∃ message, s.loop = .running ∧ format r = some message ∧ ¬ s.Fresh window message ∧
      s.emit window r = { s with
        recent := s.recent.filter fun entry => s.clock - entry.2 < window }) ∨
    (∃ message, s.loop = .running ∧ format r = some message ∧ s.Fresh window message ∧
      s.emit window r = { s with
        recent := (s.recent.filter fun entry => s.clock - entry.2 < window) ++
          [(message, s.clock)]
        scheduled := s.scheduled ++ [message]
        forwarded := s.forwarded ++ [(s.clock, message)] }) := by
  cases hloop : s.loop with
  | unbound => exact .inl ⟨by simp only [emit, hloop], .inl (by simp)⟩
  | closed => exact .inl ⟨by simp only [emit, hloop], .inl (by simp)⟩
  | running =>
      cases hformat : format r with
      | none => exact .inl ⟨by simp only [emit, hloop, hformat], .inr rfl⟩
      | some message =>
          by_cases hfresh : s.Fresh window message
          · refine .inr (.inr ⟨message, rfl, rfl, hfresh, ?_⟩)
            have hno := mt (hs.isDuplicate_iff message).1 (not_not.2 hfresh)
            simp only [emit, hloop, hformat, isDuplicate, if_neg hno]
          · refine .inr (.inl ⟨message, rfl, rfl, hfresh, ?_⟩)
            have hyes := (hs.isDuplicate_iff message).2 hfresh
            simp only [emit, hloop, hformat, isDuplicate, if_pos hyes]

/-- What a record adds to the history. -/
theorem Remembers.handle (hs : s.Remembers window) (r : LogRecord) :
    (s.step window (.handle r)).forwarded =
      s.forwarded ++ ((r.forwardable.filter fun message =>
        s.loop = .running && s.Fresh window message).map fun message =>
          (s.clock, message)).toList := by
  rw [step, LogRecord.forwardable]
  split
  · rcases hs.emit_cases r with ⟨hsame, hwhy⟩ | ⟨message, hloop, hformat, hstale, hold⟩ |
      ⟨message, hloop, hformat, hfresh, hnew⟩
    · rw [hsame]
      rcases hwhy with hloop | hformat
      · simp [hloop]
      · simp [hformat]
    · rw [hold, hformat]
      simp [hstale]
    · have hkept : (s.loop = .running && s.Fresh window message : Bool) = true := by
        simp only [hloop, hfresh, decide_true, Bool.and_self]
      rw [hnew, hformat, Option.filter_some, if_pos hkept]
      rfl
  · simp

theorem Remembers.prune (hs : s.Remembers window) :
    ({ s with recent := s.recent.filter fun entry => s.clock - entry.2 < window } :
      LogHandler).Remembers window where
  past := hs.past
  known entry hentry := hs.known entry (List.mem_of_mem_filter hentry)
  kept f hf := by
    by_cases hin : s.clock - f.1 < window
    · rcases hs.kept f hf with hmem | hold
      · exact .inl (List.mem_filter.2 ⟨hmem, decide_eq_true hin⟩)
      · exact .inr hold
    · exact .inr (not_lt.1 hin)
  apart := hs.apart

theorem Remembers.emit (hs : s.Remembers window) (r : LogRecord) :
    (s.emit window r).Remembers window := by
  rcases hs.emit_cases r with ⟨hsame, -⟩ | ⟨_, -, -, -, hold⟩ | ⟨message, -, -, hfresh, hnew⟩
  · rw [hsame]
    exact hs
  · rw [hold]
    exact hs.prune
  · rw [hnew]
    have hprune := hs.prune
    constructor
    · intro f hf
      rcases List.mem_append.1 hf with hf | hf
      · exact hs.past f hf
      · rw [List.mem_singleton.1 hf]
    · intro entry hentry
      rcases List.mem_append.1 hentry with hentry | hentry
      · exact List.mem_append_left _ (hprune.known entry hentry)
      · rw [List.mem_singleton.1 hentry]
        exact List.mem_append_right _ List.mem_cons_self
    · intro f hf
      rcases List.mem_append.1 hf with hf | hf
      · rcases hprune.kept f hf with hmem | hout
        · exact .inl (List.mem_append_left _ hmem)
        · exact .inr hout
      · rw [List.mem_singleton.1 hf]
        exact .inl (List.mem_append_right _ List.mem_cons_self)
    · refine List.pairwise_append.2 ⟨hs.apart, List.pairwise_singleton _ _, ?_⟩
      intro f hf g hg
      rw [List.mem_singleton.1 hg]
      exact hfresh f hf

/-- The steps other than a record: the clock does not run back, and the rest is as it was. -/
theorem step_other (window : Rat) (s : LogHandler) {e : Logging} (he : ∀ r, e ≠ .handle r) :
    s.clock ≤ (s.step window e).clock ∧ (s.step window e).recent = s.recent ∧
      (s.step window e).forwarded = s.forwarded := by
  cases e with
  | handle r => exact absurd rfl (he r)
  | elapse seconds =>
      simp only [step]
      split
      · next hnonneg => exact ⟨le_add_of_nonneg_right hnonneg, rfl, rfl⟩
      · exact ⟨le_refl _, rfl, rfl⟩
  | callback =>
      simp only [step]
      split
      · split <;> exact ⟨le_refl _, rfl, rfl⟩
      · exact ⟨le_refl _, rfl, rfl⟩
  | start | worker | stop | unwound =>
      simp only [step]
      split <;> exact ⟨le_refl _, rfl, rfl⟩
  | close => exact ⟨le_refl _, rfl, rfl⟩

theorem Remembers.later {s' : LogHandler} (hs : s.Remembers window) (hclock : s.clock ≤ s'.clock)
    (hrecent : s'.recent = s.recent) (hforwarded : s'.forwarded = s.forwarded) :
    s'.Remembers window := by
  constructor
  · intro f hf
    rw [hforwarded] at hf
    exact le_trans (hs.past f hf) hclock
  · rw [hrecent, hforwarded]
    exact hs.known
  · intro f hf
    rw [hforwarded] at hf
    rw [hrecent]
    rcases hs.kept f hf with hmem | hold
    · exact .inl hmem
    · exact .inr (le_trans hold (sub_le_sub_right hclock _))
  · rw [hforwarded]
    exact hs.apart

theorem Remembers.step (hs : s.Remembers window) (e : Logging) :
    (s.step window e).Remembers window := by
  by_cases hrecord : ∃ r, e = .handle r
  · obtain ⟨r, rfl⟩ := hrecord
    rw [LogHandler.step]
    split
    · exact hs.emit r
    · exact hs
  · obtain ⟨hclock, hrecent, hforwarded⟩ :=
      step_other window s fun r heq => hrecord ⟨r, heq⟩
    exact hs.later hclock hrecent hforwarded

theorem Remembers.run (hs : s.Remembers window) (es : List Logging) :
    (run window es s).Remembers window := by
  induction es generalizing s with
  | nil => exact hs
  | cons e es ih => exact ih (hs.step e)

/-! ## What is sent -/

/-- What was forwarded is in the queue's hands or on its way to it, in order, unless it was
refused, and came from a record. -/
structure Delivers (logged : List Logging) (s : LogHandler) : Prop where
  box : s.box.Kept
  order : (s.box.accepted ++ s.scheduled).Sublist (s.forwarded.map Prod.snd)
  counts : s.box.accepted.length + s.refused.length + s.scheduled.length = s.forwarded.length
  source : ∀ f ∈ s.forwarded, ∃ r, .handle r ∈ logged ∧ r.forwardable = some f.2

theorem delivers_new (clock : Rat) : (new clock).Delivers [] where
  box := Mailbox.kept_new queueMaxsize
  order := .slnil
  counts := rfl
  source := List.forall_mem_nil _

variable {logged : List Logging}

theorem Delivers.more (hs : s.Delivers logged) (e : Logging) : s.Delivers (logged ++ [e]) where
  box := hs.box
  order := hs.order
  counts := hs.counts
  source f hf := by
    obtain ⟨r, hr, hmessage⟩ := hs.source f hf
    exact ⟨r, List.mem_append_left _ hr, hmessage⟩

theorem Delivers.withBox {box : Mailbox PyStr} (hs : s.Delivers logged) (hbox : box.Kept)
    (haccepted : box.accepted = s.box.accepted) :
    ({ s with box } : LogHandler).Delivers logged where
  box := hbox
  order := by
    rw [haccepted]
    exact hs.order
  counts := by
    rw [haccepted]
    exact hs.counts
  source := hs.source

theorem Delivers.handle (hs : s.Delivers logged) (hrem : s.Remembers window) (r : LogRecord) :
    (s.step window (.handle r)).Delivers (logged ++ [.handle r]) := by
  have hmore := hs.more (.handle r)
  simp only [step]
  split
  · next hpasses =>
      rcases hrem.emit_cases r with ⟨hsame, -⟩ | ⟨_, -, -, -, hold⟩ | ⟨message, -, hformat, -, hnew⟩
      · rw [hsame]
        exact hmore
      · rw [hold]
        exact ⟨hmore.box, hmore.order, hmore.counts, hmore.source⟩
      · rw [hnew]
        refine ⟨hmore.box, ?_, ?_, ?_⟩
        · show (s.box.accepted ++ (s.scheduled ++ [message])).Sublist
            ((s.forwarded ++ [(s.clock, message)]).map Prod.snd)
          rw [← List.append_assoc, List.map_append]
          exact hs.order.append (List.Sublist.refl _)
        · have hcounts := hs.counts
          simp only [List.length_append, List.length_singleton]
          omega
        · intro f hf
          rcases List.mem_append.1 hf with hf | hf
          · exact hmore.source f hf
          · refine ⟨r, List.mem_append_right _ List.mem_cons_self, ?_⟩
            rw [List.mem_singleton.1 hf, LogRecord.forwardable, if_pos hpasses, hformat]
  · exact hmore

/-- The next callback puts its message, or drops it if the queue is full. -/
theorem callback_cases (window : Rat) (s : LogHandler) :
    (s.step window .callback = s ∧ (s.loop ≠ .running ∨ s.scheduled = [])) ∨
    (∃ message scheduled box, s.scheduled = message :: scheduled ∧
      s.box.put message = some box ∧
      s.step window .callback = { s with box, scheduled }) ∨
    (∃ message scheduled, s.scheduled = message :: scheduled ∧ s.box.put message = none ∧
      s.step window .callback =
        { s with scheduled, refused := s.refused ++ [message] }) := by
  cases hloop : s.loop with
  | unbound => exact .inl ⟨by simp only [step, hloop], .inl (by simp)⟩
  | closed => exact .inl ⟨by simp only [step, hloop], .inl (by simp)⟩
  | running =>
      cases hscheduled : s.scheduled with
      | nil => exact .inl ⟨by simp only [step, hloop, hscheduled], .inr rfl⟩
      | cons message scheduled =>
          cases hput : s.box.put message with
          | none =>
              exact .inr (.inr ⟨message, scheduled, rfl, hput, by
                simp only [step, hloop, hscheduled, hput]⟩)
          | some box =>
              exact .inr (.inl ⟨message, scheduled, box, rfl, hput, by
                simp only [step, hloop, hscheduled, hput]⟩)

theorem Delivers.callback (hs : s.Delivers logged) :
    (s.step window .callback).Delivers logged := by
  have horder := hs.order
  have hcounts := hs.counts
  rcases callback_cases window s with ⟨hsame, -⟩ | ⟨message, scheduled, box, hnext, hput, hstep⟩ |
    ⟨message, scheduled, hnext, -, hstep⟩
  · rw [hsame]
    exact hs
  · rw [hnext] at horder hcounts
    rw [hstep]
    have haccepted : box.accepted = s.box.accepted ++ [message] := by
      rw [Mailbox.put_spec hput]
    refine ⟨hs.box.put hput, ?_, ?_, hs.source⟩
    · show (box.accepted ++ scheduled).Sublist (s.forwarded.map Prod.snd)
      rw [haccepted, List.append_assoc, List.singleton_append]
      exact horder
    · show box.accepted.length + s.refused.length + scheduled.length = s.forwarded.length
      rw [haccepted, List.length_append, List.length_singleton]
      simp only [List.length_cons] at hcounts
      omega
  · rw [hnext] at horder hcounts
    rw [hstep]
    refine ⟨hs.box, ?_, ?_, hs.source⟩
    · exact ((List.Sublist.refl _).append (List.sublist_cons_self _ _)).trans horder
    · show s.box.accepted.length + (s.refused ++ [message]).length + scheduled.length =
        s.forwarded.length
      simp only [List.length_append, List.length_singleton]
      simp only [List.length_cons] at hcounts
      omega

theorem Delivers.step (hs : s.Delivers logged) (hrem : s.Remembers window) (e : Logging) :
    (s.step window e).Delivers (logged ++ [e]) := by
  have hmore := hs.more e
  cases e with
  | handle r => exact hs.handle hrem r
  | callback => exact hmore.callback
  | start =>
      simp only [LogHandler.step]
      split
      · exact hmore
      · have hbox := hmore.withBox hmore.box.start (Mailbox.accepted_start s.box)
        exact ⟨hbox.box, hbox.order, hbox.counts, hbox.source⟩
  | worker =>
      simp only [LogHandler.step]
      split
      · exact hmore
      · exact hmore.withBox hmore.box.turn (Mailbox.accepted_turn hmore.box)
  | unwound =>
      simp only [LogHandler.step]
      split
      · have hbox := hmore.withBox hmore.box.cancel (Mailbox.accepted_cancel hmore.box)
        exact ⟨hbox.box, hbox.order, hbox.counts, hbox.source⟩
      · exact hmore
  | elapse | stop =>
      simp only [LogHandler.step]
      split
      · exact ⟨hmore.box, hmore.order, hmore.counts, hmore.source⟩
      · exact ⟨hmore.box, hmore.order, hmore.counts, hmore.source⟩
  | close => exact ⟨hmore.box, hmore.order, hmore.counts, hmore.source⟩

theorem Delivers.run (hs : s.Delivers logged) (hrem : s.Remembers window) (es : List Logging) :
    (run window es s).Delivers (logged ++ es) := by
  induction es generalizing s logged with
  | nil => rwa [List.append_nil]
  | cons e es ih =>
      have hrest := ih (hs.step hrem e) (hrem.step e)
      rwa [List.append_assoc, List.singleton_append] at hrest

/-- In every run, a record is forwarded exactly if it passes and its text was not forwarded
within the window, however much of the past the dictionary has dropped; so the same text is
never forwarded twice within it. What the chat is sent is a part of that in the same order,
all of it but what waits and what found the queue full, and no record of the send path's own
logger is among it. -/
theorem forwarded_once_a_window (window clock : Rat) (es : List Logging) :
    (∀ r, (run window (es ++ [.handle r]) (new clock)).forwarded =
      (run window es (new clock)).forwarded ++
        ((r.forwardable.filter fun message =>
          (run window es (new clock)).loop = .running &&
            (run window es (new clock)).Fresh window message).map fun message =>
              ((run window es (new clock)).clock, message)).toList) ∧
    ((run window es (new clock)).forwarded.Pairwise fun f g =>
      f.2 = g.2 → window ≤ g.1 - f.1) ∧
    ((run window es (new clock)).box.given ++ (run window es (new clock)).box.queue.items ++
      (run window es (new clock)).scheduled).Sublist
        ((run window es (new clock)).forwarded.map Prod.snd) ∧
    (run window es (new clock)).box.accepted.length +
      (run window es (new clock)).refused.length +
        (run window es (new clock)).scheduled.length =
          (run window es (new clock)).forwarded.length ∧
    ∀ message ∈ (run window es (new clock)).box.given,
      ∃ r, .handle r ∈ es ∧ r.passes = true ∧ format r = some message := by
  have hrem := (remembers_new window clock).run es
  have hdelivers := (delivers_new clock).run (remembers_new window clock) es
  have horder := hdelivers.order
  rw [hdelivers.box.order] at horder
  refine ⟨fun r => ?_, hrem.apart, horder, hdelivers.counts, fun message hmessage => ?_⟩
  · rw [run, List.foldl_append, ← run]
    show ((run window es (new clock)).step window (.handle r)).forwarded = _
    exact hrem.handle r
  · have hmem : message ∈ (run window es (new clock)).forwarded.map Prod.snd :=
      horder.subset (List.mem_append_left _ (List.mem_append_left _ hmessage))
    obtain ⟨f, hf, rfl⟩ := List.mem_map.1 hmem
    obtain ⟨r, hr, hforwardable⟩ := hdelivers.source f hf
    rw [LogRecord.forwardable] at hforwardable
    split at hforwardable
    · next hpasses => exact ⟨r, hr, hpasses, hforwardable⟩
    · cases hforwardable

end LogHandler

end TradingBroker.Alerts
