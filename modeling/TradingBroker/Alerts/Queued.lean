import TradingBroker.Lib.Along
import TradingBroker.Lib.Mailbox

/-!
# The queue in front of a notifier

`QueuedNotifier` of `broker/services/notification_service.py`: `send_message` only queues
and answers at once, and one task does the sends. The events are the points at which its
coroutines hand over to the event loop, so any order of them is a run, and one that cannot
happen leaves everything as it is. Callers may send at any time, between the two halves of
`stop` too: `join` coming back and the cancellation are two events, because whatever is
ready runs between them.

The lifespan starts and stops a notifier, one after the other, so `start` is not called
while `stop` runs. `wait_for` giving up is an event like any other: nothing is assumed of
how long a send takes.

The queue itself is `Lib.Mailbox`. What is added here is what the callers are told, and
the two ends of the notifier's life. `join` comes back when all that was put has been
handled, so a `stop` that is not timed out finds nothing to cut off; but callers may still
put something between that and the cancellation, and what they put there is left
(`InTime`).
-/

namespace TradingBroker.Alerts

open TradingBroker.Lib

/-- What `send_message` is called with. -/
structure Mail where
  messageText : String
  chatId : Option String
  deriving DecidableEq

/-- Where `stop` is: in `join`, past it, or past `cancel`. -/
inductive Stopping where
  | joining
  | flushed
  | cancelled
  deriving DecidableEq

/-- The queue and its task, where `stop` is if it runs, and what `send_message` answered. -/
structure QueuedNotifier where
  box : Mailbox Mail
  stopping : Option Stopping
  answers : List (Mail × Bool)
  deriving DecidableEq

inductive Notifying where
  | sendMessage (m : Mail)
  | start
  | worker
  | stop
  | flushed
  | timedOut
  | resumed
  | unwound
  deriving DecidableEq

namespace QueuedNotifier

def new (maxsize : Nat) : QueuedNotifier := ⟨.new maxsize, none, []⟩

def sendMessage (q : QueuedNotifier) (m : Mail) : QueuedNotifier :=
  match q.box.put m with
  | none => { q with answers := q.answers ++ [(m, false)] }
  | some box => { q with box := box, answers := q.answers ++ [(m, true)] }

def step (q : QueuedNotifier) : Notifying → QueuedNotifier
  | .sendMessage m => q.sendMessage m
  | .start => if q.stopping = none then { q with box := q.box.start } else q
  | .worker =>
      -- Past `cancel` the task is given the exception and does not go on.
      if q.stopping = some .cancelled then q else { q with box := q.box.turn }
  | .stop =>
      if q.stopping = none ∧ q.box.task ≠ none then { q with stopping := some .joining } else q
  | .flushed =>
      if q.stopping = some .joining ∧ q.box.queue.joins then
        { q with stopping := some .flushed }
      else q
  | .timedOut =>
      if q.stopping = some .joining then { q with stopping := some .cancelled } else q
  | .resumed =>
      if q.stopping = some .flushed then { q with stopping := some .cancelled } else q
  | .unwound =>
      if q.stopping = some .cancelled then { q with box := q.box.cancel, stopping := none }
      else q

def run (es : List Notifying) (q : QueuedNotifier) : QueuedNotifier := es.foldl step q

theorem run_append (es es' : List Notifying) (q : QueuedNotifier) :
    run (es ++ es') q = run es' (run es q) :=
  List.foldl_append

/-- The messages `send_message` answered `True` to. -/
def queued (q : QueuedNotifier) : List Mail := (q.answers.filter Prod.snd).map Prod.fst

/-- The queue is in order, and its messages are the ones the callers were told of. -/
structure Kept (q : QueuedNotifier) : Prop where
  box : q.box.Kept
  told : q.box.accepted = q.queued

theorem kept_new (maxsize : Nat) : (new maxsize).Kept := ⟨Mailbox.kept_new maxsize, rfl⟩

theorem queued_append (answers : List (Mail × Bool)) (m : Mail) (told : Bool) :
    ((answers ++ [(m, told)]).filter Prod.snd).map Prod.fst =
      (answers.filter Prod.snd).map Prod.fst ++ if told then [m] else [] := by
  rw [List.filter_append, List.map_append]
  cases told <;> rfl

variable {q : QueuedNotifier}

/-- What a call of `send_message` does. -/
theorem sendMessage_cases (q : QueuedNotifier) (m : Mail) :
    ((0 < q.box.queue.maxsize ∧ q.box.queue.maxsize ≤ q.box.queue.items.length) ∧
      q.sendMessage m = { q with answers := q.answers ++ [(m, false)] }) ∨
    (∃ box, q.box.put m = some box ∧
      q.sendMessage m = { q with box := box, answers := q.answers ++ [(m, true)] }) := by
  rw [sendMessage]
  split
  · next hput => exact .inl ⟨Mailbox.put_eq_none_iff.1 hput, rfl⟩
  · next box hput => exact .inr ⟨box, hput, rfl⟩

theorem Kept.sendMessage (hq : q.Kept) (m : Mail) : (q.sendMessage m).Kept := by
  rcases sendMessage_cases q m with ⟨-, hsend⟩ | ⟨box, hput, hsend⟩
  · rw [hsend]
    refine ⟨hq.box, ?_⟩
    show q.box.accepted = ((q.answers ++ [(m, false)]).filter Prod.snd).map Prod.fst
    rw [queued_append, if_neg Bool.false_ne_true, List.append_nil]
    exact hq.told
  · rw [hsend]
    refine ⟨hq.box.put hput, ?_⟩
    show box.accepted = ((q.answers ++ [(m, true)]).filter Prod.snd).map Prod.fst
    rw [queued_append, if_pos rfl, Mailbox.put_spec hput]
    show q.box.accepted ++ [m] = q.queued ++ [m]
    rw [hq.told]

theorem Kept.step (hq : q.Kept) (e : Notifying) : (q.step e).Kept := by
  cases e with
  | sendMessage m => exact hq.sendMessage m
  | start =>
      simp only [QueuedNotifier.step]
      split
      · exact ⟨hq.box.start, (Mailbox.accepted_start q.box).trans hq.told⟩
      · exact hq
  | worker =>
      simp only [QueuedNotifier.step]
      split
      · exact hq
      · exact ⟨hq.box.turn, (Mailbox.accepted_turn hq.box).trans hq.told⟩
  | unwound =>
      simp only [QueuedNotifier.step]
      split
      · exact ⟨hq.box.cancel, (Mailbox.accepted_cancel hq.box).trans hq.told⟩
      · exact hq
  | stop | flushed | timedOut | resumed =>
      simp only [QueuedNotifier.step]
      split
      · exact ⟨hq.box, hq.told⟩
      · exact hq

theorem Kept.run (hq : q.Kept) (es : List Notifying) : (run es q).Kept := by
  induction es generalizing q with
  | nil => exact hq
  | cons e es ih => exact ih (hq.step e)

/-! ## What is cut off -/

/-- How many sends were cut off. -/
def cuts (q : QueuedNotifier) : Nat := q.box.ended.countP fun e => !e.2

theorem cuts_step (hq : q.Kept) (e : Notifying) :
    (q.step e).cuts ≤ q.cuts + if e = .unwound then 1 else 0 := by
  cases e with
  | sendMessage m =>
      rcases sendMessage_cases q m with ⟨-, hsend⟩ | ⟨box, hput, hsend⟩
      · rw [QueuedNotifier.step, hsend]
        exact Nat.le_add_right _ _
      · rw [QueuedNotifier.step, hsend, Mailbox.put_spec hput]
        exact Nat.le_add_right _ _
  | worker =>
      simp only [QueuedNotifier.step]
      split
      · exact Nat.le_add_right _ _
      · rcases Mailbox.turn_cases hq.box with ⟨hsame, -⟩ | ⟨_, _, -, -, hturn⟩ | ⟨x, -, hturn⟩
        · rw [hsame]
          exact Nat.le_add_right _ _
        · rw [hturn]
          exact Nat.le_add_right _ _
        · rw [hturn]
          simp [cuts]
  | unwound =>
      simp only [QueuedNotifier.step]
      split
      · rcases Mailbox.cancel_cases hq.box with ⟨-, hcancel⟩ | ⟨x, -, hcancel⟩
        · rw [hcancel]
          exact Nat.le_add_right _ _
        · rw [hcancel]
          simp [cuts]
      · exact Nat.le_add_right _ _
  | start =>
      simp only [QueuedNotifier.step]
      split
      · rw [Mailbox.start]
        split <;> exact Nat.le_add_right _ _
      · exact Nat.le_add_right _ _
  | stop | flushed | timedOut | resumed =>
      simp only [QueuedNotifier.step]
      split <;> exact Nat.le_add_right _ _

theorem cuts_run (hq : q.Kept) (es : List Notifying) :
    (run es q).cuts ≤ q.cuts + es.count .unwound := by
  induction es generalizing q with
  | nil => exact Nat.le_refl _
  | cons e es ih =>
      have hrest := ih (hq.step e)
      have hstep := cuts_step hq e
      rw [List.count_cons, run, List.foldl_cons]
      rw [run] at hrest
      have hone : (if e = .unwound then 1 else 0) = if (e == .unwound) = true then 1 else 0 := by
        simp only [beq_iff_eq]
      omega

theorem maxsize_step (hq : q.Kept) (e : Notifying) :
    (q.step e).box.queue.maxsize = q.box.queue.maxsize := by
  cases e with
  | sendMessage m =>
      rcases sendMessage_cases q m with ⟨-, hsend⟩ | ⟨box, hput, hsend⟩
      · rw [QueuedNotifier.step, hsend]
      · rw [QueuedNotifier.step, hsend, Mailbox.put_spec hput]
  | worker =>
      simp only [QueuedNotifier.step]
      split
      · rfl
      · rcases Mailbox.turn_cases hq.box with ⟨hsame, -⟩ | ⟨_, _, -, -, hturn⟩ | ⟨_, -, hturn⟩
        · rw [hsame]
        · rw [hturn]
        · rw [hturn]
  | unwound =>
      simp only [QueuedNotifier.step]
      split
      · rcases Mailbox.cancel_cases hq.box with ⟨-, hcancel⟩ | ⟨_, -, hcancel⟩
        · rw [hcancel]
        · rw [hcancel]
      · rfl
  | start =>
      simp only [QueuedNotifier.step]
      split
      · rw [Mailbox.start]
        split <;> rfl
      · rfl
  | stop | flushed | timedOut | resumed =>
      simp only [QueuedNotifier.step]
      split <;> rfl

theorem maxsize_run (hq : q.Kept) (es : List Notifying) :
    (run es q).box.queue.maxsize = q.box.queue.maxsize := by
  induction es generalizing q with
  | nil => rfl
  | cons e es ih => exact (ih (hq.step e)).trans (maxsize_step hq e)

/-- In every run, what callers were told is queued is given to the channel behind in that
order, each message once, or waits; a call is refused exactly while the queue is full; and
a shutdown cuts off one send at most. -/
theorem queued_in_order (maxsize : Nat) (es : List Notifying) :
    (run es (new maxsize)).queued =
        (run es (new maxsize)).box.given ++ (run es (new maxsize)).box.queue.items ∧
      (∀ m, (run (es ++ [.sendMessage m]) (new maxsize)).answers =
        (run es (new maxsize)).answers ++
          [(m, maxsize = 0 || (run es (new maxsize)).box.queue.items.length < maxsize)]) ∧
      (run es (new maxsize)).cuts ≤ es.count .unwound := by
  have hkept := (kept_new maxsize).run es
  refine ⟨hkept.told.symm.trans hkept.box.order, fun m => ?_, ?_⟩
  · have hsize : (run es (new maxsize)).box.queue.maxsize = maxsize :=
      maxsize_run (kept_new maxsize) es
    rw [run_append]
    show ((run es (new maxsize)).sendMessage m).answers = _
    rcases sendMessage_cases (run es (new maxsize)) m with ⟨hfull, hsend⟩ | ⟨box, hput, hsend⟩
    · rw [hsize] at hfull
      have hroom : (maxsize = 0 || (run es (new maxsize)).box.queue.items.length < maxsize :
          Bool) = false := by
        simp only [Bool.or_eq_false_iff, decide_eq_false_iff_not]
        omega
      rw [hsend, hroom]
    · have hfull : ¬(0 < (run es (new maxsize)).box.queue.maxsize ∧
          (run es (new maxsize)).box.queue.maxsize ≤
            (run es (new maxsize)).box.queue.items.length) := by
        rw [← Mailbox.put_eq_none_iff (x := m), hput]
        exact Option.some_ne_none box
      rw [hsize] at hfull
      have hroom : (maxsize = 0 || (run es (new maxsize)).box.queue.items.length < maxsize :
          Bool) = true := by
        simp only [Bool.or_eq_true, decide_eq_true_eq]
        omega
      rw [hsend, hroom]
  · have hcuts := cuts_run (kept_new maxsize) es
    have hnone : (new maxsize).cuts = 0 := rfl
    omega

/-! ## A shutdown that is in time -/

/-- `join` is given the time it takes, and nobody queues a message behind it. -/
def InTime (q : QueuedNotifier) : Notifying → Prop
  | .timedOut => False
  | .sendMessage _ => q.stopping = none ∨ q.stopping = some .joining
  | _ => True

instance (q : QueuedNotifier) : (e : Notifying) → Decidable (InTime q e)
  | .timedOut => inferInstanceAs (Decidable False)
  | .sendMessage _ =>
      inferInstanceAs (Decidable (q.stopping = none ∨ q.stopping = some .joining))
  | .start | .worker | .stop | .flushed | .resumed | .unwound => inferInstanceAs (Decidable True)

/-- No send was cut off, and past `join` there is none left. -/
structure Whole (q : QueuedNotifier) : Prop where
  kept : q.Kept
  ended : ∀ e ∈ q.box.ended, e.2 = true
  flushed : q.stopping = some .flushed ∨ q.stopping = some .cancelled →
    q.box.queue.items = [] ∧ q.box.handling = []

theorem Whole.turn (hq : q.Whole) : ({ q with box := q.box.turn } : QueuedNotifier).Whole := by
  refine ⟨⟨hq.kept.box.turn, (Mailbox.accepted_turn hq.kept.box).trans hq.kept.told⟩, ?_, ?_⟩
  · intro e he
    rcases Mailbox.turn_cases hq.kept.box with ⟨hsame, -⟩ | ⟨_, _, -, -, hturn⟩ | ⟨x, -, hturn⟩
    · exact hq.ended e (by rwa [hsame] at he)
    · exact hq.ended e (by rwa [hturn] at he)
    · rw [hturn] at he
      rcases List.mem_append.1 he with hold | hnew
      · exact hq.ended e hold
      · rw [List.mem_singleton.1 hnew]
  · intro hstopping
    obtain ⟨hitems, hhandling⟩ := hq.flushed hstopping
    rcases Mailbox.turn_cases hq.kept.box with ⟨hsame, -⟩ | ⟨x, xs, -, hcons, -⟩ | ⟨x, htask, -⟩
    · show q.box.turn.queue.items = [] ∧ q.box.turn.handling = []
      rw [hsame]
      exact ⟨hitems, hhandling⟩
    · rw [hitems] at hcons
      cases hcons
    · simp only [Mailbox.handling, htask, reduceCtorEq] at hhandling

theorem Whole.step (hq : q.Whole) (e : Notifying) (hin : InTime q e) : (q.step e).Whole := by
  have hkept := hq.kept.step e
  cases e with
  | sendMessage m =>
      have hbefore : ¬(q.stopping = some .flushed ∨ q.stopping = some .cancelled) := by
        rcases hin with hnone | hjoining
        · simp only [hnone, reduceCtorEq, or_self, not_false_eq_true]
        · simp only [hjoining, Option.some.injEq, reduceCtorEq, or_self, not_false_eq_true]
      refine ⟨hkept, ?_, ?_⟩
      · rcases sendMessage_cases q m with ⟨-, hsend⟩ | ⟨box, hput, hsend⟩
        · rw [QueuedNotifier.step, hsend]
          exact hq.ended
        · rw [QueuedNotifier.step, hsend, Mailbox.put_spec hput]
          exact hq.ended
      · intro hstopping
        refine absurd ?_ hbefore
        rcases sendMessage_cases q m with ⟨-, hsend⟩ | ⟨box, hput, hsend⟩
        · rwa [QueuedNotifier.step, hsend] at hstopping
        · rwa [QueuedNotifier.step, hsend] at hstopping
  | start =>
      simp only [QueuedNotifier.step] at hkept ⊢
      split
      · next hnone =>
          rw [if_pos hnone] at hkept
          refine ⟨hkept, ?_, fun hstopping => ?_⟩
          · show ∀ e ∈ q.box.start.ended, e.2 = true
            rw [Mailbox.start]
            split <;> exact hq.ended
          · simp only [hnone, reduceCtorEq, or_self] at hstopping
      · exact hq
  | worker =>
      simp only [QueuedNotifier.step]
      split
      · exact hq
      · exact hq.turn
  | stop =>
      simp only [QueuedNotifier.step] at hkept ⊢
      split
      · next hboth =>
          rw [if_pos hboth] at hkept
          refine ⟨hkept, hq.ended, fun hstopping => ?_⟩
          simp only [Option.some.injEq, reduceCtorEq, or_self] at hstopping
      · exact hq
  | flushed =>
      simp only [QueuedNotifier.step] at hkept ⊢
      split
      · next hboth =>
          rw [if_pos hboth] at hkept
          exact ⟨hkept, hq.ended, fun _ => (hq.kept.box.joins hboth.2).2⟩
      · exact hq
  | timedOut => exact hin.elim
  | resumed =>
      simp only [QueuedNotifier.step] at hkept ⊢
      split
      · next hflushed =>
          rw [if_pos hflushed] at hkept
          exact ⟨hkept, hq.ended, fun _ => hq.flushed (.inl hflushed)⟩
      · exact hq
  | unwound =>
      simp only [QueuedNotifier.step] at hkept ⊢
      split
      · next hcancelled =>
          rw [if_pos hcancelled] at hkept
          have hhandling := (hq.flushed (.inr hcancelled)).2
          refine ⟨hkept, ?_, fun hstopping => ?_⟩
          · rcases Mailbox.cancel_cases hq.kept.box with ⟨-, hcancel⟩ | ⟨x, htask, -⟩
            · show ∀ e ∈ q.box.cancel.ended, e.2 = true
              rw [hcancel]
              exact hq.ended
            · simp only [Mailbox.handling, htask, reduceCtorEq] at hhandling
          · simp only [reduceCtorEq, or_self] at hstopping
      · exact hq

/-- A shutdown that is in time loses nothing: when the task is cancelled, everything callers
queued has been sent, and in order. -/
theorem flushed_in_time (maxsize : Nat) (es : List Notifying)
    (hin : Along step InTime (new maxsize) es)
    (hcancelled : (run es (new maxsize)).stopping = some .cancelled) :
    (run es (new maxsize)).box.ended = (run es (new maxsize)).queued.map fun m => (m, true) := by
  have hnew : (new maxsize).Whole :=
    ⟨kept_new maxsize, List.forall_mem_nil _, by simp only [new, reduceCtorEq, or_self,
      false_implies]⟩
  have hwhole : (run es (new maxsize)).Whole :=
    Along.invariant Whole (fun _ e hq hcond => hq.step e hcond) hin hnew
  obtain ⟨hitems, hhandling⟩ := hwhole.flushed (.inr hcancelled)
  have horder := hwhole.kept.told.symm.trans hwhole.kept.box.order
  rw [Mailbox.given, hitems, hhandling, List.append_nil, List.append_nil] at horder
  rw [horder, List.map_map]
  refine (List.map_id _).symm.trans (List.map_congr_left fun e he => ?_)
  rw [Function.comp_apply, ← hwhole.ended e he]
  rfl

/-- Two messages, the second queued while `stop` waits for the first. -/
theorem flushed_in_time_sample :
    (run [.start, .sendMessage ⟨"a", none⟩, .worker, .stop, .sendMessage ⟨"b", some "-1"⟩,
        .worker, .worker, .worker, .flushed, .resumed] (new 200)).box.ended =
      [(⟨"a", none⟩, true), (⟨"b", some "-1"⟩, true)] :=
  flushed_in_time 200 _ (by decide) rfl

/-! ## Every message is sent in the end -/

/-- Started, and `stop` is not running. -/
structure Running (q : QueuedNotifier) : Prop where
  kept : q.Kept
  task : q.box.task ≠ none
  stopping : q.stopping = none

/-- One event other than `stop`: the task goes on being there, only its turns count, and a
turn counts as long as one of the first messages is not done with. -/
theorem Running.step (hq : q.Running) {e : Notifying} (he : e ≠ .stop) {before : List Mail}
    (hbefore : before <+: q.box.accepted) :
    (q.step e).Running ∧ before <+: (q.step e).box.accepted ∧
      min (q.box.progress + if e = .worker then 1 else 0) (2 * before.length) ≤
        (q.step e).box.progress := by
  have hkept := hq.kept.step e
  have hidle : ∀ {st : Stopping}, q.stopping ≠ some st := by
    intro st hst
    rw [hq.stopping] at hst
    cases hst
  have hsame : q.Running ∧ before <+: q.box.accepted ∧
      min (q.box.progress + 0) (2 * before.length) ≤ q.box.progress :=
    ⟨hq, hbefore, Nat.min_le_left _ _⟩
  cases e with
  | sendMessage m =>
      rcases sendMessage_cases q m with ⟨-, hsend⟩ | ⟨box, hput, hsend⟩
      · rw [QueuedNotifier.step, hsend] at hkept ⊢
        exact ⟨⟨hkept, hq.task, hq.stopping⟩, hbefore, Nat.min_le_left _ _⟩
      · have hprogress := Mailbox.progress_put hput
        rw [QueuedNotifier.step, hsend] at hkept ⊢
        refine ⟨⟨hkept, ?_, hq.stopping⟩, ?_, ?_⟩
        · show box.task ≠ none
          rw [Mailbox.put_spec hput]
          exact hq.task
        · show before <+: box.accepted
          rw [Mailbox.put_spec hput]
          exact hbefore.trans (List.prefix_append _ _)
        · show min (q.box.progress + 0) (2 * before.length) ≤ box.progress
          rw [hprogress]
          exact Nat.min_le_left _ _
  | start =>
      have hstart : q.box.start = q.box := by
        rw [Mailbox.start]
        split
        · rfl
        · next hnone => exact absurd hnone hq.task
      have hstep : q.step .start = q := by
        simp only [QueuedNotifier.step, hstart, ite_self]
      rw [hstep]
      exact hsame
  | worker =>
      simp only [QueuedNotifier.step, if_neg hidle] at hkept ⊢
      refine ⟨⟨hkept, Mailbox.task_turn hq.kept.box hq.task, hq.stopping⟩, ?_, ?_⟩
      · rw [Mailbox.accepted_turn hq.kept.box]
        exact hbefore
      · have hturn := Mailbox.progress_turn hq.kept.box hq.task
        have hle := hbefore.length_le
        rw [if_pos trivial]
        omega
  | stop => exact absurd rfl he
  | flushed =>
      have hne : ¬(q.stopping = some .joining ∧ q.box.queue.joins = true) := fun h => hidle h.1
      simp only [QueuedNotifier.step, if_neg hne]
      exact hsame
  | timedOut | resumed | unwound =>
      simp only [QueuedNotifier.step, if_neg hidle]
      exact hsame

theorem Running.run (hq : q.Running) {es : List Notifying} (hes : .stop ∉ es)
    {before : List Mail} (hbefore : before <+: q.box.accepted) :
    (run es q).Running ∧ before <+: (run es q).box.accepted ∧
      min (q.box.progress + es.count .worker) (2 * before.length) ≤
        (QueuedNotifier.run es q).box.progress := by
  induction es generalizing q with
  | nil => exact ⟨hq, hbefore, Nat.min_le_left _ _⟩
  | cons e es ih =>
      have hne : Notifying.stop ≠ e := fun heq => hes (heq ▸ List.mem_cons_self)
      have hrest : Notifying.stop ∉ es := fun hmem => hes (List.mem_cons_of_mem _ hmem)
      obtain ⟨hrunning, hprefix, hstep⟩ := hq.step (Ne.symm hne) hbefore
      obtain ⟨hdone, hlast, hmore⟩ := ih hrunning hrest hprefix
      refine ⟨hdone, hlast, ?_⟩
      have hone : (if e = .worker then 1 else 0) = if (e == .worker) = true then 1 else 0 := by
        simp only [beq_iff_eq]
      rw [List.count_cons]
      show _ ≤ (QueuedNotifier.run es (q.step e)).box.progress
      omega

/-- As long as nobody stops it, the task sends every message: two turns for each that
waits, and one for the one it has, are enough, whatever else is queued meanwhile. -/
theorem sent_in_the_end (maxsize : Nat) (es es' : List Notifying)
    (htask : (run es (new maxsize)).box.task ≠ none)
    (hstopping : (run es (new maxsize)).stopping = none) (hes' : .stop ∉ es')
    (hturns : 2 * (run es (new maxsize)).box.queue.items.length +
      (run es (new maxsize)).box.handling.length ≤ es'.count .worker) :
    (run es (new maxsize)).queued <+:
      (run (es ++ es') (new maxsize)).box.ended.map Prod.fst := by
  have hkept := (kept_new maxsize).run es
  have hrunning : (run es (new maxsize)).Running := ⟨hkept, htask, hstopping⟩
  obtain ⟨hafter, hprefix, hprogress⟩ := hrunning.run hes' (List.prefix_refl _)
  rw [run_append, ← hkept.told]
  refine hafter.kept.box.ended_of_progress hprefix ?_
  have hlength := congrArg List.length hkept.box.order
  simp only [Mailbox.given, List.length_append, List.length_map] at hlength
  simp only [Mailbox.progress] at hprogress ⊢
  omega

/-- The second message waits behind one that is being sent, and a third comes meanwhile. -/
theorem sent_in_the_end_sample :
    [⟨"a", none⟩, ⟨"b", some "-1"⟩] <+:
      (run ([.start, .sendMessage ⟨"a", none⟩, .worker, .sendMessage ⟨"b", some "-1"⟩] ++
        [.worker, .sendMessage ⟨"c", none⟩, .worker, .worker]) (new 200)).box.ended.map
          Prod.fst :=
  sent_in_the_end 200
    [.start, .sendMessage ⟨"a", none⟩, .worker, .sendMessage ⟨"b", some "-1"⟩]
    [.worker, .sendMessage ⟨"c", none⟩, .worker, .worker]
    (by decide) rfl (by decide) (by decide)

end QueuedNotifier

end TradingBroker.Alerts
