import TradingBroker.Broadcast.Cycle

/-!
# Recording an event a second time

A redelivered message and the retry job record an event again that the cycle
may already show. `_is_duplicate_event` looks at the last event only, so the
replay is recognised exactly as long as nothing else has been recorded since;
after that it is appended like a new one.

The comparison is of the action and the timestamp of the payload, so whether a
repetition costs nothing has an answer in terms of the history alone: it does if
and only if those two are the last event's (`replay_costs_nothing_iff`). The
direction that needs an argument is the other one. An event that is appended
changes the rows even if everything else about it is the same, since the sequence
goes up.
-/

namespace TradingBroker.Broadcast

/-- The cycle shows an event of the same action and payload timestamp. -/
def Cycle.Shows (c : Cycle) (r : EventRecord) : Prop :=
  ∃ e ∈ c.message.events, e.key = r.event.key

/-- It is the last event the cycle shows. -/
def Cycle.ShowsLast (c : Cycle) (r : EventRecord) : Prop :=
  (c.message.events.getLast?).map BroadcastEvent.key = some r.event.key

instance (c : Cycle) (r : EventRecord) : Decidable (c.ShowsLast r) :=
  inferInstanceAs (Decidable (_ = _))

/-- An event the cycle shows is recorded again, at any later point, without any
effect on its rows, as long as the cycle and the event meet `cond`. -/
def ReplaysCostNothing (cond : Cycle → EventRecord → Prop) : Prop :=
  ∀ (es : List Request) (c : Cycle) (r : EventRecord) (now : Int), history es = some c →
    c.Shows r → cond c r → c.recordEvent r now = c

theorem isDuplicateEvent_iff {events : List BroadcastEvent} {e : BroadcastEvent} :
    isDuplicateEvent events e = true ↔
      (events.getLast?).map BroadcastEvent.key = some e.key := by
  unfold isDuplicateEvent
  cases events.getLast? with
  | none => simp
  | some last => simp

/-- What is appended moves the cycle's sequence on. -/
theorem recordEvent_eq_self_iff {c : Cycle} {r : EventRecord} {now : Int} :
    c.recordEvent r now = c ↔ c.ShowsLast r := by
  rw [Cycle.ShowsLast, ← isDuplicateEvent_iff]
  unfold Cycle.recordEvent
  split
  · next h => exact ⟨fun _ => h, fun _ => rfl⟩
  · next h =>
      constructor
      · intro heq
        have hseq : c.message.lastSeq + 1 = c.message.lastSeq :=
          congrArg (fun d : Cycle => d.message.lastSeq) heq
        omega
      · exact fun hd => absurd hd h

/-- A replay costs nothing exactly when it repeats the last event. -/
theorem replay_costs_nothing_iff :
    ∀ (es : List Request) (c : Cycle) (r : EventRecord) (now : Int), history es = some c →
      c.Shows r → (c.recordEvent r now = c ↔ c.ShowsLast r) :=
  fun _ _ _ _ _ _ => recordEvent_eq_self_iff

namespace Sample

/-- A trade opened and took its partial profit. -/
def twoEvents : List Request := [.event (record .long "1") 0, .event (record .tp1 "2") 0]

end Sample

/-- The entry is recorded again after the partial profit: the trade now reads as
opened twice. -/
theorem not_replaysCostNothing : ¬ ReplaysCostNothing fun _ _ => True := by
  intro h
  have heq := h Sample.twoEvents _ (Sample.record .long "1") 0 rfl
    ⟨_, List.mem_cons_self, rfl⟩ trivial
  have hseq := congrArg (fun d : Cycle => d.message.lastSeq) heq
  revert hseq
  decide

theorem replay_of_the_last_event_costs_nothing : ∃ c, history Sample.twoEvents = some c ∧
    c.recordEvent (Sample.record .tp1 "2") 5 = c := by
  refine ⟨_, rfl, ?_⟩
  exact (replay_costs_nothing_iff Sample.twoEvents _ (Sample.record .tp1 "2") 5 rfl
    ⟨_, List.mem_cons_of_mem _ List.mem_cons_self, rfl⟩).2 (by decide)

end TradingBroker.Broadcast
