import TradingBroker.Broadcast.Dispatcher

/-!
# What the repository's writes do to the rows

One lemma for each thing a write can change: a chat's row is found by its id and
only moves forward, the write log is changed entry by entry, and the sequence and
the events of the cycle are left to the writers. A writer's call in turn leaves
the chats alone and extends the log.
-/

namespace TradingBroker.Broadcast

/-! ## The row of a chat -/

/-- What is stored for a chat, given its row if it has one. -/
def ChatUpsert.store (u : ChatUpsert) : Option BroadcastChat → BroadcastChat
  | none => u.insert
  | some row => u.update row

theorem chat?_chatId {chats : List BroadcastChat} {raw : String} {row : BroadcastChat}
    (h : chat? chats raw = some row) : row.chatId = raw := by
  have hfound := List.find?_some h
  exact eq_of_beq hfound

theorem chat?_mem {chats : List BroadcastChat} {raw : String} {row : BroadcastChat}
    (h : chat? chats raw = some row) : row ∈ chats :=
  List.mem_of_find?_eq_some h

theorem chat?_map {chats : List BroadcastChat} {f : BroadcastChat → BroadcastChat}
    (hf : ∀ row, (f row).chatId = row.chatId) (raw : String) :
    chat? (chats.map f) raw = (chat? chats raw).map f := by
  rw [chat?, List.find?_map, chat?]
  congr 2
  funext row
  show ((f row).chatId == raw) = _
  rw [hf]

theorem chat?_upsertChat (u : ChatUpsert) (c : Cycle) (raw : String) :
    chat? (c.upsertChat u).chats raw =
      if raw = u.chatId then some (u.store (chat? c.chats raw)) else chat? c.chats raw := by
  cases hrow : chat? c.chats u.chatId with
  | none =>
      have hchats : (c.upsertChat u).chats = c.chats ++ [u.insert] := by
        simp only [Cycle.upsertChat, hrow]
      rw [hchats, chat?, List.find?_append]
      by_cases hraw : raw = u.chatId
      · subst hraw
        rw [if_pos rfl, hrow, show List.find? _ c.chats = none from hrow]
        simp [ChatUpsert.store, ChatUpsert.insert]
      · rw [if_neg hraw]
        have hne : u.insert.chatId ≠ raw := Ne.symm hraw
        simp [hne, chat?]
  | some row₀ =>
      have hchats : (c.upsertChat u).chats =
          c.chats.map fun row => if row.chatId = u.chatId then u.update row else row := by
        simp only [Cycle.upsertChat, hrow]
      rw [hchats, chat?_map (fun row => by split <;> rfl)]
      by_cases hraw : raw = u.chatId
      · subst hraw
        rw [if_pos rfl, hrow, Option.map_some, if_pos (chat?_chatId hrow)]
        rfl
      · rw [if_neg hraw]
        cases hother : chat? c.chats raw with
        | none => rfl
        | some row =>
            rw [Option.map_some, if_neg (by rw [chat?_chatId hother]; exact hraw)]

/-- A row only moves forward: it keeps its chat, and neither its sequence nor the number
of events it was told of ever falls. -/
structure BroadcastChat.Forward (row row' : BroadcastChat) : Prop where
  chatId : row'.chatId = row.chatId
  deliveredSeq : row.deliveredSeq ≤ row'.deliveredSeq
  notified : ∀ n, row.notifiedEventCount = some n →
    ∃ n', row'.notifiedEventCount = some n' ∧ n ≤ n'

theorem BroadcastChat.Forward.refl (row : BroadcastChat) : row.Forward row :=
  ⟨rfl, Nat.le_refl _, fun n hn => ⟨n, hn, Nat.le_refl _⟩⟩

theorem BroadcastChat.Forward.trans {a b c : BroadcastChat} (hab : a.Forward b)
    (hbc : b.Forward c) : a.Forward c where
  chatId := hbc.chatId.trans hab.chatId
  deliveredSeq := Nat.le_trans hab.deliveredSeq hbc.deliveredSeq
  notified := by
    intro n hn
    obtain ⟨m, hm, hnm⟩ := hab.notified n hn
    obtain ⟨k, hk, hmk⟩ := hbc.notified m hm
    exact ⟨k, hk, Nat.le_trans hnm hmk⟩

theorem update_deliveredSeq (u : ChatUpsert) (row : BroadcastChat) :
    (u.update row).deliveredSeq = max row.deliveredSeq (u.deliveredSeq.getD 0) := by
  unfold ChatUpsert.update
  cases u.deliveredSeq with
  | none => simp
  | some seq =>
      show (if row.deliveredSeq < seq then seq else row.deliveredSeq) = max row.deliveredSeq seq
      split <;> omega

theorem update_notified (u : ChatUpsert) (row : BroadcastChat) :
    (u.update row).notifiedEventCount =
      if row.notifiedEventCount.getD 0 < u.notifiedEventCount.getD 0 then u.notifiedEventCount
      else row.notifiedEventCount := by
  unfold ChatUpsert.update
  cases u.notifiedEventCount with
  | none => simp
  | some count => rfl

theorem forward_update (u : ChatUpsert) (row : BroadcastChat) : row.Forward (u.update row) where
  chatId := rfl
  deliveredSeq := by
    rw [update_deliveredSeq]
    omega
  notified := by
    intro n hn
    rw [update_notified, hn]
    split
    · next h =>
        cases hu : u.notifiedEventCount with
        | none =>
            rw [hu] at h
            simp at h
        | some count =>
            rw [hu] at h
            exact ⟨count, rfl, Nat.le_of_lt (by simpa using h)⟩
    · exact ⟨n, rfl, Nat.le_refl n⟩

/-- What a store leaves for a chat is at least what it carries. -/
theorem store_deliveredSeq (u : ChatUpsert) (row : Option BroadcastChat) :
    (u.store row).deliveredSeq =
      max ((row.map BroadcastChat.deliveredSeq).getD 0) (u.deliveredSeq.getD 0) := by
  cases row with
  | none => simp [ChatUpsert.store, ChatUpsert.insert]
  | some row => exact update_deliveredSeq u row

theorem store_messageId (u : ChatUpsert) (row : Option BroadcastChat) :
    (u.store row).messageId = u.messageId.or (row.bind BroadcastChat.messageId) := by
  cases row with
  | none =>
      show u.messageId = u.messageId.or none
      rw [Option.or_none]
  | some row => rfl

/-! ## A row, or none -/

def rowSeq (row : Option BroadcastChat) : Nat := (row.map BroadcastChat.deliveredSeq).getD 0

def rowNotified (row : Option BroadcastChat) : Nat :=
  (row.bind BroadcastChat.notifiedEventCount).getD 0

/-- What a row keeps when it is written. -/
structure RowLe (row row' : Option BroadcastChat) : Prop where
  isSome : row.isSome = true → row'.isSome = true
  seq : rowSeq row ≤ rowSeq row'
  notified : rowNotified row ≤ rowNotified row'
  message : row'.bind BroadcastChat.messageId = none → row.bind BroadcastChat.messageId = none

theorem RowLe.refl (row : Option BroadcastChat) : RowLe row row :=
  ⟨id, Nat.le_refl _, Nat.le_refl _, id⟩

theorem rowSeq_store (u : ChatUpsert) (row : Option BroadcastChat) :
    rowSeq (some (u.store row)) = max (rowSeq row) (u.deliveredSeq.getD 0) :=
  store_deliveredSeq u row

theorem rowNotified_store (u : ChatUpsert) (row : Option BroadcastChat) :
    rowNotified (some (u.store row)) = max (rowNotified row) (u.notifiedEventCount.getD 0) := by
  cases row with
  | none =>
      show u.notifiedEventCount.getD 0 = max 0 _
      omega
  | some row =>
      show (u.update row).notifiedEventCount.getD 0 =
        max (row.notifiedEventCount.getD 0) (u.notifiedEventCount.getD 0)
      rw [update_notified]
      split <;> omega

theorem rowLe_store (u : ChatUpsert) (row : Option BroadcastChat) :
    RowLe row (some (u.store row)) where
  isSome := fun _ => rfl
  seq := by
    rw [rowSeq_store]
    omega
  notified := by
    rw [rowNotified_store]
    omega
  message := by
    intro h
    rw [Option.bind_some, store_messageId] at h
    exact (Option.or_eq_none_iff.1 h).2

theorem rowLe_upsertChat (u : ChatUpsert) (c : Cycle) (raw : String) :
    RowLe (chat? c.chats raw) (chat? (c.upsertChat u).chats raw) := by
  rw [chat?_upsertChat]
  split
  · exact rowLe_store u _
  · exact .refl _

theorem sent_chatId (d : Delivery) (r : SendResult) : (d.sent r).chatId = d.chat.rawId := by
  unfold Delivery.sent
  split
  · rfl
  · split <;> rfl

/-- A send that Telegram may have taken moves the row up to its body. -/
theorem sent_deliveredSeq {d : Delivery} {r : SendResult}
    (hid : r.outcome = .ok → r.messageId ≠ none)
    (h : r.outcome ≠ .failed) : (d.sent r).deliveredSeq = some d.body.seq := by
  unfold Delivery.sent
  split
  · rfl
  · next hne =>
      have hok : r.outcome = .ok := by
        cases ho : r.outcome with
        | ok => rfl
        | failed => exact absurd ho h
        | unknown => exact absurd ho hne
      cases hm : r.messageId with
      | none => exact absurd hm (hid hok)
      | some id => rfl

/-! ## All rows -/

/-- Rows of chats that have one are still there, and have moved forward. -/
def ChatsForward (chats chats' : List BroadcastChat) : Prop :=
  ∀ raw row, chat? chats raw = some row → ∃ row', chat? chats' raw = some row' ∧ row.Forward row'

theorem ChatsForward.refl (chats : List BroadcastChat) : ChatsForward chats chats :=
  fun _ row h => ⟨row, h, .refl row⟩

theorem ChatsForward.trans {a b c : List BroadcastChat} (hab : ChatsForward a b)
    (hbc : ChatsForward b c) : ChatsForward a c := by
  intro raw row h
  obtain ⟨row', h', hf⟩ := hab raw row h
  obtain ⟨row'', h'', hf'⟩ := hbc raw row' h'
  exact ⟨row'', h'', hf.trans hf'⟩

theorem chatsForward_upsertChat (u : ChatUpsert) (c : Cycle) :
    ChatsForward c.chats (c.upsertChat u).chats := by
  intro raw row h
  rw [chat?_upsertChat]
  split
  · rw [h]
    exact ⟨_, rfl, forward_update u row⟩
  · exact ⟨row, h, .refl row⟩

/-- The chat was shown a body rendered from `seq` or later. -/
def ShownAt (chats : List BroadcastChat) (raw : String) (seq : Nat) : Prop :=
  ∃ row, chat? chats raw = some row ∧ seq ≤ row.deliveredSeq

theorem ShownAt.forward {chats chats' : List BroadcastChat} {raw : String} {seq : Nat}
    (h : ShownAt chats raw seq) (hf : ChatsForward chats chats') : ShownAt chats' raw seq := by
  obtain ⟨row, hrow, hle⟩ := h
  obtain ⟨row', hrow', hfwd⟩ := hf raw row hrow
  exact ⟨row', hrow', Nat.le_trans hle hfwd.deliveredSeq⟩

theorem ShownAt.mono {chats : List BroadcastChat} {raw : String} {seq seq' : Nat}
    (h : ShownAt chats raw seq) (hle : seq' ≤ seq) : ShownAt chats raw seq' := by
  obtain ⟨row, hrow, hs⟩ := h
  exact ⟨row, hrow, Nat.le_trans hle hs⟩

theorem shownAt_upsertChat {u : ChatUpsert} {c : Cycle} {seq : Nat}
    (hu : u.deliveredSeq = some seq) : ShownAt (c.upsertChat u).chats u.chatId seq := by
  refine ⟨_, by rw [chat?_upsertChat, if_pos rfl], ?_⟩
  rw [store_deliveredSeq, hu]
  exact Nat.le_max_right _ _

/-! ## What a call writes -/

/-- What a repository call writes. -/
def Call.write (cfg : Config) (now : Int) : Call → Cycle → Cycle
  | .claimPendingLogs => Cycle.claimPendingLogs cfg.maxAttempts now
  | .upsertChat u => Cycle.upsertChat u
  | .finishLogs ids f => Cycle.finishLogs ids f now
  | .deferLogs ids reason => Cycle.deferLogs ids reason now
  | .markBroadcast => Cycle.markBroadcast now
  | .reclaimStaleLogs => Cycle.reclaimStaleLogs cfg.staleAfter now
  | _ => id

/-- What a call does to an entry of the write log. -/
def Call.entry (cfg : Config) (now : Int) : Call → LogEntry → LogEntry
  | .claimPendingLogs => fun e => if e.claimable cfg.maxAttempts then e.claim now else e
  | .finishLogs ids f => fun e => if e.seq ∈ ids then e.finish f now else e
  | .deferLogs ids reason => fun e => if e.seq ∈ ids then e.defer reason now else e
  | .reclaimStaleLogs => fun e => if e.stale cfg.staleAfter now then e.reclaim now else e
  | _ => id

theorem entry_seq (cfg : Config) (now : Int) (c : Call) (e : LogEntry) :
    (c.entry cfg now e).seq = e.seq := by
  cases c with
  | claimPendingLogs =>
      show (if _ then _ else _ : LogEntry).seq = _
      split <;> rfl
  | finishLogs ids f =>
      show (if _ then _ else _ : LogEntry).seq = _
      split
      · unfold LogEntry.finish
        split <;> rfl
      · rfl
  | deferLogs ids reason =>
      show (if _ then _ else _ : LogEntry).seq = _
      split <;> rfl
  | reclaimStaleLogs =>
      show (if _ then _ else _ : LogEntry).seq = _
      split <;> rfl
  | _ => rfl

variable (cfg : Config) (now : Int)

theorem write_logs (c : Call) (d : Cycle) :
    (c.write cfg now d).logs = d.logs.map (c.entry cfg now) := by
  cases c with
  | claimPendingLogs | finishLogs | deferLogs | reclaimStaleLogs => rfl
  | _ => exact (List.map_id _).symm

theorem write_chats {c : Call} (hc : ∀ u, c ≠ .upsertChat u) (d : Cycle) :
    (c.write cfg now d).chats = d.chats := by
  cases c with
  | upsertChat u => exact absurd rfl (hc u)
  | _ => rfl

theorem write_lastSeq (c : Call) (d : Cycle) :
    (c.write cfg now d).message.lastSeq = d.message.lastSeq := by
  cases c <;> rfl

theorem write_events (c : Call) (d : Cycle) :
    (c.write cfg now d).message.events = d.message.events := by
  cases c <;> rfl

theorem write_forward (c : Call) (d : Cycle) :
    ChatsForward d.chats (c.write cfg now d).chats := by
  cases c with
  | upsertChat u => exact chatsForward_upsertChat u d
  | _ => exact .refl _

/-! ## What a writer's call changes -/

/-- A cycle that nothing, or one more entry, was recorded on. -/
structure Cycle.Recorded (c c' : Cycle) : Prop where
  chats : c'.chats = c.chats
  grows : c' = c ∨ ∃ e, c'.logs = c.logs ++ [e] ∧ e.status = .pending ∧ e.attempts = 0 ∧
    e.seq = c.message.lastSeq + 1 ∧ c'.message.lastSeq = c.message.lastSeq + 1 ∧
    ∃ new, c'.message.events = c.message.events ++ new

theorem recorded_event (r : EventRecord) (t : Int) (c : Cycle) :
    c.Recorded (c.recordEvent r t) := by
  unfold Cycle.recordEvent
  split
  · exact ⟨rfl, .inl rfl⟩
  · exact ⟨rfl, .inr ⟨_, rfl, rfl, rfl, rfl, rfl, [r.event], rfl⟩⟩

theorem recorded_execution (x : Execution) (t : Int) (c : Cycle) :
    c.Recorded (c.recordExecution x t) := by
  unfold Cycle.recordExecution
  split
  · exact ⟨rfl, .inl rfl⟩
  · exact ⟨rfl, .inr ⟨_, rfl, rfl, rfl, rfl, rfl, [], (List.append_nil _).symm⟩⟩

theorem recorded_run {e : Request} {c c' : Cycle} (h : e.run (some c) = some c') :
    c.Recorded c' := by
  cases e with
  | event r t =>
      cases h
      exact recorded_event r t c
  | execution x t =>
      cases h
      exact recorded_execution x t c

theorem Cycle.Recorded.lastSeq_le {c c' : Cycle} (h : c.Recorded c') :
    c.message.lastSeq ≤ c'.message.lastSeq := by
  rcases h.grows with rfl | ⟨e, -, -, -, -, hseq, -⟩
  · exact Nat.le_refl _
  · omega

end TradingBroker.Broadcast
