import TradingBroker.Broadcast.Phases

/-!
# Dispatchers that work on one cycle together

The lock of a pass is local to its process. A second dispatcher claims other
entries of the same cycle, loads the same chat rows, and delivers to the same
chats; what a pass does to a chat it decides from the row it loaded. What a chat
shows is read off the trace (`live`), and two things have to be true of the row
when a pass edits or posts by it (`Phase.StandsFor`): it is still the stored one,
and it knows of every message the chat shows, and of bodies as new as they are.

The invariant (`Board.Tracked`) says of each chat what is claimed of it, and
besides that what makes a message id mean one message: every id in a row, in a
loaded view or in the hands of a pass was handed out before, and a message that a
pass found missing is in the chat no more. One move keeps it if the pass that
edits or posts goes by a row that stands (`tracked_step`); which schedules and
which outcomes see to that is said in `Turns`.
-/

namespace TradingBroker.Broadcast

open TradingBroker.Lib

variable {D : Type}

/-! ## What a chat shows -/

/-- The messages of the cycle in a chat that were not reported missing, each with
the sequences of the bodies it showed, newest first. -/
def live (raw : String) : List (Entry D) → List (MessageId × List Nat)
  | [] => []
  | .call _ (.sendMessage chat body) r :: t =>
      if chat.rawId = raw ∧ r.outcome = .ok then
        match r.messageId with
        | some id => (id, [body.seq]) :: live raw t
        | none => live raw t
      else live raw t
  | .call _ (.editMessage chat id body) outcome :: t =>
      if chat.rawId = raw then
        match outcome with
        | .ok => (live raw t).map fun m => if m.1 = id then (m.1, body.seq :: m.2) else m
        | .missing => (live raw t).filter fun m => m.1 ≠ id
        | .failed => live raw t
      else live raw t
  | _ :: t => live raw t

/-- At most one message, whose bodies only got newer. -/
structure Settled (messages : List (MessageId × List Nat)) : Prop where
  one : messages.length ≤ 1
  newer : ∀ m ∈ messages, m.2.Pairwise (· ≥ ·)

/-- Telegram says whether it took a message. -/
def Answered (_ : Board D) : Step D → Prop
  | .call _ _ (.sendMessage _ _) x => x.send ≠ .unknown
  | _ => True

/-- In the runs whose moves meet `cond`, with every send answered. -/
def ChatsNeverRegress (cfg : Config) (D : Type) [DecidableEq D]
    (cond : Board D → Step D → Prop) : Prop :=
  ∀ (r : EventRecord) (now : Int) (v : SettingValues) (p : World D),
    (dispatchers cfg D).Reaches (fun s l => Answered s l ∧ cond s l) (opened r now v) p →
    ∀ raw, Settled (live raw p.shared.trace)

/-! ## The condition -/

/-- What a delivery decides by. -/
def held (row : Option BroadcastChat) : Option MessageId × Nat :=
  (row.bind BroadcastChat.messageId, (row.map BroadcastChat.deliveredSeq).getD 0)

def Board.row? (s : Board D) (raw : String) : Option BroadcastChat :=
  s.cycle.bind fun c => chat? c.chats raw

/-- The chat's row as the pass loaded it is stored, and shows what the chat shows. -/
def Phase.StandsFor (s : Board D) (raw : String) : Phase → Prop
  | .delivering p _ _ _ =>
      held (chat? p.view.chats raw) = held (s.row? raw) ∧
        ∀ m ∈ live raw s.trace, (held (s.row? raw)).1 = some m.1 ∧
          ∀ seq ∈ m.2, seq ≤ (held (s.row? raw)).2
  | _ => True

/-- A message is edited or sent by the row that stands. -/
def Stands [DecidableEq D] (cfg : Config) (s : Board D) : Step D → Prop
  | .call i _ (.editMessage chat _ _) _ => (phase cfg i s.trace).StandsFor s chat.rawId
  | .call i _ (.sendMessage chat _) _ => (phase cfg i s.trace).StandsFor s chat.rawId
  | _ => True

instance (s : Board D) (raw : String) (f : Phase) : Decidable (f.StandsFor s raw) :=
  match f with
  | .delivering p _ _ _ =>
      inferInstanceAs (Decidable (held (chat? p.view.chats raw) = held (s.row? raw) ∧
        ∀ m ∈ live raw s.trace, (held (s.row? raw)).1 = some m.1 ∧
          ∀ seq ∈ m.2, seq ≤ (held (s.row? raw)).2))
  | .rest | .begun | .claimed _ | .gone _ | .loaded _ _ | .dropping _ _ | .parking _ _ _ _
  | .finished | .reclaiming | .listing => isTrue trivial

variable {cfg : Config}

/-! ## Which message ids there are -/

/-- The ids of the rows were handed out. -/
def Issued (next : MessageId) (chats : List BroadcastChat) : Prop :=
  ∀ row ∈ chats, ∀ id, row.messageId = some id → id < next

/-- So were those a pass goes by; and the message that is missing is gone. -/
def Phase.Tracks (cfg : Config) (s : Board D) : Phase → Prop
  | .loaded _ view => Issued s.nextMessageId view.chats
  | .delivering p _ [] _ => Issued s.nextMessageId p.view.chats
  | .delivering p _ (t :: _) stage =>
      Issued s.nextMessageId p.view.chats ∧
        match stage with
        | .announcing id _ _ => id < s.nextMessageId
        | .missing => ∃ id, (p.delivery cfg t).messageId = some id ∧
            ∀ m ∈ live t.rawId s.trace, m.1 ≠ id
        | .posted r => ∀ id, r.messageId = some id → id < s.nextMessageId
        | _ => True
  | _ => True

structure Board.Tracked [DecidableEq D] (cfg : Config) (s : Board D) : Prop where
  chats : ∀ raw, Settled (live raw s.trace)
  rows : ∀ c, s.cycle = some c → Issued s.nextMessageId c.chats
  phases : ∀ i, (phase cfg i s.trace).HeadDue cfg ∧ (phase cfg i s.trace).Tracks cfg s

theorem Issued.mono {next next' : MessageId} {chats : List BroadcastChat}
    (h : Issued next chats) (hle : next ≤ next') : Issued next' chats :=
  fun row hrow id hid => Nat.lt_of_lt_of_le (h row hrow id hid) hle

theorem Issued.upsertChat {next : MessageId} {c : Cycle} {u : ChatUpsert}
    (h : Issued next c.chats) (hu : ∀ id, u.messageId = some id → id < next) :
    Issued next (c.upsertChat u).chats := by
  intro row hrow id hid
  simp only [Cycle.upsertChat] at hrow
  split at hrow
  · rcases List.mem_append.1 hrow with hrow | hrow
    · exact h row hrow id hid
    · rw [List.mem_singleton.1 hrow] at hid
      exact hu id hid
  · obtain ⟨row₀, hrow₀, rfl⟩ := List.mem_map.1 hrow
    split at hid
    · simp only [ChatUpsert.update] at hid
      rcases Option.or_eq_some_iff.1 hid with hid | ⟨-, hid⟩
      · exact hu id hid
      · exact h row₀ hrow₀ id hid
    · exact h row₀ hrow₀ id hid

theorem delivery_messageId {p : Pass} {t : Target} {id : MessageId}
    (h : (p.delivery cfg t).messageId = some id) :
    ∃ row, chat? p.view.chats t.rawId = some row ∧ row.messageId = some id :=
  Option.bind_eq_some_iff.1 h

theorem Issued.delivery {next : MessageId} {p : Pass} {t : Target} {id : MessageId}
    (h : Issued next p.view.chats) (hid : (p.delivery cfg t).messageId = some id) : id < next := by
  obtain ⟨row, hrow, hrid⟩ := delivery_messageId hid
  exact h row (chat?_mem hrow) id hrid

/-! ## What a call does to a chat -/

theorem live_edit_ok {i : Party D} {chat : ChatTarget} {id : MessageId} {body : Body}
    (t : List (Entry D)) :
    live chat.rawId (.call i (.editMessage chat id body) .ok :: t) =
      (live chat.rawId t).map fun m => if m.1 = id then (m.1, body.seq :: m.2) else m := by
  rw [live, if_pos rfl]

theorem live_edit_missing {i : Party D} {chat : ChatTarget} {id : MessageId} {body : Body}
    (t : List (Entry D)) :
    live chat.rawId (.call i (.editMessage chat id body) .missing :: t) =
      (live chat.rawId t).filter fun m => m.1 ≠ id := by
  rw [live, if_pos rfl]

theorem live_edit_failed {i : Party D} {chat : ChatTarget} {id : MessageId} {body : Body}
    (raw : String) (t : List (Entry D)) :
    live raw (.call i (.editMessage chat id body) .failed :: t) = live raw t := by
  rw [live]
  exact ite_self _

theorem live_edit_other {i : Party D} {chat : ChatTarget} {id : MessageId} {body : Body}
    {outcome : EditOutcome} {raw : String} (h : chat.rawId ≠ raw) (t : List (Entry D)) :
    live raw (.call i (.editMessage chat id body) outcome :: t) = live raw t := by
  show (if chat.rawId = raw then _ else live raw t) = live raw t
  exact if_neg h

/-- A send adds the message Telegram took. -/
theorem live_send {i : Party D} {chat : ChatTarget} {body : Body} {r : SendResult}
    (raw : String) (t : List (Entry D)) :
    live raw (.call i (.sendMessage chat body) r :: t) = live raw t ∨
      chat.rawId = raw ∧ ∃ id, r.messageId = some id ∧
        live raw (.call i (.sendMessage chat body) r :: t) = (id, [body.seq]) :: live raw t := by
  rw [live]
  split
  · next h =>
      cases hid : r.messageId with
      | none => exact .inl rfl
      | some id => exact .inr ⟨h.1, id, rfl, rfl⟩
  · exact .inl rfl

theorem respond_send {x : Choice} {s : Board D} {chat : ChatTarget} {body : Body}
    {id : MessageId} (h : (respond cfg x s (.sendMessage chat body)).messageId = some id) :
    id = s.nextMessageId ∧ id < (effect cfg x s (.sendMessage chat body)).nextMessageId := by
  have hok : x.send = .ok ∧ id = s.nextMessageId := by
    simp only [respond] at h
    split at h
    · next hx => exact ⟨hx, (Option.some.inj h).symm⟩
    · cases h
  refine ⟨hok.2, ?_⟩
  show id < if x.send = .failed then s.nextMessageId else s.nextMessageId + 1
  rw [hok.1, if_neg (by nofun), hok.2]
  exact Nat.lt_succ_self _

theorem effect_nextMessageId (x : Choice) (s : Board D) (c : Call) :
    s.nextMessageId ≤ (effect cfg x s c).nextMessageId := by
  cases c with
  | sendMessage chat body =>
      show s.nextMessageId ≤ if x.send = .failed then s.nextMessageId else s.nextMessageId + 1
      split
      · exact Nat.le_refl _
      · exact Nat.le_succ _
  | _ => exact Nat.le_refl _

/-- No message comes back: one that a chat shows was there, or is new. -/
theorem live_step {i : Party D} {c : Call} {x : Choice} {s : Board D} {raw : String}
    {m : MessageId × List Nat}
    (hm : m ∈ live raw (.call i c (respond cfg x s c) :: s.trace)) :
    (∃ m₀ ∈ live raw s.trace, m₀.1 = m.1) ∨ m.1 = s.nextMessageId := by
  cases c with
  | sendMessage chat body =>
      rcases live_send raw s.trace (r := respond cfg x s (.sendMessage chat body)) with
        heq | ⟨-, id, hid, heq⟩
      · rw [heq] at hm
        exact .inl ⟨m, hm, rfl⟩
      · rw [heq] at hm
        rcases List.mem_cons.1 hm with rfl | hm
        · exact .inr (respond_send hid).1
        · exact .inl ⟨m, hm, rfl⟩
  | editMessage chat id body =>
      by_cases hraw : chat.rawId = raw
      · subst hraw
        cases hx : x.edit with
        | ok =>
            simp only [respond, hx] at hm
            rw [live_edit_ok] at hm
            obtain ⟨m₀, hm₀, rfl⟩ := List.mem_map.1 hm
            refine .inl ⟨m₀, hm₀, ?_⟩
            split <;> rfl
        | missing =>
            simp only [respond, hx] at hm
            rw [live_edit_missing] at hm
            exact .inl ⟨m, (List.mem_filter.1 hm).1, rfl⟩
        | failed =>
            simp only [respond, hx] at hm
            rw [live_edit_failed] at hm
            exact .inl ⟨m, hm, rfl⟩
      · rw [live_edit_other hraw] at hm
        exact .inl ⟨m, hm, rfl⟩
  | _ => exact .inl ⟨m, hm, rfl⟩

/-- What others do does not disturb a pass. -/
theorem Phase.Tracks.later {s s' : Board D} {f : Phase} (h : f.Tracks cfg s)
    (hnext : s.nextMessageId ≤ s'.nextMessageId)
    (hlive : ∀ raw, ∀ m ∈ live raw s'.trace,
      (∃ m₀ ∈ live raw s.trace, m₀.1 = m.1) ∨ m.1 = s.nextMessageId) : f.Tracks cfg s' := by
  cases f with
  | loaded entries view => exact Issued.mono h hnext
  | delivering p ok todo stage =>
      cases todo with
      | nil => exact Issued.mono h hnext
      | cons t todo =>
          obtain ⟨hissued, hstage⟩ := h
          refine ⟨hissued.mono hnext, ?_⟩
          cases stage with
          | announcing id sent left => exact Nat.lt_of_lt_of_le hstage hnext
          | missing =>
              obtain ⟨id, hid, hgone⟩ := hstage
              refine ⟨id, hid, fun m hm => ?_⟩
              rcases hlive _ m hm with ⟨m₀, hm₀, heq⟩ | hnew
              · rw [← heq]
                exact hgone m₀ hm₀
              · rw [hnew]
                exact Nat.ne_of_gt (hissued.delivery hid)
          | posted r => exact fun id hid => Nat.lt_of_lt_of_le (hstage id hid) hnext
          | deliver | refused => trivial
  | rest | begun | claimed | gone | dropping | parking | finished | reclaiming | listing => trivial

theorem tracks_next {s : Board D} {p : Pass} {ok : Bool} {todo : List Target}
    (h : Issued s.nextMessageId p.view.chats) : (Phase.next cfg p ok todo).Tracks cfg s := by
  unfold Phase.next
  cases todo.dropWhile fun t => (p.delivery cfg t).upToDate with
  | nil => exact h
  | cons t todo => exact ⟨h, trivial⟩

theorem tracks_park {s : Board D} (entries : List LogEntry) (view : CycleView) (reason : String) :
    (Phase.park entries view reason).Tracks cfg s := by
  unfold Phase.park
  split <;> trivial

/-! ## One move -/

/-- Where a pass goes on, by its own call. -/
theorem Moves.tracks {i : Party D} {x : Choice} {s : Board D} {f f' : Phase} {c : Call}
    {r : c.Result} (hm : Moves cfg f c r f') (hr : r = respond cfg x s c)
    (hrows : ∀ c, s.cycle = some c → Issued s.nextMessageId c.chats) (h : f.Tracks cfg s) :
    f'.Tracks cfg ((effect cfg x s c).log (.call i c r)) := by
  have hnext : s.nextMessageId ≤ (effect cfg x s c).nextMessageId := effect_nextMessageId x s c
  have hissued : ∀ {p ok t todo stage}, (Phase.delivering p ok (t :: todo) stage).Tracks cfg s →
      Issued (effect cfg x s c).nextMessageId p.view.chats := fun h => h.1.mono hnext
  cases hm with
  | claim entries => split <;> trivial
  | load entries view =>
      simp only [respond] at hr
      split at hr
      · obtain ⟨d, hd, rfl⟩ := Option.map_eq_some_iff.1 hr.symm
        exact hrows d hd
      · cases hr
  | settings entries view values =>
      refine Phase.settings_cases cfg entries view values trivial
        (fun _ _ => tracks_park entries view _)
        fun _ _ _ _ _ => tracks_next (Issued.mono h hnext)
  | edit p ok t todo messageId hid outcome =>
      refine ⟨hissued h, ?_⟩
      cases outcome with
      | ok =>
          obtain ⟨n, l, heq⟩ := notify_eq (p.delivery cfg t) messageId
          simp only [heq]
          exact h.1.delivery hid
      | failed => trivial
      | missing =>
          refine ⟨messageId, hid, fun m hm => ?_⟩
          rw [Board.log_trace, effect_trace, Target.rawId, live_edit_missing] at hm
          exact of_decide_eq_true (List.mem_filter.1 hm).2
  | send p ok t todo stage hstage =>
      refine ⟨hissued h, fun id hid => ?_⟩
      rw [hr] at hid
      exact (respond_send hid).2
  | reply p ok t todo messageId sent notice left taken =>
      refine ⟨hissued h, ?_⟩
      cases taken with
      | true =>
          obtain ⟨n, l, -, heq⟩ := announce_eq messageId left (sent + 1)
          simp only [if_true, heq]
          exact h.2
      | false => exact h.2
  | edited | refused | posted => exact tracks_next (hissued h)
  | missed | gone | drop | catchUp | defer | finish | mark | reclaim | list => trivial

/-- What a store is made with was handed out. -/
theorem Moves.issued {s : Board D} {f f' : Phase} {c : Call} {r : c.Result}
    (hm : Moves cfg f c r f') (h : f.Tracks cfg s) {u : ChatUpsert} (hu : c = .upsertChat u) :
    ∀ id, u.messageId = some id → id < s.nextMessageId := by
  intro id hid
  cases hm with
  | catchUp => cases hu; cases hid
  | edited p ok t todo messageId sent left hleft =>
      cases hu
      cases hid
      exact h.2
  | refused => cases hu; cases hid
  | posted p ok t todo sent =>
      cases hu
      simp only [Delivery.sent] at hid
      split at hid
      · cases hid
      · split at hid
        · cases hid
        · next id' hsent =>
            cases hid
            exact h.2 _ hsent
  | claim | missed | load | gone | settings | drop | defer | edit | send | reply | finish | mark
  | reclaim | list => cases hu

theorem Settled.map {messages : List (MessageId × List Nat)} (h : Settled messages)
    {id : MessageId} {seq : Nat} (hseq : ∀ m ∈ messages, ∀ q ∈ m.2, q ≤ seq) :
    Settled (messages.map fun m => if m.1 = id then (m.1, seq :: m.2) else m) where
  one := by
    rw [List.length_map]
    exact h.one
  newer := by
    intro m hm
    obtain ⟨m₀, hm₀, rfl⟩ := List.mem_map.1 hm
    split
    · exact List.pairwise_cons.2 ⟨fun q hq => hseq m₀ hm₀ q hq, h.newer m₀ hm₀⟩
    · exact h.newer m₀ hm₀

theorem Settled.filter {messages : List (MessageId × List Nat)} (h : Settled messages)
    (keep : MessageId × List Nat → Bool) : Settled (messages.filter keep) where
  one := Nat.le_trans (List.length_filter_le _ _) h.one
  newer := fun m hm => h.newer m (List.mem_filter.1 hm).1

/-- A chat stays settled if a message is only sent where there is none, and only
edited to what is as new as all it has shown. -/
theorem settled_call {i : Party D} {c : Call} {r : c.Result} {t : List (Entry D)}
    (h : ∀ raw, Settled (live raw t))
    (hedit : ∀ chat id body, c = .editMessage chat id body →
      ∀ m ∈ live chat.rawId t, ∀ q ∈ m.2, q ≤ body.seq)
    (hsend : ∀ chat body, c = .sendMessage chat body → live chat.rawId t = []) (raw : String) :
    Settled (live raw (.call i c r :: t)) := by
  cases c with
  | sendMessage chat body =>
      have hsent := @live_send D i chat body r raw t
      rcases hsent with heq | ⟨hraw, id, -, heq⟩
      · rw [heq]
        exact h raw
      · rw [heq, ← hraw, hsend chat body rfl]
        refine ⟨Nat.le_refl _, fun m hm => ?_⟩
        rw [List.mem_singleton.1 hm]
        exact List.pairwise_singleton _ _
  | editMessage chat id body =>
      by_cases hraw : chat.rawId = raw
      · subst hraw
        cases r with
        | ok =>
            rw [live_edit_ok]
            exact (h _).map (hedit chat id body rfl)
        | missing =>
            rw [live_edit_missing]
            exact (h _).filter _
        | failed =>
            rw [live_edit_failed]
            exact h _
      · rw [live_edit_other hraw]
        exact h raw
  | _ => exact h raw

/-- What a pass edits shows nothing newer than what the pass has. -/
theorem Moves.edit_newer {s : Board D} {f f' : Phase} {c : Call} {r : c.Result}
    (hm : Moves cfg f c r f') (hdue : f.HeadDue cfg) {chat : ChatTarget} {id : MessageId}
    {body : Body} (hc : c = .editMessage chat id body) (hstands : f.StandsFor s chat.rawId) :
    ∀ m ∈ live chat.rawId s.trace, ∀ q ∈ m.2, q ≤ body.seq := by
  cases hm with
  | edit p ok t todo messageId hid outcome =>
      cases hc
      obtain ⟨hheld, hshown⟩ := hstands
      intro m hm q hq
      have hle := (hshown m hm).2 q hq
      obtain ⟨row, hrow, -⟩ := delivery_messageId hid
      have hnew : row.deliveredSeq < p.view.message.lastSeq := by
        have hup : ((chat? p.view.chats t.rawId).any fun row =>
            decide (p.view.message.lastSeq ≤ row.deliveredSeq)) = false := hdue
        rw [hrow] at hup
        exact Nat.lt_of_not_le (of_decide_eq_false hup)
      have hseq : (held (s.row? t.chat.rawId)).2 = row.deliveredSeq := by
        rw [← hheld, show chat? p.view.chats t.chat.rawId = some row from hrow]
        rfl
      show q ≤ p.view.message.lastSeq
      omega
  | claim | missed | load | gone | settings | drop | catchUp | defer | send | reply | edited
  | refused | posted | finish | mark | reclaim | list => cases hc

/-- Where a pass posts there is no message. -/
theorem Moves.send_empty {s : Board D} {f f' : Phase} {c : Call} {r : c.Result}
    (hm : Moves cfg f c r f') (htracks : f.Tracks cfg s) {chat : ChatTarget} {body : Body}
    (hc : c = .sendMessage chat body) (hstands : f.StandsFor s chat.rawId) :
    live chat.rawId s.trace = [] := by
  refine List.eq_nil_iff_forall_not_mem.2 fun m hm' => ?_
  cases hm with
  | send p ok t todo stage hstage =>
      cases hc
      obtain ⟨hheld, hshown⟩ := hstands
      have hid : (p.delivery cfg t).messageId = some m.1 := by
        show (held (chat? p.view.chats t.chat.rawId)).1 = some m.1
        rw [hheld]
        exact (hshown m hm').1
      rcases hstage with ⟨-, hnone⟩ | rfl
      · rw [hnone] at hid
        cases hid
      · obtain ⟨id, hid', hgone⟩ := htracks.2
        rw [hid] at hid'
        exact hgone m hm' (Option.some.inj hid')
  | claim | missed | load | gone | settings | drop | catchUp | defer | edit | reply | edited
  | refused | posted | finish | mark | reclaim | list => cases hc

theorem issued_write {s : Board D} {f f' : Phase} {c : Call} {r : c.Result} {next : MessageId}
    {d : Cycle} (hm : Moves cfg f c r f') (htracks : f.Tracks cfg s)
    (hle : s.nextMessageId ≤ next) (h : Issued s.nextMessageId d.chats) :
    Issued next (c.write cfg s.now d).chats := by
  by_cases hu : ∃ u, c = .upsertChat u
  · obtain ⟨u, rfl⟩ := hu
    exact (h.upsertChat (hm.issued htracks rfl)).mono hle
  · rw [write_chats cfg s.now (fun u hc => hu ⟨u, hc⟩)]
    exact h.mono hle

variable [DecidableEq D]

/-- A move that is not a call of a pass leaves its phase as good as it was. -/
theorem tracked_quiet {s s' : Board D} (h : s.Tracked cfg)
    (hnext : s'.nextMessageId = s.nextMessageId)
    (hlive : ∀ raw, live raw s'.trace = live raw s.trace)
    (hrows : ∀ d', s'.cycle = some d' → ∃ d, s.cycle = some d ∧ d'.chats = d.chats)
    (hphase : ∀ i, phase cfg i s'.trace = phase cfg i s.trace ∨
      (phase cfg i s'.trace).HeadDue cfg ∧ (phase cfg i s'.trace).Tracks cfg s') :
    s'.Tracked cfg where
  chats := by
    intro raw
    rw [hlive]
    exact h.chats raw
  rows := by
    intro d' hd'
    obtain ⟨d, hd, hchats⟩ := hrows d' hd'
    rw [hnext, hchats]
    exact h.rows d hd
  phases := by
    intro i
    rcases hphase i with heq | hnew
    · rw [heq]
      refine ⟨(h.phases i).1, (h.phases i).2.later (Nat.le_of_eq hnext.symm) fun raw m hm => ?_⟩
      rw [hlive] at hm
      exact .inl ⟨m, hm, rfl⟩
    · exact hnew

theorem tracked_step {s s' : Board D} {l : Step D}
    (hl : l.Due (passes cfg) (fun i s => phase cfg i s.trace) s) (hc : Stands cfg s l)
    (ha : (dispatchers cfg D).act l s = some s') (h : s.Tracked cfg) : s'.Tracked cfg := by
  rcases due_cases hl ha with ⟨i, c, x, rfl, hcall, rfl⟩ | ⟨i, e, rfl, -, rfl⟩ |
    ⟨e, rfl, he⟩ | ⟨i, rfl, rfl⟩
  · obtain ⟨hdue, htracks⟩ := h.phases i
    have hm := moves hcall (respond cfg x s c)
    refine ⟨fun raw => ?_, fun d' hd' => ?_, fun j => ?_⟩
    · rw [Board.log_trace, effect_trace]
      refine settled_call h.chats (fun chat id body hb => ?_) (fun chat body hb => ?_) raw
      · subst hb
        exact hm.edit_newer hdue rfl hc
      · subst hb
        exact hm.send_empty htracks rfl hc
    · have hle := @effect_nextMessageId _ cfg x s c
      rw [Board.log_cycle] at hd'
      rcases @effect_cycle_cases _ cfg x s c with heq | heq
      · rw [heq] at hd'
        exact (h.rows d' hd').mono hle
      · rw [heq] at hd'
        obtain ⟨d, hd, rfl⟩ := Option.map_eq_some_iff.1 hd'
        exact issued_write hm htracks hle (h.rows d hd)
    · rw [Board.log_trace, effect_trace]
      by_cases hj : i = j
      · subst hj
        rw [phase_call_self]
        exact ⟨hm.headDue hdue, hm.tracks rfl h.rows htracks⟩
      · rw [phase_call_other hj]
        refine ⟨(h.phases j).1,
          (h.phases j).2.later (effect_nextMessageId x s c) fun raw m hm => ?_⟩
        rw [Board.log_trace, effect_trace] at hm
        exact live_step hm
  · refine tracked_quiet h rfl (fun _ => rfl) (fun d hd => ⟨d, hd, rfl⟩) fun j => ?_
    by_cases hj : i = j
    · subst hj
      rw [Board.log_trace, phase_started_self]
      refine .inr ?_
      cases i <;> exact ⟨trivial, trivial⟩
    · rw [Board.log_trace, phase_started_other hj]
      exact .inl rfl
  · have htrace := event_trace he
    refine tracked_quiet h ?_ (fun raw => by rw [htrace]) (fun d' hd' => ?_)
      fun j => .inl (by rw [htrace])
    · cases e with
      | wake => cases he
      | record e =>
          obtain ⟨d, -, rfl⟩ := Option.map_eq_some_iff.1 he
          rfl
      | set v => cases he; rfl
      | pass n => cases he; rfl
      | delete => cases he; rfl
    · cases e with
      | wake => cases he
      | record e =>
          obtain ⟨d, hd, rfl⟩ := Option.map_eq_some_iff.1 he
          exact ⟨d, hd, (recorded_run hd').chats⟩
      | set v =>
          cases he
          exact ⟨d', hd', rfl⟩
      | pass n =>
          cases he
          exact ⟨d', hd', rfl⟩
      | delete =>
          cases he
          cases hd'
  · refine tracked_quiet h rfl (fun _ => rfl) (fun d hd => ⟨d, hd, rfl⟩) fun j => ?_
    by_cases hj : i = j
    · subst hj
      rw [Board.log_trace, phase_died_self]
      exact .inr ⟨trivial, trivial⟩
    · rw [Board.log_trace, phase_died_other hj]
      exact .inl rfl

theorem tracked_opened (r : EventRecord) (now : Int) (v : SettingValues) :
    (Board.opened r now v : Board D).Tracked cfg where
  chats := fun _ => ⟨Nat.zero_le 1, nofun⟩
  rows := by
    intro c hc
    cases hc
    nofun
  phases := fun _ => ⟨trivial, trivial⟩

end TradingBroker.Broadcast
