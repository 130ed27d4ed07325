import TradingBroker.Broadcast.Lossless
import TradingBroker.Broadcast.Reads

/-!
# Notices that are owed

An edit moves a chat's row up to the sequence of its body, whatever became of the
notices that go with it. A notice that failed is left for the next edit; but a row
that is up to date is not edited, and the entry is delivered. So after the last
event of a trade nothing announces it any more (`not_noticesComplete`). A chat
whose last body was announced in full is owed nothing when the entries are marked
delivered (`notices_complete`).

The invariant is kept per chat and has to allow for the pass being in the middle
of one (`Phase.Tells`): in every other chat, a row that is up to date counts all
events of the message, or a notice that should have gone out there failed. In the
chat at hand the same is true of what is going to be written. A cycle may get
another event at any time; that moves the message on and makes every row out of
date, which is why the counts are held against the message as the pass has read it
(`Precedes`).
-/

namespace TradingBroker.Broadcast

open TradingBroker.Lib

/-! ## The property -/

/-- A notice failed after the last body the chat got. -/
def noticeOwed (raw : String) : List (Entry Unit) → Bool
  | .call _ (.replyMessage chat _ _) taken :: t =>
      if chat.rawId = raw ∧ taken = false then true else noticeOwed raw t
  | .call _ (.editMessage chat _ _) outcome :: t =>
      if chat.rawId = raw ∧ outcome = EditOutcome.ok then false else noticeOwed raw t
  | .call _ (.sendMessage chat _) r :: t =>
      if chat.rawId = raw ∧ r.outcome ≠ .failed then false else noticeOwed raw t
  | _ :: t => noticeOwed raw t
  | [] => false

section
variable (cfg : Config)

/-- Repository calls succeed, and the process is not killed. -/
def Working (_ : Board Unit) : Step Unit → Prop
  | .call _ _ _ x => x.db = .ok
  | .crash _ _ => False
  | _ => True

instance (s : Board Unit) : (l : Step Unit) → Decidable (Working s l)
  | .call _ _ _ x => inferInstanceAs (Decidable (x.db = .ok))
  | .crash _ _ => isFalse id
  | .start _ _ | .env _ => isTrue trivial

/-- A pass that marks its entries delivered after delivering leaves no chat with
notices switched on behind on them, if it marks them where `cond` holds. -/
def NoticesComplete (cond : Board Unit → Step Unit → Prop) : Prop :=
  ∀ (r : EventRecord) (now : Int) (v₀ : SettingValues) (p q : World Unit) (ids : List Nat)
    (fin : Finish) (x : Choice) (view : CycleView) (v : SettingValues) (ts : List Target)
    (c : Cycle),
    (dispatchers cfg Unit).Reaches Working (opened r now v₀) p →
    (dispatchers cfg Unit).Step p (.call (.pass ()) () (.finishLogs ids fin) x) q →
    cond p.shared (.call (.pass ()) () (.finishLogs ids fin) x) → fin.delivered = true →
    readView p.shared.trace = some view → readValues p.shared.trace = some v →
    v.silent = false → cfg.targets v = some ts → ts ≠ [] → p.shared.cycle = some c →
    ∀ t ∈ ts, v.replyEnabled t.audience = true →
      ∃ row, chat? c.chats t.rawId = some row ∧
        view.message.events.length ≤ row.notifiedEventCount.getD 0

/-- No chat with notices switched on that the pass delivered to is owed one when the
entries are marked delivered. -/
def PaidUp (s : Board Unit) : Step Unit → Prop
  | .call _ _ (.finishLogs _ fin) _ =>
      fin.delivered = true → ∀ v ts, readValues s.trace = some v → cfg.targets v = some ts →
        ∀ t ∈ ts, v.replyEnabled t.audience = true → noticeOwed t.rawId s.trace = false
  | _ => True

end

variable {cfg : Config}

/-! ## What a chat has been told -/

/-- A row that shows the message's last sequence counts all its events, unless a
notice is owed. -/
def ToldAt (m : BroadcastMessage) (trace : List (Entry Unit)) (raw : String)
    (row : Option BroadcastChat) : Prop :=
  m.lastSeq ≤ rowSeq row → m.events.length ≤ rowNotified row ∨ noticeOwed raw trace = true

/-- What the rows say, with the message as it was read: none is ahead of it, and one
that is level with it has been told of every event, the chats in `but` excepted. -/
structure Told (m : BroadcastMessage) (chats : List BroadcastChat) (trace : List (Entry Unit))
    (but : String → Prop) : Prop where
  positive : 0 < m.lastSeq
  bounded : ∀ raw, rowSeq (chat? chats raw) ≤ m.lastSeq
  told : ∀ raw, ¬ but raw → ToldAt m trace raw (chat? chats raw)

/-- The chat has a body that its row does not show yet. -/
def Stage.ahead : Stage → Bool
  | .announcing _ _ _ => true
  | .posted r => r.outcome != .failed
  | _ => false

/-- How far the notices are, at a stage of a delivery. -/
def Delivery.Tells (d : Delivery) (trace : List (Entry Unit)) : Stage → Prop
  | .announcing _ sent left =>
      left = [] ∧ (d.notices.length ≤ sent ∨ noticeOwed d.chat.rawId trace = true) ∨
        ∃ notice later, left = some notice :: later ∧ left = d.notices.drop sent
  | .posted r => r.outcome = .ok → r.messageId ≠ none
  | _ => True

/-- The message was the same, or older. -/
def Precedes (m m' : BroadcastMessage) : Prop :=
  m.lastSeq < m'.lastSeq ∨ m.lastSeq = m'.lastSeq ∧ m.events.length = m'.events.length

/-- What the rows say at each place of a pass. Until the cycle is loaded and after the
pass has ended this is about the stored message, in between about the one that was read.
-/
def Phase.Tells (cfg : Config) (c : Cycle) (trace : List (Entry Unit)) : Phase → Prop
  | .loaded _ view | .dropping _ view | .parking _ view _ _ =>
      Precedes view.message c.message ∧ Told view.message c.chats trace fun _ => False
  | .delivering p _ [] _ =>
      Precedes p.view.message c.message ∧ Told p.view.message c.chats trace fun _ => False
  | .delivering p _ (t :: _) stage =>
      Precedes p.view.message c.message ∧
        (Told p.view.message c.chats trace fun raw => raw = t.rawId ∧ stage.ahead = true) ∧
          (p.delivery cfg t).Tells trace stage
  | _ => Told c.message c.chats trace fun _ => False

/-! ## Rows that are told -/

section
variable {m m' : BroadcastMessage} {chats : List BroadcastChat} {t : List (Entry Unit)}
  {raw : String}

theorem Precedes.trans {m'' : BroadcastMessage} (h : Precedes m m') (h' : Precedes m' m'') :
    Precedes m m'' := by
  unfold Precedes at *
  omega

theorem precedes_write (now : Int) (call : Call) (c : Cycle) :
    Precedes c.message (call.write cfg now c).message :=
  .inr ⟨(write_lastSeq cfg now call c).symm, by rw [write_events]⟩

theorem precedes_recorded {c c' : Cycle} (h : c.Recorded c') : Precedes c.message c'.message := by
  rcases h.grows with rfl | ⟨e, -, -, -, -, hseq, -⟩
  · exact .inr ⟨rfl, rfl⟩
  · exact .inl (by omega)

/-- Against a newer message no row is behind on notices. -/
theorem Told.later (h : Told m chats t fun _ => False) (hm : Precedes m m') :
    Told m' chats t fun _ => False := by
  have hpos := h.positive
  refine ⟨?_, fun raw => ?_, fun raw _ hle => ?_⟩
  · rcases hm with hlt | ⟨heq, -⟩ <;> omega
  · have hb := h.bounded raw
    rcases hm with hlt | ⟨heq, -⟩ <;> omega
  · have hb := h.bounded raw
    rcases hm with hlt | ⟨heq, hlen⟩
    · omega
    · rw [← hlen]
      exact h.told raw id (by omega)

/-- An entry that leaves what is owed to the other chats alone. -/
theorem Told.cons {but but' : String → Prop} {e : Entry Unit} (h : Told m chats t but)
    (hbut : ∀ raw, ¬ but' raw → ¬ but raw)
    (howed : ∀ raw, ¬ but' raw → noticeOwed raw (e :: t) = noticeOwed raw t) :
    Told m chats (e :: t) but' := by
  refine ⟨h.positive, h.bounded, fun raw hraw hle => ?_⟩
  rw [howed raw hraw]
  exact h.told raw (hbut raw hraw) hle

/-- The row of a chat is written. -/
theorem Told.upsertChat {but but' : String → Prop} {c : Cycle} {u : ChatUpsert}
    (h : Told m c.chats t but) (hbut : ∀ raw, raw ≠ u.chatId → ¬ but' raw → ¬ but raw)
    (hseq : u.deliveredSeq.getD 0 ≤ m.lastSeq)
    (hrow : ToldAt m t u.chatId (some (u.store (chat? c.chats u.chatId)))) :
    Told m (c.upsertChat u).chats t but' := by
  refine ⟨h.positive, fun raw => ?_, fun raw hraw => ?_⟩
  · have hb := h.bounded raw
    rw [chat?_upsertChat]
    split
    · rw [rowSeq_store]
      omega
    · exact hb
  · rw [chat?_upsertChat]
    split
    · next heq =>
        rw [heq]
        exact hrow
    · next hne => exact h.told raw (hbut raw hne hraw)

theorem toldAt_store {row : Option BroadcastChat} {u : ChatUpsert} (h : ToldAt m t raw row)
    (hseq : u.deliveredSeq = none) : ToldAt m t raw (some (u.store row)) := by
  intro hle
  rw [rowSeq_store, hseq] at hle
  rw [rowNotified_store]
  rcases h (by simpa using hle) with hn | ho
  · exact .inl (by omega)
  · exact .inr ho

theorem toldAt_of_notified {row : Option BroadcastChat} {u : ChatUpsert} {n : Nat}
    (hu : u.notifiedEventCount = some n) (h : m.events.length ≤ n ∨ noticeOwed raw t = true) :
    ToldAt m t raw (some (u.store row)) := by
  intro _
  rw [rowNotified_store, hu]
  refine h.imp (fun hn => ?_) id
  exact Nat.le_trans hn (Nat.le_max_right _ _)

end

theorem notices_length (view : CycleView) :
    (notices cfg view).length = view.message.events.length := by
  rw [notices, List.length_map, List.length_range]

/-! ## One call of the pass -/

theorem tells_announce {d : Delivery} {id : MessageId} {t : List (Entry Unit)}
    (left : List (Option Notice)) : ∀ sent : Nat, left = d.notices.drop sent →
      d.Tells t (.announce id sent left) := by
  induction left with
  | nil =>
      intro sent hleft
      exact .inl ⟨rfl, .inl (List.drop_eq_nil_iff.1 hleft.symm)⟩
  | cons notice left ih =>
      intro sent hleft
      cases notice with
      | none =>
          refine ih (sent + 1) ?_
          rw [List.drop_add_one_eq_tail_drop, ← hleft, List.tail_cons]
      | some notice => exact .inr ⟨notice, left, rfl, hleft⟩

theorem tells_notify (d : Delivery) (id : MessageId) (t : List (Entry Unit)) :
    d.Tells t (d.notify id) := by
  unfold Delivery.notify
  split
  · exact .inl ⟨rfl, .inl (Nat.le_refl _)⟩
  · split
    · exact tells_announce _ _ rfl
    · exact .inl ⟨rfl, .inl (Nat.le_refl _)⟩

theorem tells_next {p : Pass} {ok : Bool} {todo : List Target} {c : Cycle}
    {t : List (Entry Unit)} (hp : Precedes p.view.message c.message)
    (h : Told p.view.message c.chats t fun _ => False) :
    (Phase.next cfg p ok todo).Tells cfg c t := by
  unfold Phase.next
  cases todo.dropWhile fun t => (p.delivery cfg t).upToDate with
  | nil => exact ⟨hp, h⟩
  | cons t' todo => exact ⟨hp, ⟨h.positive, h.bounded, fun raw _ => h.told raw id⟩, trivial⟩

theorem tells_park {entries : List LogEntry} {view : CycleView} {reason : String} {c : Cycle}
    {t : List (Entry Unit)} (hp : Precedes view.message c.message)
    (h : Told view.message c.chats t fun _ => False) :
    (Phase.park entries view reason).Tells cfg c t := by
  unfold Phase.park
  split
  · exact ⟨hp, h⟩
  · exact ⟨hp, h⟩

section
variable {i : Party Unit} {c c' : Cycle} {tr : List (Entry Unit)} {p : Pass} {ok : Bool}
  {t : Target} {todo : List Target}

/-- An edit that is taken leaves only its own chat ahead of its row. -/
theorem tells_edit (messageId : MessageId) (outcome : EditOutcome)
    (h : (Phase.delivering p ok (t :: todo) .deliver).Tells cfg c tr) :
    (Phase.delivering p ok (t :: todo)
      (match outcome with
      | .ok => (p.delivery cfg t).notify messageId
      | .failed => .refused
      | .missing => .missing)).Tells cfg c
      (.call i (.editMessage t.chat messageId (p.delivery cfg t).body) outcome :: tr) := by
  obtain ⟨hp, htold, -⟩ := h
  refine ⟨hp, ?_, ?_⟩
  · refine htold.cons (fun raw _ hb => ?_) fun raw hb => ?_
    · cases hb.2
    · refine if_neg fun hand => hb ⟨hand.1.symm, ?_⟩
      cases outcome with
      | ok =>
          obtain ⟨n, l, heq⟩ := notify_eq (p.delivery cfg t) messageId
          simp only [heq]
          rfl
      | failed | missing => cases hand.2
  · cases outcome with
    | ok => exact tells_notify _ messageId _
    | failed | missing => trivial

/-- So does a message that is posted; if it is known to be, its id is known. -/
theorem tells_send {stage : Stage} (hahead : stage.ahead = false) {r : SendResult}
    (hid : r.outcome = .ok → r.messageId ≠ none)
    (h : (Phase.delivering p ok (t :: todo) stage).Tells cfg c tr) :
    (Phase.delivering p ok (t :: todo) (.posted r)).Tells cfg c
      (.call i (.sendMessage t.chat (p.delivery cfg t).body) r :: tr) := by
  obtain ⟨hp, htold, -⟩ := h
  refine ⟨hp, htold.cons (fun raw _ hb => ?_) fun raw hb => ?_, hid⟩
  · rw [hahead] at hb
    cases hb.2
  · exact if_neg fun hand => hb ⟨hand.1.symm, bne_iff_ne.2 hand.2⟩

/-- A notice that is taken is one less to send; one that is not is owed, and the rest are not
tried. -/
theorem tells_reply {messageId : MessageId} {sent : Nat} {notice : Notice}
    {left : List (Option Notice)} (taken : Bool)
    (h : (Phase.delivering p ok (t :: todo)
      (.announcing messageId sent (some notice :: left))).Tells cfg c tr) :
    (Phase.delivering p ok (t :: todo)
      (if taken then .announce messageId (sent + 1) left
      else .announcing messageId sent [])).Tells cfg c
      (.call i (.replyMessage t.chat messageId notice) taken :: tr) := by
  obtain ⟨hp, htold, hstage⟩ := h
  rcases hstage with ⟨hnil, -⟩ | ⟨notice', later, hcons, hleft⟩
  · cases hnil
  cases hcons
  have hother : ∀ raw, ¬ (raw = t.rawId ∧ True) →
      noticeOwed raw (.call i (.replyMessage t.chat messageId notice) taken :: tr) =
        noticeOwed raw tr := fun raw hb => if_neg fun hand => hb ⟨hand.1.symm, trivial⟩
  cases taken with
  | true =>
      obtain ⟨n, l, -, heq⟩ := announce_eq messageId left (sent + 1)
      refine ⟨hp, htold.cons (fun raw hb hb' => ?_) fun raw hb => ?_, ?_⟩
      · rw [if_pos rfl, heq] at hb
        exact hb ⟨hb'.1, rfl⟩
      · rw [if_pos rfl, heq] at hb
        exact hother raw fun hand => hb ⟨hand.1, rfl⟩
      · refine tells_announce left (sent + 1) ?_
        rw [List.drop_add_one_eq_tail_drop, ← hleft, List.tail_cons]
  | false =>
      refine ⟨hp, htold.cons (fun raw hb hb' => hb ⟨hb'.1, rfl⟩) fun raw hb =>
        hother raw fun hand => hb ⟨hand.1, rfl⟩, .inl ⟨rfl, .inr ?_⟩⟩
      exact if_pos ⟨rfl, rfl⟩

/-- The row of a chat is written, and the pass goes on to the next one. -/
theorem tells_upsert {stage : Stage} {u : ChatUpsert} {r ok' : Bool} (hchat : u.chatId = t.rawId)
    (hseq : u.deliveredSeq.getD 0 ≤ p.view.message.lastSeq)
    (hrow : ToldAt p.view.message tr t.rawId (some (u.store (chat? c.chats t.rawId))))
    (hw : Precedes c.message (c.upsertChat u).message)
    (h : (Phase.delivering p ok (t :: todo) stage).Tells cfg c tr) :
    (Phase.next cfg p ok' todo).Tells cfg (c.upsertChat u) (.call i (.upsertChat u) r :: tr) := by
  obtain ⟨hp, htold, -⟩ := h
  refine tells_next (hp.trans hw) ((htold.upsertChat (fun raw hne _ hb => ?_) hseq ?_).cons
    (fun _ hb => hb) fun _ _ => rfl)
  · exact hne (hb.1.trans hchat.symm)
  · rw [hchat]
    exact hrow

/-- What the row says of a posted message: all its notices, unless the id it would take them
under was not learned. -/
theorem toldAt_posted {sent : SendResult}
    (h : (Phase.delivering p ok (t :: todo) (.posted sent)).Tells cfg c tr) :
    ToldAt p.view.message tr t.rawId
      (some (((p.delivery cfg t).sent sent).store (chat? c.chats t.rawId))) := by
  obtain ⟨-, htold, hstage⟩ := h
  have hall : p.view.message.events.length ≤ (p.delivery cfg t).notices.length :=
    Nat.le_of_eq (notices_length p.view).symm
  unfold Delivery.sent
  split
  · exact toldAt_of_notified rfl (.inl hall)
  · next hne =>
      split
      · next hid =>
          refine toldAt_store (htold.told _ fun hb => ?_) rfl
          have hfailed : sent.outcome ≠ .failed := bne_iff_ne.1 hb.2
          cases ho : sent.outcome with
          | ok => exact hstage ho hid
          | failed => exact hfailed ho
          | unknown => exact hne ho
      · exact toldAt_of_notified rfl (.inl hall)

end

theorem sent_deliveredSeq_le (d : Delivery) (sent : SendResult) :
    (d.sent sent).deliveredSeq.getD 0 ≤ d.body.seq := by
  unfold Delivery.sent
  split
  · exact Nat.le_refl _
  · split
    · exact Nat.zero_le _
    · exact Nat.le_refl _

theorem Moves.tells {i : Party Unit} {x : Choice} {s : Board Unit} {c : Cycle} {f f' : Phase}
    {call : Call} {r : call.Result} (hm : Moves cfg f call r f') (hr : r = respond cfg x s call)
    (hx : x.db = .ok) (hs : s.cycle = some c) (h : f.Tells cfg c s.trace) :
    f'.Tells cfg (call.write cfg s.now c) (.call i call r :: s.trace) := by
  have hw := @precedes_write cfg s.now call c
  cases hm with
  | claim entries =>
      have htold : Told (Call.claimPendingLogs.write cfg s.now c).message
          (Call.claimPendingLogs.write cfg s.now c).chats
          (.call i .claimPendingLogs entries :: s.trace) fun _ => False :=
        (Told.later h hw).cons (fun _ hb => hb) fun _ _ => rfl
      split
      · exact htold
      · exact htold
  | missed entries => exact (Told.later h hw).cons (fun _ hb => hb) fun _ _ => rfl
  | load entries view =>
      simp only [respond, hx, hs, if_true, Option.map_some] at hr
      cases hr
      exact ⟨.inr ⟨rfl, rfl⟩, Told.cons h (fun _ hb => hb) fun _ _ => rfl⟩
  | gone entries => exact (Told.later h hw).cons (fun _ hb => hb) fun _ _ => rfl
  | settings entries view values =>
      obtain ⟨hp, htold⟩ := h
      have htold' : Told view.message c.chats (.call i .getMany values :: s.trace)
          fun _ => False := htold.cons (fun _ hb => hb) fun _ _ => rfl
      refine Phase.settings_cases cfg entries view values (htold'.later hp)
        (fun _ _ => tells_park hp htold')
        fun _ _ _ _ _ => tells_next (p := ⟨entries, view, values⟩) hp htold'
  | drop entries view =>
      exact (h.2.later (h.1.trans hw)).cons (fun _ hb => hb) fun _ _ => rfl
  | catchUp entries view reason chat todo =>
      obtain ⟨hp, htold⟩ := h
      refine ⟨hp.trans hw, (htold.upsertChat (fun _ _ hb => hb) (Nat.zero_le _) ?_).cons
        (fun _ hb => hb) fun _ _ => rfl⟩
      exact toldAt_store (htold.told _ id) rfl
  | defer entries view reason =>
      exact (h.2.later (h.1.trans hw)).cons (fun _ hb => hb) fun _ _ => rfl
  | edit p ok t todo messageId hid outcome => exact tells_edit messageId outcome h
  | send p ok t todo stage hstage r =>
      refine tells_send ?_ (fun hok => ?_) h
      · rcases hstage with ⟨rfl, -⟩ | rfl <;> rfl
      · rw [hr] at hok ⊢
        simp only [respond] at hok ⊢
        rw [if_pos hok]
        simp
  | reply p ok t todo messageId sent notice left taken => exact tells_reply taken h
  | edited p ok t todo messageId sent left hleft =>
      rcases h.2.2 with ⟨-, hsent⟩ | ⟨notice, later, hcons, -⟩
      · rw [show (p.delivery cfg t).notices = notices cfg p.view from rfl, notices_length] at hsent
        exact tells_upsert rfl (Nat.le_refl _) (toldAt_of_notified rfl hsent) hw h
      · exact absurd hcons (hleft notice later)
  | refused p ok t todo =>
      refine tells_upsert rfl (Nat.zero_le _) (toldAt_store (h.2.1.told _ fun hb => ?_) rfl) hw h
      cases hb.2
  | posted p ok t todo sent =>
      exact tells_upsert (sent_chatId _ _) (sent_deliveredSeq_le _ _) (toldAt_posted h) hw h
  | finish p ok stage =>
      exact (h.2.later (h.1.trans hw)).cons (fun _ hb => hb) fun _ _ => rfl
  | mark => exact (Told.later h hw).cons (fun _ hb => hb) fun _ _ => rfl
  | reclaim => exact (Told.later h hw).cons (fun _ hb => hb) fun _ _ => rfl
  | list => exact (Told.later h hw).cons (fun _ hb => hb) fun _ _ => rfl

/-! ## Every run -/

/-- What others do: the message may be newer, and the rows and what is owed stay. -/
theorem Phase.Tells.later {f : Phase} {c c' : Cycle} {t t' : List (Entry Unit)}
    (h : f.Tells cfg c t) (hc : Precedes c.message c'.message) (hchats : c'.chats = c.chats)
    (howed : ∀ raw, noticeOwed raw t' = noticeOwed raw t) : f.Tells cfg c' t' := by
  have htold : ∀ {m but}, Told m c.chats t but → Told m c'.chats t' but := by
    intro m but h
    refine ⟨h.positive, ?_, fun raw hraw hle => ?_⟩
    · rw [hchats]
      exact h.bounded
    · rw [howed]
      rw [hchats] at hle ⊢
      exact h.told raw hraw hle
  cases f with
  | loaded | dropping | parking => exact ⟨h.1.trans hc, htold h.2⟩
  | delivering p ok todo stage =>
      cases todo with
      | nil => exact ⟨h.1.trans hc, htold h.2⟩
      | cons t₀ todo =>
          refine ⟨h.1.trans hc, htold h.2.1, ?_⟩
          cases stage with
          | announcing id sent left =>
              have hstage := h.2.2
              simp only [Delivery.Tells, howed]
              exact hstage
          | deliver | refused | missing => trivial
          | posted r => exact h.2.2
  | rest | begun | claimed | gone | finished | reclaiming | listing =>
      exact htold (Told.later h hc)

def Board.Tells (cfg : Config) (s : Board Unit) : Prop :=
  ∀ c, s.cycle = some c → (phase cfg (.pass ()) s.trace).Tells cfg c s.trace

theorem tells_step {s s' : Board Unit} {l : Step Unit}
    (hl : l.Due (passes cfg) (fun i s => phase cfg i s.trace) s) (hc : Working s l)
    (ha : (dispatchers cfg Unit).act l s = some s') (h : s.Tells cfg) : s'.Tells cfg := by
  intro d' hd'
  rcases due_cases hl ha with ⟨i, c, x, rfl, hcall, rfl⟩ | ⟨i, e, rfl, hcall, rfl⟩ |
    ⟨e, rfl, he⟩ | ⟨i, rfl, -⟩
  · have hx : x.db = .ok := hc
    rw [Board.log_cycle, effect_cycle, if_neg (by rw [hx]; nofun)] at hd'
    obtain ⟨d, hd, rfl⟩ := Option.map_eq_some_iff.1 hd'
    rw [Board.log_trace, effect_trace]
    cases i with
    | pass u =>
        rw [phase_call_self]
        exact (moves hcall _).tells rfl hx hd (h d hd)
    | sweep u =>
        rw [phase_call_other (by nofun)]
        rcases sweep_call hcall with rfl | rfl
        · exact (h d hd).later (precedes_write s.now _ d) rfl fun _ => rfl
        · exact (h d hd).later (precedes_write s.now _ d) rfl fun _ => rfl
  · have htells := h d' hd'
    cases i with
    | pass u =>
        rw [call?_eq_none.1 hcall] at htells
        rw [Board.log_trace, phase_started_self]
        exact Told.cons htells (fun _ hb => hb) fun _ _ => rfl
    | sweep u =>
        rw [Board.log_trace, phase_started_other (by nofun)]
        exact htells.later (.inr ⟨rfl, rfl⟩) rfl fun _ => rfl
  · rw [event_trace he]
    cases e with
    | wake => cases he
    | record e =>
        obtain ⟨d, hd, rfl⟩ := Option.map_eq_some_iff.1 he
        have hrec := recorded_run hd'
        exact (h d hd).later (precedes_recorded hrec) hrec.chats fun _ => rfl
    | set v =>
        cases he
        exact h d' hd'
    | pass n =>
        cases he
        exact h d' hd'
    | delete =>
        cases he
        cases hd'
  · exact hc.elim

theorem tells_opened (r : EventRecord) (now : Int) (v : SettingValues) :
    (Board.opened r now v : Board Unit).Tells cfg := by
  intro c hc
  cases hc
  exact ⟨Nat.one_pos, fun _ => Nat.zero_le _, fun _ _ hle => absurd hle (Nat.not_succ_le_zero 0)⟩

theorem Working.stores {s : Board Unit} {l : Step Unit} (h : Working s l) : Stores s l := by
  cases l with
  | call i k c x =>
      cases c with
      | upsertChat u =>
          intro _ hx
          rw [show x.db = .ok from h] at hx
          cases hx
      | _ => trivial
  | start | env | crash => trivial

theorem notices_complete : NoticesComplete cfg (PaidUp cfg) := by
  intro r now v₀ p q ids fin x view v ts c hrun hstep hpaid hfin hview hvalues hsilent hts hne hc t
    ht hreply
  have hgood := @good_opened cfg Unit _ r now v₀
  have hknows : p.shared.Knows cfg := (conducts Unit cfg).induct hgood hrun
    (knows_opened r now v₀) fun s l s' hl hcond ha h => knows_step hl hcond.stores ha h
  have htells : p.shared.Tells cfg := (conducts Unit cfg).induct hgood hrun
    (tells_opened r now v₀) fun s l s' hl hcond ha h => tells_step hl hcond ha h
  have hread := reads hrun
  obtain ⟨hdue, -⟩ := (conducts Unit cfg).step hgood hrun hstep
  have hcall : (phase cfg (.pass ()) p.shared.trace).call? cfg = some (.finishLogs ids fin) := hdue
  have hknown := (hknows c hc).2
  have htold := htells c hc
  rcases (moves hcall (respond cfg x p.shared (.finishLogs ids fin))).finishing rfl with
    ⟨entries, hf, -⟩ | ⟨entries, view', hf, -⟩ | ⟨pass, ok, stage, hf, rfl⟩
  · rw [hf] at hread
    rw [show readValues p.shared.trace = none from hread] at hvalues
    cases hvalues
  · rw [hf] at hread
    obtain ⟨-, v', hv', hparks⟩ := hread
    rw [hv'] at hvalues
    cases hvalues
    exact absurd ⟨hsilent, ts, hts, hne⟩ (not_broadcasts_of_parks hparks)
  · rw [hf] at hread hknown htold
    obtain ⟨hview', hvalues', -⟩ := hread
    rw [hview'] at hview
    cases hview
    rw [hvalues'] at hvalues
    cases hvalues
    obtain ⟨-, -, hdone⟩ := hknown
    rcases hdone hfin ts hts t ht with hmem | ⟨row, hrow, hle⟩
    · cases hmem
    · refine ⟨row, hrow, ?_⟩
      have hat := htold.2.told t.rawId id
      rw [hrow] at hat
      rcases hat hle with hn | howed
      · exact hn
      · rw [hpaid hfin _ ts hvalues' hts t ht hreply] at howed
        cases howed

/-! ## A notice that failed -/

namespace Sample

def noReply : Choice := { ok with reply := false }

/-- The message is posted; the second event edits it, and its notice fails. -/
def unannounced : List (Machine.Move (Party Unit) Choice Event) :=
  .start (.pass ()) .wake :: calls (.pass ()) 7 ++
    [.env (.record (.event (record .long "2") 1)), .start (.pass ()) .wake] ++
    calls (.pass ()) 4 ++ [.call (.pass ()) noReply, .call (.pass ()) ok]

/-- The third event announces both. -/
def announcedLate : List (Machine.Move (Party Unit) Choice Event) :=
  unannounced ++ calls (.pass ()) 2 ++
    [.env (.record (.event (record .long "3") 2)), .start (.pass ()) .wake] ++
    calls (.pass ()) 7

def quietStart : World Unit := opened (record .long "1") 0 .empty

/-- What a pass that is about to finish has read, what it will call, and the row of
the chat. -/
structure Ending where
  values : SettingValues
  ts : List Target
  view : CycleView
  ids : List Nat
  fin : Finish
  cycle : Cycle
  row : BroadcastChat

def ending (p : World Unit) : Option Ending := do
  let values ← readValues p.shared.trace
  let ts ← config.targets values
  let view ← readView p.shared.trace
  let c ← p.shared.cycle
  let row ← chat? c.chats "7"
  match (p.threads (.pass ())).2.next? with
  | some (.finishLogs ids fin) => some ⟨values, ts, view, ids, fin, c, row⟩
  | _ => none

theorem ending_step {p : World Unit} {e : Ending} (h : ending p = some e) :
    (readValues p.shared.trace = some e.values ∧ config.targets e.values = some e.ts ∧
      readView p.shared.trace = some e.view ∧ p.shared.cycle = some e.cycle ∧
      chat? e.cycle.chats "7" = some e.row) ∧
    ∃ q, (dispatchers config Unit).Step p (.call (.pass ()) () (.finishLogs e.ids e.fin) ok) q := by
  simp only [ending, Option.bind_eq_bind, Option.bind_eq_some_iff] at h
  obtain ⟨values, hvalues, ts, hts, view, hview, c, hc, row, hrow, hnext⟩ := h
  split at hnext
  · next ids fin hcall =>
      cases hnext
      exact ⟨⟨hvalues, hts, hview, hc, hrow⟩, Machine.step_of_next? hcall rfl⟩
  · cases hnext

/-- The pass delivered, to a chat whose notices are switched on. -/
def Ending.delivers (e : Ending) : Bool :=
  e.fin.delivered && (!e.values.silent && (!e.ts.isEmpty &&
    e.ts.all fun t => t.rawId == "7" && e.values.replyEnabled t.audience))

end Sample

/-- The second event is never announced. -/
theorem not_noticesComplete : ¬ NoticesComplete Sample.config fun _ _ => True := by
  intro h
  have hrun : ((dispatchers Sample.config Unit).replayIf
      (fun s l => decide (Working s l)) Sample.unannounced Sample.quietStart).any (fun p =>
        (Sample.ending p).any fun e => e.delivers &&
          (e.view.message.events.length == 2 && e.row.notifiedEventCount == some 1)) = true := by
    decide +kernel
  obtain ⟨p, hp, hrun⟩ := (Option.any_eq_true _ _).1 hrun
  obtain ⟨e, he, hrun⟩ := (Option.any_eq_true _ _).1 hrun
  simp only [Sample.Ending.delivers, Bool.and_eq_true, Bool.not_eq_true', beq_iff_eq,
    List.isEmpty_eq_false_iff, List.all_eq_true] at hrun
  obtain ⟨⟨hfin, hsilent, hne, hall⟩, hlen, hcount⟩ := hrun
  obtain ⟨⟨hvalues, hts, hview, hc, hrow⟩, q, hstep⟩ := Sample.ending_step he
  obtain ⟨t, ht⟩ := List.exists_mem_of_ne_nil _ hne
  obtain ⟨row, hrow', hle⟩ := h _ _ _ p q e.ids e.fin Sample.ok e.view e.values e.ts e.cycle
    ((Machine.reaches_of_replayIf hp).mono fun _ _ hw => of_decide_eq_true hw) hstep trivial hfin
    hview hvalues hsilent hts hne hc t ht (hall t ht).2
  rw [(hall t ht).1, hrow] at hrow'
  cases hrow'
  rw [hlen, hcount] at hle
  exact absurd hle (by decide)

theorem notices_complete_late : ∃ (e : Sample.Ending) (row : BroadcastChat),
    e.view.message.events.length = 3 ∧
      3 ≤ row.notifiedEventCount.getD 0 := by
  have hrun : ((dispatchers Sample.config Unit).replayIf
      (fun s l => decide (Working s l)) Sample.announcedLate Sample.quietStart).any (fun p =>
        (Sample.ending p).any fun e => e.delivers &&
          (e.view.message.events.length == 3 && !noticeOwed "7" p.shared.trace)) = true := by
    decide +kernel
  obtain ⟨p, hp, hrun⟩ := (Option.any_eq_true _ _).1 hrun
  obtain ⟨e, he, hrun⟩ := (Option.any_eq_true _ _).1 hrun
  simp only [Sample.Ending.delivers, Bool.and_eq_true, Bool.not_eq_true', beq_iff_eq,
    List.isEmpty_eq_false_iff, List.all_eq_true] at hrun
  obtain ⟨⟨hfin, hsilent, hne, hall⟩, hlen, howed⟩ := hrun
  obtain ⟨⟨hvalues, hts, hview, hc, -⟩, q, hstep⟩ := Sample.ending_step he
  obtain ⟨t, ht⟩ := List.exists_mem_of_ne_nil _ hne
  have hpaid : PaidUp Sample.config p.shared
      (.call (.pass ()) () (.finishLogs e.ids e.fin) Sample.ok) := by
    intro _ v ts hv hts' t' ht' _
    rw [hvalues] at hv
    cases hv
    rw [hts] at hts'
    cases hts'
    rw [(hall t' ht').1]
    exact howed
  obtain ⟨row, -, hle⟩ := notices_complete _ _ _ p q e.ids e.fin Sample.ok e.view e.values e.ts
    e.cycle ((Machine.reaches_of_replayIf hp).mono fun _ _ hw => of_decide_eq_true hw) hstep hpaid
    hfin hview hvalues hsilent hts hne hc t ht (hall t ht).2
  exact ⟨e, row, hlen, hlen ▸ hle⟩

end TradingBroker.Broadcast
