import TradingBroker.Broadcast.Reads

/-!
# One live message in a chat

One dispatcher, whose calls to the repository succeed. What it did to a chat is
read off the trace and held against the chat's row: a body that was posted, or may
have been, is one the row was moved up to; a row without a message has had no more
posts than were reported missing; what was announced is counted. Between a
Telegram call and the write that records it the row lags behind, so the account is
kept with the row as the pass is about to leave it (`Phase.written`). A chat gets
at most one copy of a body, one message more than it lost, and each notice once
(`one_live_message`).
-/

namespace TradingBroker.Broadcast

open TradingBroker.Lib

/-! ## What the trace says of a chat -/

section
variable {D : Type}

def Entry.sends (raw : String) : Entry D → Bool
  | .call _ (.sendMessage chat _) _ => chat.rawId == raw
  | _ => false

/-- A send of a body rendered from `seq` that is in the chat, or may be. -/
def Entry.landed (raw : String) (seq : Nat) : Entry D → Bool
  | .call _ (.sendMessage chat body) r =>
      chat.rawId == raw && (body.seq == seq && r.outcome != .failed)
  | _ => false

def Entry.accepted (raw : String) : Entry D → Bool
  | .call _ (.sendMessage chat _) r => chat.rawId == raw && r.outcome == .ok
  | _ => false

def Entry.missing (raw : String) : Entry D → Bool
  | .call _ (.editMessage chat _ _) outcome =>
      chat.rawId == raw && decide (outcome = EditOutcome.missing)
  | _ => false

def Entry.refused (raw : String) : Entry D → Bool
  | .call _ (.editMessage chat _ _) outcome =>
      chat.rawId == raw && decide (outcome = EditOutcome.failed)
  | _ => false

/-- The event a successful reply announced. -/
def Entry.announced (raw : String) : Entry D → Option Nat
  | .call _ (.replyMessage chat _ notice) taken =>
      if chat.rawId = raw ∧ taken = true then some notice.index else none
  | _ => none

/-- What a chat was sent, and what it was told: no body twice, whether or not Telegram
said it took it; one accepted message more than were reported missing at most; nothing
posted in a pass whose edit was refused there; and the notices in their order, each
once. -/
structure OneMessage (raw : String) (trace : List (Entry D)) : Prop where
  sends : ∀ seq, trace.countP (Entry.landed raw seq) ≤ 1
  accepted : trace.countP (Entry.accepted raw) ≤ 1 + trace.countP (Entry.missing raw)
  refused : ∀ e older, (e :: older) <:+ trace → e.sends raw = true →
    ∀ e' ∈ thisPass older, e'.refused raw = false
  announced : (trace.filterMap (Entry.announced raw)).Pairwise (· > ·)

end

/-- Repository calls succeed, the process is not killed and the cycle not deleted, and
the chats that are configured are distinct. -/
def Undisturbed (cfg : Config) (_ : Board Unit) : Step Unit → Prop
  | .call _ _ _ x => x.db = .ok
  | .env (.set v) => cfg.Distinct v
  | .env .delete => False
  | .crash _ _ => False
  | _ => True

instance (cfg : Config) (s : Board Unit) : (l : Step Unit) → Decidable (Undisturbed cfg s l)
  | .call _ _ _ x => inferInstanceAs (Decidable (x.db = .ok))
  | .env (.set v) => inferInstanceAs (Decidable (cfg.Distinct v))
  | .env .delete | .crash _ _ => isFalse id
  | .env .wake | .env (.record _) | .env (.pass _) | .start _ _ => isTrue trivial

/-- In every undisturbed run the rows only move forward, and no chat has more than
one message. -/
def OneLiveMessage (cfg : Config) : Prop :=
  ∀ (r : EventRecord) (now : Int) (v : SettingValues) (p q : World Unit), cfg.Distinct v →
    (dispatchers cfg Unit).Reaches (Undisturbed cfg) (opened r now v) p →
    (dispatchers cfg Unit).Reaches (Undisturbed cfg) p q →
    (∀ c c', p.shared.cycle = some c → q.shared.cycle = some c' →
      ChatsForward c.chats c'.chats) ∧
    ∀ raw, OneMessage raw q.shared.trace

/-! ## A chat's account -/

/-- The trace held against the row. A body that landed is one the row has been moved up
to, so it is not rendered again; a row that names no message leaves no accepted one that
is not missing, so another may be posted; and the notices that were taken are counted,
so the next pass goes on behind them. -/
structure Ledger (raw : String) (row : Option BroadcastChat) (trace : List (Entry Unit)) :
    Prop where
  one : OneMessage raw trace
  shown : ∀ seq, 0 < trace.countP (Entry.landed raw seq) → row.isSome = true ∧ seq ≤ rowSeq row
  posted : row.bind BroadcastChat.messageId = none →
    trace.countP (Entry.accepted raw) ≤ trace.countP (Entry.missing raw)
  told : ∀ i ∈ trace.filterMap (Entry.announced raw), i < rowNotified row

section
variable {raw : String} {row row' : Option BroadcastChat} {e : Entry Unit}
  {t : List (Entry Unit)}

theorem landed_of_not_sends (h : e.sends raw = false) (seq : Nat) : e.landed raw seq = false := by
  cases e with
  | call i c r =>
      cases c with
      | sendMessage chat body =>
          show (chat.rawId == raw && _) = false
          rw [show (chat.rawId == raw) = false from h, Bool.false_and]
      | _ => rfl
  | started | died => rfl

theorem accepted_of_not_sends (h : e.sends raw = false) : e.accepted raw = false := by
  cases e with
  | call i c r =>
      cases c with
      | sendMessage chat body =>
          show (chat.rawId == raw && _) = false
          rw [show (chat.rawId == raw) = false from h, Bool.false_and]
      | _ => rfl
  | started | died => rfl

/-- An entry that neither posts to the chat nor announces anything there. -/
theorem Ledger.quiet (h : Ledger raw row t) (hrow : RowLe row row')
    (hsend : e.sends raw = false) (htold : e.announced raw = none) :
    Ledger raw row' (e :: t) := by
  have hlanded : ∀ seq, (e :: t).countP (Entry.landed raw seq) =
      t.countP (Entry.landed raw seq) := fun seq =>
    List.countP_cons_of_neg (by rw [landed_of_not_sends hsend seq]; nofun)
  have haccepted : (e :: t).countP (Entry.accepted raw) = t.countP (Entry.accepted raw) :=
    List.countP_cons_of_neg (by rw [accepted_of_not_sends hsend]; nofun)
  have hmissing : t.countP (Entry.missing raw) ≤ (e :: t).countP (Entry.missing raw) :=
    (List.sublist_cons_self e t).countP_le
  have hannounced : (e :: t).filterMap (Entry.announced raw) =
      t.filterMap (Entry.announced raw) := List.filterMap_cons_none htold
  refine ⟨⟨fun seq => ?_, ?_, fun e' older hs he' => ?_, ?_⟩, fun seq hpos => ?_, fun hnone => ?_,
    fun i hi => ?_⟩
  · rw [hlanded]
    exact h.one.sends seq
  · rw [haccepted]
    have := h.one.accepted
    omega
  · rcases List.suffix_cons_iff.1 hs with heq | hs
    · cases heq
      rw [hsend] at he'
      cases he'
    · exact h.one.refused e' older hs he'
  · rw [hannounced]
    exact h.one.announced
  · rw [hlanded] at hpos
    obtain ⟨hsome, hle⟩ := h.shown seq hpos
    exact ⟨hrow.isSome hsome, Nat.le_trans hle hrow.seq⟩
  · rw [haccepted]
    exact Nat.le_trans (h.posted (hrow.message hnone)) hmissing
  · rw [hannounced] at hi
    exact Nat.lt_of_lt_of_le (h.told i hi) hrow.notified

/-- A post to the chat: of a body newer than the row, and where no edit was refused in
this pass. -/
theorem Ledger.sent {i : Party Unit} {chat : ChatTarget} {body : Body} {r : SendResult}
    (h : Ledger chat.rawId row t) (hrow : RowLe row row')
    (hnew : row.isSome = true → rowSeq row < body.seq)
    (hnone : t.countP (Entry.accepted chat.rawId) ≤ t.countP (Entry.missing chat.rawId))
    (hpass : ∀ e' ∈ thisPass t, e'.refused chat.rawId = false)
    (hlanded : r.outcome ≠ .failed → row'.isSome = true ∧ body.seq ≤ rowSeq row')
    (hid : r.outcome = .ok → row'.bind BroadcastChat.messageId ≠ none) :
    Ledger chat.rawId row' (.call i (.sendMessage chat body) r :: t) := by
  have hfresh : t.countP (Entry.landed chat.rawId body.seq) = 0 := by
    by_contra hpos
    obtain ⟨hsome, hle⟩ := h.shown body.seq (Nat.pos_of_ne_zero hpos)
    have hlt := hnew hsome
    omega
  have hmissing : (.call i (.sendMessage chat body) r :: t).countP (Entry.missing chat.rawId) =
      t.countP (Entry.missing chat.rawId) := List.countP_cons_of_neg (by nofun)
  have haccepted : (.call i (.sendMessage chat body) r :: t).countP (Entry.accepted chat.rawId) =
      t.countP (Entry.accepted chat.rawId) + if r.outcome = .ok then 1 else 0 := by
    rw [List.countP_cons]
    simp [Entry.accepted]
  refine ⟨⟨fun seq => ?_, ?_, fun e older hs he => ?_, ?_⟩, fun seq hpos => ?_, fun hrow' => ?_,
    fun n hn => ?_⟩
  · by_cases hseq : body.seq = seq
    · subst hseq
      rw [List.countP_cons, hfresh]
      split <;> omega
    · have hother : Entry.landed chat.rawId seq
          (.call i (.sendMessage chat body) r : Entry Unit) = false := by
        simp [Entry.landed, hseq]
      rw [List.countP_cons_of_neg (by rw [hother]; nofun)]
      exact h.one.sends seq
  · rw [haccepted, hmissing]
    split <;> omega
  · rcases List.suffix_cons_iff.1 hs with heq | hs
    · cases heq
      exact hpass
    · exact h.one.refused e older hs he
  · exact h.one.announced
  · by_cases hnow : body.seq = seq ∧ r.outcome ≠ .failed
    · rw [← hnow.1]
      exact hlanded hnow.2
    · have hother : Entry.landed chat.rawId seq
          (.call i (.sendMessage chat body) r : Entry Unit) = false := by
        by_cases hseq : body.seq = seq
        · have hfailed : r.outcome = .failed := not_not.1 fun hne => hnow ⟨hseq, hne⟩
          simp [Entry.landed, hfailed]
        · simp [Entry.landed, hseq]
      rw [List.countP_cons_of_neg (by rw [hother]; nofun)] at hpos
      obtain ⟨hsome, hle⟩ := h.shown seq hpos
      exact ⟨hrow.isSome hsome, Nat.le_trans hle hrow.seq⟩
  · have hnot : r.outcome ≠ .ok := fun hok => hid hok hrow'
    rw [haccepted, hmissing, if_neg hnot]
    exact hnone
  · exact Nat.lt_of_lt_of_le (h.told n hn) hrow.notified

/-- A notice that comes after all that were announced. -/
theorem Ledger.notified {i : Party Unit} {chat : ChatTarget} {id : MessageId} {notice : Notice}
    (h : Ledger chat.rawId row t) (hrow : RowLe row row')
    (hnext : ∀ n ∈ t.filterMap (Entry.announced chat.rawId), n < notice.index)
    (hlt : notice.index < rowNotified row') :
    Ledger chat.rawId row' (.call i (.replyMessage chat id notice) true :: t) := by
  have hannounced : (.call i (.replyMessage chat id notice) true :: t).filterMap
      (Entry.announced chat.rawId) = notice.index :: t.filterMap (Entry.announced chat.rawId) :=
    List.filterMap_cons_some (if_pos ⟨rfl, rfl⟩)
  refine ⟨⟨h.one.sends, h.one.accepted, fun e older hs he => ?_, ?_⟩, fun seq hpos => ?_,
    fun hnone => h.posted (hrow.message hnone), fun n hn => ?_⟩
  · rcases List.suffix_cons_iff.1 hs with heq | hs
    · cases heq
      cases he
    · exact h.one.refused e older hs he
  · rw [hannounced]
    exact List.pairwise_cons.2 ⟨hnext, h.one.announced⟩
  · obtain ⟨hsome, hle⟩ := h.shown seq hpos
    exact ⟨hrow.isSome hsome, Nat.le_trans hle hrow.seq⟩
  · rw [hannounced] at hn
    rcases List.mem_cons.1 hn with rfl | hn
    · exact hlt
    · exact Nat.lt_of_lt_of_le (h.told n hn) hrow.notified

end

/-! ## What a pass leaves untouched -/

section
variable (cfg : Config)

/-- Nothing was refused in the chat since the pass began. -/
def Unrefused (raw : String) (trace : List (Entry Unit)) : Prop :=
  ∀ e ∈ thisPass trace, e.refused raw = false

/-- What the stage of a delivery says about the chat. -/
def Delivery.InStep (d : Delivery) (trace : List (Entry Unit)) : Stage → Prop
  | .deliver => Unrefused d.chat.rawId trace
  | .missing =>
      Unrefused d.chat.rawId trace ∧
        trace.countP (Entry.accepted d.chat.rawId) ≤ trace.countP (Entry.missing d.chat.rawId)
  | .announcing _ sent left =>
      left = [] ∨ left = d.notices.drop sent ∧
        ∀ n ∈ trace.filterMap (Entry.announced d.chat.rawId), n < sent
  | .refused | .posted _ => True

/-- A pass goes by the rows that are stored, and each chat that is left is still
untouched. -/
def Phase.InStep (c : Cycle) (trace : List (Entry Unit)) : Phase → Prop
  | .begun | .claimed _ => ∀ raw, Unrefused raw trace
  | .loaded _ view => view.chats = c.chats ∧ ∀ raw, Unrefused raw trace
  | .delivering p _ (t :: todo) stage =>
      ((t :: todo).map Target.rawId).Nodup ∧
        (∀ t' ∈ t :: todo, chat? p.view.chats t'.rawId = chat? c.chats t'.rawId) ∧
          (∀ t' ∈ todo, Unrefused t'.rawId trace) ∧ (p.delivery cfg t).InStep trace stage
  | _ => True

end

variable {cfg : Config}

theorem unrefused_cons {e : Entry Unit} {raw : String} {t : List (Entry Unit)}
    (h : Unrefused raw t) (he : e.refused raw = false) : Unrefused raw (e :: t) := by
  intro e' he'
  rcases mem_thisPass_cons he' with rfl | he'
  · exact he
  · exact h e' he'

/-- The next chat of a pass is untouched, and goes by its stored row. -/
theorem inStep_next {p : Pass} {ok : Bool} {c : Cycle} {t : List (Entry Unit)} :
    ∀ {todo : List Target}, (todo.map Target.rawId).Nodup →
      (∀ t' ∈ todo, chat? p.view.chats t'.rawId = chat? c.chats t'.rawId) →
      (∀ t' ∈ todo, Unrefused t'.rawId t) → (Phase.next cfg p ok todo).InStep cfg c t := by
  intro todo
  induction todo with
  | nil => exact fun _ _ _ => trivial
  | cons t' todo ih =>
      intro hnodup hrows hfresh
      cases hup : (p.delivery cfg t').upToDate with
      | true =>
          rw [Phase.next_skip cfg hup]
          exact ih (List.nodup_cons.1 hnodup).2 (fun u hu => hrows u (List.mem_cons_of_mem _ hu))
            fun u hu => hfresh u (List.mem_cons_of_mem _ hu)
      | false =>
          rw [Phase.next_stop cfg hup]
          exact ⟨hnodup, hrows, fun u hu => hfresh u (List.mem_cons_of_mem _ hu),
            hfresh t' (List.mem_cons_self ..)⟩

/-- The loop over the notices goes on where the next one is. -/
theorem inStep_announce {d : Delivery} {id : MessageId} {t : List (Entry Unit)}
    (left : List (Option Notice)) : ∀ sent : Nat, left = d.notices.drop sent →
      (∀ n ∈ t.filterMap (Entry.announced d.chat.rawId), n < sent) →
      d.InStep t (.announce id sent left) := by
  induction left with
  | nil => exact fun sent _ _ => .inl rfl
  | cons notice left ih =>
      intro sent hleft htold
      cases notice with
      | none =>
          refine ih (sent + 1) ?_ fun n hn => Nat.lt_succ_of_lt (htold n hn)
          rw [List.drop_add_one_eq_tail_drop, ← hleft, List.tail_cons]
      | some notice => exact .inr ⟨hleft, htold⟩

/-! ## One call of the pass -/

section
variable {i : Party Unit} {c : Cycle} {tr : List (Entry Unit)} {p : Pass} {ok : Bool}
  {t : Target} {todo : List Target}

/-- The notices start where the chat's row says that they stopped. -/
theorem inStep_notify {e : Entry Unit} (messageId : MessageId)
    (hrow : chat? p.view.chats t.rawId = chat? c.chats t.rawId)
    (htold : ∀ n ∈ (e :: tr).filterMap (Entry.announced t.rawId),
      n < rowNotified (chat? c.chats t.rawId)) :
    (p.delivery cfg t).InStep (e :: tr) ((p.delivery cfg t).notify messageId) := by
  unfold Delivery.notify
  cases hnot : (p.delivery cfg t).alreadyNotified with
  | none => exact .inl rfl
  | some already =>
      have hnotified : rowNotified (chat? c.chats t.rawId) = already := by
        rw [← hrow]
        exact congrArg (Option.getD · 0) hnot
      rw [hnotified] at htold
      dsimp only
      split
      · exact inStep_announce _ already rfl htold
      · exact .inl rfl

/-- After an edit: one that failed ends the delivery, one whose message is gone leads to a send,
and there is at most one message more than that. -/
theorem inStep_edit {messageId : MessageId} (outcome : EditOutcome)
    (hledger : Ledger t.rawId (chat? c.chats t.rawId) tr)
    (h : (Phase.delivering p ok (t :: todo) .deliver).InStep cfg c tr) :
    (Phase.delivering p ok (t :: todo)
      (match outcome with
      | .ok => (p.delivery cfg t).notify messageId
      | .failed => .refused
      | .missing => .missing)).InStep cfg c
      (.call i (.editMessage t.chat messageId (p.delivery cfg t).body) outcome :: tr) := by
  obtain ⟨hnodup, hrows, hfresh, hhead⟩ := h
  refine ⟨hnodup, hrows, fun t' ht' => unrefused_cons (hfresh t' ht') ?_, ?_⟩
  · have hne : t.chat.rawId ≠ t'.rawId := fun heq =>
      (List.nodup_cons.1 hnodup).1 (List.mem_map.2 ⟨t', ht', heq.symm⟩)
    show (t.chat.rawId == t'.rawId && _) = false
    rw [beq_eq_false_iff_ne.2 hne, Bool.false_and]
  · cases outcome with
    | failed => trivial
    | missing =>
        refine ⟨unrefused_cons hhead (Bool.and_false _), ?_⟩
        have hle : tr.countP (Entry.accepted (p.delivery cfg t).chat.rawId) ≤
            1 + tr.countP (Entry.missing (p.delivery cfg t).chat.rawId) := hledger.one.accepted
        rw [List.countP_cons_of_neg (by nofun), List.countP_cons_of_pos]
        · omega
        · show (t.chat.rawId == t.chat.rawId && true) = true
          rw [beq_self_eq_true, Bool.and_true]
    | ok => exact inStep_notify messageId (hrows t (List.mem_cons_self ..)) hledger.told

/-- After a notice: the next one is the next on the list. -/
theorem inStep_reply {messageId : MessageId} {sent : Nat} {notice : Notice}
    {left : List (Option Notice)} (taken : Bool)
    (h : (Phase.delivering p ok (t :: todo)
      (.announcing messageId sent (some notice :: left))).InStep cfg c tr) :
    (Phase.delivering p ok (t :: todo)
      (if taken then .announce messageId (sent + 1) left
      else .announcing messageId sent [])).InStep cfg c
      (.call i (.replyMessage t.chat messageId notice) taken :: tr) := by
  obtain ⟨hnodup, hrows, hfresh, hhead⟩ := h
  refine ⟨hnodup, hrows, fun t' ht' => unrefused_cons (hfresh t' ht') rfl, ?_⟩
  cases taken with
  | false => exact .inl rfl
  | true =>
      rcases hhead with hnil | ⟨hleft, htold⟩
      · cases hnil
      have hindex : notice.index = sent := notice_index hleft
      have hannounced : Entry.announced (p.delivery cfg t).chat.rawId
          (.call i (.replyMessage t.chat messageId notice) true : Entry Unit) =
            some notice.index := if_pos ⟨rfl, rfl⟩
      refine inStep_announce left (sent + 1) ?_ fun n hn => ?_
      · rw [List.drop_add_one_eq_tail_drop, ← hleft, List.tail_cons]
      · rw [List.filterMap_cons_some hannounced] at hn
        rcases List.mem_cons.1 hn with rfl | hn
        · omega
        · exact Nat.lt_succ_of_lt (htold n hn)

/-- After a row was written the pass goes on to the next chat. -/
theorem inStep_upsert {stage : Stage} {u : ChatUpsert} {r ok' : Bool} (hu : u.chatId = t.rawId)
    (h : (Phase.delivering p ok (t :: todo) stage).InStep cfg c tr) :
    (Phase.next cfg p ok' todo).InStep cfg (c.upsertChat u)
      (.call i (.upsertChat u) r :: tr) := by
  obtain ⟨hnodup, hrows, hfresh, -⟩ := h
  exact inStep_next (List.nodup_cons.1 hnodup).2 (rows_upsertChat hu hnodup hrows)
    fun t' ht' => unrefused_cons (hfresh t' ht') rfl

end

theorem Moves.inStep {i : Party Unit} {x : Choice} {s : Board Unit} {c : Cycle} {f f' : Phase}
    {call : Call} {r : call.Result} (hm : Moves cfg f call r f') (hr : r = respond cfg x s call)
    (hx : x.db = .ok) (hs : s.cycle = some c) (hdistinct : cfg.Distinct s.settings)
    (hledger : ∀ raw, Ledger raw (chat? (f.written cfg c).chats raw) s.trace)
    (h : f.InStep cfg c s.trace) :
    f'.InStep cfg (call.write cfg s.now c) (.call i call r :: s.trace) := by
  cases hm with
  | claim entries =>
      split
      · trivial
      · exact fun raw => unrefused_cons (h raw) rfl
  | load entries view =>
      refine ⟨?_, fun raw => unrefused_cons (h raw) rfl⟩
      simp only [respond, hx, hs, if_true, Option.map_some] at hr
      cases hr
      rfl
  | settings entries view values =>
      simp only [respond, hx, if_true] at hr
      subst hr
      refine Phase.settings_cases cfg entries view s.settings trivial (fun _ _ => ?_)
        fun ts _ hts _ _ => ?_
      · unfold Phase.park
        split <;> trivial
      · refine inStep_next (hdistinct ts hts) (fun t' _ => ?_) fun t' _ =>
          unrefused_cons (h.2 t'.rawId) rfl
        rw [show view.chats = c.chats from h.1]
        rfl
  | edit p ok t todo messageId hid outcome => exact inStep_edit outcome (hledger t.rawId) h
  | send p ok t todo stage hstage =>
      obtain ⟨hnodup, hrows, hfresh, -⟩ := h
      exact ⟨hnodup, hrows, fun t' ht' => unrefused_cons (hfresh t' ht') rfl, trivial⟩
  | reply p ok t todo messageId sent notice left taken => exact inStep_reply taken h
  | edited p ok t todo messageId sent left hleft => exact inStep_upsert rfl h
  | refused p ok t todo => exact inStep_upsert rfl h
  | posted p ok t todo sent => exact inStep_upsert (sent_chatId _ _) h
  | missed | gone | drop | catchUp | defer | finish | mark | reclaim | list => trivial

/-- More notices do not take anything from the row. -/
theorem rowLe_edited {d : Delivery} {id : MessageId} {n n' : Nat} (h : n ≤ n') (c : Cycle)
    (raw : String) : RowLe (chat? (c.upsertChat (d.edited id n)).chats raw)
      (chat? (c.upsertChat (d.edited id n')).chats raw) := by
  rw [chat?_upsertChat, chat?_upsertChat]
  show RowLe (if raw = d.chat.rawId then _ else _) (if raw = d.chat.rawId then _ else _)
  by_cases hraw : raw = d.chat.rawId
  · rw [if_pos hraw, if_pos hraw]
    refine ⟨fun _ => rfl, ?_, ?_, fun hnone => ?_⟩
    · rw [rowSeq_store, rowSeq_store]
      exact Nat.le_refl _
    · rw [rowNotified_store, rowNotified_store]
      show max _ n ≤ max _ n'
      omega
    · rw [Option.bind_some, store_messageId] at hnone
      cases hnone
  · rw [if_neg hraw, if_neg hraw]
    exact .refl _

section
variable {i : Party Unit} {c : Cycle} {tr : List (Entry Unit)} {p : Pass} {ok : Bool}
  {t : Target} {todo : List Target}

/-- A message is posted to a chat that is behind, has none of its own, or has lost it, and where
nothing was refused in this pass. -/
theorem ledger_send {stage : Stage} {r : SendResult} {raw : String}
    (hstage : stage = .deliver ∧ (p.delivery cfg t).messageId = none ∨ stage = .missing)
    (hid : r.outcome = .ok → r.messageId ≠ none)
    (hdue : (Phase.delivering p ok (t :: todo) stage).HeadDue cfg)
    (hstep : (Phase.delivering p ok (t :: todo) stage).InStep cfg c tr)
    (h : ∀ raw, Ledger raw (chat? c.chats raw) tr) :
    Ledger raw
      (chat? ((Phase.delivering p ok (t :: todo) (.posted r)).written cfg c).chats raw)
      (.call i (.sendMessage t.chat (p.delivery cfg t).body) r :: tr) := by
  by_cases hraw : t.chat.rawId = raw
  · subst hraw
    have hrow : chat? p.view.chats t.chat.rawId = chat? c.chats t.chat.rawId :=
      hstep.2.1 t (List.mem_cons_self ..)
    refine (h _).sent (rowLe_written _ c _) (fun hsome => ?_) ?_ ?_ (fun hne => ?_) fun hok => ?_
    · have hup : ((chat? p.view.chats t.chat.rawId).any fun row =>
          decide (p.view.message.lastSeq ≤ row.deliveredSeq)) = false := hdue
      rw [hrow] at hup
      obtain ⟨row, hrow'⟩ := Option.isSome_iff_exists.1 hsome
      rw [hrow'] at hup ⊢
      exact Nat.lt_of_not_le (of_decide_eq_false hup)
    · rcases hstage with ⟨-, hnone⟩ | rfl
      · refine (h _).posted ?_
        rw [← hrow]
        exact hnone
      · exact hstep.2.2.2.2
    · rcases hstage with ⟨rfl, -⟩ | rfl
      · exact hstep.2.2.2
      · exact hstep.2.2.2.1
    · rw [chat?_posted, rowSeq_store, sent_deliveredSeq hid hne]
      exact ⟨rfl, Nat.le_max_right _ _⟩
    · obtain ⟨id, hm⟩ := Option.ne_none_iff_exists'.1 (hid hok)
      rw [chat?_posted, Option.bind_some, store_messageId, Delivery.sent,
        if_neg (by rw [hok]; nofun), hm]
      nofun
  · exact (h raw).quiet (rowLe_written _ c raw) (beq_eq_false_iff_ne.2 hraw) rfl

/-- A notice that is taken is the next one, and the row that is going to be written counts it. -/
theorem ledger_reply {messageId : MessageId} {sent : Nat} {notice : Notice}
    {left : List (Option Notice)} (taken : Bool) {raw : String}
    (hstep : (Phase.delivering p ok (t :: todo)
      (.announcing messageId sent (some notice :: left))).InStep cfg c tr)
    (h : ∀ raw, Ledger raw
      (chat? (c.upsertChat ((p.delivery cfg t).edited messageId sent)).chats raw) tr) :
    Ledger raw
      (chat? ((Phase.delivering p ok (t :: todo)
        (if taken then .announce messageId (sent + 1) left
        else .announcing messageId sent [])).written cfg c).chats raw)
      (.call i (.replyMessage t.chat messageId notice) taken :: tr) := by
  cases taken with
  | false => exact (h raw).quiet (.refl _) rfl (if_neg (by nofun))
  | true =>
      obtain ⟨n, l, hle, heq⟩ := announce_eq messageId left (sent + 1)
      have hrow := @rowLe_edited (p.delivery cfg t) messageId sent n (by omega) c raw
      simp only [if_true, heq]
      by_cases hraw : t.rawId = raw
      · subst hraw
        rcases hstep.2.2.2 with hnil | ⟨hleft, htold⟩
        · cases hnil
        have hindex : notice.index = sent := notice_index hleft
        refine (h _).notified hrow (fun k hk => ?_) ?_
        · rw [hindex]
          exact htold k hk
        · have hchat : t.rawId = ((p.delivery cfg t).edited messageId n).chatId := rfl
          show _ < rowNotified (chat? (c.upsertChat _).chats _)
          rw [chat?_upsertChat, if_pos hchat, rowNotified_store]
          show notice.index < max _ n
          omega
      · exact (h raw).quiet hrow rfl (if_neg fun hand => hraw hand.1)

end

theorem Moves.ledger {i : Party Unit} {x : Choice} {s : Board Unit} {c : Cycle} {f f' : Phase}
    {call : Call} {r : call.Result} (hm : Moves cfg f call r f') (hr : r = respond cfg x s call)
    (hdue : f.HeadDue cfg) (hstep : f.InStep cfg c s.trace)
    (h : ∀ raw, Ledger raw (chat? (f.written cfg c).chats raw) s.trace) (raw : String) :
    Ledger raw (chat? (f'.written cfg (call.write cfg s.now c)).chats raw)
      (.call i call r :: s.trace) := by
  have hquiet : f.pending cfg = none → f'.pending cfg = none →
      (call.write cfg s.now c).chats = c.chats →
      Entry.sends raw (.call i call r : Entry Unit) = false →
      Entry.announced raw (.call i call r : Entry Unit) = none →
      Ledger raw (chat? (f'.written cfg (call.write cfg s.now c)).chats raw)
        (.call i call r :: s.trace) := by
    intro hf hf' hchats hsend htold
    refine (h raw).quiet ?_ hsend htold
    rw [written_of_none hf, written_of_none hf', hchats]
    exact .refl _
  cases hm with
  | claim entries =>
      refine hquiet rfl ?_ rfl rfl rfl
      split <;> rfl
  | settings entries view values =>
      exact hquiet rfl (pending_settings entries view values) rfl rfl rfl
  | catchUp entries view reason chat todo =>
      exact (h raw).quiet (rowLe_upsertChat _ c raw) rfl rfl
  | edit p ok t todo messageId hid outcome =>
      exact (h raw).quiet (rowLe_written _ c raw) rfl rfl
  | send p ok t todo stage hstage r =>
      have hf : (Phase.delivering p ok (t :: todo) stage).pending cfg = none := by
        rcases hstage with ⟨rfl, -⟩ | rfl <;> rfl
      rw [written_of_none hf] at h
      refine ledger_send hstage (fun hok => ?_) hdue hstep h
      rw [hr] at hok ⊢
      simp only [respond] at hok ⊢
      rw [if_pos hok]
      nofun
  | reply p ok t todo messageId sent notice left taken => exact ledger_reply taken hstep h
  | edited p ok t todo messageId sent left hleft =>
      refine (h raw).quiet ?_ rfl rfl
      rw [written_of_none (pending_next p ok todo)]
      exact .refl _
  | refused p ok t todo =>
      refine (h raw).quiet ?_ rfl rfl
      rw [written_of_none (pending_next p false todo)]
      exact .refl _
  | posted p ok t todo sent =>
      refine (h raw).quiet ?_ rfl rfl
      rw [written_of_none (pending_next p _ todo)]
      exact .refl _
  | missed | load | gone | drop | defer | finish | mark | reclaim | list =>
      exact hquiet rfl rfl rfl rfl rfl

/-! ## Every run -/

/-- Where the pass stands and what it did to the chats, by the rows of the cycle: the
invariant of the undisturbed runs. The ledger of each chat is kept with the row the pass
is about to write, since the stored row is behind from a Telegram call on until that
write. -/
structure Board.Accounts (cfg : Config) (s : Board Unit) (c : Cycle) : Prop where
  distinct : cfg.Distinct s.settings
  due : (phase cfg (.pass ()) s.trace).HeadDue cfg
  step : (phase cfg (.pass ()) s.trace).InStep cfg c s.trace
  ledger : ∀ raw, Ledger raw (chat? ((phase cfg (.pass ()) s.trace).written cfg c).chats raw)
    s.trace

/-- An entry that is not a Telegram call, and no beginning of a pass. -/
def Entry.Silent (e : Entry Unit) : Prop :=
  ∀ raw, e.sends raw = false ∧ e.missing raw = false ∧ e.refused raw = false ∧
    e.announced raw = none

theorem Phase.InStep.chats {f : Phase} {c c' : Cycle} {t : List (Entry Unit)}
    (h : f.InStep cfg c t) (hc : c'.chats = c.chats) : f.InStep cfg c' t := by
  cases f with
  | loaded entries view => exact ⟨h.1.trans hc.symm, h.2⟩
  | delivering p ok todo stage =>
      cases todo with
      | nil => trivial
      | cons t' todo =>
          refine ⟨h.1, ?_, h.2.2⟩
          rw [hc]
          exact h.2.1
  | begun | claimed => exact h
  | rest | gone | dropping | parking | finished | reclaiming | listing => trivial

theorem Phase.InStep.silent {f : Phase} {c : Cycle} {e : Entry Unit} {t : List (Entry Unit)}
    (h : f.InStep cfg c t) (he : e.Silent) : f.InStep cfg c (e :: t) := by
  have hfresh : ∀ raw, Unrefused raw t → Unrefused raw (e :: t) := fun raw hu =>
    unrefused_cons hu (he raw).2.2.1
  cases f with
  | begun | claimed => exact fun raw => hfresh raw (h raw)
  | loaded entries view => exact ⟨h.1, fun raw => hfresh raw (h.2 raw)⟩
  | delivering p ok todo stage =>
      cases todo with
      | nil => trivial
      | cons t' todo =>
          obtain ⟨hnodup, hrows, hrest, hhead⟩ := h
          refine ⟨hnodup, hrows, fun u hu => hfresh _ (hrest u hu), ?_⟩
          cases stage with
          | deliver => exact hfresh _ hhead
          | missing =>
              obtain ⟨hunrefused, hcount⟩ := hhead
              obtain ⟨hsends, hmissing, -, -⟩ := he (p.delivery cfg t').chat.rawId
              refine ⟨hfresh _ hunrefused, ?_⟩
              rw [List.countP_cons_of_neg (by rw [accepted_of_not_sends hsends]; nofun),
                List.countP_cons_of_neg (by rw [hmissing]; nofun)]
              exact hcount
          | announcing messageId sent left =>
              refine hhead.imp id fun hleft => ⟨hleft.1, ?_⟩
              rw [List.filterMap_cons_none (he (p.delivery cfg t').chat.rawId).2.2.2]
              exact hleft.2
          | refused | posted => trivial
  | rest | gone | dropping | parking | finished | reclaiming | listing => trivial

/-- A move in which the pass has no part. -/
theorem Board.Accounts.silent {s s' : Board Unit} {c c' : Cycle} {e : Entry Unit}
    (h : s.Accounts cfg c) (hsettings : cfg.Distinct s'.settings) (hc : c'.chats = c.chats)
    (htrace : s'.trace = e :: s.trace) (he : e.Silent)
    (hphase : phase cfg (.pass ()) s'.trace = phase cfg (.pass ()) s.trace) :
    s'.Accounts cfg c' where
  distinct := hsettings
  due := by
    rw [hphase]
    exact h.due
  step := by
    rw [hphase, htrace]
    exact (h.step.chats hc).silent he
  ledger := by
    intro raw
    rw [hphase, htrace, chats_written hc]
    exact (h.ledger raw).quiet (.refl _) (he raw).1 (he raw).2.2.2

theorem accounts_call {s : Board Unit} {c : Cycle} {i : Party Unit} {call : Call} {x : Choice}
    (hcall : (phase cfg i s.trace).call? cfg = some call) (hx : x.db = .ok) (hs : s.cycle = some c)
    (h : s.Accounts cfg c) :
    ((effect cfg x s call).log (.call i call (respond cfg x s call))).Accounts cfg
      (call.write cfg s.now c) := by
  cases i with
  | sweep u =>
      have htrace : ((effect cfg x s call).log (.call (.sweep u) call
          (respond cfg x s call))).trace = .call (.sweep u) call (respond cfg x s call) ::
            s.trace := by
        rw [Board.log_trace, effect_trace]
      have hphase : phase cfg (.pass ()) ((effect cfg x s call).log (.call (.sweep u) call
          (respond cfg x s call))).trace = phase cfg (.pass ()) s.trace := by
        rw [htrace, phase_call_other (by nofun)]
      refine h.silent ?_ ?_ htrace ?_ hphase
      · rw [Board.log_settings, effect_settings]
        exact h.distinct
      · refine write_chats cfg s.now (fun u => ?_) c
        rcases sweep_call hcall with rfl | rfl <;> nofun
      · rcases sweep_call hcall with rfl | rfl <;> exact fun raw => ⟨rfl, rfl, rfl, rfl⟩
  | pass u =>
      have hm := moves hcall (respond cfg x s call)
      refine ⟨?_, ?_, ?_, ?_⟩
      · rw [Board.log_settings, effect_settings]
        exact h.distinct
      · rw [Board.log_trace, effect_trace, phase_call_self]
        exact hm.headDue h.due
      · rw [Board.log_trace, effect_trace, phase_call_self]
        exact hm.inStep rfl hx hs h.distinct h.ledger h.step
      · rw [Board.log_trace, effect_trace, phase_call_self]
        exact hm.ledger rfl h.due h.step h.ledger

theorem accounts_step {s s' : Board Unit} {l : Step Unit}
    (hl : l.Due (passes cfg) (fun i s => phase cfg i s.trace) s) (hc : Undisturbed cfg s l)
    (ha : (dispatchers cfg Unit).act l s = some s')
    (h : ∃ c, s.cycle = some c ∧ s.Accounts cfg c) : ∃ c, s'.cycle = some c ∧
      s'.Accounts cfg c := by
  obtain ⟨c, hs, h⟩ := h
  rcases due_cases hl ha with ⟨i, call, x, rfl, hcall, rfl⟩ | ⟨i, e, rfl, hcall, rfl⟩ |
    ⟨e, rfl, he⟩ | ⟨i, rfl, -⟩
  · have hx : x.db = .ok := hc
    refine ⟨call.write cfg s.now c, ?_, accounts_call hcall hx hs h⟩
    rw [Board.log_cycle, effect_cycle, if_neg (by rw [hx]; nofun), hs, Option.map_some]
  · refine ⟨c, hs, ?_⟩
    cases i with
    | sweep u =>
        refine h.silent h.distinct rfl rfl (fun raw => ⟨rfl, rfl, rfl, rfl⟩) ?_
        rw [Board.log_trace, phase_started_other (by nofun)]
    | pass u =>
        have hrest := call?_eq_none.1 hcall
        have hledger := h.ledger
        rw [hrest] at hledger
        refine ⟨h.distinct, ?_, ?_, fun raw => ?_⟩
        · rw [Board.log_trace, phase_started_self]
          trivial
        · rw [Board.log_trace, phase_started_self]
          exact fun raw e he => nomatch he
        · rw [Board.log_trace, phase_started_self]
          exact (hledger raw).quiet (.refl _) rfl rfl
  · cases e with
    | wake => cases he
    | record e =>
        obtain ⟨d, hd, rfl⟩ := Option.map_eq_some_iff.1 he
        rw [hs] at hd
        cases hd
        obtain ⟨c', hc'⟩ : ∃ c', e.run (some c) = some c' := by
          cases e <;> exact ⟨_, rfl⟩
        have hchats := (recorded_run hc').chats
        refine ⟨c', hc', h.distinct, h.due, h.step.chats hchats, fun raw => ?_⟩
        rw [chats_written hchats]
        exact h.ledger raw
    | set v =>
        cases he
        exact ⟨c, hs, hc, h.due, h.step, h.ledger⟩
    | pass n =>
        cases he
        exact ⟨c, hs, h.distinct, h.due, h.step, h.ledger⟩
    | delete => exact hc.elim
  · exact hc.elim

theorem accounts_opened (r : EventRecord) (now : Int) {v : SettingValues} (hv : cfg.Distinct v) :
    ∃ c, (Board.opened r now v : Board Unit).cycle = some c ∧
      (Board.opened r now v).Accounts cfg c := by
  refine ⟨_, rfl, hv, trivial, trivial, fun raw => ⟨⟨fun _ => Nat.zero_le _, Nat.zero_le _,
    fun e older hs => ?_, .nil⟩, fun _ hpos => ?_, fun _ => Nat.le_refl _, nofun⟩⟩
  · cases List.suffix_nil.1 hs
  · exact absurd hpos (Nat.lt_irrefl 0)

theorem one_live_message : OneLiveMessage cfg := by
  intro r now v p q hv hp hq
  refine ⟨fun c c' hc hc' => ?_, fun raw => ?_⟩
  · have hgood := (conducts Unit cfg).good_of_reaches (good_opened r now v) hp
    have hforward : ∀ d, q.shared.cycle = some d → ChatsForward c.chats d.chats := by
      refine (conducts Unit cfg).induct
        (J := fun s => ∀ d, s.cycle = some d → ChatsForward c.chats d.chats) hgood hq ?_ ?_
      · intro d hd
        rw [hc] at hd
        cases hd
        exact .refl _
      · intro s l s' hl _ ha h d' hd'
        obtain ⟨d, hd, hf⟩ := chats_step hl ha hd'
        exact (h d hd).trans hf
    exact hforward c' hc'
  · obtain ⟨c, -, h⟩ := (conducts Unit cfg).induct (good_opened r now v) (hp.trans hq)
      (accounts_opened r now hv) fun s l s' hl hcond ha h => accounts_step hl hcond ha h
    exact (h.ledger raw).one

/-! ## A message that got lost -/

namespace Sample

def goneMissing : Choice := { ok with edit := .missing }

def unanswered : Choice := { ok with send := .unknown }

/-- The message is posted. The next event finds it deleted, and Telegram does not
answer the second post. -/
def deletedMessage : List (Machine.Move (Party Unit) Choice Event) :=
  .start (.pass ()) .wake :: calls (.pass ()) 7 ++
    [.env (.record (.event (record .long "2") 1)), .start (.pass ()) .wake] ++
    calls (.pass ()) 3 ++ [.call (.pass ()) goneMissing, .call (.pass ()) unanswered] ++
    calls (.pass ()) 3

def atRest : World Unit := opened (record .long "1") 0 .empty

end Sample

theorem one_live_message_lost : ∃ q : World Unit,
    q.shared.trace.countP (Entry.accepted "7") = 1 ∧
      q.shared.trace.countP (Entry.missing "7") = 1 ∧
      q.shared.trace.countP (Entry.landed "7" 2) = 1 ∧ OneMessage "7" q.shared.trace := by
  have hrun : ((dispatchers Sample.config Unit).replayIf
      (fun s l => decide (Undisturbed Sample.config s l)) Sample.deletedMessage
      Sample.atRest).any (fun q => q.shared.trace.countP (Entry.accepted "7") == 1 &&
        (q.shared.trace.countP (Entry.missing "7") == 1 &&
          q.shared.trace.countP (Entry.landed "7" 2) == 1)) = true := by
    decide +kernel
  obtain ⟨q, hq, hrun⟩ := (Option.any_eq_true _ _).1 hrun
  simp only [Bool.and_eq_true, beq_iff_eq] at hrun
  obtain ⟨haccepted, hmissing, hlanded⟩ := hrun
  have hreaches := (Machine.reaches_of_replayIf hq).mono fun _ _ h => of_decide_eq_true h
  exact ⟨q, haccepted, hmissing, hlanded,
    (one_live_message _ _ _ _ q (by decide +kernel) (.refl _) hreaches).2 "7"⟩

end TradingBroker.Broadcast
