import TradingBroker.Broadcast.Parked

/-!
# Silence costs nothing and is caught up quietly

While nothing is broadcast the passes are parked: no Telegram call, no attempt
spent, and an entry that a posted chat still waits for stays claimable (`Parked`).
The chats behind have their notices counted as given, so the first edit afterwards
brings the body up to date and says nothing of what happened meanwhile
(`silence_is_free`).

The last of these is an argument across passes. A parked pass leaves every chat
that was behind with a count of notices that covers the events so far
(`Phase.CatchesUp`); counts never fall, so the pass that broadcasts again reads
one at least as high (`Phase.Past`) and starts its notices behind it. That the
body it edits is the current one is a fact of that pass alone (`Phase.Edits`).
-/

namespace TradingBroker.Broadcast

open TradingBroker.Lib

def Call.telegram : Call → Bool
  | .editMessage _ _ _ | .sendMessage _ _ | .replyMessage _ _ _ => true
  | _ => false

/-- A successful edit. -/
def Entry.edited : Entry Unit → Option (ChatTarget × Body)
  | .call _ (.editMessage chat _ body) outcome =>
      if outcome = EditOutcome.ok then some (chat, body) else none
  | _ => none

/-- What a period without broadcasts costs, and how it ends, for one dispatcher whose
repository calls succeed. -/
structure SilenceIsFree (cfg : Config) : Prop where
  /-- Telegram is only called by a pass that read settings to broadcast under. -/
  calls : ∀ (r : EventRecord) (now : Int) (v₀ : SettingValues) (p q : World Unit)
    (i : Party Unit) (c : Call) (x : Choice),
    (dispatchers cfg Unit).Reaches Working (opened r now v₀) p →
    (dispatchers cfg Unit).Step p (.call i () c x) q → c.telegram = true →
    ∃ v, readValues p.shared.trace = some v ∧ cfg.Broadcasts v
  /-- An entry that is pending after a parked pass has the attempts it had. -/
  attempts : ∀ (r : EventRecord) (now : Int) (v₀ : SettingValues) (p q : World Unit)
    (view : CycleView) (n : Nat) (e e' : LogEntry),
    (dispatchers cfg Unit).Reaches Working (opened r now v₀) p → ParkedPass cfg p q view →
    p.shared.entry? n = some e → q.shared.entry? n = some e' → e'.status = .pending →
    e'.attempts = e.attempts
  /-- A parked pass that finds a posted chat behind leaves its entries claimable. -/
  claimable : ∀ (r : EventRecord) (now : Int) (v₀ : SettingValues) (p q : World Unit)
    (view : CycleView) (n : Nat) (e e' : LogEntry),
    (dispatchers cfg Unit).Reaches Working (opened r now v₀) p → ParkedPass cfg p q view →
    chatsBehind view ≠ [] → p.shared.entry? n = some e →
    e.claimable cfg.maxAttempts = true → q.shared.entry? n = some e' →
    e'.claimable cfg.maxAttempts = true
  /-- No later notice to that chat is for an event that pass already had. -/
  notices : ∀ (r : EventRecord) (now : Int) (v₀ : SettingValues) (p q p' q' : World Unit)
    (view : CycleView) (row : BroadcastChat) (i : Party Unit) (chat : ChatTarget)
    (id : MessageId) (notice : Notice) (x : Choice),
    (dispatchers cfg Unit).Reaches Working (opened r now v₀) p → ParkedPass cfg p q view →
    row ∈ chatsBehind view → (dispatchers cfg Unit).Reaches Working q p' →
    (dispatchers cfg Unit).Step p' (.call i () (.replyMessage chat id notice) x) q' →
    chat.rawId = row.chatId →
    view.message.events.length ≤ notice.index
  /-- A pass that edited a chat leaves it with the body of the sequence it loaded. -/
  body : ∀ (r : EventRecord) (now : Int) (v₀ : SettingValues) (p q : World Unit)
    (ids : List Nat) (f : Finish) (x : Choice) (view : CycleView) (c : Cycle) (e : Entry Unit)
    (chat : ChatTarget) (body : Body),
    (dispatchers cfg Unit).Reaches Working (opened r now v₀) p →
    (dispatchers cfg Unit).Step p (.call (.pass ()) () (.finishLogs ids f) x) q →
    p.shared.cycle = some c → readView p.shared.trace = some view →
    e ∈ thisPass p.shared.trace → e.edited = some (chat, body) →
    (∃ v ts t, readValues p.shared.trace = some v ∧ cfg.targets v = some ts ∧ t ∈ ts ∧
      t.chat = chat ∧ bodyText cfg view v t.audience = some body.text ∧
        body.seq = view.message.lastSeq) ∧
    ∃ row, chat? c.chats chat.rawId = some row ∧ row.deliveredSeq = view.message.lastSeq

variable {cfg : Config}

/-! ## Telegram is called to deliver -/

theorem Moves.delivers {f f' : Phase} {c : Call} {r : c.Result} (hm : Moves cfg f c r f')
    (hc : c.telegram = true) : ∃ p ok todo stage, f = .delivering p ok todo stage := by
  cases hm with
  | edit p ok t todo | send p ok t todo stage | reply p ok t todo => exact ⟨_, _, _, _, rfl⟩
  | claim | missed | load | gone | settings | drop | catchUp | defer | edited | refused | posted
  | finish | mark | reclaim | list => cases hc

theorem telegram_broadcasts {r : EventRecord} {now : Int} {v₀ : SettingValues}
    {p q : World Unit} {i : Party Unit} {c : Call} {x : Choice}
    (hrun : (dispatchers cfg Unit).Reaches Working (opened r now v₀) p)
    (hstep : (dispatchers cfg Unit).Step p (.call i () c x) q) (hc : c.telegram = true) :
    ∃ v, readValues p.shared.trace = some v ∧ cfg.Broadcasts v := by
  obtain ⟨hdue, -⟩ := (conducts Unit cfg).step (good_opened r now v₀) hrun hstep
  have hcall : (phase cfg i p.shared.trace).call? cfg = some c := hdue
  cases i with
  | sweep u => rcases sweep_call hcall with rfl | rfl <;> cases hc
  | pass u =>
      obtain ⟨pass, ok, todo, stage, hf⟩ := (moves hcall (respond cfg x p.shared c)).delivers hc
      have hread := reads hrun
      rw [hf] at hread
      exact ⟨pass.values, hread.2.1, hread.2.2⟩

/-! ## The chats behind are caught up -/

theorem rowNotified_forward {chats chats' : List BroadcastChat} (h : ChatsForward chats chats')
    (raw : String) : rowNotified (chat? chats raw) ≤ rowNotified (chat? chats' raw) := by
  cases hrow : chat? chats raw with
  | none => exact Nat.zero_le _
  | some row =>
      obtain ⟨row', hrow', hf⟩ := h raw row hrow
      rw [hrow']
      show row.notifiedEventCount.getD 0 ≤ row'.notifiedEventCount.getD 0
      cases hn : row.notifiedEventCount with
      | none => exact Nat.zero_le _
      | some n =>
          obtain ⟨n', hn', hle⟩ := hf.notified n hn
          rw [hn']
          exact hle

/-- A parked pass has caught up the chats behind that it is done with. -/
def Phase.CatchesUp (c : Cycle) : Phase → Prop
  | .dropping _ view => chatsBehind view = []
  | .parking _ view _ todo =>
      ∀ row ∈ chatsBehind view, row ∈ todo ∨
        view.message.events.length ≤ rowNotified (chat? c.chats row.chatId)
  | _ => True

theorem Phase.CatchesUp.forward {f : Phase} {c c' : Cycle} (h : f.CatchesUp c)
    (hf : ChatsForward c.chats c'.chats) : f.CatchesUp c' := by
  cases f with
  | parking entries view reason todo =>
      intro row hrow
      rcases h row hrow with hmem | hle
      · exact .inl hmem
      · exact .inr (Nat.le_trans hle (rowNotified_forward hf _))
  | dropping => exact h
  | rest | begun | claimed | gone | loaded | delivering | finished | reclaiming | listing =>
      trivial

theorem catchesUp_park {entries : List LogEntry} {view : CycleView} {reason : String}
    (c : Cycle) : (Phase.park entries view reason).CatchesUp c := by
  unfold Phase.park
  split
  · next hb => exact List.isEmpty_iff.1 hb
  · exact fun row hrow => .inl hrow

theorem Moves.catchesUp {f f' : Phase} {call : Call} {r : call.Result} {c : Cycle} {now : Int}
    (hm : Moves cfg f call r f') (h : f.CatchesUp c) :
    f'.CatchesUp (call.write cfg now c) := by
  cases hm with
  | claim => split <;> trivial
  | settings entries view values =>
      refine Phase.settings_cases cfg entries view values trivial (fun _ _ => catchesUp_park _)
        fun _ _ _ _ _ => trivial
  | catchUp entries view reason chat todo =>
      intro row hrow
      have hle : view.message.events.length ≤ rowNotified
          (chat? (c.upsertChat (Broadcast.catchUp view reason chat)).chats chat.chatId) := by
        have hchat : chat.chatId = (Broadcast.catchUp view reason chat).chatId := rfl
        rw [chat?_upsertChat, if_pos hchat, rowNotified_store]
        exact Nat.le_max_right _ _
      rcases h row hrow with hmem | hdone
      · rcases List.mem_cons.1 hmem with rfl | hmem
        · exact .inr hle
        · exact .inl hmem
      · exact .inr (Nat.le_trans hdone
          (rowNotified_forward (chatsForward_upsertChat _ c) _))
  | missed | load | gone | drop | defer | edit | send | reply | edited | refused | posted | finish
  | mark | reclaim | list => trivial

theorem catchesUp_step {s s' : Board Unit} {l : Step Unit}
    (hl : l.Due (passes cfg) (fun i s => phase cfg i s.trace) s) (hc : Working s l)
    (ha : (dispatchers cfg Unit).act l s = some s')
    (h : ∀ c, s.cycle = some c → (phase cfg (.pass ()) s.trace).CatchesUp c) :
    ∀ c, s'.cycle = some c → (phase cfg (.pass ()) s'.trace).CatchesUp c := by
  intro d' hd'
  obtain ⟨d, hd, hforward⟩ := chats_step hl ha hd'
  by_cases hi : l.party = some (.pass ())
  · rcases due_cases hl ha with ⟨i, c, x, rfl, hcall, rfl⟩ | ⟨i, e, rfl, hcall, rfl⟩ |
      ⟨e, rfl, -⟩ | ⟨i, rfl, -⟩
    · cases hi
      have hx : x.db = .ok := hc
      rw [Board.log_cycle, effect_cycle, if_neg (by rw [hx]; nofun), hd, Option.map_some] at hd'
      cases hd'
      rw [Board.log_trace, effect_trace, phase_call_self]
      exact (moves hcall _).catchesUp (h d hd)
    · cases hi
      rw [Board.log_trace, phase_started_self]
      trivial
    · cases hi
    · exact hc.elim
  · rw [phase_other ha hi]
    exact (h d hd).forward hforward

/-- After a parked pass every chat that was behind has its notices counted as given. -/
theorem parked_caughtUp {r : EventRecord} {now : Int} {v₀ : SettingValues} {p q : World Unit}
    {view : CycleView} {row : BroadcastChat}
    (hrun : (dispatchers cfg Unit).Reaches Working (opened r now v₀) p)
    (hpark : ParkedPass cfg p q view) (hrow : row ∈ chatsBehind view) :
    (dispatchers cfg Unit).Reaches Working (opened r now v₀) q ∧
      phase cfg (.pass ()) q.shared.trace = .rest ∧
      ∀ c, q.shared.cycle = some c →
        view.message.events.length ≤ rowNotified (chat? c.chats row.chatId) := by
  obtain ⟨p₁, q₁, x, y, call, v, hclaim, hx, hpass, hlast, hy, hcloses, hview, hvalues, hparks⟩ :=
    hpark
  have hrun₁ : (dispatchers cfg Unit).Reaches Working (opened r now v₀) q₁ :=
    (Machine.Reaches.tail hrun hclaim hx).trans (hpass.mono fun _ _ h => h.1)
  have hgood := @good_opened cfg Unit _ r now v₀
  have hcatches : ∀ c, q₁.shared.cycle = some c →
      (phase cfg (.pass ()) q₁.shared.trace).CatchesUp c :=
    (conducts Unit cfg).induct
      (J := fun s => ∀ c, s.cycle = some c → (phase cfg (.pass ()) s.trace).CatchesUp c)
      hgood hrun₁ (fun _ _ => trivial) fun s l s' hl hcond ha h => catchesUp_step hl hcond ha h
  have hread := reads hrun₁
  obtain ⟨hdue, hact⟩ := (conducts Unit cfg).step hgood hrun₁ hlast
  have hcall : (phase cfg (.pass ()) q₁.shared.trace).call? cfg = some call := hdue
  refine ⟨.tail hrun₁ hlast hy, ?_⟩
  rw [act_call hact, Board.log_trace, effect_trace, phase_call_self, Board.log_cycle, effect_cycle,
    if_neg (by rw [hy]; nofun)]
  rcases (moves hcall (respond cfg y q₁.shared call)).closing hcloses with
    ⟨entries, hf⟩ | ⟨entries, view', hf, rfl⟩ | ⟨entries, view', reason, hf, rfl⟩ |
      ⟨pass, ok, stage, hf⟩
  · rw [hf] at hread
    rw [show readValues q₁.shared.trace = none from hread] at hvalues
    cases hvalues
  · rw [hf] at hread hcatches ⊢
    rw [hread.1] at hview
    cases hview
    refine ⟨rfl, fun c hc => ?_⟩
    obtain ⟨d, hd, rfl⟩ := Option.map_eq_some_iff.1 hc
    rw [show chatsBehind view = [] from hcatches d hd] at hrow
    cases hrow
  · rw [hf] at hread hcatches ⊢
    rw [hread.1] at hview
    cases hview
    refine ⟨rfl, fun c hc => ?_⟩
    obtain ⟨d, hd, rfl⟩ := Option.map_eq_some_iff.1 hc
    rcases hcatches d hd row hrow with hmem | hle
    · cases hmem
    · exact hle
  · rw [hf] at hread
    obtain ⟨-, hvalues', hb⟩ := hread
    rw [hvalues'] at hvalues
    cases hvalues
    exact absurd hb (not_broadcasts_of_parks hparks)

/-! ## No notice for what was caught up -/

theorem Moves.replies {f f' : Phase} {c : Call} {r : c.Result} (hm : Moves cfg f c r f')
    {chat : ChatTarget} {id : MessageId} {notice : Notice}
    (hc : c = .replyMessage chat id notice) :
    ∃ p ok t todo sent left,
      f = .delivering p ok (t :: todo) (.announcing id sent (some notice :: left)) ∧
        t.chat = chat := by
  cases hm with
  | reply p ok t todo messageId sent notice left taken =>
      cases hc
      exact ⟨p, ok, t, todo, sent, left, rfl, rfl⟩
  | claim | missed | load | gone | settings | drop | catchUp | defer | edit | send | edited
  | refused | posted | finish | mark | reclaim | list => cases hc

/-- A pass goes by a row that counts the first `n` events, and announces none of
them. -/
def Phase.Past (cfg : Config) (raw : String) (n : Nat) : Phase → Prop
  | .loaded _ view => n ≤ rowNotified (chat? view.chats raw)
  | .delivering p _ (t :: _) stage =>
      n ≤ rowNotified (chat? p.view.chats raw) ∧
        (t.rawId = raw → match stage with
          | .announcing _ sent left =>
              left = [] ∨ left = (p.delivery cfg t).notices.drop sent ∧ n ≤ sent
          | _ => True)
  | _ => True

theorem past_announce {raw : String} {n : Nat} {p : Pass} {ok : Bool} {t : Target}
    {todo : List Target} {id : MessageId} (left : List (Option Notice)) : ∀ sent : Nat,
    n ≤ rowNotified (chat? p.view.chats raw) → left = (p.delivery cfg t).notices.drop sent →
      (t.rawId = raw → n ≤ sent) →
      (Phase.delivering p ok (t :: todo) (.announce id sent left)).Past cfg raw n := by
  induction left with
  | nil => exact fun sent hview _ _ => ⟨hview, fun _ => .inl rfl⟩
  | cons notice left ih =>
      intro sent hview hleft hsent
      cases notice with
      | none =>
          refine ih (sent + 1) hview ?_ fun hraw => Nat.le_succ_of_le (hsent hraw)
          rw [List.drop_add_one_eq_tail_drop, ← hleft, List.tail_cons]
      | some notice => exact ⟨hview, fun hraw => .inr ⟨hleft, hsent hraw⟩⟩

theorem past_next {raw : String} {n : Nat} {p : Pass} {ok : Bool} {todo : List Target}
    (h : n ≤ rowNotified (chat? p.view.chats raw)) :
    (Phase.next cfg p ok todo).Past cfg raw n := by
  unfold Phase.next
  cases todo.dropWhile fun t => (p.delivery cfg t).upToDate with
  | nil => trivial
  | cons t todo => exact ⟨h, fun _ => trivial⟩

theorem Moves.past {x : Choice} {s : Board Unit} {f f' : Phase} {call : Call} {r : call.Result}
    {raw : String} {n : Nat} (hm : Moves cfg f call r f') (hr : r = respond cfg x s call)
    (hrow : ∀ c, s.cycle = some c → n ≤ rowNotified (chat? c.chats raw))
    (h : f.Past cfg raw n) : f'.Past cfg raw n := by
  cases hm with
  | claim => split <;> trivial
  | load entries view =>
      simp only [respond] at hr
      split at hr
      · obtain ⟨c, hc, rfl⟩ := Option.map_eq_some_iff.1 hr.symm
        exact hrow c hc
      · cases hr
  | settings entries view values =>
      have hpark : ∀ reason, (Phase.park entries view reason).Past cfg raw n := by
        intro reason
        unfold Phase.park
        split <;> trivial
      refine Phase.settings_cases cfg entries view values trivial (fun _ _ => hpark _)
        fun _ _ _ _ _ => past_next h
  | edit p ok t todo messageId hid outcome =>
      cases outcome with
      | ok =>
          show (Phase.delivering p ok (t :: todo) ((p.delivery cfg t).notify messageId)).Past
            cfg raw n
          unfold Delivery.notify
          cases hnot : (p.delivery cfg t).alreadyNotified with
          | none => exact ⟨h.1, fun _ => .inl rfl⟩
          | some already =>
              dsimp only
              split
              · refine past_announce _ already h.1 rfl fun hraw => ?_
                have hnotified : rowNotified (chat? p.view.chats t.rawId) = already :=
                  congrArg (Option.getD · 0) hnot
                rw [← hnotified, hraw]
                exact h.1
              · exact ⟨h.1, fun _ => .inl rfl⟩
      | failed | missing => exact ⟨h.1, fun _ => trivial⟩
  | send p ok t todo stage => exact ⟨h.1, fun _ => trivial⟩
  | reply p ok t todo messageId sent notice left taken =>
      cases taken with
      | false => exact ⟨h.1, fun _ => .inl rfl⟩
      | true =>
          by_cases hraw : t.rawId = raw
          · rcases h.2 hraw with hnil | ⟨hleft, hle⟩
            · cases hnil
            · refine past_announce left (sent + 1) h.1 ?_ fun _ => Nat.le_succ_of_le hle
              rw [List.drop_add_one_eq_tail_drop, ← hleft, List.tail_cons]
          · exact ⟨h.1, fun hand => absurd hand hraw⟩
  | edited p ok t todo => exact past_next h.1
  | refused p ok t todo => exact past_next h.1
  | posted p ok t todo => exact past_next h.1
  | missed | gone | drop | catchUp | defer | finish | mark | reclaim | list => trivial

theorem past_step {s s' : Board Unit} {l : Step Unit} {raw : String} {n : Nat}
    (hl : l.Due (passes cfg) (fun i s => phase cfg i s.trace) s) (hc : Working s l)
    (ha : (dispatchers cfg Unit).act l s = some s')
    (h : (∀ c, s.cycle = some c → n ≤ rowNotified (chat? c.chats raw)) ∧
      (phase cfg (.pass ()) s.trace).Past cfg raw n) :
    (∀ c, s'.cycle = some c → n ≤ rowNotified (chat? c.chats raw)) ∧
      (phase cfg (.pass ()) s'.trace).Past cfg raw n := by
  obtain ⟨hrow, hpast⟩ := h
  refine ⟨fun d' hd' => ?_, ?_⟩
  · obtain ⟨d, hd, hforward⟩ := chats_step hl ha hd'
    exact Nat.le_trans (hrow d hd) (rowNotified_forward hforward raw)
  · by_cases hi : l.party = some (.pass ())
    · rcases due_cases hl ha with ⟨i, c, x, rfl, hcall, rfl⟩ | ⟨i, e, rfl, hcall, rfl⟩ |
        ⟨e, rfl, -⟩ | ⟨i, rfl, -⟩
      · cases hi
        rw [Board.log_trace, effect_trace, phase_call_self]
        exact (moves hcall _).past rfl hrow hpast
      · cases hi
        rw [Board.log_trace, phase_started_self]
        trivial
      · cases hi
      · exact hc.elim
    · rw [phase_other ha hi]
      exact hpast

theorem quiet_notices {r : EventRecord} {now : Int} {v₀ : SettingValues} {p q p' q' : World Unit}
    {view : CycleView} {row : BroadcastChat} {i : Party Unit} {chat : ChatTarget}
    {id : MessageId} {notice : Notice} {x : Choice}
    (hrun : (dispatchers cfg Unit).Reaches Working (opened r now v₀) p)
    (hpark : ParkedPass cfg p q view) (hrow : row ∈ chatsBehind view)
    (hlater : (dispatchers cfg Unit).Reaches Working q p')
    (hstep : (dispatchers cfg Unit).Step p' (.call i () (.replyMessage chat id notice) x) q')
    (hchat : chat.rawId = row.chatId) : view.message.events.length ≤ notice.index := by
  obtain ⟨hq, hrest, hcaught⟩ := parked_caughtUp hrun hpark hrow
  have hgood := (conducts Unit cfg).good_of_reaches (good_opened r now v₀) hq
  obtain ⟨-, hpast⟩ := (conducts Unit cfg).induct
    (J := fun s => (∀ c, s.cycle = some c →
        view.message.events.length ≤ rowNotified (chat? c.chats row.chatId)) ∧
      (phase cfg (.pass ()) s.trace).Past cfg row.chatId view.message.events.length)
    hgood hlater (by
      refine ⟨hcaught, ?_⟩
      rw [hrest]
      trivial)
    fun s l s' hl hcond ha h => past_step hl hcond ha h
  obtain ⟨hdue, -⟩ := (conducts Unit cfg).step hgood hlater hstep
  have hcall : (phase cfg i p'.shared.trace).call? cfg =
      some (.replyMessage chat id notice) := hdue
  cases i with
  | sweep u => rcases sweep_call hcall with hc | hc <;> cases hc
  | pass u =>
      obtain ⟨p, ok, t, todo, sent, left, hf, rfl⟩ :=
        (moves hcall (respond cfg x p'.shared (.replyMessage chat id notice))).replies rfl
      rw [hf] at hpast
      rcases hpast.2 hchat with hnil | ⟨hleft, hle⟩
      · cases hnil
      · rw [notice_index hleft]
        exact hle

/-! ## What a pass edited it has written -/

/-- The edit rendered what the pass has read, for a chat it delivers to. -/
def Pass.Rendered (cfg : Config) (p : Pass) (chat : ChatTarget) (body : Body) : Prop :=
  ∃ ts t, cfg.targets p.values = some ts ∧ t ∈ ts ∧ t.chat = chat ∧
    bodyText cfg p.view p.values t.audience = some body.text ∧
      body.seq = p.view.message.lastSeq

/-- The chat was edited, and its row is not written yet. -/
def Announces (chat : ChatTarget) : List Target → Stage → Prop
  | t :: _, .announcing _ _ _ => t.chat = chat
  | _, _ => False

/-- What a pass has edited so far is what it rendered for its targets from what it has
read, and each such chat shows that body or is the one at hand. -/
def Phase.Edits (cfg : Config) (c : Cycle) (trace : List (Entry Unit)) : Phase → Prop
  | .begun | .claimed _ | .gone _ | .loaded _ _ | .dropping _ _ =>
      ∀ e ∈ thisPass trace, e.edited = none
  | .delivering p _ todo stage =>
      (∃ ts, cfg.targets p.values = some ts ∧ cfg.renders p.view p.values = true ∧
          ∀ t ∈ todo, t ∈ ts) ∧
        ∀ e ∈ thisPass trace, ∀ chat body, e.edited = some (chat, body) →
          p.Rendered cfg chat body ∧
            (ShownAt c.chats chat.rawId p.view.message.lastSeq ∨ Announces chat todo stage)
  | _ => True

theorem Phase.Edits.forward {f : Phase} {c c' : Cycle} {t : List (Entry Unit)}
    (h : f.Edits cfg c t) (hc : ChatsForward c.chats c'.chats) : f.Edits cfg c' t := by
  cases f with
  | begun | claimed | gone | loaded | dropping => exact h
  | delivering p ok todo stage =>
      refine ⟨h.1, fun e he chat body hb => ?_⟩
      obtain ⟨hr, hs⟩ := h.2 e he chat body hb
      exact ⟨hr, hs.imp (fun hs => hs.forward hc) id⟩
  | rest | parking | finished | reclaiming | listing => trivial

/-- An entry that is no edit. -/
theorem Phase.Edits.cons {f : Phase} {c : Cycle} {e : Entry Unit} {t : List (Entry Unit)}
    (h : f.Edits cfg c t) (he : e.edited = none) : f.Edits cfg c (e :: t) := by
  have hnone : (∀ e ∈ thisPass t, e.edited = none) → ∀ e' ∈ thisPass (e :: t),
    e'.edited = none := by
    intro h e' he'
    rcases mem_thisPass_cons he' with rfl | he'
    · exact he
    · exact h e' he'
  cases f with
  | begun | claimed | gone | loaded | dropping => exact hnone h
  | delivering p ok todo stage =>
      refine ⟨h.1, fun e' he' chat body hb => ?_⟩
      rcases mem_thisPass_cons he' with rfl | he'
      · rw [he] at hb
        cases hb
      · exact h.2 e' he' chat body hb
  | rest | parking | finished | reclaiming | listing => trivial

/-- The pass goes on once the row of the chat it was at is written. -/
theorem edits_next {p : Pass} {ok ok' : Bool} {t : Target} {todo : List Target} {stage : Stage}
    {c : Cycle} {u : ChatUpsert} {trace : List (Entry Unit)} {e : Entry Unit}
    (h : (Phase.delivering p ok (t :: todo) stage).Edits cfg c trace) (he : e.edited = none)
    (hu : ∀ chat, Announces chat (t :: todo) stage →
      u.chatId = chat.rawId ∧ u.deliveredSeq = some p.view.message.lastSeq) :
    (Phase.next cfg p ok' todo).Edits cfg (c.upsertChat u) (e :: trace) := by
  obtain ⟨⟨ts, hts, hrenders, hall⟩, hedits⟩ := h
  refine ⟨⟨ts, hts, hrenders, fun t' ht' => hall t' (List.mem_cons_of_mem _ ?_)⟩,
    fun e' he' chat body hb => ?_⟩
  · exact (List.dropWhile_suffix _).subset ht'
  · rcases mem_thisPass_cons he' with rfl | he'
    · rw [he] at hb
      cases hb
    · obtain ⟨hr, hs⟩ := hedits e' he' chat body hb
      refine ⟨hr, .inl ?_⟩
      rcases hs with hs | ha
      · exact hs.forward (chatsForward_upsertChat u c)
      · obtain ⟨hid, hseq⟩ := hu chat ha
        rw [← hid]
        exact shownAt_upsertChat hseq

theorem Moves.edits {i : Party Unit} {f f' : Phase} {call : Call} {r : call.Result} {c : Cycle}
    {now : Int} {t : List (Entry Unit)} (hm : Moves cfg f call r f') (h : f.Edits cfg c t) :
    f'.Edits cfg (call.write cfg now c) (.call i call r :: t) := by
  cases hm with
  | claim entries =>
      split
      · trivial
      · exact Phase.Edits.cons (f := .claimed entries) h rfl
  | missed entries => exact Phase.Edits.cons (f := .gone entries) h rfl
  | load entries view => exact Phase.Edits.cons (f := .loaded entries view) h rfl
  | settings entries view values =>
      have hpark : ∀ reason, (Phase.park entries view reason).Edits cfg c
          (.call i .getMany values :: t) := by
        intro reason
        unfold Phase.park
        split
        · exact Phase.Edits.cons (f := .dropping entries view) h rfl
        · trivial
      refine Phase.settings_cases cfg entries view values trivial (fun _ _ => hpark _)
        fun ts _ hts _ hrenders =>
          ⟨⟨ts, hts, hrenders, fun t' ht' => (List.dropWhile_suffix _).subset ht'⟩,
            fun e he chat body hb => ?_⟩
      rcases mem_thisPass_cons he with rfl | he
      · cases hb
      · rw [h e he] at hb
        cases hb
  | edit p ok t' todo messageId hid outcome =>
      obtain ⟨⟨ts, hts, hrenders, hall⟩, hedits⟩ := h
      refine ⟨⟨ts, hts, hrenders, hall⟩, fun e he chat body hb => ?_⟩
      rcases mem_thisPass_cons he with rfl | he
      · cases outcome with
        | ok =>
            cases hb
            refine ⟨⟨ts, t', hts, hall t' (List.mem_cons_self ..), rfl, ?_, rfl⟩, .inr ?_⟩
            · exact delivery_text cfg hrenders t'
            obtain ⟨n, l, heq⟩ := notify_eq (p.delivery cfg t') messageId
            simp only [heq]
            rfl
        | failed | missing => cases hb
      · obtain ⟨hr, hs⟩ := hedits e he chat body hb
        refine ⟨hr, .inl ?_⟩
        rcases hs with hs | ha
        · exact hs
        · exact ha.elim
  | send p ok t' todo stage hstage r =>
      obtain ⟨hall, hedits⟩ := h
      refine ⟨hall, fun e he chat body hb => ?_⟩
      rcases mem_thisPass_cons he with rfl | he
      · cases hb
      · obtain ⟨hr, hs⟩ := hedits e he chat body hb
        refine ⟨hr, .inl ?_⟩
        rcases hs with hs | ha
        · exact hs
        · rcases hstage with ⟨rfl, -⟩ | rfl
          · exact ha.elim
          · exact ha.elim
  | reply p ok t' todo messageId sent notice left taken =>
      obtain ⟨hall, hedits⟩ := h
      refine ⟨hall, fun e he chat body hb => ?_⟩
      rcases mem_thisPass_cons he with rfl | he
      · cases hb
      · obtain ⟨hr, hs⟩ := hedits e he chat body hb
        refine ⟨hr, hs.imp id fun ha => ?_⟩
        cases taken with
        | false => exact ha
        | true =>
            obtain ⟨n, l, -, heq⟩ := announce_eq messageId left (sent + 1)
            simp only [if_true, heq]
            exact ha
  | edited p ok t' todo messageId sent left hleft =>
      refine edits_next h rfl fun chat ha => ⟨?_, rfl⟩
      exact congrArg ChatTarget.rawId ha
  | refused p ok t' todo => exact edits_next h rfl fun chat ha => ha.elim
  | posted p ok t' todo sent => exact edits_next h rfl fun chat ha => ha.elim
  | gone | drop | catchUp | defer | finish | mark | reclaim | list => trivial

theorem edits_step {s s' : Board Unit} {l : Step Unit}
    (hl : l.Due (passes cfg) (fun i s => phase cfg i s.trace) s) (hc : Working s l)
    (ha : (dispatchers cfg Unit).act l s = some s')
    (h : ∀ c, s.cycle = some c → (phase cfg (.pass ()) s.trace).Edits cfg c s.trace) :
    ∀ c, s'.cycle = some c → (phase cfg (.pass ()) s'.trace).Edits cfg c s'.trace := by
  intro d' hd'
  obtain ⟨d, hd, hforward⟩ := chats_step hl ha hd'
  rcases due_cases hl ha with ⟨i, c, x, rfl, hcall, rfl⟩ | ⟨i, e, rfl, hcall, rfl⟩ |
    ⟨e, rfl, he⟩ | ⟨i, rfl, -⟩
  · have hx : x.db = .ok := hc
    rw [Board.log_cycle, effect_cycle, if_neg (by rw [hx]; nofun), hd, Option.map_some] at hd'
    cases hd'
    rw [Board.log_trace, effect_trace]
    cases i with
    | pass u =>
        rw [phase_call_self]
        exact (moves hcall _).edits (h d hd)
    | sweep u =>
        rw [phase_call_other (by nofun)]
        refine ((h d hd).forward hforward).cons ?_
        rcases sweep_call hcall with rfl | rfl <;> rfl
  · cases i with
    | pass u =>
        rw [Board.log_trace, phase_started_self]
        exact fun e he => nomatch he
    | sweep u =>
        rw [Board.log_trace, phase_started_other (by nofun)]
        exact ((h d hd).forward hforward).cons rfl
  · rw [event_trace he]
    exact (h d hd).forward hforward
  · exact hc.elim

theorem edited_body {r : EventRecord} {now : Int} {v₀ : SettingValues} {p q : World Unit}
    {ids : List Nat} {fin : Finish} {x : Choice} {view : CycleView} {c : Cycle} {e : Entry Unit}
    {chat : ChatTarget} {body : Body}
    (hrun : (dispatchers cfg Unit).Reaches Working (opened r now v₀) p)
    (hstep : (dispatchers cfg Unit).Step p (.call (.pass ()) () (.finishLogs ids fin) x) q)
    (hc : p.shared.cycle = some c) (hview : readView p.shared.trace = some view)
    (he : e ∈ thisPass p.shared.trace) (hb : e.edited = some (chat, body)) :
    (∃ v ts t, readValues p.shared.trace = some v ∧ cfg.targets v = some ts ∧ t ∈ ts ∧
      t.chat = chat ∧ bodyText cfg view v t.audience = some body.text ∧
        body.seq = view.message.lastSeq) ∧
    ∃ row, chat? c.chats chat.rawId = some row ∧ row.deliveredSeq = view.message.lastSeq := by
  have hgood := @good_opened cfg Unit _ r now v₀
  have hedits := (conducts Unit cfg).induct
    (J := fun s => ∀ c, s.cycle = some c → (phase cfg (.pass ()) s.trace).Edits cfg c s.trace)
    hgood hrun (fun _ _ => trivial) (fun s l s' hl hcond ha h => edits_step hl hcond ha h) c hc
  have htells : p.shared.Tells cfg := (conducts Unit cfg).induct hgood hrun
    (tells_opened r now v₀) fun s l s' hl hcond ha h => tells_step hl hcond ha h
  have hread := reads hrun
  obtain ⟨hdue, -⟩ := (conducts Unit cfg).step hgood hrun hstep
  have hcall : (phase cfg (.pass ()) p.shared.trace).call? cfg = some (.finishLogs ids fin) := hdue
  rcases (moves hcall (respond cfg x p.shared (.finishLogs ids fin))).finishing rfl with
    ⟨entries, hf, -⟩ | ⟨entries, view', hf, -⟩ | ⟨pass, ok, stage, hf, rfl⟩
  · rw [hf] at hedits
    rw [hedits e he] at hb
    cases hb
  · rw [hf] at hedits
    rw [hedits e he] at hb
    cases hb
  · have htold := htells c hc
    rw [hf] at hread hedits htold
    obtain ⟨hview', hvalues, -⟩ := hread
    rw [hview'] at hview
    cases hview
    obtain ⟨⟨ts, t, hts, ht, hchat, htext, hseq⟩, hshown | ha⟩ := hedits.2 e he chat body hb
    · refine ⟨⟨pass.values, ts, t, hvalues, hts, ht, hchat, htext, hseq⟩, ?_⟩
      obtain ⟨row, hrow, hle⟩ := hshown
      have hbound := htold.2.bounded chat.rawId
      rw [hrow] at hbound
      exact ⟨row, hrow, Nat.le_antisymm hbound hle⟩
    · exact ha.elim

/-! ## Silence -/

theorem silence_is_free : SilenceIsFree cfg where
  calls := fun _ _ _ _ _ _ _ _ hrun hstep hc => telegram_broadcasts hrun hstep hc
  attempts := fun _ _ _ _ _ _ _ _ _ hrun hpark he he' hs => parked_attempts hrun hpark he he' hs
  claimable := fun _ _ _ _ _ _ _ _ _ hrun hpark hbehind he hc he' =>
    parked_claimable hrun hpark hbehind he hc he'
  notices := fun _ _ _ _ _ _ _ _ _ _ _ _ _ _ hrun hpark hrow hlater hstep hchat =>
    quiet_notices hrun hpark hrow hlater hstep hchat
  body := fun _ _ _ _ _ _ _ _ _ _ _ _ _ hrun hstep hc hview he hb =>
    edited_body hrun hstep hc hview he hb

/-! ## Two events while the broker is silent -/

namespace Sample

def silent : SettingValues := { SettingValues.empty with silentSignal := some "1" }

/-- The message is posted; broadcasting is switched off, and two events come. -/
def muted : List (Machine.Move (Party Unit) Choice Event) :=
  .start (.pass ()) .wake :: calls (.pass ()) 7 ++
    [.env (.set silent), .env (.record (.event (record .long "2") 1)),
      .env (.record (.event (record .long "3") 2)), .start (.pass ()) .wake]

/-- The parked pass, after its claim and up to its last call. -/
def parked : List (Machine.Move (Party Unit) Choice Event) := calls (.pass ()) 3

/-- A fourth event finds broadcasting on again. -/
def unmuted : List (Machine.Move (Party Unit) Choice Event) :=
  [.env (.set .empty), .env (.record (.event (record .long "4") 3)),
    .start (.pass ()) .wake] ++ calls (.pass ()) 4

def audible : World Unit := opened (record .long "1") 0 .empty

/-- The pass goes on with its next call. -/
def next (p : World Unit) : Option (Step Unit × World Unit) :=
  (dispatchers config Unit).move p (.call (.pass ()) ok)

theorem step_of_next {p q : World Unit} {l : Step Unit} {c : Call} (h : next p = some (l, q))
    (hc : (p.threads (.pass ())).2.next? = some c) :
    (dispatchers config Unit).Step p (.call (.pass ()) () c ok) q := by
  have hl := Machine.move_call h hc
  exact ⟨_, by rw [← hl]; exact h⟩

/-- The worlds before and after a parked pass, and where the next notice is given. -/
structure Story where
  before : World Unit
  claimed : World Unit
  last : World Unit
  after : World Unit
  later : World Unit
  told : World Unit
  view : CycleView
  values : SettingValues
  ids : List Nat
  reason : String
  chat : ChatTarget
  id : MessageId
  notice : Notice

def story : Option Story := do
  let before ← (dispatchers config Unit).replayIf (fun s l => decide (Working s l)) muted audible
  let claim ← next before
  let last ← (dispatchers config Unit).replayIf
    (fun s l => decide (Working s l ∧ SamePass s l)) parked claim.2
  let view ← readView last.shared.trace
  let values ← readValues last.shared.trace
  let close ← next last
  let later ← (dispatchers config Unit).replayIf (fun s l => decide (Working s l)) unmuted close.2
  let told ← next later
  match (before.threads (.pass ())).2.next?, (last.threads (.pass ())).2.next?,
      (later.threads (.pass ())).2.next? with
  | some .claimPendingLogs, some (.deferLogs ids reason), some (.replyMessage chat id notice) =>
      some ⟨before, claim.2, last, close.2, later, told.2, view, values, ids, reason, chat, id,
        notice⟩
  | _, _, _ => none

theorem story_spec {s : Story} (h : story = some s) :
    (dispatchers config Unit).Reaches Working audible s.before ∧
    (dispatchers config Unit).Step s.before (.call (.pass ()) () .claimPendingLogs ok) s.claimed ∧
    (dispatchers config Unit).Reaches (fun s l => Working s l ∧ SamePass s l) s.claimed s.last ∧
    (dispatchers config Unit).Step s.last (.call (.pass ()) () (.deferLogs s.ids s.reason) ok)
      s.after ∧
    readView s.last.shared.trace = some s.view ∧
    readValues s.last.shared.trace = some s.values ∧
    (dispatchers config Unit).Reaches Working s.after s.later ∧
    (dispatchers config Unit).Step s.later
      (.call (.pass ()) () (.replyMessage s.chat s.id s.notice) ok) s.told := by
  simp only [story, Option.bind_eq_bind, Option.bind_eq_some_iff] at h
  obtain ⟨before, hbefore, claim, hclaim, last, hlast, view, hview, values, hvalues, close, hclose,
    later, hlater, told, htold, h⟩ := h
  split at h
  · next ids reason chat id notice h₁ h₂ h₃ =>
      cases h
      exact ⟨(Machine.reaches_of_replayIf hbefore).mono fun _ _ hw => of_decide_eq_true hw,
        step_of_next hclaim h₁,
        (Machine.reaches_of_replayIf hlast).mono fun _ _ hw => of_decide_eq_true hw,
        step_of_next hclose h₂, hview, hvalues,
        (Machine.reaches_of_replayIf hlater).mono fun _ _ hw => of_decide_eq_true hw,
        step_of_next htold h₃⟩
  · cases h

end Sample

/-- The fourth event is announced, and the two that came in silence are not. -/
theorem silence_is_free_muted : ∃ (view : CycleView) (notice : Notice),
    view.message.events.length = 3 ∧ view.message.events.length ≤ notice.index := by
  have hrun : Sample.story.any (fun s => s.values.silent &&
      (s.view.message.events.length == 3 &&
        (chatsBehind s.view).any fun row => s.chat.rawId == row.chatId)) = true := by
    decide +kernel
  obtain ⟨s, hs, hrun⟩ := (Option.any_eq_true _ _).1 hrun
  simp only [Bool.and_eq_true, beq_iff_eq, List.any_eq_true] at hrun
  obtain ⟨hsilent, hlen, row, hrow, hchat⟩ := hrun
  obtain ⟨hbefore, hclaim, hpass, hclose, hview, hvalues, hlater, htold⟩ := Sample.story_spec hs
  have hpark : ParkedPass Sample.config s.before s.after s.view :=
    ⟨s.claimed, s.last, Sample.ok, Sample.ok, _, s.values, hclaim, rfl, hpass, hclose, rfl, rfl,
      hview, hvalues, .inl hsilent⟩
  exact ⟨s.view, s.notice, hlen, silence_is_free.notices _ _ _ s.before s.after s.later s.told
    s.view row (.pass ()) s.chat s.id s.notice Sample.ok hbefore hpark hrow hlater htold hchat⟩

end TradingBroker.Broadcast
