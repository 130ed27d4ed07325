import TradingBroker.Cards.Service

/-!
# Cards only move forwards

The rows a report leaves rise with the reports, the queue keeps their order, and
the background task applies one after the other. So at any time the cards of a
trade are no further than the snapshot that is applied to them, that one no
further than those behind it, and all of them no further than the row
(`Inv`, kept by every step in `Inv.step`). From this come `cards_forwards` and what a
card at a terminal status looks like.

What makes the ranks comparable across queue, job and table is that each snapshot is
a row some report left, and that a row's rank never falls (`Trades.Lifecycle`).
Dropping a snapshot from a full queue, or losing the queue with a restart, leaves a
shorter list in the same order, so neither needs an argument of its own
(`Levels.sublist`). That a later state is no further back is shown from an earlier
one on, with the earlier card's rank as a bound that is kept by whatever is known of
the trade (`Above`): a card that is deleted and posted again is covered by it too.
-/

namespace TradingBroker.Cards

open TradingBroker.Lib
open TradingBroker.Trades (Trade Attempt upsert_cases)
open TradingBroker.TradeStatusPolicy (rank)

/-! ## Rows rise -/

/-- The trade has a row, at this rank or further. -/
def Reached (trades : List Trade) (id : RowId) (n : Int) : Prop :=
  ∃ r ∈ trades, r.id = id ∧ n ≤ rank r.status

/-- What a report that is committed does: every row stays where it is or rises, and the row it
answers is in the table. -/
theorem upsert_reached {e : PositionEvent} {x : Trades.Draw} {store store' : Trades.Store}
    {answer : Option Trade}
    (h : Trades.upsertByPositionEvent e x store = some (answer, store')) :
    (∀ id n, Reached store.trades id n → Reached store'.trades id n) ∧
      ∀ row, answer = some row → row ∈ store'.trades := by
  cases hstatus : TradeStatusPolicy.toTradeStatus e.status with
  | none =>
      rw [Trades.upsert_unknown hstatus] at h
      cases h
      refine ⟨fun _ _ h => h, ?_⟩
      intro row hrow
      cases hrow
  | some status =>
      obtain ⟨row, rfl, hcases⟩ := upsert_cases hstatus h
      rcases hcases with ⟨hfind, -, htrades⟩ | ⟨old, hfind, hup, rfl, htrades⟩ | ⟨-, -, htrades⟩
      · rw [htrades]
        refine ⟨fun _ _ h => h, ?_⟩
        intro row' hrow'
        cases hrow'
        exact List.mem_of_find?_eq_some hfind
      · rw [htrades]
        refine ⟨?_, ?_⟩
        · intro id n hreached
          obtain ⟨r, hr, hid, hn⟩ := hreached
          by_cases hold : r = old
          · subst hold
            refine ⟨(r.update e status).stored, mem_replaceFirst hfind, hid, ?_⟩
            have hrank := of_decide_eq_false hup
            have hstat : (r.update e status).stored.status = status := rfl
            rw [hstat]
            omega
          · exact ⟨r, mem_replaceFirst_of_ne hfind hr hold, hid, hn⟩
        · intro row' hrow'
          cases hrow'
          exact mem_replaceFirst hfind
      · rw [htrades]
        refine ⟨?_, ?_⟩
        · intro id n hreached
          obtain ⟨r, hr, hid, hn⟩ := hreached
          exact ⟨r, List.mem_append_left _ hr, hid, hn⟩
        · intro row' hrow'
          cases hrow'
          exact List.mem_append_right _ (List.mem_singleton.mpr rfl)

theorem report_cases (s : State) (a : Attempt) :
    s.report a = s ∨ ∃ store handing, s.handing = none ∧
      s.report a = { s with store, handing } ∧
      (∀ id n, Reached s.store.trades id n → Reached store.trades id n) ∧
        ∀ row, handing = some row → row ∈ store.trades := by
  simp only [State.report]
  split
  · next store hnone hcommit =>
      right
      obtain ⟨answer, hupsert⟩ := Trades.commits_cases hcommit
      obtain ⟨hrise, hmem⟩ := upsert_reached hupsert
      refine ⟨store, _, hnone, rfl, hrise, ?_⟩
      intro row hrow
      split at hrow
      · rw [hupsert] at hrow
        exact hmem row hrow
      · cases hrow
  · exact .inl rfl

/-! ## The invariant -/

/-- The snapshots of rows that are still to be applied, in their order. -/
def State.snapshots (s : State) : List Trade :=
  (s.job.map Job.trade).toList ++ s.queue ++ s.handing.toList

/-- Snapshots of one trade, the second no further back than the first. -/
def InOrder (a b : Trade) : Prop := a.id = b.id → rank a.status ≤ rank b.status

/-- The table: one card for each trade and chat, each with a message of its own that the
service has sent, without buttons if the card is at a terminal status. -/
structure TableOk (cards : List Card) (shown : String × Int → Option (Option (List Button))) :
    Prop where
  ids : (cards.map Card.id).Nodup
  keys : (cards.map fun c => (c.tradeId, c.chatId)).Nodup
  messages : (cards.map fun c => (c.chatId, c.messageId)).Nodup
  sent : ∀ c ∈ cards, shown (c.chatId, c.messageId) ≠ none
  frozen : ∀ c ∈ cards, isTerminal c.status = true → shown (c.chatId, c.messageId) = some none

/-- The cards are no further than the snapshots, these are in order, and all of them no further
than the rows. -/
structure Levels (cards : List Card) (snapshots trades : List Trade) : Prop where
  ordered : snapshots.Pairwise InOrder
  behind : ∀ c ∈ cards, ∀ t ∈ snapshots, t.id = c.tradeId → rank c.status ≤ rank t.status
  reached : ∀ t ∈ snapshots, Reached trades t.id (rank t.status)
  notAhead : ∀ c ∈ cards, Reached trades c.tradeId (rank c.status)

/-- The cards a job has still to look at are in the table as they were listed. -/
def JobOk (cards : List Card) (j : Job) : Prop :=
  (∀ c ∈ j.cards, c ∈ cards ∧ c.tradeId = j.trade.id) ∧ (j.cards.map Card.id).Nodup

/-- The invariant of a run, one part for the table, one for the ranks, one for the job
at hand, and one for the edits that were asked for. -/
structure Inv (s : State) : Prop where
  table : TableOk s.cards s.shown
  levels : Levels s.cards s.snapshots s.store.trades
  job : ∀ j, s.job = some j → JobOk s.cards j
  edits : ∀ e ∈ s.edits, e.recorded ≠ some e.applied

/-! ## What the operations on the table do -/

section Table

variable {cards : List Card} {shown : String × Int → Option (Option (List Button))}
  {snapshots trades : List Trade} {trade : Trade} {card c : Card} {id : RowId}
  {status : TradeStatus} {chatId : String} {messageId : Int}

theorem mem_markStatus (h : c ∈ markStatus id status cards) :
    (c ∈ cards ∧ c.id ≠ id) ∨ ∃ c' ∈ cards, c'.id = id ∧ c = { c' with status } := by
  obtain ⟨c', hc', rfl⟩ := List.mem_map.mp h
  by_cases hid : c'.id = id
  · right
    exact ⟨c', hc', hid, by rw [if_pos hid]⟩
  · left
    rw [if_neg hid]
    exact ⟨hc', hid⟩

/-- What marking leaves alone is the same of every row. -/
theorem map_markStatus {β : Type} {f : Card → β} (hf : ∀ c, f { c with status } = f c) :
    (markStatus id status cards).map f = cards.map f := by
  rw [markStatus, List.map_map]
  refine List.map_congr_left fun c _ => ?_
  rw [Function.comp_apply]
  split
  · exact hf c
  · rfl

/-- Rows with the same id are one row. -/
theorem eq_of_id {β : Type} {f : Card → β} {c' : Card} (h : (cards.map f).Nodup) (hc : c ∈ cards)
    (hc' : c' ∈ cards) (hf : f c = f c') : c = c' :=
  List.inj_on_of_nodup_map h hc hc' hf

/-- The buttons a card gets are gone exactly if the trade is over. -/
theorem keyboard_of_terminal (h : isTerminal trade.status = true) :
    tradeCardKeyboard trade false = none := by
  rw [tradeCardKeyboard, if_pos h]

theorem TableOk.mark (h : TableOk cards shown) (hcard : card ∈ cards) :
    TableOk (markStatus card.id trade.status cards)
      (Function.update shown (card.chatId, card.messageId)
        (some (tradeCardKeyboard trade false))) := by
  refine ⟨?_, ?_, ?_, ?_, ?_⟩
  · rw [map_markStatus fun c => rfl]
    exact h.ids
  · rw [map_markStatus fun c => rfl]
    exact h.keys
  · rw [map_markStatus fun c => rfl]
    exact h.messages
  · intro c hc
    rcases mem_markStatus hc with ⟨hmem, -⟩ | ⟨c', hmem, -, rfl⟩
    · by_cases hkey : (c.chatId, c.messageId) = (card.chatId, card.messageId)
      · rw [hkey, Function.update_self]
        simp
      · rw [Function.update_of_ne hkey]
        exact h.sent c hmem
    · by_cases hkey : (c'.chatId, c'.messageId) = (card.chatId, card.messageId)
      · rw [hkey, Function.update_self]
        simp
      · rw [Function.update_of_ne hkey]
        exact h.sent c' hmem
  · intro c hc hterm
    rcases mem_markStatus hc with ⟨hmem, hid⟩ | ⟨c', hmem, hid, rfl⟩
    · have hkey : (c.chatId, c.messageId) ≠ (card.chatId, card.messageId) := by
        intro hkey
        exact hid (congrArg Card.id (eq_of_id h.messages hmem hcard hkey))
      rw [Function.update_of_ne hkey]
      exact h.frozen c hmem hterm
    · have hsame := eq_of_id h.ids hmem hcard hid
      subst hsame
      rw [Function.update_self, keyboard_of_terminal hterm]

theorem TableOk.delete (h : TableOk cards shown) : TableOk (delete id cards) shown := by
  have hsub : (Cards.delete id cards).Sublist cards := List.filter_sublist
  refine ⟨h.ids.sublist (hsub.map _), h.keys.sublist (hsub.map _),
    h.messages.sublist (hsub.map _), ?_, ?_⟩
  · exact fun c hc => h.sent c (hsub.subset hc)
  · exact fun c hc => h.frozen c (hsub.subset hc)

/-- What `record` leaves: the rows of other trades and chats, and the row of this one. -/
theorem mem_record {row : RowId} (hkeys : (cards.map fun c => (c.tradeId, c.chatId)).Nodup)
    (h : c ∈ record id chatId messageId status row cards) :
    (c ∈ cards ∧ ¬ (c.tradeId = id ∧ c.chatId = chatId)) ∨
      (c.tradeId = id ∧ c.chatId = chatId ∧ c.messageId = messageId ∧ c.status = status) := by
  have hof : ∀ c : Card, c.isOf id chatId = true ↔ c.tradeId = id ∧ c.chatId = chatId := by
    intro c
    rw [Card.isOf, Bool.and_eq_true, beq_iff_eq, beq_iff_eq]
  unfold record at h
  split at h
  · next old hold =>
      have hold' := (hof old).mp (List.find?_some hold)
      by_cases hc : c = { old with messageId, status }
      · subst hc
        exact .inr ⟨hold'.1, hold'.2, rfl, rfl⟩
      · left
        have hmem : c ∈ cards := by
          rcases mem_of_mem_replaceFirst h with h | h
          · exact absurd h hc
          · exact h
        refine ⟨hmem, fun hkey => ?_⟩
        have hsame : c = old := by
          refine eq_of_id hkeys hmem (List.mem_of_find?_eq_some hold) ?_
          rw [hkey.1, hkey.2, hold'.1, hold'.2]
        subst hsame
        exact not_mem_replaceFirst hkeys.of_map hold hc h
  · next hnone =>
      rcases List.mem_append.mp h with h | h
      · refine .inl ⟨h, fun hkey => ?_⟩
        exact List.find?_eq_none.mp hnone c h ((hof c).mpr hkey)
      · rw [List.mem_singleton] at h
        subst h
        exact .inr ⟨rfl, rfl, rfl, rfl⟩

/-- A column of the table stays free of repetitions if what is recorded repeats nothing in it. -/
theorem nodup_map_record {β : Type} {f : Card → β} {row : RowId} (h : (cards.map f).Nodup)
    (hold : ∀ old, cards.find? (Card.isOf id chatId) = some old →
      f { old with messageId, status } = f old ∨ f { old with messageId, status } ∉ cards.map f)
    (hnew : cards.find? (Card.isOf id chatId) = none →
      ∀ c ∈ cards, f c ≠ f ⟨row, id, chatId, messageId, status⟩) :
    ((record id chatId messageId status row cards).map f).Nodup := by
  unfold Cards.record
  split
  · next old hfind =>
      rcases hold old hfind with hsame | hother
      · rw [map_replaceFirst hfind hsame]
        exact h
      · exact nodup_map_replaceFirst h hother
  · next hfind => exact nodup_map_concat h (hnew hfind)

theorem TableOk.record {row : RowId} (h : TableOk cards shown)
    (hfresh : shown (chatId, messageId) = none) (hrow : ∀ c ∈ cards, c.id ≠ row) :
    TableOk (record trade.id chatId messageId trade.status row cards)
      (Function.update shown (chatId, messageId) (some (tradeCardKeyboard trade false))) := by
  have hnew : (chatId, messageId) ∉ cards.map fun c => (c.chatId, c.messageId) := by
    intro hmem
    obtain ⟨c, hc, hkey⟩ := List.mem_map.mp hmem
    have hsent := h.sent c hc
    rw [hkey] at hsent
    exact hsent hfresh
  have hother : ∀ c ∈ cards, (c.chatId, c.messageId) ≠ (chatId, messageId) := by
    intro c hc hkey
    exact hnew (hkey ▸ List.mem_map_of_mem hc)
  refine ⟨?_, ?_, ?_, ?_, ?_⟩
  · exact nodup_map_record h.ids (fun old _ => .inl rfl) fun _ => hrow
  · refine nodup_map_record h.keys (fun old _ => .inl rfl) fun hnone c hc hkey => ?_
    have hmiss := List.find?_eq_none.mp hnone c hc
    simp only [Prod.mk.injEq] at hkey
    simp [Card.isOf, hkey.1, hkey.2] at hmiss
  · refine nodup_map_record h.messages (fun old hold => .inr ?_) fun _ => hother
    have hof := List.find?_some hold
    rw [Card.isOf, Bool.and_eq_true, beq_iff_eq, beq_iff_eq] at hof
    rw [hof.2]
    exact hnew
  · intro c hc
    rcases mem_record h.keys hc with ⟨hmem, -⟩ | ⟨-, hchat, hmessage, -⟩
    · rw [Function.update_of_ne (hother c hmem)]
      exact h.sent c hmem
    · rw [hchat, hmessage, Function.update_self]
      simp
  · intro c hc hterm
    rcases mem_record h.keys hc with ⟨hmem, -⟩ | ⟨-, hchat, hmessage, hstatus⟩
    · rw [Function.update_of_ne (hother c hmem)]
      exact h.frozen c hmem hterm
    · rw [hstatus] at hterm
      rw [hchat, hmessage, Function.update_self, keyboard_of_terminal hterm]

/-! ## Levels -/

/-- Fewer snapshots. -/
theorem Levels.sublist {snapshots' : List Trade} (h : Levels cards snapshots trades)
    (hsub : snapshots'.Sublist snapshots) : Levels cards snapshots' trades := by
  refine ⟨h.ordered.sublist hsub, ?_, ?_, h.notAhead⟩
  · exact fun c hc t ht => h.behind c hc t (hsub.subset ht)
  · exact fun t ht => h.reached t (hsub.subset ht)

/-- The row a report left is at least as far as everything before it. -/
theorem Levels.snapshot {row : Trade} (h : Levels cards snapshots trades) (hrow : row ∈ trades)
    (hids : (trades.map Trade.id).Nodup) : Levels cards (snapshots ++ [row]) trades := by
  have hle : ∀ id n, Reached trades id n → id = row.id → n ≤ rank row.status := by
    intro id n hreached hid
    obtain ⟨r, hr, hrid, hn⟩ := hreached
    have hsame : r = row := List.inj_on_of_nodup_map hids hr hrow (hrid.trans hid)
    rw [← hsame]
    exact hn
  refine ⟨?_, ?_, ?_, h.notAhead⟩
  · rw [List.pairwise_append]
    refine ⟨h.ordered, List.pairwise_singleton _ _, ?_⟩
    intro t ht row' hrow' hid
    rw [List.mem_singleton] at hrow'
    subst hrow'
    exact hle t.id _ (h.reached t ht) hid
  · intro c hc t ht hid
    rcases List.mem_append.mp ht with ht | ht
    · exact h.behind c hc t ht hid
    · rw [List.mem_singleton] at ht
      subst ht
      exact hle c.tradeId _ (h.notAhead c hc) hid.symm
  · intro t ht
    rcases List.mem_append.mp ht with ht | ht
    · exact h.reached t ht
    · rw [List.mem_singleton] at ht
      subst ht
      exact ⟨t, hrow, rfl, le_refl _⟩

theorem Levels.rise {trades' : List Trade} (h : Levels cards snapshots trades)
    (hrise : ∀ id n, Reached trades id n → Reached trades' id n) :
    Levels cards snapshots trades' :=
  ⟨h.ordered, h.behind, fun t ht => hrise _ _ (h.reached t ht),
    fun c hc => hrise _ _ (h.notAhead c hc)⟩

/-- Cards that are as they were, or at the status of the first snapshot of their trade. -/
theorem Levels.apply {cards' : List Card} (h : Levels cards (trade :: snapshots) trades)
    (hcards : ∀ c ∈ cards', (∃ c' ∈ cards, c'.tradeId = c.tradeId ∧ c'.status = c.status) ∨
      (c.tradeId = trade.id ∧ c.status = trade.status)) :
    Levels cards' (trade :: snapshots) trades := by
  refine ⟨h.ordered, ?_, h.reached, ?_⟩
  · intro c hc t ht hid
    rcases hcards c hc with ⟨c', hc', htrade, hstatus⟩ | ⟨htrade, hstatus⟩
    · rw [← hstatus]
      exact h.behind c' hc' t ht (hid.trans htrade.symm)
    · rw [hstatus]
      rcases List.mem_cons.mp ht with rfl | ht
      · exact le_refl _
      · exact (List.pairwise_cons.mp h.ordered).1 t ht (htrade.symm.trans hid.symm)
  · intro c hc
    rcases hcards c hc with ⟨c', hc', htrade, hstatus⟩ | ⟨htrade, hstatus⟩
    · rw [← htrade, ← hstatus]
      exact h.notAhead c' hc'
    · rw [htrade, hstatus]
      exact h.reached trade List.mem_cons_self

end Table

/-! ## Steps -/

section Steps

variable {s : State} {trade : Trade} {card c : Card} {cards : List Card} {chats : List String}

theorem ids_nodup (store : Trades.Store) : (store.trades.map Trade.id).Nodup := by
  have hok := store.trades_ok
  simp only [Trades.tradesOk, Bool.and_eq_true, decide_eq_true_eq] at hok
  exact hok.1.2

theorem Inv.report (h : Inv s) (a : Attempt) : Inv (s.report a) := by
  rcases report_cases s a with heq | ⟨store, handing, hnone, heq, hrise, hmem⟩
  · rw [heq]
    exact h
  · rw [heq]
    refine ⟨h.table, ?_, h.job, h.edits⟩
    have hlevels := h.levels.rise hrise
    simp only [State.snapshots, hnone, Option.toList_none, List.append_nil] at hlevels ⊢
    cases handing with
    | none => simpa using hlevels
    | some row => exact hlevels.snapshot (hmem row rfl) (ids_nodup store)

theorem Inv.handOver (h : Inv s) : Inv s.handOver := by
  unfold State.handOver
  split
  · next trade hsome =>
      refine ⟨h.table, ?_, h.job, h.edits⟩
      have hlevels := h.levels
      simp only [State.snapshots, hsome, Option.toList_some, Option.toList_none,
        List.append_nil] at hlevels ⊢
      split
      · rw [← List.append_assoc]
        exact hlevels
      · exact hlevels.sublist (List.sublist_append_left _ _)
  · exact h

theorem Inv.take (h : Inv s) (subscribers : List String) : Inv (s.take subscribers) := by
  unfold State.take
  split
  · next trade queue hjob hqueue =>
      refine ⟨h.table, ?_, ?_, h.edits⟩
      · have hlevels := h.levels
        simp only [State.snapshots, hjob, hqueue, Option.map_none, Option.toList_none,
          List.nil_append] at hlevels
        simpa [State.snapshots] using hlevels
      · intro j hj
        cases hj
        have hsub : (listForTrade trade.id s.cards).Sublist s.cards := List.filter_sublist
        refine ⟨fun c hc => ⟨hsub.subset hc, ?_⟩, h.table.ids.sublist (hsub.map _)⟩
        simpa using (List.mem_filter.mp hc).2
  · exact h

/-- A card a job looks at is in the table as it was listed. -/
theorem Inv.recorded (h : Inv s) (hcard : card ∈ s.cards) :
    (s.cards.find? fun c => c.id == card.id).map Card.status = some card.status := by
  cases hfind : s.cards.find? fun c => c.id == card.id with
  | none => exact absurd (List.find?_eq_none.mp hfind card hcard) (by simp)
  | some c =>
      have hid : c.id = card.id := by simpa using List.find?_some hfind
      rw [eq_of_id h.table.ids (List.mem_of_find?_eq_some hfind) hcard hid]
      rfl

/-- Cards that are not touched are still as they were listed. -/
theorem jobOk_rest {cards' rest : List Card}
    (h : JobOk cards ⟨trade, card :: rest, chats⟩)
    (hkeep : ∀ c ∈ cards, c.id ≠ card.id → c ∈ cards') : JobOk cards' ⟨trade, rest, chats⟩ := by
  obtain ⟨hall, hids⟩ := h
  rw [List.map_cons, List.nodup_cons] at hids
  refine ⟨fun c hc => ?_, hids.2⟩
  obtain ⟨hmem, htrade⟩ := hall c (List.mem_cons_of_mem _ hc)
  refine ⟨hkeep c hmem fun hid => ?_, htrade⟩
  exact hids.1 (hid ▸ List.mem_map_of_mem hc)

/-- The cards after a refresh: as they were, or the card at the status of the snapshot. -/
theorem mem_refresh {outcome : EditOutcome} (h : c ∈ (s.refresh trade card outcome).cards) :
    c ∈ s.cards ∨ ∃ c' ∈ s.cards, c'.id = card.id ∧ c = { c' with status := trade.status } := by
  unfold State.refresh at h
  split at h
  · exact .inl h
  · cases outcome with
    | ok => exact (mem_markStatus h).imp_left And.left
    | missing => exact .inl (List.mem_filter.mp h).1
    | failed => exact .inl h

/-! A refresh and a post touch cards, messages and the log of edits only. -/

@[simp] theorem refresh_store (outcome : EditOutcome) :
    (s.refresh trade card outcome).store = s.store := by
  unfold State.refresh
  split
  · rfl
  · cases outcome <;> rfl

@[simp] theorem refresh_queue (outcome : EditOutcome) :
    (s.refresh trade card outcome).queue = s.queue := by
  unfold State.refresh
  split
  · rfl
  · cases outcome <;> rfl

@[simp] theorem refresh_handing (outcome : EditOutcome) :
    (s.refresh trade card outcome).handing = s.handing := by
  unfold State.refresh
  split
  · rfl
  · cases outcome <;> rfl

@[simp] theorem post_store (chat : String) (messageId : Option Int) (row : RowId) :
    (s.post trade chat messageId row).store = s.store := by
  cases messageId <;> rfl

@[simp] theorem post_queue (chat : String) (messageId : Option Int) (row : RowId) :
    (s.post trade chat messageId row).queue = s.queue := by
  cases messageId <;> rfl

@[simp] theorem post_handing (chat : String) (messageId : Option Int) (row : RowId) :
    (s.post trade chat messageId row).handing = s.handing := by
  cases messageId <;> rfl

theorem Inv.refresh {rest : List Card} (h : Inv s) (outcome : EditOutcome)
    (hjob : s.job = some ⟨trade, card :: rest, chats⟩) :
    Inv { s.refresh trade card outcome with job := some ⟨trade, rest, chats⟩ } := by
  have hok := h.job _ hjob
  obtain ⟨hcard, htrade⟩ := hok.1 card List.mem_cons_self
  have hsnapshots : s.snapshots = trade :: (s.queue ++ s.handing.toList) := by
    simp [State.snapshots, hjob]
  have hlevels := h.levels
  rw [hsnapshots] at hlevels
  have hcards : ∀ c ∈ (s.refresh trade card outcome).cards,
      (∃ c' ∈ s.cards, c'.tradeId = c.tradeId ∧ c'.status = c.status) ∨
        (c.tradeId = trade.id ∧ c.status = trade.status) := by
    intro c hc
    rcases mem_refresh hc with hmem | ⟨c', hmem, hid, rfl⟩
    · exact .inl ⟨c, hmem, rfl, rfl⟩
    · have hsame := eq_of_id h.table.ids hmem hcard hid
      subst hsame
      exact .inr ⟨htrade, rfl⟩
  have hlevels' := hlevels.apply hcards
  have hedits : card.status ≠ trade.status → ∀ e ∈ s.edits ++
      [⟨(s.cards.find? fun c => c.id == card.id).map Card.status, trade.status⟩],
      e.recorded ≠ some e.applied := by
    intro hne e he
    rcases List.mem_append.mp he with he | he
    · exact h.edits e he
    · rw [List.mem_singleton] at he
      subst he
      rw [h.recorded hcard]
      exact fun heq => hne (Option.some.inj heq)
  have hkeep : ∀ c ∈ s.cards, c.id ≠ card.id → c ∈ (s.refresh trade card outcome).cards := by
    intro c hc hid
    unfold State.refresh
    split
    · exact hc
    · cases outcome with
      | ok => exact List.mem_map.mpr ⟨c, hc, if_neg hid⟩
      | missing => exact List.mem_filter.mpr ⟨hc, by simpa using hid⟩
      | failed => exact hc
  refine ⟨?_, ?_, ?_, ?_⟩
  · unfold State.refresh
    split
    · exact h.table
    · cases outcome with
      | ok => exact h.table.mark hcard
      | missing => exact h.table.delete
      | failed => exact h.table
  · have hsame : State.snapshots { s.refresh trade card outcome with
        job := some ⟨trade, rest, chats⟩ } = trade :: (s.queue ++ s.handing.toList) := by
      simp [State.snapshots]
    rw [hsame]
    simpa only [refresh_store] using hlevels'
  · intro j hj
    cases hj
    exact jobOk_rest hok hkeep
  · unfold State.refresh
    split
    · exact h.edits
    · next hne =>
        cases outcome with
        | ok => exact hedits hne
        | missing => exact hedits hne
        | failed => exact hedits hne

theorem Inv.post {chat : String} {messageId : Option Int} {row : RowId} (h : Inv s)
    (hjob : s.job = some ⟨trade, [], chat :: chats⟩)
    (hcan : messageId.all (fun m => s.canPost chat m row) = true) :
    Inv { s.post trade chat messageId row with job := some ⟨trade, [], chats⟩ } := by
  have hsnapshots : s.snapshots = trade :: (s.queue ++ s.handing.toList) := by
    simp [State.snapshots, hjob]
  have hlevels := h.levels
  rw [hsnapshots] at hlevels
  have hjobOk : ∀ cards : List Card, JobOk cards ⟨trade, [], chats⟩ := by
    intro cards
    refine ⟨fun c hc => ?_, List.nodup_nil⟩
    cases hc
  cases messageId with
  | none =>
      refine ⟨h.table, hlevels, ?_, h.edits⟩
      intro j hj
      cases hj
      exact hjobOk _
  | some m =>
      simp only [Option.all_some, State.canPost, Bool.and_eq_true, Option.isNone_iff_eq_none,
        List.all_eq_true, bne_iff_ne] at hcan
      refine ⟨h.table.record hcan.1 hcan.2, hlevels.apply ?_, ?_, h.edits⟩
      · intro c hc
        rcases mem_record h.table.keys hc with ⟨hmem, -⟩ | ⟨htrade, -, -, hstatus⟩
        · exact .inl ⟨c, hmem, rfl, rfl⟩
        · exact .inr ⟨htrade, hstatus⟩
      · intro j hj
        cases hj
        exact hjobOk _

theorem Inv.step (h : Inv s) (e : Event) : Inv (s.step e) := by
  cases e with
  | report a => exact h.report a
  | handOver => exact h.handOver
  | take subscribers => exact h.take subscribers
  | refresh outcome =>
      simp only [State.step]
      split
      · next hjob => exact h.refresh outcome hjob
      · exact h
  | post messageId row =>
      simp only [State.step]
      split
      · next hjob =>
          split
          · next hcan => exact h.post hjob hcan
          · exact h
      · exact h
  | finish =>
      simp only [State.step]
      split
      · next trade hjob =>
          refine ⟨h.table, h.levels.sublist ?_, ?_, h.edits⟩
          · simp [State.snapshots, hjob]
          · intro j hj
            cases hj
      · exact h
  | accounts rows =>
      simp only [State.step]
      split
      · next store hcommit =>
          refine ⟨h.table, ?_, h.job, h.edits⟩
          have hlevels := h.levels
          rw [← Trades.commit_trades hcommit] at hlevels
          exact hlevels
      · exact h
  | restart =>
      refine ⟨h.table, h.levels.sublist ?_, ?_, h.edits⟩
      · simp [State.step, State.snapshots]
      · intro j hj
        cases hj

theorem inv_start (store : Trades.Store) : Inv (State.start store) := by
  refine ⟨⟨List.nodup_nil, List.nodup_nil, List.nodup_nil, ?_, ?_⟩, ⟨List.Pairwise.nil, ?_, ?_, ?_⟩,
    ?_, ?_⟩
  all_goals
    intro x hx
    cases hx

theorem Inv.run (h : Inv s) (es : List Event) : Inv (s.run es) := by
  induction es generalizing s with
  | nil => exact h
  | cons e es ih => exact ih (h.step e)

end Steps

/-! ## Later cards -/

/-- Whatever is known of the trade is at this rank or further: its card in this chat, the
snapshots that are still to be applied, and its row. -/
structure Above (tradeId : RowId) (chatId : String) (n : Int) (s : State) : Prop where
  cards : ∀ c ∈ s.cards, c.tradeId = tradeId → c.chatId = chatId → n ≤ rank c.status
  snapshots : ∀ t ∈ s.snapshots, t.id = tradeId → n ≤ rank t.status
  row : Reached s.store.trades tradeId n

section Later

variable {s : State} {tradeId : RowId} {chatId : String} {n : Int}

theorem mem_snapshots {t : Trade} : t ∈ s.snapshots ↔
    (∃ j, s.job = some j ∧ j.trade = t) ∨ t ∈ s.queue ∨ s.handing = some t := by
  simp only [State.snapshots, List.append_assoc, List.mem_append, Option.mem_toList,
    Option.map_eq_some_iff]

/-- The cards a step leaves are those of before, or at the status of the snapshot that is
applied. -/
theorem step_cards (h : Inv s) (e : Event) {c : Card} (hc : c ∈ (s.step e).cards) :
    c ∈ s.cards ∨ ∃ t ∈ s.snapshots, t.id = c.tradeId ∧ t.status = c.status := by
  cases e with
  | report a =>
      rcases report_cases s a with heq | ⟨store, handing, -, heq, -, -⟩
      · rw [State.step, heq] at hc
        exact .inl hc
      · rw [State.step, heq] at hc
        exact .inl hc
  | handOver =>
      simp only [State.step, State.handOver] at hc
      split at hc <;> exact .inl hc
  | take subscribers =>
      simp only [State.step, State.take] at hc
      split at hc <;> exact .inl hc
  | refresh outcome =>
      simp only [State.step] at hc
      split at hc
      · next trade card rest chats hjob =>
          rcases mem_refresh hc with hmem | ⟨c', hmem, hid, rfl⟩
          · exact .inl hmem
          · obtain ⟨hcard, htrade⟩ := (h.job _ hjob).1 card List.mem_cons_self
            have hsame := eq_of_id h.table.ids hmem hcard hid
            subst hsame
            exact .inr ⟨trade, mem_snapshots.mpr (.inl ⟨_, hjob, rfl⟩), htrade.symm, rfl⟩
      · exact .inl hc
  | post messageId row =>
      simp only [State.step] at hc
      split at hc
      · next trade chat chats hjob =>
          split at hc
          · cases messageId with
            | none => exact .inl hc
            | some m =>
                rcases mem_record h.table.keys hc with ⟨hmem, -⟩ | ⟨htrade, -, -, hstatus⟩
                · exact .inl hmem
                · exact .inr ⟨trade, mem_snapshots.mpr (.inl ⟨_, hjob, rfl⟩), htrade.symm,
                    hstatus.symm⟩
          · exact .inl hc
      · exact .inl hc
  | finish =>
      simp only [State.step] at hc
      split at hc <;> exact .inl hc
  | accounts rows =>
      simp only [State.step] at hc
      split at hc <;> exact .inl hc
  | restart => exact .inl hc

/-- Rows only rise. -/
theorem step_reached (e : Event) (h : Reached s.store.trades tradeId n) :
    Reached (s.step e).store.trades tradeId n := by
  cases e with
  | report a =>
      rcases report_cases s a with heq | ⟨store, handing, -, heq, hrise, -⟩
      · rw [State.step, heq]
        exact h
      · rw [State.step, heq]
        exact hrise _ _ h
  | handOver =>
      simp only [State.step, State.handOver]
      split <;> exact h
  | take subscribers =>
      simp only [State.step, State.take]
      split <;> exact h
  | refresh outcome =>
      simp only [State.step]
      split
      · rw [refresh_store]
        exact h
      · exact h
  | post messageId row =>
      simp only [State.step]
      split
      · split
        · rw [post_store]
          exact h
        · exact h
      · exact h
  | finish =>
      simp only [State.step]
      split <;> exact h
  | accounts rows =>
      simp only [State.step]
      split
      · next store hcommit =>
          rw [Trades.commit_trades hcommit]
          exact h
      · exact h
  | restart => exact h

/-- A step that goes on with its job, or ends it, has no new snapshot. -/
theorem mem_snapshots_of {s' : State} {t : Trade} (ht : t ∈ s'.snapshots)
    (hjob : ∀ j, s'.job = some j → ∃ j', s.job = some j' ∧ j'.trade = j.trade)
    (hqueue : s'.queue = s.queue) (hhanding : s'.handing = s.handing) : t ∈ s.snapshots := by
  rcases mem_snapshots.mp ht with ⟨j, hj, rfl⟩ | hmem | hmem
  · exact mem_snapshots.mpr (.inl (hjob j hj))
  · exact mem_snapshots.mpr (.inr (.inl (hqueue ▸ hmem)))
  · exact mem_snapshots.mpr (.inr (.inr (hhanding ▸ hmem)))

/-- A snapshot is one of before, or the row a report has just left. -/
theorem step_snapshots (e : Event) {t : Trade} (ht : t ∈ (s.step e).snapshots) :
    t ∈ s.snapshots ∨ t ∈ (s.step e).store.trades := by
  cases e with
  | report a =>
      rcases report_cases s a with heq | ⟨store, handing, -, heq, -, hmem⟩
      · rw [State.step, heq] at ht
        exact .inl ht
      · rw [State.step, heq] at ht ⊢
        rcases mem_snapshots.mp ht with hjob | hqueue | hhanding
        · exact .inl (mem_snapshots.mpr (.inl hjob))
        · exact .inl (mem_snapshots.mpr (.inr (.inl hqueue)))
        · exact .inr (hmem t hhanding)
  | handOver =>
      left
      simp only [State.step, State.handOver] at ht
      split at ht
      · next trade hsome =>
          rcases mem_snapshots.mp ht with hjob | hqueue | hhanding
          · exact mem_snapshots.mpr (.inl hjob)
          · refine mem_snapshots.mpr (.inr ?_)
            simp only at hqueue
            split at hqueue
            · rcases List.mem_append.mp hqueue with hqueue | hlast
              · exact .inl hqueue
              · rw [List.mem_singleton] at hlast
                rw [hlast]
                exact .inr hsome
            · exact .inl hqueue
          · cases hhanding
      · exact ht
  | take subscribers =>
      left
      simp only [State.step, State.take] at ht
      split at ht
      · next trade queue hjob hqueue =>
          rcases mem_snapshots.mp ht with ⟨j, hj, rfl⟩ | hmem | hhanding
          · cases hj
            refine mem_snapshots.mpr (.inr (.inl ?_))
            rw [hqueue]
            exact List.mem_cons_self
          · refine mem_snapshots.mpr (.inr (.inl ?_))
            rw [hqueue]
            exact List.mem_cons_of_mem _ hmem
          · exact mem_snapshots.mpr (.inr (.inr hhanding))
      · exact ht
  | refresh outcome =>
      left
      simp only [State.step] at ht
      split at ht
      · next trade card rest chats hjob =>
          refine mem_snapshots_of ht (fun j hj => ?_) (refresh_queue outcome)
            (refresh_handing outcome)
          cases hj
          exact ⟨_, hjob, rfl⟩
      · exact ht
  | post messageId row =>
      left
      simp only [State.step] at ht
      split at ht
      · next trade chat chats hjob =>
          split at ht
          · refine mem_snapshots_of ht (fun j hj => ?_) (post_queue chat messageId row)
              (post_handing chat messageId row)
            cases hj
            exact ⟨_, hjob, rfl⟩
          · exact ht
      · exact ht
  | finish =>
      left
      simp only [State.step] at ht
      split at ht
      · exact mem_snapshots_of ht (fun j hj => by cases hj) rfl rfl
      · exact ht
  | accounts rows =>
      left
      simp only [State.step] at ht
      split at ht <;> exact ht
  | restart =>
      rcases mem_snapshots.mp ht with ⟨j, hj, -⟩ | hmem | hhanding
      · cases hj
      · cases hmem
      · cases hhanding

theorem Above.step (h : Above tradeId chatId n s) (hinv : Inv s) (e : Event) :
    Above tradeId chatId n (s.step e) := by
  have hrow := step_reached e h.row
  refine ⟨?_, ?_, hrow⟩
  · intro c hc htrade hchat
    rcases step_cards hinv e hc with hmem | ⟨t, ht, hid, hstatus⟩
    · exact h.cards c hmem htrade hchat
    · rw [← hstatus]
      exact h.snapshots t ht (hid.trans htrade)
  · intro t ht hid
    rcases step_snapshots e ht with hmem | hmem
    · exact h.snapshots t hmem hid
    · obtain ⟨r, hr, hrid, hn⟩ := hrow
      rw [List.inj_on_of_nodup_map (ids_nodup _) hmem hr (hid.trans hrid.symm)]
      exact hn

theorem Above.run (h : Above tradeId chatId n s) (hinv : Inv s) (es : List Event) :
    Above tradeId chatId n (s.run es) := by
  induction es generalizing s with
  | nil => exact h
  | cons e es ih => exact ih (h.step hinv e) (hinv.step e)

/-- A card bounds what comes after it. -/
theorem above_of_card (h : Inv s) {c : Card} (hc : c ∈ s.cards) :
    Above c.tradeId c.chatId (rank c.status) s := by
  refine ⟨?_, ?_, h.levels.notAhead c hc⟩
  · intro c' hc' htrade hchat
    have hsame : c' = c := eq_of_id h.table.keys hc' hc (by rw [htrade, hchat])
    rw [hsame]
  · exact fun t ht hid => h.levels.behind c hc t ht hid

end Later

/-- The cards of a state, and of one that comes after it. -/
structure TracksForwards (s later : State) : Prop where
  one : ∀ c ∈ s.cards, ∀ c' ∈ s.cards, c.tradeId = c'.tradeId → c.chatId = c'.chatId → c = c'
  forwards : ∀ c ∈ s.cards, ∀ c' ∈ later.cards, c.tradeId = c'.tradeId → c.chatId = c'.chatId →
    rank c.status ≤ rank c'.status
  notAhead : ∀ c ∈ s.cards, ∃ row ∈ s.store.trades, row.id = c.tradeId ∧
    rank c.status ≤ rank row.status
  noRepeat : ∀ e ∈ s.edits, e.recorded ≠ some e.applied
  frozen : ∀ c ∈ s.cards, isTerminal c.status = true →
    s.shown (c.chatId, c.messageId) = some none

/-- Whatever reports arrive, whoever subscribes and however sends and edits go: there is one card
for each trade and chat, its status never goes back and is never ahead of the row, no card is
edited to the status it is recorded at, and one at a terminal status has lost its buttons. -/
theorem cards_trackForwards (store : Trades.Store) (es es' : List Event) :
    TracksForwards ((State.start store).run es) (((State.start store).run es).run es') := by
  have h : Inv ((State.start store).run es) := (inv_start store).run es
  refine ⟨?_, ?_, h.levels.notAhead, h.edits, h.table.frozen⟩
  · intro c hc c' hc' htrade hchat
    exact eq_of_id h.table.keys hc hc' (by rw [htrade, hchat])
  · intro c hc c' hc' htrade hchat
    exact ((above_of_card h hc).run h es').cards c' hc' htrade.symm hchat.symm

end TradingBroker.Cards
