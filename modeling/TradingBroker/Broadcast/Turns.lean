import TradingBroker.Broadcast.Interleaved

/-!
# Dispatchers that take turns

When a pass edits or posts by a row that stands, no chat gets a second message or
an older body. A row stands if the passes take turns (`TakesTurns`): a pass that
begins finds no other at work, what it writes of a chat takes effect, and it is
not killed between a Telegram call and the write that records it. Telegram may
refuse what it likes, and the other calls to the database may fail.

In between the row lags behind the chat, so the invariant (`Board.Turn`) holds the
chats against the rows as the one pass at work is going to leave them
(`Phase.written`), and asks of that pass that it goes by the stored rows in every
chat it has not finished with.

Without such a condition a row that another dispatcher is about to write is enough
for a second copy (`not_chatsNeverRegress`).
-/

namespace TradingBroker.Broadcast

open TradingBroker.Lib

variable {D : Type} {cfg : Config}

/-! ## A chat and its row -/

/-- A chat shows no message but the row's, and no body newer than the row. -/
def RowKnows (raw : String) (row : Option BroadcastChat) (trace : List (Entry D)) : Prop :=
  ∀ m ∈ live raw trace, (held row).1 = some m.1 ∧ ∀ seq ∈ m.2, seq ≤ (held row).2

/-- The rows a pass has loaded are the stored ones, as far as it still goes by them, and
a chat whose message it found missing shows none. -/
def Phase.Current (cycle : Option Cycle) (trace : List (Entry D)) : Phase → Prop
  | .loaded _ view => ∃ c, cycle = some c ∧ view.chats = c.chats
  | .delivering p _ (t :: todo) stage =>
      ∃ c, cycle = some c ∧ ((t :: todo).map Target.rawId).Nodup ∧
        (∀ t' ∈ t :: todo, chat? p.view.chats t'.rawId = chat? c.chats t'.rawId) ∧
        (stage = .missing → live t.rawId trace = [])
  | _ => True

theorem RowKnows.of_eq {raw : String} {row row' : Option BroadcastChat} {t t' : List (Entry D)}
    (h : RowKnows raw row t) (hlive : live raw t' = live raw t) (hheld : held row' = held row) :
    RowKnows raw row' t' := by
  unfold RowKnows
  rw [hlive, hheld]
  exact h

theorem held_upsertChat {u : ChatUpsert} {raw : String} (h : u.chatId = raw) (c : Cycle) :
    held (chat? (c.upsertChat u).chats raw) =
      (u.messageId.or (held (chat? c.chats raw)).1,
        max (held (chat? c.chats raw)).2 (u.deliveredSeq.getD 0)) := by
  rw [chat?_upsertChat, if_pos h.symm]
  exact Prod.ext (store_messageId u _) (store_deliveredSeq u _)

theorem held_upsertChat_other {u : ChatUpsert} {raw : String} (h : u.chatId ≠ raw) (c : Cycle) :
    held (chat? (c.upsertChat u).chats raw) = held (chat? c.chats raw) := by
  rw [chat?_upsertChat, if_neg h.symm]

/-- A write without a message says nothing new. -/
theorem held_noted {u : ChatUpsert} (hid : u.messageId = none) (hseq : u.deliveredSeq = none)
    (c : Cycle) (raw : String) :
    held (chat? (c.upsertChat u).chats raw) = held (chat? c.chats raw) := by
  by_cases hraw : u.chatId = raw
  · rw [held_upsertChat hraw, hid, hseq, Option.none_or]
    exact Prod.ext rfl (Nat.max_zero _)
  · exact held_upsertChat_other hraw c

/-- Nor do notices. -/
theorem held_edited (d : Delivery) (id : MessageId) (n n' : Nat) (c : Cycle) (raw : String) :
    held (chat? (c.upsertChat (d.edited id n)).chats raw) =
      held (chat? (c.upsertChat (d.edited id n')).chats raw) := by
  by_cases hraw : d.chat.rawId = raw
  · have heq : ∀ k, held (chat? (c.upsertChat (d.edited id k)).chats raw) =
        (some id, max (held (chat? c.chats raw)).2 d.body.seq) := fun k =>
      held_upsertChat (show (d.edited id k).chatId = raw from hraw) c
    rw [heq, heq]
  · have heq : ∀ k, held (chat? (c.upsertChat (d.edited id k)).chats raw) =
        held (chat? c.chats raw) := fun k =>
      held_upsertChat_other (show (d.edited id k).chatId ≠ raw from hraw) c
    rw [heq, heq]

/-- Where a pass posts, the chat shows nothing. -/
theorem live_eq_nil {p : Pass} {ok : Bool} {t : Target} {todo : List Target} {stage : Stage}
    {c : Cycle} {tr : List (Entry D)}
    (hstage : stage = .deliver ∧ (p.delivery cfg t).messageId = none ∨ stage = .missing)
    (hcur : (Phase.delivering p ok (t :: todo) stage).Current (some c) tr)
    (h : RowKnows t.rawId (chat? c.chats t.rawId) tr) : live t.rawId tr = [] := by
  obtain ⟨c', hc, -, hrows, hmissing⟩ := hcur
  cases hc
  rcases hstage with ⟨-, hnone⟩ | hstage
  · refine List.eq_nil_iff_forall_not_mem.2 fun m hm => ?_
    have hid : (chat? c.chats t.rawId).bind BroadcastChat.messageId = some m.1 := (h m hm).1
    rw [← hrows t (List.mem_cons_self ..)] at hid
    rw [show (chat? p.view.chats t.rawId).bind BroadcastChat.messageId = none from hnone] at hid
    cases hid
  · exact hmissing hstage

/-! ## A pass that works alone -/

section
variable {i : Party D} {c : Cycle} {tr : List (Entry D)} {p : Pass} {ok : Bool} {t : Target}
  {todo : List Target}

/-- The message of the row shows the body the row is going to say it shows. -/
theorem rowKnows_edited {messageId : MessageId} {n : Nat} {raw : String}
    (hid : (held (chat? c.chats t.rawId)).1 = some messageId)
    (h : RowKnows raw (chat? c.chats raw) tr) :
    RowKnows raw (chat? (c.upsertChat ((p.delivery cfg t).edited messageId n)).chats raw)
      (.call i (.editMessage t.chat messageId (p.delivery cfg t).body) .ok :: tr) := by
  by_cases hraw : t.rawId = raw
  · subst hraw
    have hheld : held (chat? (c.upsertChat ((p.delivery cfg t).edited messageId n)).chats t.rawId) =
        (some messageId, max (held (chat? c.chats t.rawId)).2 (p.delivery cfg t).body.seq) :=
      held_upsertChat rfl c
    unfold RowKnows
    rw [hheld, show t.rawId = t.chat.rawId from rfl, live_edit_ok]
    intro m hm
    obtain ⟨m₀, hm₀, rfl⟩ := List.mem_map.1 hm
    obtain ⟨hm₀id, hseqs⟩ := h m₀ hm₀
    rw [hid] at hm₀id
    cases hm₀id
    rw [if_pos rfl]
    refine ⟨rfl, fun seq hseq => ?_⟩
    rcases List.mem_cons.1 hseq with rfl | hseq
    · exact Nat.le_max_right _ _
    · exact Nat.le_trans (hseqs seq hseq) (Nat.le_max_left _ _)
  · exact h.of_eq (live_edit_other hraw tr) (held_upsertChat_other hraw c)

/-- So does one that was posted where there was none. -/
theorem rowKnows_posted {r : SendResult} {raw : String}
    (hr : ∀ id, r.messageId = some id → r.outcome = .ok)
    (hnone : live t.rawId tr = []) (h : RowKnows raw (chat? c.chats raw) tr) :
    RowKnows raw (chat? (c.upsertChat ((p.delivery cfg t).sent r)).chats raw)
      (.call i (.sendMessage t.chat (p.delivery cfg t).body) r :: tr) := by
  by_cases hraw : t.rawId = raw
  · subst hraw
    intro m hm
    rcases @live_send D i t.chat (p.delivery cfg t).body r t.rawId tr with heq | ⟨-, id, hid, heq⟩
    · rw [heq, hnone] at hm
      cases hm
    · rw [heq, hnone] at hm
      have hchat : ((p.delivery cfg t).sent r).chatId = t.rawId := sent_chatId _ r
      rw [List.mem_singleton.1 hm, held_upsertChat hchat,
        sent_deliveredSeq (fun _ => by rw [hid]; exact Option.some_ne_none id)
          (by rw [hr id hid]; exact SendOutcome.noConfusion)]
      have hsent : ((p.delivery cfg t).sent r).messageId = some id := by
        rw [Delivery.sent, if_neg (by rw [hr id hid]; exact SendOutcome.noConfusion), hid]
        rfl
      rw [hsent]
      refine ⟨rfl, fun seq hseq => ?_⟩
      rw [List.mem_singleton.1 hseq]
      exact Nat.le_max_right _ _
  · refine h.of_eq ?_ (held_upsertChat_other ?_ c)
    · rw [live]
      exact if_neg fun hand => hraw hand.1
    · rw [sent_chatId]
      exact hraw

theorem current_next {c : Cycle} : ∀ {todo : List Target}, (todo.map Target.rawId).Nodup →
    (∀ t' ∈ todo, chat? p.view.chats t'.rawId = chat? c.chats t'.rawId) →
    (Phase.next cfg p ok todo).Current (some c) tr := by
  intro todo
  induction todo with
  | nil => exact fun _ _ => trivial
  | cons t' todo ih =>
      intro hnodup hrows
      cases hup : (p.delivery cfg t').upToDate with
      | true =>
          rw [Phase.next_skip cfg hup]
          exact ih (List.nodup_cons.1 hnodup).2 fun u hu => hrows u (List.mem_cons_of_mem _ hu)
      | false =>
          rw [Phase.next_stop cfg hup]
          exact ⟨c, rfl, hnodup, hrows, nofun⟩

/-- After a row was written the pass goes on to the next chat. -/
theorem current_upsert {stage : Stage} {u : ChatUpsert} {r ok' : Bool} {cycle : Option Cycle}
    {write : Cycle → Cycle} (hwrite : write = Cycle.upsertChat u) (hu : u.chatId = t.rawId)
    (h : (Phase.delivering p ok (t :: todo) stage).Current cycle tr) :
    (Phase.next cfg p ok' todo).Current (cycle.map write) (.call i (.upsertChat u) r :: tr) := by
  obtain ⟨c, rfl, hnodup, hrows, -⟩ := h
  rw [hwrite]
  exact current_next (List.nodup_cons.1 hnodup).2 (rows_upsertChat hu hnodup hrows)

/-- The message that an edit found missing was the only one. -/
theorem live_missing {messageId : MessageId}
    (hid : (held (chat? c.chats t.rawId)).1 = some messageId)
    (h : RowKnows t.rawId (chat? c.chats t.rawId) tr) :
    live t.rawId (.call i (.editMessage t.chat messageId (p.delivery cfg t).body) .missing :: tr) =
      [] := by
  rw [show t.rawId = t.chat.rawId from rfl, live_edit_missing, List.filter_eq_nil_iff]
  intro m hm hne
  have hheld := (h m hm).1
  rw [hid] at hheld
  exact of_decide_eq_true hne (Option.some.inj hheld).symm

end

/-- The row of the chat at hand, as the pass has loaded it. -/
theorem held_of_current {p : Pass} {ok : Bool} {t : Target} {todo : List Target} {stage : Stage}
    {c : Cycle} {tr : List (Entry D)} {messageId : MessageId}
    (hid : (p.delivery cfg t).messageId = some messageId)
    (h : (Phase.delivering p ok (t :: todo) stage).Current (some c) tr) :
    (held (chat? c.chats t.rawId)).1 = some messageId := by
  obtain ⟨c', hc, -, hrows, -⟩ := h
  cases hc
  show (chat? c.chats t.rawId).bind BroadcastChat.messageId = some messageId
  rw [← hrows t (List.mem_cons_self ..)]
  exact hid

theorem Moves.current {i : Party D} {x : Choice} {s : Board D} {f f' : Phase} {c : Call}
    {r : c.Result} (hm : Moves cfg f c r f') (hr : r = respond cfg x s c)
    (hsettings : c = .getMany → cfg.Distinct (respond cfg x s .getMany))
    (hknows : ∀ d, s.cycle = some d → ∀ raw,
      RowKnows raw (chat? (f.written cfg d).chats raw) s.trace)
    (h : f.Current s.cycle s.trace) :
    f'.Current (s.cycle.map (c.write cfg s.now)) (.call i c r :: s.trace) := by
  cases hm with
  | claim entries => split <;> trivial
  | load entries view =>
      simp only [respond] at hr
      split at hr
      · obtain ⟨d, hd, rfl⟩ := Option.map_eq_some_iff.1 hr.symm
        rw [hd]
        exact ⟨d, rfl, rfl⟩
      · cases hr
  | settings entries view values =>
      obtain ⟨d, hd, hchats⟩ := h
      have hdistinct := hsettings rfl
      rw [← hr] at hdistinct
      rw [hd]
      refine Phase.settings_cases cfg entries view values trivial (fun _ _ => ?_)
        fun ts _ hts _ _ => current_next (hdistinct ts hts) fun t' _ => ?_
      · unfold Phase.park
        split <;> trivial
      · rw [show view.chats = d.chats from hchats]
        rfl
  | edit p ok t todo messageId hid outcome =>
      obtain ⟨d, hd, hnodup, hrows, -⟩ := id h
      rw [hd] at h
      refine ⟨d, by rw [hd]; rfl, hnodup, hrows, fun hstage => ?_⟩
      cases outcome with
      | ok =>
          obtain ⟨n, l, heq⟩ := notify_eq (p.delivery cfg t) messageId
          simp only [heq] at hstage
          cases hstage
      | failed => cases hstage
      | missing => exact live_missing (held_of_current hid h) (hknows d hd t.rawId)
  | send p ok t todo stage hstage =>
      obtain ⟨d, hd, hnodup, hrows, -⟩ := h
      exact ⟨d, by rw [hd]; rfl, hnodup, hrows, fun hstage => by cases hstage⟩
  | reply p ok t todo messageId sent notice left taken =>
      obtain ⟨d, hd, hnodup, hrows, -⟩ := h
      refine ⟨d, by rw [hd]; rfl, hnodup, hrows, fun hstage => ?_⟩
      cases taken with
      | true =>
          obtain ⟨n, l, -, heq⟩ := announce_eq messageId left (sent + 1)
          simp only [if_true, heq] at hstage
          cases hstage
      | false => cases hstage
  | edited p ok t todo messageId sent left hleft => exact current_upsert rfl rfl h
  | refused p ok t todo => exact current_upsert rfl rfl h
  | posted p ok t todo sent => exact current_upsert rfl (sent_chatId _ _) h
  | missed | gone | drop | catchUp | defer | finish | mark | reclaim | list => trivial

theorem Moves.rowKnows {i : Party D} {x : Choice} {s : Board D} {d : Cycle} {f f' : Phase}
    {c : Call}
    {r : c.Result} (hm : Moves cfg f c r f') (hr : r = respond cfg x s c)
    (hcur : f.Current (some d) s.trace)
    (h : ∀ raw, RowKnows raw (chat? (f.written cfg d).chats raw) s.trace) (raw : String) :
    RowKnows raw (chat? (f'.written cfg (c.write cfg s.now d)).chats raw)
      (.call i c r :: s.trace) := by
  have hquiet : f.pending cfg = none → f'.pending cfg = none →
      (c.write cfg s.now d).chats = d.chats →
      live raw (.call i c r :: s.trace) = live raw s.trace →
      RowKnows raw (chat? (f'.written cfg (c.write cfg s.now d)).chats raw)
        (.call i c r :: s.trace) := by
    intro hf hf' hchats hlive
    refine (h raw).of_eq hlive ?_
    rw [written_of_none hf, written_of_none hf', hchats]
  cases hm with
  | claim entries =>
      refine hquiet rfl ?_ rfl rfl
      split <;> rfl
  | settings entries view values => exact hquiet rfl (pending_settings entries view values) rfl rfl
  | catchUp entries view reason chat todo => exact (h raw).of_eq rfl (held_noted rfl rfl d raw)
  | edit p ok t todo messageId hid outcome =>
      cases outcome with
      | ok =>
          obtain ⟨n, l, heq⟩ := notify_eq (p.delivery cfg t) messageId
          simp only [heq]
          exact rowKnows_edited (held_of_current hid hcur) (h raw)
      | failed => exact (h raw).of_eq (live_edit_failed raw s.trace) (held_noted rfl rfl d raw)
      | missing =>
          by_cases hraw : t.rawId = raw
          · subst hraw
            have hnone := @live_missing D cfg i d s.trace p t messageId
              (held_of_current hid hcur) (h t.rawId)
            intro m hm
            rw [hnone] at hm
            cases hm
          · exact (h raw).of_eq (live_edit_other hraw s.trace) rfl
  | send p ok t todo stage hstage r =>
      have hf : (Phase.delivering p ok (t :: todo) stage).pending cfg = none := by
        rcases hstage with ⟨rfl, -⟩ | rfl <;> rfl
      rw [written_of_none hf] at h
      refine rowKnows_posted (fun id hid => ?_) (live_eq_nil hstage hcur (h t.rawId)) (h raw)
      rw [hr] at hid ⊢
      simp only [respond] at hid ⊢
      by_contra hne
      rw [if_neg hne] at hid
      cases hid
  | reply p ok t todo messageId sent notice left taken =>
      refine (h raw).of_eq rfl ?_
      cases taken with
      | true =>
          obtain ⟨n, l, -, heq⟩ := announce_eq messageId left (sent + 1)
          simp only [if_true, heq]
          exact held_edited (p.delivery cfg t) messageId n sent d raw
      | false => exact held_edited (p.delivery cfg t) messageId sent sent d raw
  | edited p ok t todo =>
      refine (h raw).of_eq rfl ?_
      rw [written_of_none (pending_next p ok todo)]
      rfl
  | refused p ok t todo =>
      refine (h raw).of_eq rfl ?_
      rw [written_of_none (pending_next p false todo)]
      rfl
  | posted p ok t todo sent =>
      refine (h raw).of_eq rfl ?_
      rw [written_of_none (pending_next p _ todo)]
      rfl
  | missed | load | gone | drop | defer | finish | mark | reclaim | list =>
      exact hquiet rfl rfl rfl rfl

/-- Only the rows of the chats matter. -/
theorem Phase.Current.chats {f : Phase} {cycle cycle' : Option Cycle} {tr : List (Entry D)}
    (h : f.Current cycle tr) (hchats : cycle'.map Cycle.chats = cycle.map Cycle.chats) :
    f.Current cycle' tr := by
  have hsome : ∀ c, cycle = some c → ∃ c', cycle' = some c' ∧ c'.chats = c.chats := by
    intro c hc
    rw [hc] at hchats
    exact Option.map_eq_some_iff.1 hchats
  cases f with
  | loaded entries view =>
      obtain ⟨c, hc, hview⟩ := h
      obtain ⟨c', hc', heq⟩ := hsome c hc
      exact ⟨c', hc', hview.trans heq.symm⟩
  | delivering p ok todo stage =>
      cases todo with
      | nil => trivial
      | cons t todo =>
          obtain ⟨c, hc, hnodup, hrows, hmissing⟩ := h
          obtain ⟨c', hc', heq⟩ := hsome c hc
          refine ⟨c', hc', hnodup, ?_, hmissing⟩
          rw [heq]
          exact hrows
  | rest | begun | claimed | gone | dropping | parking | finished | reclaiming | listing => trivial

/-- What happens elsewhere shows in no chat. -/
theorem Phase.Current.silent {f : Phase} {cycle : Option Cycle} {tr tr' : List (Entry D)}
    (h : f.Current cycle tr) (hlive : ∀ raw, live raw tr' = live raw tr) : f.Current cycle tr' := by
  cases f with
  | delivering p ok todo stage =>
      cases todo with
      | nil => trivial
      | cons t todo =>
          obtain ⟨c, hc, hnodup, hrows, hmissing⟩ := h
          refine ⟨c, hc, hnodup, hrows, fun hstage => ?_⟩
          rw [hlive]
          exact hmissing hstage
  | loaded => exact h
  | rest | begun | claimed | gone | dropping | parking | finished | reclaiming | listing => trivial

theorem standsFor_of_current {s : Board D} {p : Pass} {ok : Bool} {t : Target}
    {todo : List Target} {stage : Stage}
    (hstage : (Phase.delivering p ok (t :: todo) stage).pending cfg = none)
    (hcur : (Phase.delivering p ok (t :: todo) stage).Current s.cycle s.trace)
    (hknows : ∀ c, s.cycle = some c → ∀ raw,
      RowKnows raw (chat? ((Phase.delivering p ok (t :: todo) stage).written cfg c).chats raw)
        s.trace) :
    (Phase.delivering p ok (t :: todo) stage).StandsFor s t.rawId := by
  obtain ⟨c, hc, -, hrows, -⟩ := hcur
  have hrow : s.row? t.rawId = chat? c.chats t.rawId := by
    rw [Board.row?, hc]
    rfl
  have hknown := hknows c hc t.rawId
  rw [written_of_none hstage] at hknown
  refine ⟨?_, ?_⟩
  · rw [hrow, hrows t (List.mem_cons_self ..)]
  · rw [hrow]
    exact hknown

/-- A pass that goes by the stored rows edits and posts by the row that stands. -/
theorem Moves.standsFor {s : Board D} {f f' : Phase} {c : Call} {r : c.Result}
    (hm : Moves cfg f c r f') (hcur : f.Current s.cycle s.trace)
    (hknows : ∀ d, s.cycle = some d → ∀ raw,
      RowKnows raw (chat? (f.written cfg d).chats raw) s.trace) {chat : ChatTarget}
    (hc : (∃ id body, c = .editMessage chat id body) ∨ ∃ body, c = .sendMessage chat body) :
    f.StandsFor s chat.rawId := by
  cases hm with
  | edit p ok t todo messageId hid =>
      have hchat : t.chat = chat := by
        rcases hc with ⟨id, body, hc⟩ | ⟨body, hc⟩ <;> cases hc
        rfl
      rw [← hchat]
      exact standsFor_of_current rfl hcur hknows
  | send p ok t todo stage hstage =>
      have hchat : t.chat = chat := by
        rcases hc with ⟨id, body, hc⟩ | ⟨body, hc⟩ <;> cases hc
        rfl
      rw [← hchat]
      refine standsFor_of_current ?_ hcur hknows
      rcases hstage with ⟨rfl, -⟩ | rfl <;> rfl
  | claim | missed | load | gone | settings | drop | catchUp | defer | reply | edited | refused
  | posted | finish | mark | reclaim | list =>
      rcases hc with ⟨id, body, hc⟩ | ⟨body, hc⟩ <;> cases hc

/-- A write that takes effect, or is not of a chat. -/
theorem chats_effect {s : Board D} {x : Choice} {c : Call}
    (hx : ∀ u, c = .upsertChat u → x.db ≠ .failed) :
    (effect cfg x s c).cycle.map Cycle.chats =
      (s.cycle.map (c.write cfg s.now)).map Cycle.chats := by
  rw [effect_cycle]
  split
  · next hfailed =>
      cases s.cycle with
      | none => rfl
      | some d =>
          refine congrArg some (write_chats cfg s.now (fun u hu => ?_) d).symm
          exact hx u hu hfailed
  · rfl

variable [DecidableEq D]

/-! ## Passes that take turns -/

/-- A pass begins when no other is at work, and the settings it is given name no chat
twice. What it writes of a chat takes effect, it is not killed between a Telegram call
and that write, and nobody deletes the cycle under it. -/
def TakesTurns (cfg : Config) (s : Board D) : Step D → Prop
  | .start (.pass _) _ => ∀ d, phase cfg (.pass d) s.trace = .rest
  | .call _ _ .getMany x => cfg.Distinct (respond cfg x s .getMany)
  | .call _ _ (.upsertChat _) x => x.db ≠ .failed
  | .crash i _ => (phase cfg i s.trace).pending cfg = none
  | .env .delete => ∀ d, phase cfg (.pass d) s.trace = .rest
  | _ => True

/-- The phase of the pass that is at work, if one is. -/
def atWork (cfg : Config) (s : Board D) (worker : Option D) : Phase :=
  worker.elim .rest fun d => phase cfg (.pass d) s.trace

/-- No pass but the worker's is under way. It goes by the rows that are stored, and every
chat shows what its row is going to say when the worker has written it. -/
structure Board.Turn (cfg : Config) (s : Board D) (worker : Option D) : Prop where
  others : ∀ d, worker ≠ some d → phase cfg (.pass d) s.trace = .rest
  current : (atWork cfg s worker).Current s.cycle s.trace
  rows : ∀ c, s.cycle = some c → ∀ raw,
    RowKnows raw (chat? ((atWork cfg s worker).written cfg c).chats raw) s.trace

section
variable {s s' : Board D} {worker : Option D}

/-- A pass that makes a call is the worker. -/
theorem worker_of_call {d : D} {c : Call} (h : s.Turn cfg worker)
    (hcall : (phase cfg (.pass d) s.trace).call? cfg = some c) : worker = some d := by
  by_contra hne
  rw [h.others d hne] at hcall
  cases hcall

/-- The worker edits and posts by the row that stands. -/
theorem Board.Turn.stands {l : Step D} (h : s.Turn cfg worker)
    (hl : l.Due (passes cfg) (fun i s => phase cfg i s.trace) s) : Stands cfg s l := by
  have hstands : ∀ {i : Party D} {c : Call} {chat : ChatTarget},
      (phase cfg i s.trace).call? cfg = some c →
      ((∃ id body, c = .editMessage chat id body) ∨ ∃ body, c = .sendMessage chat body) →
      ∀ r : c.Result, (phase cfg i s.trace).StandsFor s chat.rawId := by
    intro i c chat hcall hc r
    cases i with
    | sweep d =>
        rcases sweep_call hcall with rfl | rfl <;>
          rcases hc with ⟨id, body, hc⟩ | ⟨body, hc⟩ <;> cases hc
    | pass d =>
        have hcur := h.current
        have hknows := h.rows
        rw [worker_of_call h hcall] at hcur hknows
        exact (moves hcall r).standsFor hcur hknows hc
  cases l with
  | call i k c x =>
      cases c with
      | editMessage chat id body => exact hstands hl (.inl ⟨id, body, rfl⟩) .ok
      | sendMessage chat body => exact hstands hl (.inr ⟨body, rfl⟩) ⟨.failed, none⟩
      | _ => trivial
  | start | env | crash => trivial

/-- A move that no pass at work has a part in. -/
theorem Board.Turn.silent (h : s.Turn cfg worker)
    (hchats : s'.cycle.map Cycle.chats = s.cycle.map Cycle.chats)
    (hlive : ∀ raw, live raw s'.trace = live raw s.trace)
    (hphase : ∀ d, phase cfg (.pass d) s'.trace = phase cfg (.pass d) s.trace) :
    s'.Turn cfg worker := by
  have hwork : atWork cfg s' worker = atWork cfg s worker := by
    cases worker with
    | none => rfl
    | some d => exact hphase d
  refine ⟨fun d hd => (hphase d).trans (h.others d hd), ?_, fun c' hc' raw => ?_⟩
  · rw [hwork]
    exact (h.current.chats hchats).silent hlive
  · rw [hc'] at hchats
    obtain ⟨c, hc, heq⟩ := Option.map_eq_some_iff.1 hchats.symm
    rw [hwork, chats_written heq.symm]
    exact (h.rows c hc raw).of_eq (hlive raw) rfl

/-- A worker that has nothing left to write, and is at no chat, leaves the rows as they are. -/
theorem Board.Turn.handOver {worker' : Option D} (h : s.Turn cfg worker)
    (hdone : (atWork cfg s worker).pending cfg = none)
    (hcycle : s'.cycle = s.cycle) (hlive : ∀ raw, live raw s'.trace = live raw s.trace)
    (hothers : ∀ d, worker' ≠ some d → phase cfg (.pass d) s'.trace = .rest)
    (hfresh : atWork cfg s' worker' = .rest ∨ atWork cfg s' worker' = .begun) :
    s'.Turn cfg worker' := by
  have hpending : (atWork cfg s' worker').pending cfg = none := by
    rcases hfresh with hf | hf <;> rw [hf] <;> rfl
  refine ⟨hothers, ?_, fun c hc raw => ?_⟩
  · rcases hfresh with hf | hf <;> rw [hf] <;> trivial
  · rw [hcycle] at hc
    have hknown := h.rows c hc raw
    rw [written_of_none hdone] at hknown
    rw [written_of_none hpending]
    exact hknown.of_eq (hlive raw) rfl

/-- One call of the worker. -/
theorem turn_call {d : D} {c : Call} {x : Choice}
    (hcall : (phase cfg (.pass d) s.trace).call? cfg = some c)
    (hc : TakesTurns cfg s (.call (.pass d) () c x)) (h : s.Turn cfg worker) :
    ((effect cfg x s c).log (.call (.pass d) c (respond cfg x s c))).Turn cfg (some d) := by
  obtain rfl := worker_of_call h hcall
  have hm := moves hcall (respond cfg x s c)
  have hwork : atWork cfg ((effect cfg x s c).log (.call (.pass d) c (respond cfg x s c)))
      (some d) = (phase cfg (.pass d) s.trace).after cfg c (respond cfg x s c) := by
    show phase cfg (.pass d) (_ :: (effect cfg x s c).trace) = _
    rw [effect_trace, phase_call_self]
  have hwrite : ∀ u, c = .upsertChat u → x.db ≠ .failed := by
    rintro u rfl
    exact hc
  have hchats : (effect cfg x s c).cycle.map Cycle.chats =
      (s.cycle.map (c.write cfg s.now)).map Cycle.chats := chats_effect hwrite
  refine ⟨fun e he => ?_, ?_, fun c' hc' raw => ?_⟩
  · rw [Board.log_trace, effect_trace, phase_call_other]
    · exact h.others e he
    · rintro ⟨⟩
      exact he rfl
  · rw [hwork, Board.log_trace, effect_trace, Board.log_cycle]
    refine (hm.current rfl (fun hget => ?_) h.rows h.current).chats hchats
    subst hget
    exact hc
  · rw [Board.log_cycle] at hc'
    rw [hc'] at hchats
    obtain ⟨w, hw, heq⟩ := Option.map_eq_some_iff.1 hchats.symm
    obtain ⟨e, he, rfl⟩ := Option.map_eq_some_iff.1 hw
    have hcur := h.current
    rw [he] at hcur
    rw [hwork, Board.log_trace, effect_trace, chats_written heq.symm]
    exact hm.rowKnows rfl hcur (h.rows e he) raw

/-- Nobody is at work, so it does not matter who was. -/
theorem atWork_rest (h : ∀ d, phase cfg (.pass d) s.trace = .rest) (worker : Option D) :
    atWork cfg s worker = .rest := by
  cases worker with
  | none => rfl
  | some d => exact h d

theorem turn_step {l : Step D} (hl : l.Due (passes cfg) (fun i s => phase cfg i s.trace) s)
    (hc : TakesTurns cfg s l) (ha : (dispatchers cfg D).act l s = some s')
    (h : ∃ worker, s.Turn cfg worker) : ∃ worker, s'.Turn cfg worker := by
  obtain ⟨worker, h⟩ := h
  rcases due_cases hl ha with ⟨i, c, x, rfl, hcall, rfl⟩ | ⟨i, e, rfl, -, rfl⟩ |
    ⟨e, rfl, he⟩ | ⟨i, rfl, rfl⟩
  · cases i with
    | pass d => exact ⟨some d, turn_call hcall hc h⟩
    | sweep d =>
        have hkind := sweep_call hcall
        have hwrite : ∀ u, c ≠ .upsertChat u := by
          rintro u rfl
          rcases hkind with hk | hk <;> cases hk
        refine ⟨worker, h.silent ?_ (fun raw => ?_) fun d => ?_⟩
        · rw [Board.log_cycle, chats_effect fun u hu => absurd hu (hwrite u), Option.map_map]
          exact Option.map_congr fun d _ => write_chats cfg s.now hwrite d
        · rw [Board.log_trace, effect_trace]
          rcases hkind with rfl | rfl <;> rfl
        · rw [Board.log_trace, effect_trace, phase_call_other (by nofun)]
  · cases i with
    | pass d =>
        refine ⟨some d, h.handOver ?_ rfl (fun _ => rfl) (fun e he => ?_) (.inr ?_)⟩
        · rw [atWork_rest hc]
          rfl
        · rw [Board.log_trace, phase_started_other]
          · exact hc e
          · rintro ⟨⟩
            exact he rfl
        · exact phase_started_self s.trace
    | sweep d =>
        exact ⟨worker, h.silent rfl (fun _ => rfl) fun e => phase_started_other (by nofun) _⟩
  · cases e with
    | wake => cases he
    | record e =>
        obtain ⟨d, hd, rfl⟩ := Option.map_eq_some_iff.1 he
        obtain ⟨d', hd'⟩ : ∃ d', e.run (some d) = some d' := by
          cases e <;> exact ⟨_, rfl⟩
        refine ⟨worker, h.silent ?_ (fun _ => rfl) fun _ => rfl⟩
        show (e.run (some d)).map Cycle.chats = _
        rw [hd', hd, Option.map_some, Option.map_some, (recorded_run hd').chats]
    | set v =>
        cases he
        exact ⟨worker, h.silent rfl (fun _ => rfl) fun _ => rfl⟩
    | pass n =>
        cases he
        exact ⟨worker, h.silent rfl (fun _ => rfl) fun _ => rfl⟩
    | delete =>
        cases he
        refine ⟨none, fun d _ => hc d, trivial, nofun⟩
  · cases i with
    | pass d =>
        by_cases hd : worker = some d
        · subst hd
          refine ⟨some d, h.handOver hc rfl (fun _ => rfl) (fun e he => ?_)
            (.inl (phase_died_self s.trace))⟩
          rw [Board.log_trace, phase_died_other]
          · exact h.others e he
          · rintro ⟨⟩
            exact he rfl
        · refine ⟨worker, h.silent rfl (fun _ => rfl) fun e => ?_⟩
          by_cases he : d = e
          · subst he
            rw [h.others d hd]
            exact phase_died_self s.trace
          · rw [Board.log_trace, phase_died_other]
            rintro ⟨⟩
            exact he rfl
    | sweep d => exact ⟨worker, h.silent rfl (fun _ => rfl) fun e => phase_died_other (by nofun) _⟩

end

theorem turn_opened (r : EventRecord) (now : Int) (v : SettingValues) :
    (Board.opened r now v : Board D).Turn cfg none :=
  ⟨fun _ _ => rfl, trivial, fun _ _ _ => nofun⟩

/-! ## Every run -/

theorem regress_of_stands : ChatsNeverRegress cfg D (Stands cfg) := by
  intro r now v p hrun raw
  have h := (conducts D cfg).induct (good_opened r now v) hrun (tracked_opened r now v)
    fun s l s' hl hcond ha h => tracked_step hl hcond.2 ha h
  exact h.chats raw

/-- Every edit and every send of such a run goes by a row that stands. -/
theorem regress_of_takesTurns : ChatsNeverRegress cfg D (TakesTurns cfg) := by
  intro r now v p hrun raw
  have h := (conducts D cfg).induct (J := fun s => s.Tracked cfg ∧ ∃ worker, s.Turn cfg worker)
    (good_opened r now v) hrun ⟨tracked_opened r now v, none, turn_opened r now v⟩
    fun s l s' hl hcond ha ⟨htracked, worker, hturn⟩ =>
      ⟨tracked_step hl (hturn.stands hl) ha htracked, turn_step hl hcond.2 ha ⟨worker, hturn⟩⟩
  exact h.1.chats raw

theorem chats_never_regress :
    ChatsNeverRegress cfg D (Stands cfg) ∧ ChatsNeverRegress cfg D (TakesTurns cfg) :=
  ⟨regress_of_stands, regress_of_takesTurns⟩

/-! ## Two passes at once -/

namespace Sample

/-- The first dispatcher claims the opening event, the second an execution that
comes after it; both load the cycle, and both post. -/
def together : List (Machine.Move (Party Bool) Choice Event) :=
  [.start (.pass true) .wake, .call (.pass true) ok,
    .env (.record (.event (record .long "2") 1)),
    .start (.pass false) .wake] ++ calls (.pass false) 3 ++ calls (.pass true) 2 ++
    [.call (.pass true) ok, .call (.pass false) ok]

/-- The same passes, one after the other. -/
def inTurn : List (Machine.Move (Party Bool) Choice Event) :=
  .start (.pass true) .wake :: calls (.pass true) 7 ++
    [.env (.record (.event (record .long "2") 1)), .start (.pass false) .wake] ++
    calls (.pass false) 5

def apart : World Bool := opened (record .long "1") 0 .empty

/-- What is sent is answered, and edits and sends go by the row that stands. -/
def careful (s : Board Bool) : Step Bool → Bool
  | .call i _ (.editMessage chat _ _) _ =>
      decide ((phase config i s.trace).StandsFor s chat.rawId)
  | .call i _ (.sendMessage chat _) x =>
      x.send != .unknown && decide ((phase config i s.trace).StandsFor s chat.rawId)
  | _ => true

theorem stands_of_careful {s : Board Bool} {l : Step Bool} (h : careful s l = true) :
    Answered s l ∧ Stands config s l := by
  cases l with
  | call i k c x =>
      cases c with
      | editMessage chat id body =>
          have hs : (phase config i s.trace).StandsFor s chat.rawId := of_decide_eq_true h
          exact ⟨trivial, hs⟩
      | sendMessage chat body =>
          obtain ⟨hx, hs⟩ := Bool.and_eq_true_iff.1 h
          have hs' : (phase config i s.trace).StandsFor s chat.rawId := of_decide_eq_true hs
          exact ⟨bne_iff_ne.1 hx, hs'⟩
      | _ => exact ⟨trivial, trivial⟩
  | start | env | crash => exact ⟨trivial, trivial⟩

/-- No pass is at work. -/
def idle (s : Board Bool) : Bool :=
  [true, false].all fun d => ((phase config (.pass d) s.trace).call? config).isNone

theorem rest_of_idle {s : Board Bool} (h : idle s = true) (d : Bool) :
    phase config (.pass d) s.trace = .rest := by
  refine call?_eq_none.1 (Option.isNone_iff_eq_none.1 (List.all_eq_true.1 h d ?_))
  cases d <;> decide

def turns (s : Board Bool) : Step Bool → Bool
  | .start (.pass _) _ => idle s
  | .call _ _ .getMany x => decide (config.Distinct (respond config x s .getMany))
  | .call _ _ (.upsertChat _) x => decide (x.db ≠ .failed)
  | .crash i _ => ((phase config i s.trace).pending config).isNone
  | .env .delete => idle s
  | _ => true

theorem takesTurns_of_turns {s : Board Bool} {l : Step Bool} (h : turns s l = true) :
    TakesTurns config s l := by
  cases l with
  | call i k c x =>
      cases c with
      | getMany => exact (of_decide_eq_true h : config.Distinct _)
      | upsertChat u => exact (of_decide_eq_true h : x.db ≠ .failed)
      | _ => trivial
  | start i e =>
      cases i with
      | pass d => exact rest_of_idle h
      | sweep d => trivial
  | env e =>
      cases e with
      | delete => exact rest_of_idle h
      | _ => trivial
  | crash i k => exact Option.isNone_iff_eq_none.1 h

/-- Every send is answered. -/
def answers (_ : Board Bool) : Step Bool → Bool
  | .call _ _ (.sendMessage _ _) x => x.send != .unknown
  | _ => true

theorem answered_of_answers {s : Board Bool} {l : Step Bool} (h : answers s l = true) :
    Answered s l := by
  cases l with
  | call i k c x =>
      cases c with
      | sendMessage chat body => exact bne_iff_ne.1 h
      | _ => trivial
  | start | env | crash => trivial

end Sample

/-- Both passes loaded the cycle before either had posted: the chat has two copies. -/
theorem not_chatsNeverRegress : ¬ ChatsNeverRegress Sample.config Bool fun _ _ => True := by
  intro h
  have hrun : ((dispatchers Sample.config Bool).replayIf Sample.answers Sample.together
      Sample.apart).any (fun p => (live "7" p.shared.trace).length == 2) = true := by
    decide +kernel
  obtain ⟨p, hp, hlen⟩ := (Option.any_eq_true _ _).1 hrun
  have hsettled := h _ _ _ p ((Machine.reaches_of_replayIf hp).mono fun _ _ ha =>
    ⟨Sample.answered_of_answers ha, trivial⟩) "7"
  have hle := hsettled.one
  rw [eq_of_beq hlen] at hle
  exact absurd hle (by decide)

theorem chats_never_regress_in_turn : ∃ p : World Bool,
    (dispatchers Sample.config Bool).Reaches
        (fun s l => Answered s l ∧ Stands Sample.config s l) Sample.apart p ∧
      (dispatchers Sample.config Bool).Reaches
        (fun s l => Answered s l ∧ TakesTurns Sample.config s l) Sample.apart p ∧
      live "7" p.shared.trace = [(1, [2, 1])] ∧ Settled (live "7" p.shared.trace) := by
  have hrun : ((dispatchers Sample.config Bool).replayIf
      (fun s l => Sample.careful s l && Sample.turns s l) Sample.inTurn
      Sample.apart).any (fun p => live "7" p.shared.trace == [(1, [2, 1])]) = true := by
    decide +kernel
  obtain ⟨p, hp, hlive⟩ := (Option.any_eq_true _ _).1 hrun
  have hreaches := Machine.reaches_of_replayIf hp
  have hstands := hreaches.mono fun s l h =>
    Sample.stands_of_careful (Bool.and_eq_true_iff.1 h).1
  have hturns := hreaches.mono fun s l h =>
    And.intro (Sample.stands_of_careful (Bool.and_eq_true_iff.1 h).1).1
      (Sample.takesTurns_of_turns (Bool.and_eq_true_iff.1 h).2)
  exact ⟨p, hstands, hturns, eq_of_beq hlive,
    ⟨(chats_never_regress.1 _ _ _ p hstands "7").one,
      (chats_never_regress.2 _ _ _ p hturns "7").newer⟩⟩

end TradingBroker.Broadcast
