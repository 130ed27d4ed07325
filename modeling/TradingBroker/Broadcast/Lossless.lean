import Mathlib.Data.List.TakeWhile
import TradingBroker.Broadcast.Phases

/-!
# When a write-log entry is marked delivered

A pass marks its entries delivered at three exits: the cycle is gone, nothing is
to be broadcast and no chat is behind, every target was delivered to. Each exit
believes an answer that an exception may have made up: no cycle, no settings, a
chat row taken for written. While the answers are those of the tables
(`Trusted`), an entry is marked delivered only when every chat it is owed to
shows it (`marked_delivered_justified`); a failed read of the cycle is enough to
lose one (`not_lossless`).

The invariant follows a pass from its claim on (`Phase.Knows`). The view it
loads is as new as the entries it claimed, because an entry is written with the
event it is for; no other pass writes the chats meanwhile; and each chat that is
no longer on the list of a delivering pass either shows the body of the view or
has spoilt the verdict. What the invariant cannot say is that the settings are
still those the pass has read, or that the cycle it did not find is not there:
that is asked where the entries are marked (`Phase.Right`).
-/

namespace TradingBroker.Broadcast

open TradingBroker.Lib

variable {cfg : Config}

/-! ## The property -/

section
variable (cfg : Config)

/-- The chats configured in the stored settings. -/
def Board.targets {D : Type} (s : Board D) : List Target := (cfg.targets s.settings).getD []

/-- Broadcasting is switched off in the stored settings, or no chat is configured
there. -/
def Board.Quiet {D : Type} (s : Board D) : Prop :=
  s.settings.silent = true ∨ s.targets cfg = []

/-- An entry of this sequence may be marked delivered. -/
def Board.Justifies {D : Type} (s : Board D) (seq : Nat) : Prop :=
  s.cycle = none ∨ ∃ c, s.cycle = some c ∧
    ((∀ t ∈ s.targets cfg, ShownAt c.chats t.rawId seq) ∨
      s.Quiet cfg ∧ ∀ row ∈ c.chats, row.messageId.isSome = true → seq ≤ row.deliveredSeq)

/-- The write log's `n`-th entry. -/
def Board.entry? {D : Type} (s : Board D) (n : Nat) : Option LogEntry :=
  s.cycle.bind fun c => c.logs[n]?

/-- In the runs whose moves meet `cond`, an entry becomes `DELIVERED` only when
that is justified. -/
def Lossless (cond : Board Unit → Step Unit → Prop) : Prop :=
  ∀ (r : EventRecord) (now : Int) (v : SettingValues) (p q : World Unit) (l : Step Unit)
    (n : Nat) (e e' : LogEntry),
    (dispatchers cfg Unit).Reaches cond (opened r now v) p →
    (dispatchers cfg Unit).Step p l q → cond p.shared l →
    p.shared.entry? n = some e → q.shared.entry? n = some e' →
    e.status ≠ .delivered → e'.status = .delivered → p.shared.Justifies cfg e.seq

/-- What a pass read is so: a cycle that was not found is not there; settings that
park the pass do so as stored; every chat that is configured is one it delivered
to. -/
def Phase.Right {D : Type} (s : Board D) : Phase → Prop
  | .gone _ => s.cycle = none
  | .dropping _ _ => s.Quiet cfg
  | .delivering p _ _ _ =>
      ∀ t ∈ s.targets cfg, ∃ ts, cfg.targets p.values = some ts ∧ ∃ t' ∈ ts, t'.rawId = t.rawId
  | _ => True

/-- A pass that marks its entries delivered has read what is so, and the rows of the
chats it delivered to are written. The condition bears on the answers of the database
and on when the settings change, and is asked at two calls only: a write of a chat row,
and the call that marks. -/
def Trusted (s : Board Unit) : Step Unit → Prop
  | .call _ _ (.upsertChat u) x => u.deliveredSeq.isSome = true → x.db ≠ .failed
  | .call i _ (.finishLogs _ f) _ =>
      f.delivered = true → (phase cfg i s.trace).Right cfg s
  | _ => True

end

/-! ## What a pass knows -/

/-- Rows that carry a sequence are written. -/
def Stores (_ : Board Unit) : Step Unit → Prop
  | .call _ _ (.upsertChat u) x => u.deliveredSeq.isSome = true → x.db ≠ .failed
  | _ => True

theorem Trusted.stores {s : Board Unit} {l : Step Unit} (h : Trusted cfg s l) : Stores s l := by
  cases l with
  | call i k c x =>
      cases c with
      | upsertChat u => exact h
      | _ => trivial
  | start | env | crash => trivial

/-- The view is as new as the claimed entries. -/
def Covers (entries : List LogEntry) (view : CycleView) : Prop :=
  ∀ e ∈ entries, e.seq ≤ view.message.lastSeq

/-- What a pass at this phase may rely on: no one else writes the chats. -/
def Phase.Knows (cfg : Config) (c : Cycle) : Phase → Prop
  | .claimed entries => ∀ e ∈ entries, e.seq ≤ c.message.lastSeq
  | .loaded entries view => Covers entries view ∧ c.chats = view.chats
  | .dropping entries view => Covers entries view ∧ c.chats = view.chats ∧ chatsBehind view = []
  | .delivering p ok todo _ =>
      Covers p.entries p.view ∧ ChatsForward p.view.chats c.chats ∧
        (ok = true → ∀ ts, cfg.targets p.values = some ts → ∀ t ∈ ts,
          t ∈ todo ∨ ShownAt c.chats t.rawId p.view.message.lastSeq)
  | _ => True

/-- No entry is ahead of the message: the two are written in one transaction. -/
structure Cycle.Sound (c : Cycle) : Prop where
  seqs : ∀ e ∈ c.logs, e.seq ≤ c.message.lastSeq

/-- What the one pass of the process may rely on, wherever it stands. -/
def Board.Knows (cfg : Config) (s : Board Unit) : Prop :=
  ∀ c, s.cycle = some c → c.Sound ∧ (phase cfg (.pass ()) s.trace).Knows cfg c

/-- What is recorded meanwhile does not matter. -/
theorem Phase.Knows.later {c c' : Cycle} {f : Phase} (h : f.Knows cfg c)
    (hchats : c'.chats = c.chats) (hseq : c.message.lastSeq ≤ c'.message.lastSeq) :
    f.Knows cfg c' := by
  cases f with
  | claimed entries => exact fun e he => Nat.le_trans (h e he) hseq
  | loaded entries view => exact ⟨h.1, hchats.trans h.2⟩
  | dropping entries view => exact ⟨h.1, hchats.trans h.2.1, h.2.2⟩
  | delivering p ok todo stage =>
      obtain ⟨hcov, hfwd, hdone⟩ := h
      simp only [Phase.Knows, hchats]
      exact ⟨hcov, hfwd, hdone⟩
  | rest | begun | gone | parking | finished | reclaiming | listing => trivial

theorem Cycle.Sound.recorded {c c' : Cycle} (h : c.Sound) (hr : c.Recorded c') : c'.Sound := by
  rcases hr.grows with rfl | ⟨e, hlogs, -, -, hseq, hlast, -⟩
  · exact h
  · refine ⟨fun f hf => ?_⟩
    rw [hlogs] at hf
    rcases List.mem_append.1 hf with hf | hf
    · have hle := h.seqs f hf
      omega
    · rw [List.mem_singleton.1 hf]
      omega

theorem Cycle.Sound.write {d : Cycle} (h : d.Sound) (now : Int) (c : Call) :
    (c.write cfg now d).Sound := by
  refine ⟨fun e he => ?_⟩
  rw [write_logs] at he
  obtain ⟨e₀, he₀, rfl⟩ := List.mem_map.1 he
  rw [entry_seq, write_lastSeq]
  exact h.seqs e₀ he₀

theorem knows_park {c : Cycle} {entries : List LogEntry} {view : CycleView} {reason : String}
    (hcov : Covers entries view) (hchats : c.chats = view.chats) :
    (Phase.park entries view reason).Knows cfg c := by
  unfold Phase.park
  split
  · next hb => exact ⟨hcov, hchats, List.isEmpty_iff.1 hb⟩
  · trivial

/-- A chat that is skipped was shown a body that is new enough. -/
theorem knows_next {c : Cycle} {p : Pass} {ok : Bool} {todo : List Target}
    (hcov : Covers p.entries p.view) (hfwd : ChatsForward p.view.chats c.chats)
    (hdone : ok = true → ∀ ts, cfg.targets p.values = some ts → ∀ t ∈ ts,
      t ∈ todo ∨ ShownAt c.chats t.rawId p.view.message.lastSeq) :
    (Phase.next cfg p ok todo).Knows cfg c := by
  refine ⟨hcov, hfwd, fun hok ts hts t ht => ?_⟩
  rcases hdone hok ts hts t ht with hmem | hshown
  · rw [← List.takeWhile_append_dropWhile (p := fun t => (p.delivery cfg t).upToDate)
      (l := todo)] at hmem
    rcases List.mem_append.1 hmem with hskip | hleft
    · have hup := List.mem_takeWhile_imp hskip
      obtain ⟨row, hrow, hle⟩ := Option.any_eq_true _ _ |>.1 hup
      have hview : ShownAt p.view.chats t.rawId p.view.message.lastSeq :=
        ⟨row, hrow, of_decide_eq_true hle⟩
      exact .inr (hview.forward hfwd)
    · exact .inl hleft
  · exact .inr hshown

/-! ## One move -/

/-- The pass goes on after a target whose row it wrote, or which it does not count. -/
theorem knows_upsert {d : Cycle} {p : Pass} {ok ok' : Bool} {t : Target} {todo : List Target}
    {stage : Stage} {u : ChatUpsert} (h : (Phase.delivering p ok (t :: todo) stage).Knows cfg d)
    (hu : ok' = true → ok = true ∧ u.chatId = t.rawId ∧
      u.deliveredSeq = some p.view.message.lastSeq) :
    (Phase.next cfg p ok' todo).Knows cfg (d.upsertChat u) := by
  obtain ⟨hcov, hfwd, hdone⟩ := h
  have hf := chatsForward_upsertChat u d
  refine knows_next hcov (hfwd.trans hf) fun hok ts hts t' ht' => ?_
  obtain ⟨hok, hid, hseq⟩ := hu hok
  rcases hdone hok ts hts t' ht' with hmem | hshown
  · rcases List.mem_cons.1 hmem with rfl | hmem
    · rw [← hid]
      exact .inr (shownAt_upsertChat hseq)
    · exact .inl hmem
  · exact .inr (hshown.forward hf)

/-- A send that counts as delivered has its row written with the new message. -/
theorem sent_of_landed {d : Delivery} {r : SendResult} (h : r.landed = true) :
    ∃ id, r.messageId = some id ∧ d.sent r = d.posted id := by
  obtain ⟨hout, hid⟩ := Bool.and_eq_true_iff.1 h
  obtain ⟨id, hid⟩ := Option.isSome_iff_exists.1 hid
  exact ⟨id, hid, by rw [Delivery.sent, if_neg (of_decide_eq_true hout), hid]⟩

/-- The pass's own call: what it read is what is there, and what it wrote is
written, if the row carries a sequence. -/
theorem Moves.knows {f f' : Phase} {c : Call} {r : c.Result} {x : Choice} {s : Board Unit}
    {d d' : Cycle} (hm : Moves cfg f c r f') (hr : r = respond cfg x s c) (hs : s.cycle = some d)
    (h : f.Knows cfg d) (hd : d.Sound) (hd' : d' = d ∨ d' = c.write cfg s.now d)
    (hlost : ∀ u, c = .upsertChat u → u.deliveredSeq.isSome = true → d' = d.upsertChat u) :
    f'.Knows cfg d' := by
  -- a call that does not write chats leaves what the pass knows
  have hkeep : ∀ {g : Phase}, g.Knows cfg d → (∀ u, c ≠ .upsertChat u) → g.Knows cfg d' := by
    intro g hg hc
    rcases hd' with rfl | rfl
    · exact hg
    · exact hg.later (write_chats cfg s.now hc d) (Nat.le_of_eq (write_lastSeq cfg s.now c d).symm)
  cases hm with
  | claim =>
      refine hkeep ?_ nofun
      split
      · trivial
      · intro e he
        rw [hr] at he
        simp only [respond, hs] at he
        split at he
        · obtain ⟨e₀, he₀, rfl⟩ := List.mem_map.1 he
          exact hd.seqs e₀ (List.mem_filter.1 he₀).1
        · cases he
  | missed entries => trivial
  | load entries view =>
      refine hkeep ?_ nofun
      simp only [respond, hs] at hr
      split at hr
      · cases hr
        exact ⟨h, rfl⟩
      · cases hr
  | gone entries => trivial
  | settings entries view values =>
      refine hkeep ?_ nofun
      obtain ⟨hcov, hchats⟩ := h
      refine Phase.settings_cases cfg entries view values trivial
        (fun _ _ => knows_park hcov hchats)
        fun ts _ hts _ _ => knows_next hcov ?_ fun _ ts' hts' t' ht' => ?_
      · rw [hchats]
        exact .refl _
      · rw [show cfg.targets values = some ts' from hts'] at hts
        cases hts
        exact .inl ht'
  | drop entries view => trivial
  | catchUp entries view reason chat todo => trivial
  | defer entries view reason => trivial
  | edit p ok t todo messageId hid outcome => exact hkeep h nofun
  | send p ok t todo stage hstage r => exact hkeep h nofun
  | reply p ok t todo messageId sent notice left taken => exact hkeep h nofun
  | edited p ok t todo messageId sent left hleft =>
      rw [hlost _ rfl rfl]
      exact knows_upsert h fun hok => ⟨hok, rfl, rfl⟩
  | refused p ok t todo =>
      rcases hd' with rfl | rfl
      · exact knows_next h.1 h.2.1 nofun
      · exact knows_upsert h nofun
  | posted p ok t todo sent =>
      cases hland : sent.landed with
      | true =>
          obtain ⟨id, -, hsent⟩ := sent_of_landed (d := p.delivery cfg t) hland
          rw [hlost _ rfl (by rw [hsent]; rfl), hsent, Bool.and_true]
          exact knows_upsert h fun hok => ⟨hok, rfl, rfl⟩
      | false =>
          rw [Bool.and_false]
          rcases hd' with rfl | rfl
          · exact knows_next h.1 h.2.1 nofun
          · exact knows_upsert h nofun
  | finish p ok stage => trivial
  | mark => trivial
  | reclaim => exact hkeep trivial nofun
  | list => exact hkeep trivial nofun

theorem knows_step {s s' : Board Unit} {l : Step Unit}
    (hl : l.Due (passes cfg) (fun i s => phase cfg i s.trace) s) (hc : Stores s l)
    (ha : (dispatchers cfg Unit).act l s = some s') (h : s.Knows cfg) : s'.Knows cfg := by
  rcases due_cases hl ha with ⟨i, c, x, rfl, hcall, rfl⟩ | ⟨i, e, rfl, hcall, rfl⟩ |
    ⟨e, rfl, he⟩ | ⟨i, rfl, rfl⟩
  · intro d' hd'
    rw [Board.log_cycle, effect_cycle] at hd'
    obtain ⟨d, hd, hwrite⟩ : ∃ d, s.cycle = some d ∧
        (d' = d ∧ x.db = .failed ∨ d' = c.write cfg s.now d) := by
      split at hd'
      · next hx => exact ⟨d', hd', .inl ⟨rfl, hx⟩⟩
      · obtain ⟨d, hd, rfl⟩ := Option.map_eq_some_iff.1 hd'
        exact ⟨d, hd, .inr rfl⟩
    obtain ⟨hsound, hknows⟩ := h d hd
    have hw : d' = d ∨ d' = c.write cfg s.now d := hwrite.imp And.left id
    have hsound' : d'.Sound := by
      rcases hw with rfl | rfl
      · exact hsound
      · exact hsound.write s.now c
    refine ⟨hsound', ?_⟩
    rw [Board.log_trace, effect_trace]
    cases i with
    | pass u =>
        rw [phase_call_self]
        refine (moves hcall _).knows rfl hd hknows hsound hw fun u hu hseq => ?_
        rcases hwrite with ⟨-, hx⟩ | hwrite
        · subst hu
          exact absurd hx (hc hseq)
        · rw [hwrite, hu]
          rfl
    | sweep u =>
        rw [phase_call_other (by nofun)]
        have hnot : ∀ v, c ≠ .upsertChat v := by
          rcases sweep_call hcall with rfl | rfl <;> nofun
        rcases hw with rfl | rfl
        · exact hknows
        · exact hknows.later (write_chats cfg s.now hnot d)
            (Nat.le_of_eq (write_lastSeq cfg s.now c d).symm)
  · intro d hd
    obtain ⟨hsound, hknows⟩ := h d hd
    refine ⟨hsound, ?_⟩
    cases i with
    | pass u =>
        rw [Board.log_trace, phase_started_self]
        trivial
    | sweep u =>
        rw [Board.log_trace, phase_started_other (by nofun)]
        exact hknows
  · intro d' hd'
    rw [event_trace he]
    cases e with
    | wake => cases he
    | record e =>
        simp only [Board.event, Option.map_eq_some_iff] at he
        obtain ⟨d, hd, rfl⟩ := he
        obtain ⟨hsound, hknows⟩ := h d hd
        have hrec := recorded_run hd'
        exact ⟨hsound.recorded hrec, hknows.later hrec.chats hrec.lastSeq_le⟩
    | set v =>
        cases he
        exact h d' hd'
    | pass n =>
        cases he
        exact h d' hd'
    | delete =>
        cases he
        cases hd'
  · intro d hd
    obtain ⟨hsound, hknows⟩ := h d hd
    refine ⟨hsound, ?_⟩
    cases i with
    | pass u =>
        rw [Board.log_trace, phase_died_self]
        trivial
    | sweep u =>
        rw [Board.log_trace, phase_died_other (by nofun)]
        exact hknows

theorem knows_opened (r : EventRecord) (now : Int) (v : SettingValues) :
    (Board.opened r now v : Board Unit).Knows cfg := by
  intro c hc
  cases hc
  refine ⟨⟨fun e he => ?_⟩, trivial⟩
  rw [List.mem_singleton.1 he]
  exact Nat.le_refl _

/-! ## Every run -/

theorem entry_marked {cfg : Config} {now : Int} {c : Call} {e : LogEntry}
    (hne : e.status ≠ .delivered) (hd : (c.entry cfg now e).status = .delivered) :
    ∃ ids f, c = .finishLogs ids f ∧ f.delivered = true ∧ e.seq ∈ ids := by
  cases c with
  | claimPendingLogs =>
      simp only [Call.entry] at hd
      split at hd
      · cases hd
      · exact absurd hd hne
  | finishLogs ids f =>
      refine ⟨ids, f, rfl, ?_⟩
      simp only [Call.entry] at hd
      split at hd
      · next hmem =>
          refine ⟨?_, hmem⟩
          unfold LogEntry.finish at hd
          split at hd
          · next h => exact h
          · simp only at hd
            split at hd <;> cases hd
      · exact absurd hd hne
  | deferLogs ids reason =>
      simp only [Call.entry] at hd
      split at hd
      · cases hd
      · exact absurd hd hne
  | reclaimStaleLogs =>
      simp only [Call.entry] at hd
      split at hd
      · cases hd
      · exact absurd hd hne
  | _ => exact absurd hd hne

/-- An entry is changed by a call, or not at all. -/
theorem entry?_step {D : Type} [DecidableEq D] {s s' : Board D} {l : Step D} {n : Nat}
    {e e' : LogEntry} (hl : l.Due (passes cfg) (fun i s => phase cfg i s.trace) s)
    (ha : (dispatchers cfg D).act l s = some s') (he : s.entry? n = some e)
    (he' : s'.entry? n = some e') : e' = e ∨
      ∃ i c x, l = .call i () c x ∧ (phase cfg i s.trace).call? cfg = some c ∧
        e' = c.entry cfg s.now e := by
  simp only [Board.entry?, Option.bind_eq_some_iff] at he he'
  obtain ⟨d, hd, hn⟩ := he
  obtain ⟨d', hd', hn'⟩ := he'
  obtain ⟨d₀, hd₀, hlogs⟩ := logs_step hl ha hd'
  rw [hd₀] at hd
  cases hd
  rcases hlogs with hlogs | ⟨new, hlogs, -⟩ | ⟨i, c, x, hcall, hdue, hlogs⟩
  · rw [hlogs, hn] at hn'
    exact .inl (Option.some.inj hn').symm
  · have hlt : n < d.logs.length := (List.getElem?_eq_some_iff.1 hn).1
    rw [hlogs, List.getElem?_append_left hlt, hn] at hn'
    exact .inl (Option.some.inj hn').symm
  · rw [hlogs, List.getElem?_map, hn] at hn'
    exact .inr ⟨i, c, x, hcall, hdue, (Option.some.inj hn').symm⟩

/-- A pass that is about to mark its entries delivered is right to do so. -/
theorem justified_of_knows {s : Board Unit} {f : Phase} {c : Call} {r : c.Result} {f' : Phase}
    {ids : List Nat} {fin : Finish} {d : Cycle} {seq : Nat} (hm : Moves cfg f c r f')
    (hc : c = .finishLogs ids fin) (hfin : fin.delivered = true) (hseq : seq ∈ ids)
    (hs : s.cycle = some d) (h : f.Knows cfg d)
    (htrust : f.Right cfg s) : s.Justifies cfg seq := by
  cases hm with
  | gone entries => exact .inl htrust
  | drop entries view =>
      cases hc
      obtain ⟨e, he, rfl⟩ := List.mem_map.1 hseq
      obtain ⟨hcov, hchats, hbehind⟩ := h
      refine .inr ⟨d, hs, .inr ⟨htrust, fun row hrow hid => ?_⟩⟩
      rw [hchats] at hrow
      have hnot : ¬ row.deliveredSeq < view.message.lastSeq := by
        intro hlt
        have hmem : row ∈ chatsBehind view := by
          simp only [chatsBehind, List.mem_filter, Bool.and_eq_true, decide_eq_true_eq]
          exact ⟨hrow, hid, hlt⟩
        rw [hbehind] at hmem
        cases hmem
      have hle := hcov e he
      omega
  | finish p ok stage =>
      cases hc
      obtain ⟨e, he, rfl⟩ := List.mem_map.1 hseq
      obtain ⟨hcov, -, hdone⟩ := h
      refine .inr ⟨d, hs, .inl fun t ht => ?_⟩
      obtain ⟨ts, hts, t', ht', hid⟩ := htrust t ht
      rcases hdone hfin ts hts t' ht' with hmem | hshown
      · cases hmem
      · rw [← hid]
        exact hshown.mono (hcov e he)
  | claim | missed | load | settings | catchUp | defer | edit | send | reply | edited | refused
  | posted | mark | reclaim | list => cases hc

theorem marked_delivered_justified : Lossless cfg (Trusted cfg) := by
  intro r now v p q l n e e' hrun hstep hcond he he' hne hd
  have hknows : p.shared.Knows cfg :=
    (conducts Unit cfg).induct (good_opened r now v) hrun (knows_opened r now v)
      fun s l s' hl hc ha h => knows_step hl hc.stores ha h
  obtain ⟨hdue, ha⟩ := (conducts Unit cfg).step (good_opened r now v) hrun hstep
  rcases entry?_step hdue ha he he' with rfl | ⟨i, c, x, rfl, hcall, rfl⟩
  · exact absurd hd hne
  obtain ⟨ids, f, rfl, hf, hmem⟩ := entry_marked hne hd
  obtain ⟨d, hcycle, -⟩ := Option.bind_eq_some_iff.1 he
  cases i with
  | sweep u => rcases sweep_call hcall with hc | hc <;> cases hc
  | pass u =>
      exact justified_of_knows (moves hcall (respond cfg x p.shared (.finishLogs ids f))) rfl hf
        hmem hcycle (hknows d hcycle).2 (hcond hf)

/-! ## A lost event, and one that is not -/

namespace Sample

/-- The claim succeeds, the read of the cycle does not. -/
def unread : List (Machine.Move (Party Unit) Choice Event) :=
  [.start (.pass ()) .wake, .call (.pass ()) ok, .call (.pass ()) unreached]

/-- A whole pass up to its last call but one. -/
def sent : List (Machine.Move (Party Unit) Choice Event) :=
  .start (.pass ()) .wake :: calls (.pass ()) 5

def first : World Unit := opened (record .long "1") 0 .empty

/-- The write log's first entry. -/
def statusOf (p : World Unit) : Option LogStatus := (p.shared.entry? 0).map LogEntry.status

/-- The one target is not shown anything. -/
def owed (s : Board Unit) : Bool :=
  !s.settings.silent && ((s.targets config).map Target.rawId == ["7"]) &&
    s.cycle.any fun c => (chat? c.chats "7").isNone

theorem not_justifies_of_owed {s : Board Unit} (h : owed s = true) (seq : Nat) :
    ¬ s.Justifies config seq := by
  simp only [owed, Bool.and_eq_true, Bool.not_eq_true', beq_iff_eq] at h
  obtain ⟨⟨hsilent, htargets⟩, hrow⟩ := h
  obtain ⟨c, hc, hnone⟩ := (Option.any_eq_true _ _).1 hrow
  obtain ⟨t, ht, hraw⟩ : ∃ t ∈ s.targets config, t.rawId = "7" := by
    have hmem : "7" ∈ (s.targets config).map Target.rawId := by
      rw [htargets]
      exact List.mem_singleton.2 rfl
    exact List.mem_map.1 hmem
  rintro (hgone | ⟨c', hc', hshown | ⟨hquiet, -⟩⟩)
  · rw [hc] at hgone
    cases hgone
  · rw [hc] at hc'
    cases hc'
    obtain ⟨row, hfound, -⟩ := hshown t ht
    rw [hraw] at hfound
    rw [hfound] at hnone
    cases hnone
  · rcases hquiet with hs | hn
    · rw [hsilent] at hs
      cases hs
    · rw [hn] at ht
      cases ht

/-- The pass delivered to what is configured. -/
def reachedAll (s : Board Unit) : Bool :=
  match phase config (.pass ()) s.trace with
  | .delivering p _ _ _ =>
      (s.targets config).all fun t =>
        ((config.targets p.values).getD []).any fun t' => t'.rawId == t.rawId
  | _ => false

theorem right_of_reachedAll {s : Board Unit} (h : reachedAll s = true) :
    (phase config (.pass ()) s.trace).Right config s := by
  unfold reachedAll at h
  split at h
  · next p _ _ _ hp =>
      rw [hp]
      intro t ht
      obtain ⟨t', ht', hid⟩ := List.any_eq_true.1 (List.all_eq_true.1 h t ht)
      cases hts : config.targets p.values with
      | none =>
          rw [hts] at ht'
          cases ht'
      | some ts =>
          rw [hts] at ht'
          exact ⟨ts, rfl, t', ht', eq_of_beq hid⟩
  · cases h

/-- Every write takes effect, and nothing is finished yet. -/
def written (_ : Board Unit) : Step Unit → Bool
  | .call _ _ (.finishLogs _ _) _ => false
  | .call _ _ _ x => x.db == .ok
  | _ => true

theorem trusted_of_written {s : Board Unit} {l : Step Unit} (h : written s l = true) :
    Trusted config s l := by
  cases l with
  | call i k c x =>
      cases c with
      | finishLogs ids f => cases h
      | upsertChat u =>
          intro _ hx
          rw [show x.db = .ok from eq_of_beq h] at hx
          cases hx
      | _ => trivial
  | start | env | crash => trivial

end Sample

/-- The cycle could not be read: its only entry is marked delivered, and the one
chat that is configured has nothing. -/
theorem not_lossless : ¬ Lossless Sample.config fun _ _ => True := by
  intro h
  have hrun : ((dispatchers Sample.config Unit).replay Sample.unread Sample.first).any (fun p =>
      Sample.owed p.shared && ((dispatchers Sample.config Unit).move p
        (.call (.pass ()) Sample.ok)).any fun r =>
          Sample.statusOf p == some .sending && Sample.statusOf r.2 == some .delivered) = true := by
    decide +kernel
  obtain ⟨p, hp, hrun⟩ := (Option.any_eq_true _ _).1 hrun
  obtain ⟨howed, hrun⟩ := Bool.and_eq_true_iff.1 hrun
  obtain ⟨⟨l, q⟩, hmove, hstatus⟩ := (Option.any_eq_true _ _).1 hrun
  obtain ⟨hp0, hq0⟩ := Bool.and_eq_true_iff.1 hstatus
  obtain ⟨e, he, hpend⟩ := Option.map_eq_some_iff.1 (eq_of_beq hp0)
  obtain ⟨e', he', hdel⟩ := Option.map_eq_some_iff.1 (eq_of_beq hq0)
  refine Sample.not_justifies_of_owed howed e.seq
    (h _ _ _ p q l 0 e e' (Machine.runs_of_replay hp) ⟨_, hmove⟩ trivial he he' ?_ hdel)
  rw [hpend]
  nofun

/-- The pass is about to mark what it has delivered. -/
def Sample.finishing (p : World Unit) : Bool :=
  match (p.threads (.pass ())).2.next? with
  | some (.finishLogs _ _) => true
  | _ => false

theorem first_event_reaches_the_chat : ∃ (p : World Unit) (e : LogEntry),
    p.shared.entry? 0 = some e ∧ p.shared.Justifies Sample.config e.seq := by
  have hrun : ((dispatchers Sample.config Unit).replayIf Sample.written Sample.sent
      Sample.first).any (fun p =>
        Sample.reachedAll p.shared && Sample.finishing p &&
        ((dispatchers Sample.config Unit).move p (.call (.pass ()) Sample.ok)).any fun r =>
          Sample.statusOf p == some .sending && Sample.statusOf r.2 == some .delivered) = true := by
    decide +kernel
  obtain ⟨p, hp, hrun⟩ := (Option.any_eq_true _ _).1 hrun
  simp only [Bool.and_eq_true] at hrun
  obtain ⟨⟨hreached, hnext⟩, hrun⟩ := hrun
  obtain ⟨⟨l, q⟩, hmove, hstatus⟩ := (Option.any_eq_true _ _).1 hrun
  obtain ⟨hp0, hq0⟩ := Bool.and_eq_true_iff.1 hstatus
  obtain ⟨e, he, hpend⟩ := Option.map_eq_some_iff.1 (eq_of_beq hp0)
  obtain ⟨e', he', hdel⟩ := Option.map_eq_some_iff.1 (eq_of_beq hq0)
  have hcond : Trusted Sample.config p.shared l := by
    rw [Sample.finishing] at hnext
    split at hnext
    · next ids f hn =>
        rw [Machine.move_call hmove hn]
        exact fun _ => Sample.right_of_reachedAll hreached
    · cases hnext
  refine ⟨p, e, he, marked_delivered_justified _ _ _ p q l 0 e e'
    ((Machine.reaches_of_replayIf hp).mono fun _ _ => Sample.trusted_of_written) ⟨_, hmove⟩ hcond
    he he' ?_ hdel⟩
  rw [hpend]
  simp

end TradingBroker.Broadcast
