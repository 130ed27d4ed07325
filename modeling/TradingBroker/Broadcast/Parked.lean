import Mathlib.Data.List.Nodup
import TradingBroker.Broadcast.Notices

/-!
# A pass that broadcasts nothing

From its claim to the call it ends with, a parked pass only writes the chats it
catches up. Its entries are those it claimed, one attempt dearer than they were;
dropping them delivers them, and deferring them takes the attempt back
(`Tallies`). So a parked pass has cost nothing (`parked_attempts`), and if a
posted chat is behind, its entries can be claimed again (`parked_claimable`).

That no attempt is spent is a comparison of two places of a run, the claim and
the end. The invariant carries the rows as they were at the claim (`Tallies`),
so it is an invariant of the stretch between the two and not of all runs, and
needs that no second pass claims in it.
-/

namespace TradingBroker.Broadcast

open TradingBroker.Lib

/-- The calls a parked pass ends with. -/
def Call.closes : Call → Bool
  | .finishLogs _ _ | .deferLogs _ _ => true
  | _ => false

/-- No other pass begins. -/
def SamePass (_ : Board Unit) : Step Unit → Prop
  | .start (.pass _) _ => False
  | _ => True

instance (s : Board Unit) : (l : Step Unit) → Decidable (SamePass s l)
  | .start (.pass _) _ => isFalse id
  | .start (.sweep _) _ | .call _ _ _ _ | .env _ | .crash _ _ => isTrue trivial

/-- A pass claims at `p`, reads the cycle and settings under which nothing is
broadcast, and has ended at `q`. -/
def ParkedPass (cfg : Config) (p q : World Unit) (view : CycleView) : Prop :=
  ∃ (p₁ q₁ : World Unit) (x y : Choice) (c : Call) (v : SettingValues),
    (dispatchers cfg Unit).Step p (.call (.pass ()) () .claimPendingLogs x) p₁ ∧ x.db = .ok ∧
    (dispatchers cfg Unit).Reaches (fun s l => Working s l ∧ SamePass s l) p₁ q₁ ∧
    (dispatchers cfg Unit).Step q₁ (.call (.pass ()) () c y) q ∧ y.db = .ok ∧ c.closes = true ∧
    readView q₁.shared.trace = some view ∧ readValues q₁.shared.trace = some v ∧ cfg.Parks v

variable {cfg : Config}

/-! ## The entries have their own numbers -/

/-- The write log is numbered through, so an entry is found by its place. -/
def Board.Numbered (s : Board Unit) : Prop :=
  ∀ c, s.cycle = some c → c.logs.map LogEntry.seq = List.range' 1 c.message.lastSeq

theorem numbered_step {s s' : Board Unit} {l : Step Unit}
    (hl : l.Due (passes cfg) (fun i s => phase cfg i s.trace) s)
    (ha : (dispatchers cfg Unit).act l s = some s') (h : s.Numbered) : s'.Numbered := by
  intro d' hd'
  rcases due_cases hl ha with ⟨i, c, x, rfl, hcall, rfl⟩ | ⟨i, e, rfl, hcall, rfl⟩ |
    ⟨e, rfl, he⟩ | ⟨i, rfl, rfl⟩
  · rw [Board.log_cycle] at hd'
    rcases @effect_cycle_cases _ cfg x s c with heq | heq
    · rw [heq] at hd'
      exact h d' hd'
    · rw [heq] at hd'
      obtain ⟨d, hd, rfl⟩ := Option.map_eq_some_iff.1 hd'
      rw [write_logs, write_lastSeq, List.map_map, ← h d hd]
      refine List.map_congr_left fun e _ => ?_
      exact entry_seq cfg s.now c e
  · exact h d' hd'
  · cases e with
    | wake => cases he
    | record e =>
        obtain ⟨d, hd, rfl⟩ := Option.map_eq_some_iff.1 he
        rcases (recorded_run hd').grows with rfl | ⟨e, hlogs, -, -, hseq, hlast, -⟩
        · exact h _ hd
        · rw [hlogs, hlast, List.map_append, h d hd, List.range'_1_concat]
          simp only [List.map_cons, List.map_nil, hseq, Nat.add_comm]
    | set v =>
        cases he
        exact h d' hd'
    | pass n =>
        cases he
        exact h d' hd'
    | delete =>
        cases he
        cases hd'
  · exact h d' hd'

theorem numbered_opened (r : EventRecord) (now : Int) (v : SettingValues) :
    (Board.opened r now v : Board Unit).Numbered := by
  intro c hc
  cases hc
  rfl

/-- The numbers of the entries that were claimed. -/
theorem mem_claimed_seq {c : Cycle} {now : Int} {n : Nat} {e : LogEntry}
    (h : c.logs.map LogEntry.seq = List.range' 1 c.message.lastSeq) (he : c.logs[n]? = some e) :
    e.seq ∈ (c.claimed cfg.maxAttempts now).map LogEntry.seq ↔
      e.claimable cfg.maxAttempts = true := by
  have hnodup : (c.logs.map LogEntry.seq).Nodup := by
    rw [h]
    exact List.nodup_range' ..
  have hmem : e ∈ c.logs := List.mem_of_getElem? he
  rw [Cycle.claimed, List.map_map]
  constructor
  · intro hseq
    obtain ⟨e₀, he₀, heq⟩ := List.mem_map.1 hseq
    obtain ⟨hmem₀, hc⟩ := List.mem_filter.1 he₀
    rw [← List.inj_on_of_nodup_map hnodup hmem₀ hmem heq]
    exact hc
  · intro hc
    exact List.mem_map.2 ⟨e, List.mem_filter.2 ⟨hmem, hc⟩, rfl⟩

/-! ## What the pass does to the entries -/

section
variable (cfg)

/-- The entries there were at the claim: those that were claimable have one attempt
more. -/
def Tally (c₀ d : Cycle) : Prop :=
  ∀ (n : Nat) (e : LogEntry), c₀.logs[n]? = some e → ∃ e', d.logs[n]? = some e' ∧ e'.seq = e.seq ∧
    e'.attempts = if e.claimable cfg.maxAttempts then e.attempts + 1 else e.attempts

/-- Until a pass ends, or delivers, its entries are the claimed ones. -/
def Phase.Tallies (c₀ : Cycle) (now₀ : Int) (d : Cycle) : Phase → Prop
  | .begun => False
  | .claimed entries | .gone entries | .loaded entries _ | .parking entries _ _ _ =>
      entries = c₀.claimed cfg.maxAttempts now₀ ∧ Tally cfg c₀ d
  | .dropping entries view =>
      entries = c₀.claimed cfg.maxAttempts now₀ ∧ Tally cfg c₀ d ∧ chatsBehind view = []
  | _ => True

end

theorem Tally.map {c₀ d d' : Cycle} {f : LogEntry → LogEntry} (h : Tally cfg c₀ d)
    (hlogs : d'.logs = d.logs.map f) (hseq : ∀ e, (f e).seq = e.seq)
    (hatt : ∀ e, (f e).attempts = e.attempts) : Tally cfg c₀ d' := by
  intro n e he
  obtain ⟨e', he', hs, ha⟩ := h n e he
  refine ⟨f e', ?_, (hseq e').trans hs, (hatt e').trans ha⟩
  rw [hlogs, List.getElem?_map, he', Option.map_some]

theorem Tally.append {c₀ d d' : Cycle} (h : Tally cfg c₀ d) {new : List LogEntry}
    (hlogs : d'.logs = d.logs ++ new) : Tally cfg c₀ d' := by
  intro n e he
  obtain ⟨e', he', hrest⟩ := h n e he
  refine ⟨e', ?_, hrest⟩
  rw [hlogs, List.getElem?_append_left (List.getElem?_eq_some_iff.1 he').1]
  exact he'

theorem Phase.Tallies.later {c₀ d d' : Cycle} {now₀ : Int} {f : Phase}
    (h : f.Tallies cfg c₀ now₀ d) (hd : Tally cfg c₀ d → Tally cfg c₀ d') :
    f.Tallies cfg c₀ now₀ d' := by
  cases f with
  | begun => exact h
  | claimed | gone | loaded | parking => exact ⟨h.1, hd h.2⟩
  | dropping => exact ⟨h.1, hd h.2.1, h.2.2⟩
  | rest | delivering | finished | reclaiming | listing => trivial

theorem tallies_park {c₀ d : Cycle} {now₀ : Int} {entries : List LogEntry} {view : CycleView}
    {reason : String} (he : entries = c₀.claimed cfg.maxAttempts now₀) (h : Tally cfg c₀ d) :
    (Phase.park entries view reason).Tallies cfg c₀ now₀ d := by
  unfold Phase.park
  split
  · next hb => exact ⟨he, h, List.isEmpty_iff.1 hb⟩
  · exact ⟨he, h⟩

theorem Moves.tallies {c₀ d : Cycle} {now₀ now : Int} {f f' : Phase} {c : Call} {r : c.Result}
    (hm : Moves cfg f c r f') (h : f.Tallies cfg c₀ now₀ d) :
    f'.Tallies cfg c₀ now₀ (c.write cfg now d) := by
  cases hm with
  | claim => exact h.elim
  | missed | load | catchUp => exact ⟨h.1, h.2⟩
  | settings entries view values =>
      refine Phase.settings_cases cfg entries view values trivial (fun _ _ => tallies_park h.1 h.2)
        fun _ _ _ _ _ => trivial
  | gone | drop | defer | edit | send | reply | edited | refused | posted | finish | mark | reclaim
  | list => trivial

theorem tallies_step {c₀ : Cycle} {now₀ : Int} {s s' : Board Unit} {l : Step Unit}
    (hl : l.Due (passes cfg) (fun i s => phase cfg i s.trace) s) (hc : Working s l ∧ SamePass s l)
    (ha : (dispatchers cfg Unit).act l s = some s')
    (h : ∀ d, s.cycle = some d → (phase cfg (.pass ()) s.trace).Tallies cfg c₀ now₀ d) :
    ∀ d, s'.cycle = some d → (phase cfg (.pass ()) s'.trace).Tallies cfg c₀ now₀ d := by
  intro d' hd'
  rcases due_cases hl ha with ⟨i, c, x, rfl, hcall, rfl⟩ | ⟨i, e, rfl, hcall, rfl⟩ |
    ⟨e, rfl, he⟩ | ⟨i, rfl, -⟩
  · have hx : x.db = .ok := hc.1
    rw [Board.log_cycle, effect_cycle, if_neg (by rw [hx]; nofun)] at hd'
    obtain ⟨d, hd, rfl⟩ := Option.map_eq_some_iff.1 hd'
    rw [Board.log_trace, effect_trace]
    cases i with
    | pass u =>
        rw [phase_call_self]
        exact (moves hcall _).tallies (h d hd)
    | sweep u =>
        rw [phase_call_other (by nofun)]
        refine (h d hd).later fun ht => ?_
        refine ht.map (write_logs cfg s.now c d) (entry_seq cfg s.now c) fun e => ?_
        rcases sweep_call hcall with rfl | rfl
        · show (if _ then _ else _ : LogEntry).attempts = e.attempts
          split <;> rfl
        · rfl
  · cases i with
    | pass u => exact hc.2.elim
    | sweep u =>
        rw [Board.log_trace, phase_started_other (by nofun)]
        exact h d' hd'
  · rw [event_trace he]
    cases e with
    | wake => cases he
    | record e =>
        obtain ⟨d, hd, rfl⟩ := Option.map_eq_some_iff.1 he
        refine (h d hd).later fun ht => ?_
        rcases (recorded_run hd').grows with rfl | ⟨e, hlogs, -⟩
        · exact ht
        · exact ht.append hlogs
    | set v =>
        cases he
        exact h d' hd'
    | pass n =>
        cases he
        exact h d' hd'
    | delete =>
        cases he
        cases hd'
  · exact hc.1.elim

/-! ## Where a parked pass ends -/

theorem tally_claim (c₀ : Cycle) (now : Int) :
    Tally cfg c₀ (Call.claimPendingLogs.write cfg now c₀) := by
  intro n e he
  refine ⟨if e.claimable cfg.maxAttempts then e.claim now else e, ?_, ?_, ?_⟩
  · show (c₀.logs.map _)[n]? = _
    rw [List.getElem?_map, he, Option.map_some]
  · split <;> rfl
  · split <;> rfl

theorem Moves.claiming {f f' : Phase} {c : Call} {r : c.Result} (hm : Moves cfg f c r f')
    (hc : c = .claimPendingLogs) : f = .begun := by
  cases hm with
  | claim => rfl
  | missed | load | gone | settings | drop | catchUp | defer | edit | send | reply | edited
  | refused | posted | finish | mark | reclaim | list => cases hc

theorem Moves.closing {f f' : Phase} {c : Call} {r : c.Result} (hm : Moves cfg f c r f')
    (hc : c.closes = true) :
    (∃ entries, f = .gone entries) ∨
      (∃ entries view, f = .dropping entries view ∧
        c = .finishLogs (entries.map LogEntry.seq) delivered) ∨
      (∃ entries view reason, f = .parking entries view reason [] ∧
        c = .deferLogs (entries.map LogEntry.seq) reason) ∨
      ∃ p ok stage, f = .delivering p ok [] stage := by
  cases hm with
  | gone entries => exact .inl ⟨entries, rfl⟩
  | drop entries view => exact .inr (.inl ⟨entries, view, rfl, rfl⟩)
  | defer entries view reason => exact .inr (.inr (.inl ⟨entries, view, reason, rfl, rfl⟩))
  | finish p ok stage => exact .inr (.inr (.inr ⟨p, ok, stage, rfl⟩))
  | claim | missed | load | settings | catchUp | edit | send | reply | edited | refused | posted
  | mark | reclaim | list => cases hc

/-- What a parked pass was at its last call, and what it left. -/
theorem parked_end {r : EventRecord} {now : Int} {v₀ : SettingValues} {p q : World Unit}
    {view : CycleView} (hrun : (dispatchers cfg Unit).Reaches Working (opened r now v₀) p)
    (hpark : ParkedPass cfg p q view) {c₀ c : Cycle} (hc₀ : p.shared.cycle = some c₀)
    (hc : q.shared.cycle = some c) :
    ∃ (d : Cycle) (now' : Int) (call : Call),
      Tally cfg c₀ d ∧ c.logs = d.logs.map (call.entry cfg now') ∧
        ((chatsBehind view = [] ∧
          call = .finishLogs ((c₀.claimed cfg.maxAttempts p.shared.now).map LogEntry.seq)
            delivered) ∨
        ∃ reason, call =
          .deferLogs ((c₀.claimed cfg.maxAttempts p.shared.now).map LogEntry.seq) reason) := by
  obtain ⟨p₁, q₁, x, y, call, v, hclaim, hx, hpass, hlast, hy, hcloses, hview, hvalues, hparks⟩ :=
    hpark
  have hgood := @good_opened cfg Unit _ r now v₀
  have hrun₁ : (dispatchers cfg Unit).Reaches Working (opened r now v₀) p₁ :=
    .tail hrun hclaim hx
  obtain ⟨hdue, hact⟩ := (conducts Unit cfg).step hgood hrun hclaim
  have htallies₁ : ∀ d, p₁.shared.cycle = some d →
      (phase cfg (.pass ()) p₁.shared.trace).Tallies cfg c₀ p.shared.now d := by
    intro d hd
    have hp₁ := act_call hact
    rw [hp₁, Board.log_cycle, effect_cycle, if_neg (by rw [hx]; nofun), hc₀, Option.map_some] at hd
    cases hd
    rw [hp₁, Board.log_trace, effect_trace, phase_call_self]
    have hbegun : phase cfg (.pass ()) p.shared.trace = .begun :=
      (moves hdue (respond cfg x p.shared .claimPendingLogs)).claiming rfl
    rw [hbegun]
    have hentries : respond cfg x p.shared .claimPendingLogs =
        c₀.claimed cfg.maxAttempts p.shared.now := by
      simp only [respond, hx, if_true, hc₀, Option.elim_some]
    rw [hentries]
    show Phase.Tallies cfg c₀ _ _ (if _ then _ else _)
    split
    · trivial
    · exact ⟨rfl, tally_claim c₀ p.shared.now⟩
  have htallies : ∀ d, q₁.shared.cycle = some d →
      (phase cfg (.pass ()) q₁.shared.trace).Tallies cfg c₀ p.shared.now d :=
    (conducts Unit cfg).induct
      (J := fun s => ∀ d, s.cycle = some d →
        (phase cfg (.pass ()) s.trace).Tallies cfg c₀ p.shared.now d)
      ((conducts Unit cfg).good_of_reaches hgood hrun₁) hpass htallies₁
      fun s l s' hl hcond ha h => tallies_step hl hcond ha h
  have hread := reads ((hrun₁.mono fun _ _ _ => trivial).trans
    (hpass.mono fun _ _ _ => trivial) : (dispatchers cfg Unit).Reaches (fun _ _ => True) _ _)
  obtain ⟨hdue₁, hact₁⟩ := (conducts Unit cfg).step
    ((conducts Unit cfg).good_of_reaches hgood hrun₁) hpass hlast
  have hq := act_call hact₁
  rw [hq, Board.log_cycle, effect_cycle, if_neg (by rw [hy]; nofun)] at hc
  obtain ⟨d, hd, rfl⟩ := Option.map_eq_some_iff.1 hc
  have ht := htallies d hd
  refine ⟨d, q₁.shared.now, call, ?_⟩
  have hcall : (phase cfg (.pass ()) q₁.shared.trace).call? cfg = some call := hdue₁
  rcases (moves hcall (respond cfg y q₁.shared call)).closing hcloses with
    ⟨entries, hf⟩ | ⟨entries, view', hf, rfl⟩ | ⟨entries, view', reason, hf, rfl⟩ |
      ⟨pass, ok, stage, hf⟩
  · rw [hf] at hread
    rw [show readValues q₁.shared.trace = none from hread] at hvalues
    cases hvalues
  · rw [hf] at hread ht
    rw [hread.1] at hview
    cases hview
    obtain ⟨rfl, htally, hbehind⟩ := ht
    exact ⟨htally, write_logs cfg _ _ d, .inl ⟨hbehind, rfl⟩⟩
  · rw [hf] at hread ht
    obtain ⟨rfl, htally⟩ := ht
    exact ⟨htally, write_logs cfg _ _ d, .inr ⟨reason, rfl⟩⟩
  · rw [hf] at hread
    obtain ⟨-, hvalues', hb⟩ := hread
    rw [hvalues'] at hvalues
    cases hvalues
    exact absurd hb (not_broadcasts_of_parks hparks)

theorem getElem?_of_entry? {s : Board Unit} {n : Nat} {e : LogEntry} (h : s.entry? n = some e) :
    ∃ c, s.cycle = some c ∧ c.logs[n]? = some e :=
  Option.bind_eq_some_iff.1 h

/-- What a parked pass made of an entry there was at its claim. -/
theorem parked_entry {r : EventRecord} {now : Int} {v₀ : SettingValues} {p q : World Unit}
    {view : CycleView} {n : Nat} {e e' : LogEntry}
    (hrun : (dispatchers cfg Unit).Reaches Working (opened r now v₀) p)
    (hpark : ParkedPass cfg p q view) (he : p.shared.entry? n = some e)
    (he' : q.shared.entry? n = some e') :
    if e.claimable cfg.maxAttempts then
      chatsBehind view = [] ∧ e'.status = .delivered ∨
        e'.status = .pending ∧ e'.attempts = e.attempts
    else e'.attempts = e.attempts := by
  obtain ⟨c₀, hc₀, hn⟩ := getElem?_of_entry? he
  obtain ⟨c, hc, hn'⟩ := getElem?_of_entry? he'
  obtain ⟨d, now', call, htally, hlogs, hcall⟩ := parked_end hrun hpark hc₀ hc
  obtain ⟨e₁, hn₁, hseq, hatt⟩ := htally n e hn
  rw [hlogs, List.getElem?_map, hn₁, Option.map_some] at hn'
  cases hn'
  have hnumbered : p.shared.Numbered := (conducts Unit cfg).induct (good_opened r now v₀) hrun
    (numbered_opened r now v₀) fun s l s' hl _ ha h => numbered_step hl ha h
  have hmem := @mem_claimed_seq cfg _ p.shared.now _ _ (hnumbered c₀ hc₀) hn
  split at hatt
  · next hclaim =>
      rw [if_pos hclaim]
      rw [← hseq] at hmem
      rcases hcall with ⟨hbehind, rfl⟩ | ⟨reason, rfl⟩
      · refine .inl ⟨hbehind, ?_⟩
        simp only [Call.entry, if_pos (hmem.2 hclaim), LogEntry.finish, delivered, if_true]
      · refine .inr ?_
        simp only [Call.entry, if_pos (hmem.2 hclaim)]
        refine ⟨rfl, ?_⟩
        show e₁.attempts - 1 = e.attempts
        omega
  · next hclaim =>
      rw [if_neg hclaim]
      rw [← hseq] at hmem
      have hnot := fun h => hclaim (hmem.1 h)
      rcases hcall with ⟨-, rfl⟩ | ⟨reason, rfl⟩
      · simp only [Call.entry, if_neg hnot]
        exact hatt
      · simp only [Call.entry, if_neg hnot]
        exact hatt

theorem parked_attempts {r : EventRecord} {now : Int} {v₀ : SettingValues} {p q : World Unit}
    {view : CycleView} {n : Nat} {e e' : LogEntry}
    (hrun : (dispatchers cfg Unit).Reaches Working (opened r now v₀) p)
    (hpark : ParkedPass cfg p q view) (he : p.shared.entry? n = some e)
    (he' : q.shared.entry? n = some e') (hs : e'.status = .pending) :
    e'.attempts = e.attempts := by
  have h := parked_entry hrun hpark he he'
  split at h
  · rcases h with ⟨-, hd⟩ | ⟨-, ha⟩
    · rw [hd] at hs
      cases hs
    · exact ha
  · exact h

theorem parked_claimable {r : EventRecord} {now : Int} {v₀ : SettingValues} {p q : World Unit}
    {view : CycleView} {n : Nat} {e e' : LogEntry}
    (hrun : (dispatchers cfg Unit).Reaches Working (opened r now v₀) p)
    (hpark : ParkedPass cfg p q view) (hbehind : chatsBehind view ≠ [])
    (he : p.shared.entry? n = some e) (hc : e.claimable cfg.maxAttempts = true)
    (he' : q.shared.entry? n = some e') : e'.claimable cfg.maxAttempts = true := by
  have h := parked_entry hrun hpark he he'
  rw [if_pos hc] at h
  rcases h with ⟨hnone, -⟩ | ⟨hs, ha⟩
  · exact absurd hnone hbehind
  · simp only [LogEntry.claimable, Bool.and_eq_true, beq_iff_eq] at hc ⊢
    rw [ha]
    exact ⟨hs, hc.2⟩

end TradingBroker.Broadcast
