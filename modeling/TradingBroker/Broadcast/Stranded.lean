import TradingBroker.Broadcast.Phases

/-!
# No entry of the write log is stranded

An attempt is spent when an entry is claimed; whether it was the last one is only
asked when the pass finishes. An entry whose pass never finishes stays in
`SENDING` until it is stale, and a sweep hands it back without asking. With
attempts left it is claimed again. Claimed for the last time it is handed back as
`PENDING` with none left, which neither a claim nor the sweeper's list picks up
(`not_neverStranded`); as long as no entry is stale after its last claim, none is
lost (`never_stranded`).

The invariant is about each entry by itself and holds for any number of
dispatchers, killed anywhere: its attempts are within the budget, it is only
`PENDING` with one left, and once the last one is spent it is never stale
(`LogEntry.Tried`). The last part is the condition, and time is all that can
break it. A pass that is slow, or dead, does no harm by itself; its entry is
stranded when the clock passes it by before it is finished.
-/

namespace TradingBroker.Broadcast

open TradingBroker.Lib

section
variable (cfg : Config)

/-- The entry is claimable, or a sweep makes it so, or closes it, once it is stale. -/
def LogEntry.Alive (now : Int) (e : LogEntry) : Prop :=
  e.claimable cfg.maxAttempts = true ∨
    e.status = .sending ∧
      (e.stale cfg.staleAfter now = true →
        (Call.reclaimStaleLogs.entry cfg now e).claimable cfg.maxAttempts = true ∨
          (Call.reclaimStaleLogs.entry cfg now e).status = .failed)

/-- In the runs whose moves meet `cond`, every entry is closed or alive. -/
def NeverStranded (D : Type) [DecidableEq D] (cond : Board D → Step D → Prop) : Prop :=
  ∀ (r : EventRecord) (now : Int) (v : SettingValues) (p : World D),
    (dispatchers cfg D).Reaches cond (opened r now v) p →
    ∀ c, p.shared.cycle = some c → ∀ e ∈ c.logs,
      e.status = .delivered ∨ e.status = .failed ∨ e.Alive cfg p.shared.now

/-- Time does not pass an entry by that was claimed for the last time: whoever claimed
it has finished it before it is stale. This is the only kind of step that is restricted.
-/
def LastTriesEnd {D : Type} (s : Board D) : Step D → Prop
  | .env (.pass n) =>
      ∀ c, s.cycle = some c → ∀ e ∈ c.logs, cfg.maxAttempts ≤ e.attempts →
        e.stale cfg.staleAfter (s.now + n) = false
  | _ => True

/-- What every entry satisfies at the time `now`. -/
structure LogEntry.Tried (now : Int) (e : LogEntry) : Prop where
  attempts : e.attempts ≤ cfg.maxAttempts
  pending : e.status = .pending → e.attempts < cfg.maxAttempts
  last : cfg.maxAttempts ≤ e.attempts → e.stale cfg.staleAfter now = false

end

variable {cfg : Config}

theorem not_stale {staleAfter : Nat} {now : Int} {e : LogEntry} (h : now ≤ e.updatedAt) :
    e.stale staleAfter now = false := by
  have hnot : ¬ e.updatedAt < now - staleAfter := by omega
  rw [LogEntry.stale, decide_eq_false hnot, Bool.and_false]

theorem not_stale_of_status {staleAfter : Nat} {now : Int} {e : LogEntry}
    (h : e.status ≠ .sending) : e.stale staleAfter now = false := by
  rw [LogEntry.stale, beq_eq_false_iff_ne.2 h, Bool.false_and]

theorem LogEntry.Tried.claim {now : Int} {e : LogEntry}
    (hc : e.claimable cfg.maxAttempts = true) : (e.claim now).Tried cfg now where
  attempts := by
    have hlt := of_decide_eq_true (Bool.and_eq_true_iff.1 hc).2
    exact hlt
  pending := nofun
  last := fun _ => not_stale (Int.le_refl _)

theorem LogEntry.Tried.finish {now : Int} {e : LogEntry} (h : e.Tried cfg now) {f : Finish}
    (hf : f.delivered = true ∨ f.maxAttempts = some cfg.maxAttempts) :
    (e.finish f now).Tried cfg now := by
  unfold LogEntry.finish
  split
  · exact ⟨h.attempts, nofun, fun _ => not_stale (Int.le_refl _)⟩
  · next hd =>
      have hmax := hf.resolve_left hd
      refine ⟨h.attempts, fun hp => ?_, fun _ => not_stale (Int.le_refl _)⟩
      rw [hmax] at hp
      simp only [Option.any_some, decide_eq_true_eq] at hp
      split at hp
      · cases hp
      · next hlt => exact Nat.lt_of_not_le hlt

theorem LogEntry.Tried.defer {now : Int} {e : LogEntry} (h : e.Tried cfg now) (reason : String) :
    (e.defer reason now).Tried cfg now where
  attempts := by
    show e.attempts - 1 ≤ _
    have := h.attempts
    omega
  pending := by
    intro _
    show e.attempts - 1 < _
    have hle := h.attempts
    have hpos := cfg.attempts_pos
    omega
  last := fun _ => not_stale (Int.le_refl _)

/-- What is handed back has attempts left: it is stale. -/
theorem LogEntry.Tried.reclaim {now : Int} {e : LogEntry} (h : e.Tried cfg now)
    (hs : e.stale cfg.staleAfter now = true) : (e.reclaim now).Tried cfg now where
  attempts := h.attempts
  pending := by
    intro _
    by_contra hge
    have hnot := h.last (Nat.le_of_not_lt hge)
    rw [hs] at hnot
    cases hnot
  last := fun _ => not_stale (Int.le_refl _)

/-- A pass finishes its entries as delivered, or asks for their attempts. -/
theorem finish_cases {f : Phase} {ids : List Nat} {fin : Finish} {c : Call} {r : c.Result}
    {f' : Phase} (hm : Moves cfg f c r f') (hc : c = .finishLogs ids fin) :
    fin.delivered = true ∨ fin.maxAttempts = some cfg.maxAttempts := by
  rcases hm.finishing hc with ⟨-, -, rfl⟩ | ⟨-, -, -, rfl⟩ | ⟨-, -, -, -, rfl⟩
  · exact .inl rfl
  · exact .inl rfl
  · exact .inr rfl

theorem tried_entry {now : Int} {f f' : Phase} {c : Call} {r : c.Result} {e : LogEntry}
    (hm : Moves cfg f c r f') (h : e.Tried cfg now) : (c.entry cfg now e).Tried cfg now := by
  cases c with
  | claimPendingLogs =>
      simp only [Call.entry]
      split
      · next hc => exact .claim hc
      · exact h
  | finishLogs ids fin =>
      simp only [Call.entry]
      split
      · exact h.finish (finish_cases hm rfl)
      · exact h
  | deferLogs ids reason =>
      simp only [Call.entry]
      split
      · exact h.defer reason
      · exact h
  | reclaimStaleLogs =>
      simp only [Call.entry]
      split
      · next hs => exact h.reclaim hs
      · exact h
  | _ => exact h

variable {D : Type} [DecidableEq D]

def Board.Tried (cfg : Config) (s : Board D) : Prop :=
  ∀ c, s.cycle = some c → ∀ e ∈ c.logs, e.Tried cfg s.now

theorem tried_step {s s' : Board D} {l : Step D}
    (hl : l.Due (passes cfg) (fun i s => phase cfg i s.trace) s) (hc : LastTriesEnd cfg s l)
    (ha : (dispatchers cfg D).act l s = some s') (h : s.Tried cfg) : s'.Tried cfg := by
  intro d' hd' e' he'
  obtain ⟨d, hd, hlogs⟩ := logs_step hl ha hd'
  -- the clock only moves when time passes
  have hnow : s'.now = s.now ∨ ∃ n, l = .env (.pass n) ∧ s'.now = s.now + n ∧
    s'.cycle = s.cycle := by
    rcases due_cases hl ha with ⟨i, c, x, rfl, -, rfl⟩ | ⟨i, _, rfl, -, rfl⟩ | ⟨ev, rfl, hev⟩ |
      ⟨i, rfl, rfl⟩
    · exact .inl effect_now
    · exact .inl rfl
    · cases ev with
      | wake => cases hev
      | record r =>
          obtain ⟨c, -, rfl⟩ := Option.map_eq_some_iff.1 hev
          exact .inl rfl
      | set v =>
          cases hev
          exact .inl rfl
      | pass n =>
          cases hev
          exact .inr ⟨n, rfl, rfl, rfl⟩
      | delete =>
          cases hev
          exact .inl rfl
    · exact .inl rfl
  rcases hnow with hnow | ⟨n, rfl, hnow, hcycle⟩
  · rw [hnow]
    rcases hlogs with hlogs | ⟨new, hlogs, hstatus, hatt⟩ | ⟨i, c, x, rfl, hcall, hlogs⟩
    · rw [hlogs] at he'
      exact h d hd e' he'
    · rw [hlogs] at he'
      rcases List.mem_append.1 he' with he | he
      · exact h d hd e' he
      · rw [List.mem_singleton.1 he]
        have hpos := cfg.attempts_pos
        refine ⟨?_, fun _ => ?_, fun _ => not_stale_of_status ?_⟩
        · omega
        · omega
        · rw [hstatus]
          nofun
    · rw [hlogs] at he'
      obtain ⟨e, he, rfl⟩ := List.mem_map.1 he'
      exact tried_entry (moves hcall (respond cfg x s c)) (h d hd e he)
  · rw [hcycle, hd] at hd'
    cases hd'
    have htried := h _ hd e' he'
    refine ⟨htried.attempts, htried.pending, fun hlast => ?_⟩
    rw [hnow]
    exact hc _ hd e' he' hlast

theorem alive_of_tried {now : Int} {e : LogEntry} (h : e.Tried cfg now) :
    e.status = .delivered ∨ e.status = .failed ∨ e.Alive cfg now := by
  cases hs : e.status with
  | delivered => exact .inl rfl
  | failed => exact .inr (.inl rfl)
  | pending =>
      refine .inr (.inr (.inl ?_))
      rw [LogEntry.claimable, hs, decide_eq_true (h.pending hs)]
      rfl
  | sending =>
      refine .inr (.inr (.inr ⟨hs, fun hstale => .inl ?_⟩))
      have hr := h.reclaim hstale
      simp only [Call.entry, hstale, if_true]
      rw [LogEntry.claimable, decide_eq_true (hr.pending rfl)]
      rfl

theorem never_stranded : NeverStranded cfg D (LastTriesEnd cfg) := by
  intro r now v p hrun c hc e he
  have h0 : (Board.opened r now v : Board D).Tried cfg := by
    intro d hd f hf
    cases hd
    rw [List.mem_singleton.1 hf]
    exact ⟨Nat.zero_le _, fun _ => cfg.attempts_pos, fun _ => not_stale (Int.le_refl _)⟩
  have h := (conducts D cfg).induct (good_opened r now v) hrun h0
    fun s l s' hl hcond ha h => tried_step hl hcond ha h
  exact alive_of_tried (h c hc e he)

/-! ## A last claim whose pass dies -/

namespace Sample

/-- A pass claims the entry and dies; a sweep finds it stale. -/
def abandoned : List (Machine.Move (Party Unit) Choice Event) :=
  [.start (.pass ()) .wake, .call (.pass ()) ok, .crash (.pass ()), .env (.pass 61),
    .start (.sweep ()) .wake, .call (.sweep ()) ok, .call (.sweep ()) ok]

/-- Five times over. -/
def givenUp : List (Machine.Move (Party Unit) Choice Event) :=
  (List.replicate 5 abandoned).flatten

/-- Nothing becomes stale with its attempts used up. -/
def leaves (s : Board Unit) : Step Unit → Bool
  | .env (.pass n) =>
      s.cycle.elim true fun c => c.logs.all fun e =>
        decide (e.attempts < config.maxAttempts) || !e.stale config.staleAfter (s.now + n)
  | _ => true

theorem lastTriesEnd_of_leaves {s : Board Unit} {l : Step Unit} (h : leaves s l = true) :
    LastTriesEnd config s l := by
  cases l with
  | env ev =>
      cases ev with
      | pass n =>
          intro c hc e he hlast
          simp only [leaves, hc, Option.elim_some] at h
          rcases Bool.or_eq_true_iff.1 (List.all_eq_true.1 h e he) with hlt | hstale
          · have hlt' := of_decide_eq_true hlt
            omega
          · simpa using hstale
      | wake | record | set | delete => trivial
  | call | start | crash => trivial

def start : World Unit := opened (record .long "1") 0 .empty

/-- The write log's first entry. -/
def entryOf (p : World Unit) : Option LogEntry := p.shared.cycle.bind fun c => c.logs.head?

theorem entryOf_mem {p : World Unit} {e : LogEntry} (h : entryOf p = some e) :
    ∃ c, p.shared.cycle = some c ∧ e ∈ c.logs := by
  obtain ⟨c, hc, he⟩ := Option.bind_eq_some_iff.1 h
  exact ⟨c, hc, List.mem_of_head? he⟩

end Sample

/-- Five passes die after their claim: the entry is `PENDING` with no attempt left. -/
theorem not_neverStranded : ¬ NeverStranded Sample.config Unit fun _ _ => True := by
  intro h
  have hrun : ((dispatchers Sample.config Unit).replay Sample.givenUp Sample.start).any (fun p =>
      (Sample.entryOf p).any fun e => e.status == .pending && e.attempts == 5) = true := by
    decide +kernel
  obtain ⟨p, hp, hrun⟩ := (Option.any_eq_true _ _).1 hrun
  obtain ⟨e, he, hentry⟩ := (Option.any_eq_true _ _).1 hrun
  simp only [Bool.and_eq_true, beq_iff_eq] at hentry
  obtain ⟨hstatus, hatt⟩ := hentry
  obtain ⟨c, hc, hmem⟩ := Sample.entryOf_mem he
  rcases h _ _ _ p (Machine.runs_of_replay hp) c hc e hmem with hd | hf | hclaim | ⟨hs, -⟩
  · rw [hstatus] at hd
    cases hd
  · rw [hstatus] at hf
    cases hf
  · have hlt := of_decide_eq_true (Bool.and_eq_true_iff.1 hclaim).2
    rw [hatt] at hlt
    exact absurd hlt (by decide)
  · rw [hstatus] at hs
    cases hs

theorem never_stranded_once_abandoned : ∃ (p : World Unit) (e : LogEntry),
    e.attempts = 1 ∧
      (e.status = .delivered ∨ e.status = .failed ∨ e.Alive Sample.config p.shared.now) := by
  have hrun : ((dispatchers Sample.config Unit).replayIf Sample.leaves Sample.abandoned
      Sample.start).any (fun p => (Sample.entryOf p).any fun e => e.attempts == 1) = true := by
    decide +kernel
  obtain ⟨p, hp, hrun⟩ := (Option.any_eq_true _ _).1 hrun
  obtain ⟨e, he, hatt⟩ := (Option.any_eq_true _ _).1 hrun
  obtain ⟨c, hc, hmem⟩ := Sample.entryOf_mem he
  exact ⟨p, e, eq_of_beq hatt, never_stranded _ _ _ p
    ((Machine.reaches_of_replayIf hp).mono fun _ _ => Sample.lastTriesEnd_of_leaves) c hc e hmem⟩

end TradingBroker.Broadcast
