import TradingBroker.Signals.Ownership

/-!
# The attempt budget

`attempts` counts down from `SIGNAL_MAX_ATTEMPTS` and reaches zero exactly in
`FAILED`, whatever fails around it. What it is meant to bound, the publishes of the
retry job, it bounds only as long as each of them is accounted for: the job goes on
when `mark_published` or `record_attempt_failure` reports a failure, and then finds
the row on its next tick as it was.

The count of publishes and the counter move in opposite directions, and the
invariant is what is left between them: for a row the retry job waits on, the
publishes made and the attempts left together never exceed `SIGNAL_MAX_ATTEMPTS -
1`, except while one publish is made and its attempt not yet taken off
(`Spent.waiting`). A write that has no effect at that point puts the sum out for
good, and so does a kill; these are the steps `unaccounted` names, and only the
bound needs them excluded.
-/

namespace TradingBroker

open TradingBroker.Lib TradingBroker.Lib.Machine TradingBroker.Lib.Contract

/-- The entry is a call of the worker publisher by the retry job. -/
def Entry.retries : Entry → Option RowId
  | .call .retryJob _ (.publish w) _ => some w.signalId
  | _ => none

/-- How often the retry job has called the worker publisher for the row, whatever
came of it. -/
def retryPublishes (id : RowId) (t : List Entry) : Nat :=
  t.countP fun e => e.retries == some id

/-- The retry job has called the publisher in its current fan-out. -/
def retryPublished (s : Shared) : Bool :=
  match (activity .retryJob s.trace).flight with
  | .published _ => true
  | _ => false

/-- The row a call accounts for a publish in. -/
def Call.accounts : Call → Option RowId
  | .markPublished id => some id
  | .recordAttemptFailure id => some id
  | _ => none

/-- A publish of the retry job is not accounted for: the write that should do it has no
effect, or the job is killed before it. The condition is on the outcome of that one
call; what the publish itself came to, and what any other party does, is left open. -/
def unaccounted (s : Shared) : Label Party Context Choice Event Call → Bool
  | .call .retryJob _ c x => c.accounts.isSome && !x.applies && retryPublished s
  | .crash .retryJob _ => retryPublished s
  | _ => false

/-- In every run whose moves meet `cond`: the counter stays in its range and is
zero exactly in `FAILED`; it never increases, and `PUBLISHED` and `FAILED` are
never left; and the retry job stays below the budget. -/
def AttemptBudget (lib : Libraries) (cfg : Config)
    (cond : Shared → Label Party Context Choice Event Call → Prop) : Prop :=
  1 ≤ cfg.maxAttempts → ∀ now settings p r,
    (pipeline lib cfg).Reaches cond (startPool now settings) p → r ∈ p.shared.rows →
    (0 ≤ r.attempts ∧ r.attempts ≤ cfg.maxAttempts) ∧
    (r.status = .failed ↔ r.attempts = 0) ∧
    (∀ p', (pipeline lib cfg).Runs p p' → ∃ r' ∈ p'.shared.rows, r'.id = r.id ∧
      r'.attempts ≤ r.attempts ∧ (r.status ≠ .queued → r'.status = r.status)) ∧
    (retryPublishes r.id p.shared.trace : Int) ≤ cfg.maxAttempts - 1

section
variable {lib : Libraries} {cfg : Config} {s t u : Shared} {r r' : Signal} {id : RowId}
  {l : Label Party Context Choice Event Call}

/-! ## The counter -/

/-- The counter of a row in its range. `FAILED` is what it says at zero, and nowhere
else. -/
structure InRange (cfg : Config) (r : Signal) : Prop where
  lower : 0 ≤ r.attempts
  upper : r.attempts ≤ cfg.maxAttempts
  failed : r.status = .failed ↔ r.attempts = 0

theorem InRange.pos (h : InRange cfg r) (hq : r.status = .queued) : 1 ≤ r.attempts := by
  have hne : r.attempts ≠ 0 := by
    intro h0
    rw [h.failed.2 h0] at hq
    cases hq
  have := h.lower
  omega

theorem InRange.change {c : Call} (h : InRange cfg r) (hq : r.status = .queued)
    (hc : RowChange s r c r') : InRange cfg r' := by
  have hpos := h.pos hq
  have hup := h.upper
  cases hc with
  | published =>
      refine ⟨h.lower, hup, ?_⟩
      simp only [Signal.markPublished_status, Signal.markPublished_attempts]
      constructor
      · intro he
        cases he
      · intro h0
        omega
  | failed =>
      refine ⟨?_, ?_, ?_⟩
      · simp
      · simp only [Signal.markFailed_attempts]
        omega
      · simp
  | attempt =>
      rcases Signal.recordAttemptFailure_cases s.now r with ⟨hle, hst, hat⟩ | ⟨hlt, hst, hat⟩
      · refine ⟨?_, ?_, ?_⟩
        · omega
        · omega
        · rw [hst, hat]
          simp
      · refine ⟨?_, ?_, ?_⟩
        · omega
        · omega
        · rw [hst, hat, hq]
          constructor
          · intro he
            cases he
          · intro h0
            omega

theorem InRange.insert (hM : 1 ≤ cfg.maxAttempts) (h : Inserts lib cfg l s r) :
    InRange cfg r := by
  obtain ⟨m, msg, a, minted, payload, x, -, -, -, -, -, rfl, -⟩ := h
  refine ⟨?_, ?_, ?_⟩
  · show 0 ≤ cfg.maxAttempts
    omega
  · exact Int.le_refl _
  · show SignalStatus.queued = .failed ↔ cfg.maxAttempts = 0
    constructor
    · intro he
      cases he
    · intro h0
      omega

theorem inRange_step (hM : 1 ≤ cfg.maxAttempts) (hinv : Inv t) (hl : l.Allowed (May lib cfg) t)
    (ha : (pipeline lib cfg).act l t = some u) (h : ∀ r ∈ t.rows, InRange cfg r) :
    ∀ r ∈ u.rows, InRange cfg r := by
  intro r' hr'
  rcases rows_backward hinv hl ha hr' with ⟨r, hr, rfl | ⟨i, k, c, x, -, he, hc⟩⟩ | hins
  · exact h r' hr
  · exact (h r hr).change he.queued hc
  · exact .insert hM hins

/-- What a row's later states keep of an earlier one. -/
theorem persistent_countdown (id : RowId) (attempts : Int) (status : SignalStatus) :
    (pipelineContract lib cfg).Persistent fun s => ∃ r ∈ s.rows, r.id = id ∧
      (0 ≤ r.attempts ∧ r.attempts ≤ attempts) ∧ (status ≠ .queued → r.status = status) := by
  rintro s l s' hinv - hl ha ⟨r, hr, hid, ⟨h0, hle⟩, hst⟩
  obtain ⟨r', hr', hs⟩ := rows_forward hinv hl ha hr
  refine ⟨r', hr', hs.id_eq.trans hid, ?_, ?_⟩
  · rcases hs with rfl | ⟨i, k, c, x, -, -, hc⟩
    · exact ⟨h0, hle⟩
    · cases hc with
      | published => exact ⟨h0, hle⟩
      | failed =>
          rw [Signal.markFailed_attempts]
          omega
      | attempt =>
          rcases Signal.recordAttemptFailure_cases s.now r with ⟨-, -, hat⟩ | ⟨hlt, -, hat⟩
          · rw [hat]
            omega
          · rw [hat]
            omega
  · intro hne
    rcases hs with rfl | ⟨i, k, c, x, -, he, -⟩
    · exact hst hne
    · exact absurd (he.queued.symm.trans (hst hne)) (Ne.symm hne)

/-! ## The retry job's publishes -/

theorem may_publish_retryJob {k : Context} {w : WorkerMessage}
    (h : May lib cfg .retryJob k (.publish w) s) :
    ∃ r ∈ s.rows, r.id = w.signalId ∧ r.awaitsRetry = true ∧
      (activity .retryJob s.trace).flight = .started r.id := by
  obtain hj | ⟨r, hr, hw, hid, hf, -⟩ := h
  · exact hj.elim
  · exact ⟨r, hr, hid.symm, hw, hf⟩

/-- Only a publish of the row by the retry job counts. -/
theorem retryPublishes_step (ha : (pipeline lib cfg).act l t = some u) (id : RowId) :
    retryPublishes id u.trace = retryPublishes id t.trace ∨
      (∃ k w x, l = .call .retryJob k (.publish w) x ∧ w.signalId = id) ∧
        retryPublishes id u.trace = retryPublishes id t.trace + 1 := by
  have htrace := act_trace ha
  unfold retryPublishes
  rw [htrace, List.countP_append]
  cases l with
  | call i k c x =>
      rw [traced, List.countP_singleton]
      cases i with
      | retryJob =>
          cases c with
          | publish w =>
              by_cases hid : w.signalId = id
              · refine .inr ⟨⟨k, w, x, rfl, hid⟩, ?_⟩
                rw [if_pos (by simp [Entry.retries, hid])]
                omega
              · left
                rw [if_neg (by simp [Entry.retries, hid])]
                omega
          | _ => exact .inl (Nat.zero_add _)
      | worker => exact .inl (Nat.zero_add _)
      | handshake n => exact .inl (Nat.zero_add _)
  | start i e => exact .inl (Nat.zero_add _)
  | env e => exact .inl (Nat.zero_add _)
  | crash i k => exact .inl (Nat.zero_add _)

/-- Once the job has published, its fan-out goes on until the publish is accounted
for. -/
theorem published_step (hl : l.Allowed (May lib cfg) t)
    (hrest : Label.Rested (pipelineContract lib cfg).post t l) (hc : unaccounted t l = false)
    (ha : (pipeline lib cfg).act l t = some u)
    (h : (activity .retryJob t.trace).flight = .published id) :
    (activity .retryJob u.trace).flight = .published id ∨
      ∃ k c x, l = .call .retryJob k c x ∧ x.applies = true ∧ c.accounts = some id := by
  by_cases hp : l.party = some .retryJob
  · cases l with
    | call i k c x =>
        cases hp
        have hl : May lib cfg .retryJob k c t := hl
        have hflight : (activity .retryJob u.trace).flight =
            ((activity .retryJob t.trace).after c (respond lib x t c)).flight := by
          rw [act_trace ha, traced, List.singleton_append, activity_call]
        have happlies : ∀ id', c.accounts = some id' → x.applies = true := by
          intro id' hacc
          have hpub : retryPublished t = true := by
            rw [retryPublished, h]
          simpa [unaccounted, hacc, hpub] using hc
        rw [hflight]
        cases c with
        | getStrict key => left; cases respond lib x t (.getStrict key) <;> exact h
        | mark mark =>
            cases mark with
            | fanout id' =>
                rw [(may_fanout hl).1] at h
                cases h
            | answered answer => exact .inl h
        | publish w =>
            obtain ⟨r, -, -, -, hf⟩ := may_publish_retryJob hl
            rw [hf] at h
            cases h
        | markPublished id' =>
            obtain hj | ⟨r, -, -, hid, hf, -⟩ := hl
            · exact hj.elim
            · rw [hf] at h
              cases h
              exact .inr ⟨k, _, x, rfl, happlies id' rfl, congrArg some hid⟩
        | markFailed id' =>
            obtain hj | ⟨r, -, -, -, hf⟩ := hl
            · exact hj.elim
            · rw [hf] at h
              cases h
        | recordAttemptFailure id' =>
            obtain ⟨hf, -⟩ | ⟨r, -, -, hid, hf⟩ := hl
            · rw [hf] at h
              cases h
            · rw [hf] at h
              cases h
              exact .inr ⟨k, _, x, rfl, happlies id' rfl, congrArg some hid⟩
        | _ => exact .inl h
    | start i e =>
        cases hp
        obtain ⟨_, hidle⟩ := hrest
        have hidle : (activity .retryJob t.trace).flight = .idle := hidle
        rw [hidle] at h
        cases h
    | env e => cases hp
    | crash i k =>
        cases hp
        rw [unaccounted, retryPublished, h] at hc
        cases hc
  · rw [act_activity ha hp]
    exact .inl h

/-- What accounting for a publish makes of the row. -/
theorem accounted_row (hinv : Inv t) {i : Party} {k : Context} {c : Call} {x : Choice}
    (ha : (pipeline lib cfg).act (.call i k c x) t = some u) (hx : x.applies = true)
    (hacc : c.accounts = some r.id) (hr : r ∈ t.rows) (hr' : r' ∈ u.rows) (hid : r'.id = r.id) :
    r' = r.markPublished ∨ r' = r.recordAttemptFailure t.now := by
  rw [act_call] at ha
  subst ha
  rw [Shared.log_rows, effect_rows, if_pos hx] at hr'
  cases c with
  | markPublished id' =>
      cases hacc
      exact .inl (Signal.eq_of_mem_update hinv.ids hr hr' hid)
  | recordAttemptFailure id' =>
      cases hacc
      exact .inr (Signal.eq_of_mem_update hinv.ids hr hr' hid)
  | _ => cases hacc

/-! ## The budget of one row -/

/-- The publishes the retry job has made for a row. None before a failure was recorded,
since the row is the worker's until then; below the budget at any time; and while the
row waits, no more than its counter has come down by, give or take the one that is being
made. -/
structure Spent (cfg : Config) (s : Shared) (r : Signal) : Prop where
  first : r.firstFanoutUnconfirmed = true → retryPublishes r.id s.trace = 0
  used : (retryPublishes r.id s.trace : Int) ≤ cfg.maxAttempts - 1
  waiting : r.awaitsRetry = true →
    (retryPublishes r.id s.trace : Int) + r.attempts ≤ cfg.maxAttempts - 1 ∨
      (activity .retryJob s.trace).flight = .published r.id ∧
        (retryPublishes r.id s.trace : Int) + r.attempts ≤ cfg.maxAttempts

theorem Entitled.waits {i : Party} (h : Entitled i r) :
    (i = .worker ∧ r.firstFanoutUnconfirmed = true) ∨ (i = .retryJob ∧ r.awaitsRetry = true) := by
  rcases i with _ | _ | n
  · exact .inl ⟨rfl, h⟩
  · exact .inr ⟨rfl, h⟩
  · exact h.elim

/-- The publish itself: its row has an attempt left for it. -/
theorem Spent.publish (hinv : Inv t) (hrange : ∀ r ∈ t.rows, InRange cfg r) {k : Context}
    {w : WorkerMessage} {x : Choice} (hl : May lib cfg .retryJob k (.publish w) t)
    (ha : (pipeline lib cfg).act (.call .retryJob k (.publish w) x) t = some u)
    (hr : r ∈ t.rows) (hw : w.signalId = r.id)
    (hn : retryPublishes r.id u.trace = retryPublishes r.id t.trace + 1)
    (h : Spent cfg t r) : Spent cfg u r := by
  obtain ⟨q, hq, hid, hwait, hf⟩ := may_publish_retryJob hl
  have hqr := Signal.eq_of_id hinv.ids hq hr (hid.trans hw)
  subst hqr
  have hqueued : q.status = .queued := Entitled.queued (i := .retryJob) hwait
  have hpos := (hrange q hr).pos hqueued
  have hle : (retryPublishes q.id t.trace : Int) + q.attempts ≤ cfg.maxAttempts - 1 := by
    rcases h.waiting hwait with hle | ⟨hpub, -⟩
    · exact hle
    · rw [hf] at hpub
      cases hpub
  refine ⟨?_, ?_, ?_⟩
  · intro hu
    exact absurd hwait (by
      simp only [Signal.firstFanoutUnconfirmed, Bool.and_eq_true, beq_iff_eq] at hu
      simp [Signal.awaitsRetry, hu.2])
  · rw [hn]
    omega
  · intro _
    refine .inr ⟨?_, ?_⟩
    · rw [act_trace ha, traced, List.singleton_append, activity_call]
      show (activity .retryJob t.trace).flight.publish = .published q.id
      rw [hf]
      rfl
    · rw [hn]
      omega

/-- A recorded failure takes one attempt for every publish made. -/
theorem Spent.attempt (hrange : InRange cfg r) (h : Spent cfg t r) {i : Party}
    (he : Entitled i r) (hw : (r.recordAttemptFailure t.now).awaitsRetry = true) :
    (retryPublishes r.id t.trace : Int) + (r.recordAttemptFailure t.now).attempts ≤
      cfg.maxAttempts - 1 := by
  have hup := hrange.upper
  rcases Signal.recordAttemptFailure_cases t.now r with ⟨-, hst, -⟩ | ⟨-, -, hat⟩
  · simp [Signal.awaitsRetry, hst] at hw
  · rw [hat]
    rcases he.waits with ⟨-, hu⟩ | ⟨-, hwait⟩
    · rw [h.first hu]
      omega
    · rcases h.waiting hwait with hle | ⟨-, hle⟩ <;> omega

theorem Spent.step (hinv : Inv t) (hl : l.Allowed (May lib cfg) t)
    (hrest : Label.Rested (pipelineContract lib cfg).post t l) (hc : unaccounted t l = false)
    (ha : (pipeline lib cfg).act l t = some u) (hrange : ∀ r ∈ t.rows, InRange cfg r)
    (hr : r ∈ t.rows) (hr' : r' ∈ u.rows) (hs : RowStep l t r r') (h : Spent cfg t r) :
    Spent cfg u r' := by
  rcases retryPublishes_step ha r.id with hn | ⟨⟨k, w, x, rfl, hw⟩, hn⟩
  · have hwaiting : r'.awaitsRetry = true →
        (retryPublishes r.id t.trace : Int) + r'.attempts ≤ cfg.maxAttempts - 1 ∨
          (activity .retryJob u.trace).flight = .published r.id ∧
            (retryPublishes r.id t.trace : Int) + r'.attempts ≤ cfg.maxAttempts := by
      intro hwait'
      rcases id hs with rfl | ⟨i, k, c, x, -, he, hch⟩
      · rcases h.waiting hwait' with hle | ⟨hpub, hle⟩
        · exact .inl hle
        · rcases published_step hl hrest hc ha hpub with hpub' | ⟨k, c, x, rfl, hx, hacc⟩
          · exact .inr ⟨hpub', hle⟩
          · left
            rcases accounted_row hinv ha hx hacc hr hr' rfl with heq | heq
            · rw [heq] at hwait'
              simp [Signal.awaitsRetry] at hwait'
            · have hle' := h.attempt (hrange _ hr) (i := .retryJob) (heq ▸ hwait') (heq ▸ hwait')
              rw [← heq] at hle'
              exact hle'
      · cases hch with
        | published => simp [Signal.awaitsRetry] at hwait'
        | failed => simp [Signal.awaitsRetry] at hwait'
        | attempt => exact .inl (h.attempt (hrange r hr) he hwait')
    refine ⟨?_, ?_, ?_⟩
    · intro hu
      rw [hs.id_eq, hn]
      rcases hs with rfl | ⟨i, k, c, x, -, -, hch⟩
      · exact h.first hu
      · rw [hch.confirmed] at hu
        cases hu
    · rw [hs.id_eq, hn]
      exact h.used
    · rw [hs.id_eq, hn]
      exact hwaiting
  · have hrr : r' = r := by
      rcases hs with rfl | ⟨i, k', c, x', hlab, -, hch⟩
      · rfl
      · cases hlab
        cases hch
    subst hrr
    exact h.publish hinv hrange hl ha hr hw hn

/-! ## The budget in every run -/

/-- The invariant of the runs in which every publish is accounted for, row by row. -/
structure Accounted (cfg : Config) (s : Shared) : Prop where
  range : ∀ r ∈ s.rows, InRange cfg r
  spent : ∀ r ∈ s.rows, Spent cfg s r
  known : ∀ id, retryPublishes id s.trace ≠ 0 → ∃ r ∈ s.rows, r.id = id

theorem known_step (hinv : Inv t) (hl : l.Allowed (May lib cfg) t)
    (ha : (pipeline lib cfg).act l t = some u)
    (h : ∀ id, retryPublishes id t.trace ≠ 0 → ∃ r ∈ t.rows, r.id = id) :
    ∀ id, retryPublishes id u.trace ≠ 0 → ∃ r ∈ u.rows, r.id = id := by
  intro id hne
  have hold : ∃ r ∈ t.rows, r.id = id := by
    rcases retryPublishes_step ha id with hn | ⟨⟨k, w, x, rfl, rfl⟩, -⟩
    · exact h id (hn ▸ hne)
    · have hl : May lib cfg .retryJob k (.publish w) t := hl
      obtain ⟨r, hr, hid, -⟩ := may_publish_retryJob hl
      exact ⟨r, hr, hid⟩
  obtain ⟨r, hr, hid⟩ := hold
  obtain ⟨r', hr', hs⟩ := rows_forward hinv hl ha hr
  exact ⟨r', hr', hs.id_eq.trans hid⟩

theorem Spent.insert (hM : 1 ≤ cfg.maxAttempts) (ha : (pipeline lib cfg).act l t = some u)
    (hknown : ∀ id, retryPublishes id t.trace ≠ 0 → ∃ r ∈ t.rows, r.id = id)
    (hins : Inserts lib cfg l t r) : Spent cfg u r := by
  have hzero : retryPublishes r.id u.trace = 0 := by
    have hold : retryPublishes r.id t.trace = 0 := by
      by_contra hne
      obtain ⟨q, hq, hid⟩ := hknown r.id hne
      exact hins.id_fresh hq hid
    rcases retryPublishes_step ha r.id with hn | ⟨⟨k, w, x, rfl, -⟩, -⟩
    · rw [hn, hold]
    · obtain ⟨m, msg, a, minted, payload, x', hlab, -⟩ := hins
      cases hlab
  refine ⟨fun _ => hzero, ?_, ?_⟩
  · rw [hzero]
    omega
  · obtain ⟨m, msg, a, minted, payload, x, -, -, -, -, -, rfl, -⟩ := hins
    intro hw
    simp [Signal.awaitsRetry, newRow, Signal.stored, Signal.ofPayload] at hw

theorem Accounted.step (hM : 1 ≤ cfg.maxAttempts) (hinv : Inv t)
    (hl : l.Allowed (May lib cfg) t)
    (hrest : Label.Rested (pipelineContract lib cfg).post t l) (hc : unaccounted t l = false)
    (ha : (pipeline lib cfg).act l t = some u) (h : Accounted cfg t) : Accounted cfg u := by
  refine ⟨inRange_step hM hinv hl ha h.range, ?_, known_step hinv hl ha h.known⟩
  intro r' hr'
  rcases rows_backward hinv hl ha hr' with ⟨r, hr, hs⟩ | hins
  · exact (h.spent r hr).step hinv hl hrest hc ha h.range hr hr' hs
  · exact .insert hM ha h.known hins

/-- In every run in which each publish of the retry job is accounted for, the
budget holds. All of it but the bound on publishes holds in every run. -/
theorem attempt_budget_unless_unaccounted :
    AttemptBudget lib cfg fun s l => unaccounted s l = false := by
  intro hM now settings p r hrun hr
  obtain ⟨hgood, -⟩ := reaches_good hrun
  have hJ : Accounted cfg p.shared := by
    refine pipeline_holds.induct (J := Accounted cfg) good_initial hrun ⟨?_, ?_, ?_⟩
      fun t l u ht _ hl hrest hc ha hj => hj.step hM ht hl hrest hc ha
    · intro q hq
      cases hq
    · intro q hq
      cases hq
    · intro id hne
      exact absurd rfl hne
  have hrange := hJ.range r hr
  refine ⟨⟨hrange.lower, hrange.upper⟩, hrange.failed, ?_, (hJ.spent r hr).used⟩
  intro p' hrun'
  have hcount : (pipelineContract lib cfg).Persistent _ :=
    persistent_countdown r.id r.attempts r.status
  obtain ⟨r', hr', hid, ⟨-, hle⟩, hst⟩ := hcount.reaches pipeline_holds hgood hrun'
    ⟨r, hr, rfl, ⟨hrange.lower, Int.le_refl _⟩, fun _ => rfl⟩
  exact ⟨r', hr', hid, hle, hst⟩

end

/-! ## A retry nobody accounts for -/

namespace Sample

/-- The alert's first publish fails and is recorded. -/
def firstFailure : List (Machine.Move Party Choice Event) :=
  [.env (.store entry), .start .worker (.deliver 0)] ++ calls .worker 5 ++
    [.call .worker failed] ++ calls .worker 3 ++ [.env (.pass 100000000)]

/-- A tick publishes the row, and the row is not marked. -/
def unmarkedTick : List (Machine.Move Party Choice Event) :=
  .start .retryJob .tick :: calls .retryJob 7 ++ [.call .retryJob failed]

/-- A tick publishes the row and marks it. -/
def markedTick : List (Machine.Move Party Choice Event) :=
  .start .retryJob .tick :: calls .retryJob 8

end Sample

/-- Three attempts, and the retry job publishes three times. -/
theorem not_attemptBudget : ¬ AttemptBudget Sample.lib Sample.cfg fun _ _ => True := by
  intro h
  obtain ⟨p, hrun, hp⟩ := Sample.run_any
    (Sample.firstFailure ++ Sample.unmarkedTick ++ Sample.unmarkedTick ++ Sample.unmarkedTick)
    (fun p => p.shared.rows.any fun r => r.id == 7 && retryPublishes 7 p.shared.trace == 3)
    (by decide +kernel)
  simp only [List.any_eq_true, Bool.and_eq_true, beq_iff_eq] at hp
  obtain ⟨r, hr, hid, hn⟩ := hp
  have hle := (h (by decide) _ _ p r hrun hr).2.2.2
  rw [hid, hn] at hle
  revert hle
  decide

/-- A run that keeps its accounts: one retry of two, after which the row is
`PUBLISHED`. -/
theorem attempt_budget_unless_unaccounted_once : ∃ p r,
    (pipeline Sample.lib Sample.cfg).Reaches (fun s l => unaccounted s l = false)
      (startPool 0 Sample.unset) p ∧ r ∈ p.shared.rows ∧ r.status = .published ∧
    retryPublishes r.id p.shared.trace = 1 ∧
    (retryPublishes r.id p.shared.trace : Int) ≤ Sample.cfg.maxAttempts - 1 := by
  have hany : (((pipeline Sample.lib Sample.cfg).replayIf (fun s l => !unaccounted s l)
      (Sample.firstFailure ++ Sample.markedTick) (startPool 0 Sample.unset)).any fun p =>
        p.shared.rows.any fun r => r.status == .published &&
          retryPublishes r.id p.shared.trace == 1) = true := by
    decide +kernel
  simp only [Option.any_eq_true, List.any_eq_true, Bool.and_eq_true, beq_iff_eq] at hany
  obtain ⟨p, hreplay, r, hr, hst, hn⟩ := hany
  have hrun : (pipeline Sample.lib Sample.cfg).Reaches (fun s l => unaccounted s l = false)
      (startPool 0 Sample.unset) p :=
    (reaches_of_replayIf hreplay).mono fun s l hok => by simpa using hok
  exact ⟨p, r, hrun, hr, hst, hn,
    (attempt_budget_unless_unaccounted (by decide) _ _ p r hrun hr).2.2.2⟩

end TradingBroker
