import TradingBroker.Signals.Runs

/-!
# A row is fanned out by one party at a time

The worker's fan-outs of a row come first, the retry job's after the first
recorded failure, never two at once, and none after the row is `PUBLISHED` or
`FAILED`. Nothing of this needs the repository to be honest about its failures:
a write that was applied and reported as failed only makes the worker look the
row up again, and it then finds it is no longer its own.

The proof is about one column. `last_attempt` goes from `NULL` to a time once
and never back, so the rows that are the worker's and the rows that are the
retry job's are apart at any time and a row changes hands once. A party that is
in a fan-out is entitled to its row (`Flying`), and keeps it until its own last
call, because a call that would take the row out of its hands is one only that
party may make.
-/

namespace TradingBroker

open TradingBroker.Lib TradingBroker.Lib.Machine TradingBroker.Lib.Contract

/-- A failed attempt that was recorded, and reported as recorded. -/
def Entry.recordsFailure : Entry → Option RowId
  | .call _ _ (.recordAttemptFailure id) row => if row.isSome then some id else none
  | _ => none

def FailureRecorded (s : Shared) (id : RowId) : Prop :=
  ∃ e ∈ s.trace, e.recordsFailure = some id

/-- The party has started a fan-out of the row and has not made its last call. -/
def InFlight (s : Shared) (i : Party) (id : RowId) : Prop :=
  (activity i s.trace).flight.signalId? = some id

/-- The party may start a fan-out of the row now. -/
def StartsFanout (lib : Libraries) (cfg : Config)
    (p : Pool Party Context Shared Call Call.Result Fault) (i : Party) (id : RowId) : Prop :=
  ∃ k x q, (pipeline lib cfg).Step p (.call i k (.mark (.fanout id)) x) q

/-- Whoever is in a fan-out is entitled to its row. As no row has two parties entitled
to it, no two fan-outs of a row are in flight at once. -/
def Flying (s : Shared) : Prop :=
  ∀ i id, InFlight s i id → ∃ r ∈ s.rows, r.id = id ∧ Entitled i r

section
variable {lib : Libraries} {cfg : Config} {now : Int} {settings : String → Option String}
  {p : Pool Party Context Shared Call Call.Result Fault} {s t u : Shared}
  {l : Label Party Context Choice Event Call}

/-- A call either starts a fan-out, or leaves its caller in the one it is in, or
ends it. -/
theorem after_signalId {a : Activity} {c : Call} {r : c.Result} {id : RowId}
    (h : (a.after c r).flight.signalId? = some id) :
    c = .mark (.fanout id) ∨ a.flight.signalId? = some id := by
  cases c with
  | getStrict key => cases r <;> exact .inr h
  | mark mark =>
      cases mark with
      | fanout id' =>
          left
          cases h
          rfl
      | answered answer => exact .inr h
  | publish w =>
      right
      cases ha : a.flight <;> simp only [Activity.after, Flight.publish, ha] at h <;> exact h
  | markPublished id' => cases h
  | markFailed id' => cases h
  | recordAttemptFailure id' => cases h
  | _ => exact .inr h

/-- The calls that change a row end their caller's fan-out. -/
theorem RowChange.lands {c : Call} {r r' : Signal} (h : RowChange t r c r') (a : Activity)
    (b : c.Result) : (a.after c b).flight.signalId? = none := by
  cases h <;> rfl

theorem may_fanout {i : Party} {k : Context} {id : RowId}
    (h : May lib cfg i k (.mark (.fanout id)) s) :
    (activity i s.trace).flight = .idle ∧ ∃ r ∈ s.rows, r.id = id ∧ Entitled i r := by
  rcases i with _ | _ | n
  · cases k with
    | none => exact h.elim
    | some m =>
        obtain ⟨msg, a, hat, hw | ⟨-, r, hr, -, hu, -, -, -, -, hid, hidle⟩⟩ := h
        · exact hw.elim
        · rw [hat.activity]
          exact ⟨hidle, r, hr, hid.symm, hu⟩
  · obtain hj | ⟨r, hr, hw, hid, hidle⟩ := h
    · exact hj.elim
    · exact ⟨hidle, r, hr, hid.symm, hw⟩
  · exact h.elim

theorem flying_step (hinv : Inv t) (hl : l.Allowed (May lib cfg) t)
    (ha : (pipeline lib cfg).act l t = some u) (h : Flying t) : Flying u := by
  intro i id hf
  by_cases hp : l.party = some i
  · cases l with
    | call j k c x =>
        cases hp
        have hu := ha
        rw [act_call] at hu
        subst hu
        rw [InFlight, Shared.log_trace, effect_trace, activity_call] at hf
        have hrow : ∃ r ∈ t.rows, r.id = id ∧ Entitled i r := by
          rcases after_signalId hf with rfl | hold
          · exact (may_fanout hl).2
          · exact h i id hold
        obtain ⟨r, hr, hid, he⟩ := hrow
        obtain ⟨r', hr', rfl | ⟨j', k', c', x', hlab, -, hc⟩⟩ := rows_forward hinv hl ha hr
        · exact ⟨r', hr', hid, he⟩
        · cases hlab
          rw [hc.lands] at hf
          cases hf
    | start j e =>
        cases hp
        rcases act_start ha with ⟨m, -, rfl, -, rfl⟩ | ⟨-, rfl⟩
        · rw [InFlight, Shared.log_trace, activity_start] at hf
          cases hf
        · rw [InFlight, Shared.log_trace, activity_start] at hf
          cases e <;> cases hf
    | env e => cases hp
    | crash j k =>
        cases hp
        rw [act_crash ha, InFlight, Shared.log_trace, activity_crash] at hf
        cases hf
  · rw [InFlight, act_activity ha hp] at hf
    obtain ⟨r, hr, hid, he⟩ := h i id hf
    exact ⟨r, rows_kept hinv hl ha hp hr he, hid, he⟩

/-- A failure reported as recorded is in its row. -/
theorem recorded_step (hinv : Inv t) (hinv' : Inv u) (hl : l.Allowed (May lib cfg) t)
    (ha : (pipeline lib cfg).act l t = some u)
    (h : ∀ id, FailureRecorded t id → Failed id t) : ∀ id, FailureRecorded u id → Failed id u := by
  rintro id ⟨e, he, hrec⟩
  rw [act_trace ha, List.mem_append] at he
  rcases he with hnew | hold
  · cases l with
    | call i k c x =>
        rw [traced, List.mem_singleton] at hnew
        subst hnew
        cases c with
        | recordAttemptFailure id' =>
            simp only [Entry.recordsFailure, respond] at hrec
            cases hx : x.reports with
            | false => simp [hx] at hrec
            | true =>
                cases hq : Signal.byId t.rows id' with
                | none => simp [hx, hq] at hrec
                | some q =>
                    simp only [hx, hq, if_true, Option.map_some, Option.isSome_some,
                      Option.some.injEq] at hrec
                    subst hrec
                    obtain ⟨hmem, rfl⟩ := Signal.byId_some hq
                    rw [act_call] at ha
                    subst ha
                    refine ⟨q.recordAttemptFailure t.now, ?_, by simp, by simp⟩
                    rw [Shared.log_rows, effect_rows, if_pos (applies_of_reports hx)]
                    exact Signal.mem_update.2 ⟨q, hmem, by rw [if_pos rfl]⟩
        | _ => cases hrec
    | start i e' =>
        rw [traced, List.mem_singleton] at hnew
        subst hnew
        cases hrec
    | env e' => cases hnew
    | crash i k =>
        rw [traced, List.mem_singleton] at hnew
        subst hnew
        cases hrec
  · exact persistent_failed id t l u hinv hinv' hl ha (h id ⟨e, hold, hrec⟩)

/-- A row that is no longer queued stays as it is. -/
theorem persistent_closed (r : Signal) (hst : r.status ≠ .queued) :
    (pipelineContract lib cfg).Persistent fun s => r ∈ s.rows := by
  rintro s l s' hinv - hl ha hr
  obtain ⟨r', hr', rfl | ⟨i, k, c, x, -, he, -⟩⟩ := rows_forward hinv hl ha hr
  · exact hr'
  · exact absurd he.queued hst

theorem runs_flying (hrun : (pipeline lib cfg).Runs (startPool now settings) p) :
    Flying p.shared := by
  refine (reaches_good hrun).2.induct ?_ fun t l u ht _ hl _ ha h => flying_step ht hl ha h
  intro i id hf
  cases hf

theorem runs_recorded (hrun : (pipeline lib cfg).Runs (startPool now settings) p) :
    ∀ id, FailureRecorded p.shared id → Failed id p.shared := by
  refine (reaches_good hrun).2.induct ?_
    fun t l u ht hu hl _ ha h => recorded_step ht hu hl ha h
  rintro id ⟨e, he, -⟩
  cases he

/-- The fan-out that starts is its party's only one, and of a row that is its
party's. -/
theorem startsFanout_entitled (hrun : (pipeline lib cfg).Runs (startPool now settings) p)
    {i : Party} {id : RowId} (h : StartsFanout lib cfg p i id) :
    (activity i p.shared.trace).flight = .idle ∧ ∃ r ∈ p.shared.rows, r.id = id ∧
      Entitled i r := by
  obtain ⟨k, x, q, hs⟩ := h
  exact may_fanout (reaches_step hrun hs).1

/-- The worker fans a row out only while no failure of it is recorded, and the
retry job only once one is; when a fan-out starts no other of the row is in
flight, and two never are; and no fan-out starts once the row has left
`QUEUED`. -/
theorem fanouts_take_turns (hrun : (pipeline lib cfg).Runs (startPool now settings) p)
    (id : RowId) :
    (∀ i, StartsFanout lib cfg p i id →
      (i = .worker ∧ ¬ FailureRecorded p.shared id ∧ ¬ Failed id p.shared) ∨
        (i = .retryJob ∧ Failed id p.shared)) ∧
    (∀ i, StartsFanout lib cfg p i id → ∀ j, ¬ InFlight p.shared j id) ∧
    (∀ i j, InFlight p.shared i id → InFlight p.shared j id → i = j) ∧
    (∀ r ∈ p.shared.rows, r.id = id → r.status ≠ .queued →
      ∀ p' i, (pipeline lib cfg).Runs p p' → ¬ StartsFanout lib cfg p' i id) := by
  have hinv := reaches_inv hrun
  have hfly := runs_flying hrun
  refine ⟨?_, ?_, ?_, ?_⟩
  · intro i hi
    obtain ⟨-, r, hr, hid, he⟩ := startsFanout_entitled hrun hi
    rcases i with _ | _ | n
    · have hlast : r.lastAttempt = none := by
        simp only [Entitled, Signal.firstFanoutUnconfirmed, Bool.and_eq_true, beq_iff_eq] at he
        exact he.2
      have hnot : ¬ Failed id p.shared := by
        rintro ⟨q, hq, hqid, hqlast⟩
        rw [Signal.eq_of_id hinv.ids hq hr (hqid.trans hid.symm)] at hqlast
        exact hqlast hlast
      exact .inl ⟨rfl, fun hrec => hnot (runs_recorded hrun id hrec), hnot⟩
    · refine .inr ⟨rfl, r, hr, hid, ?_⟩
      simp only [Entitled, Signal.awaitsRetry, Bool.and_eq_true, bne_iff_ne] at he
      exact he.2
    · exact he.elim
  · intro i hi j hj
    obtain ⟨hidle, r, hr, hid, he⟩ := startsFanout_entitled hrun hi
    obtain ⟨q, hq, hqid, hqe⟩ := hfly j id hj
    rw [Signal.eq_of_id hinv.ids hq hr (hqid.trans hid.symm)] at hqe
    have hij := he.unique hqe
    subst hij
    rw [InFlight, hidle] at hj
    cases hj
  · intro i j hi hj
    obtain ⟨r, hr, hid, he⟩ := hfly i id hi
    obtain ⟨q, hq, hqid, hqe⟩ := hfly j id hj
    rw [Signal.eq_of_id hinv.ids hq hr (hqid.trans hid.symm)] at hqe
    exact he.unique hqe
  · intro r hr hid hst p' i hrun' hi
    have hr' : r ∈ p'.shared.rows :=
      (persistent_closed r hst).reaches pipeline_holds (reaches_good hrun).1 hrun' hr
    have hrun'' := Reaches.trans hrun hrun'
    obtain ⟨-, q, hq, hqid, he⟩ := startsFanout_entitled hrun'' hi
    rw [Signal.eq_of_id (reaches_inv hrun'').ids hq hr' (hqid.trans hid.symm)] at he
    exact hst he.queued

end

/-- In a run where the alert's only publish fails, its failure is recorded and the
fan-outs of row 7 are the retry job's from there on. -/
theorem fanouts_take_turns_after_failure :
    ∃ p, FailureRecorded p.shared 7 ∧
      (∀ i, StartsFanout Sample.lib Sample.cfg p i 7 →
        (i = .worker ∧ ¬ FailureRecorded p.shared 7 ∧ ¬ Failed 7 p.shared) ∨
          (i = .retryJob ∧ Failed 7 p.shared)) ∧
      (∀ i, StartsFanout Sample.lib Sample.cfg p i 7 → ∀ j, ¬ InFlight p.shared j 7) ∧
      (∀ i j, InFlight p.shared i 7 → InFlight p.shared j 7 → i = j) ∧
      (∀ r ∈ p.shared.rows, r.id = 7 → r.status ≠ .queued →
        ∀ p' i, (pipeline Sample.lib Sample.cfg).Runs p p' →
          ¬ StartsFanout Sample.lib Sample.cfg p' i 7) := by
  obtain ⟨p, hrun, hp⟩ := Sample.run_any
    ([.env (.store Sample.entry), .start .worker (.deliver 0)] ++
      Sample.calls .worker 5 ++ [.call .worker Sample.failed] ++ Sample.calls .worker 3)
    (fun p => p.shared.trace.any fun e => e.recordsFailure == some 7) (by decide +kernel)
  refine ⟨p, ?_, fanouts_take_turns hrun 7⟩
  simp only [List.any_eq_true, beq_iff_eq] at hp
  exact hp

end TradingBroker
