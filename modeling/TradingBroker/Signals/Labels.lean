import TradingBroker.Signals.Budget

/-!
# The number of an attempt

A fan-out is broadcast with its number among the attempts of its signal, so that the line
`Attempt: 2` can be shown, and with none if it is the first. The number is worked out from the
attempts that were left before it. In a run in which the worker makes the first attempt, the
retry job all others, and each is recorded, what is left says which attempt it is; but the
shown number is suppressed by what is left, not by what it is, and the two go together for a
budget of three only. `attempt_labels_iff` says for which attempts of which budgets they do.

The invariant (`Attempted`) counts the other way round: fan-outs started and attempts left
make up the budget, one more while the retry job is in the middle of an attempt that is
not taken off yet. A run is `orderly` if that is how attempts come about in it at all. In
any other run the number of fan-outs and the counter come apart, and there is no telling
which of the two the label is to be held against.
-/

namespace TradingBroker

open TradingBroker.Lib TradingBroker.Lib.Machine TradingBroker.Lib.Contract

/-- The entry starts a fan-out. -/
def Entry.fanout : Entry → Option RowId
  | .call _ _ (.mark (.fanout id)) _ => some id
  | _ => none

/-- How many fan-outs of the row have been started. -/
def fanouts (id : RowId) (t : List Entry) : Nat := t.countP fun e => e.fanout == some id

/-- The row whose fan-out the call ends, and records the end of. -/
def Call.ends : Call → Option RowId
  | .markPublished id => some id
  | .markFailed id => some id
  | .recordAttemptFailure id => some id
  | _ => none

/-- The worker fans out a row that has not been; the retry job ends every fan-out it starts,
with a write that is carried out, and ends no other. -/
def orderly (s : Shared) : Label Party Context Choice Event Call → Bool
  | .call .worker _ (.mark (.fanout id)) _ => fanouts id s.trace == 0
  | .call .retryJob _ c x =>
      c.ends.isNone || x.applies && (activity .retryJob s.trace).flight != .idle
  | .crash .retryJob _ => (activity .retryJob s.trace).flight == .idle
  | _ => true

/-- What the `k`-th attempt is to be broadcast with. -/
def attemptLabel (k : Nat) : Option Int := if k = 1 then none else some k

/-- Every broadcast of a run whose moves meet `cond` carries the number its attempt is to
carry. -/
def LabelsCount (lib : Libraries) (cfg : Config)
    (cond : Shared → Label Party Context Choice Event Call → Prop) : Prop :=
  1 ≤ cfg.maxAttempts → ∀ now settings p i k payload n x q id,
    (pipeline lib cfg).Reaches cond (startPool now settings) p →
    (pipeline lib cfg).Step p (.call i k (.broadcast payload n) x) q →
    (activity i p.shared.trace).flight = .published id →
    n = attemptLabel (fanouts id p.shared.trace)

/-- The attempts whose number is right. -/
def LabelFits (maxAttempts : Int) (k : Nat) : Prop :=
  k = 1 ∧ 3 ≤ maxAttempts ∨ 2 ≤ k ∧ maxAttempts - 1 ≤ k

section
variable {lib : Libraries} {cfg : Config} {s t u : Shared} {r r' : Signal} {id : RowId}
  {l : Label Party Context Choice Event Call}

/-! ## What a step does to a count -/

theorem fanouts_cons (e : Entry) (t : List Entry) :
    fanouts id (e :: t) = fanouts id t + if e.fanout = some id then 1 else 0 := by
  simp only [fanouts, List.countP_cons, beq_iff_eq]

/-- Whoever is in a fan-out has started it. -/
theorem fanouts_of_inFlight {i : Party} {t : List Entry}
    (h : (activity i t).flight.signalId? = some id) : 1 ≤ fanouts id t := by
  induction t with
  | nil => cases h
  | cons e t ih =>
      rw [fanouts_cons]
      by_cases hp : e.party = i
      · cases e with
        | call j k c b =>
            have hj : j = i := hp
            subst hj
            rw [activity_call] at h
            rcases after_signalId h with rfl | hold
            · rw [Entry.fanout, if_pos rfl]
              omega
            · have := ih hold
              omega
        | start j e =>
            have hj : j = i := hp
            subst hj
            rw [activity_start] at h
            cases e <;> cases h
        | crash j =>
            have hj : j = i := hp
            subst hj
            rw [activity_crash] at h
            cases h
      · rw [activity_other hp] at h
        have := ih h
        omega

theorem fanouts_step (ha : (pipeline lib cfg).act l t = some u) (id : RowId) :
    fanouts id u.trace = fanouts id t.trace ∨
      (∃ i k x, l = .call i k (.mark (.fanout id)) x) ∧
        fanouts id u.trace = fanouts id t.trace + 1 := by
  rw [act_trace ha]
  cases l with
  | call i k c x =>
      rw [traced, List.singleton_append, fanouts_cons]
      by_cases h : (Entry.call i k c (respond lib x t c)).fanout = some id
      · rw [if_pos h]
        refine .inr ⟨?_, rfl⟩
        cases c with
        | mark m =>
            cases m with
            | fanout id' =>
                cases h
                exact ⟨i, k, x, rfl⟩
            | answered a => cases h
        | _ => cases h
      · rw [if_neg h]
        exact .inl rfl
  | start i e => exact .inl (fanouts_cons _ _)
  | env e => exact .inl rfl
  | crash i k => exact .inl (fanouts_cons _ _)

/-- Other calls leave their caller where it is. -/
theorem after_signalId_eq {a : Activity} {c : Call} {b : c.Result} (hend : c.ends = none)
    (hfan : ∀ id, c ≠ .mark (.fanout id)) :
    (a.after c b).flight.signalId? = a.flight.signalId? := by
  cases c with
  | getStrict key => cases b <;> rfl
  | mark m =>
      cases m with
      | fanout id => exact absurd rfl (hfan id)
      | answered answer => rfl
  | publish w =>
      show a.flight.publish.signalId? = a.flight.signalId?
      cases a.flight <;> rfl
  | markPublished id => cases hend
  | markFailed id => cases hend
  | recordAttemptFailure id => cases hend
  | _ => rfl

/-- The retry job ends the fan-out it is in. -/
theorem inFlight_of_ends {k : Context} {c : Call} (h : May lib cfg .retryJob k c s)
    (hc : c.ends = some id) (hne : (activity .retryJob s.trace).flight ≠ .idle) :
    InFlight s .retryJob id := by
  unfold InFlight
  cases c with
  | markPublished id' =>
      cases hc
      obtain hj | ⟨r, -, -, rfl, hf, -⟩ := h
      · exact hj.elim
      · rw [hf]
        rfl
  | markFailed id' =>
      cases hc
      obtain hj | ⟨r, -, -, rfl, hf⟩ := h
      · exact hj.elim
      · rw [hf]
        rfl
  | recordAttemptFailure id' =>
      cases hc
      obtain ⟨hidle, -⟩ | ⟨r, -, -, rfl, hf⟩ := h
      · exact absurd hidle hne
      · rw [hf]
        rfl
  | _ => cases hc

theorem not_inFlight_of_idle {i : Party} (h : (activity i s.trace).flight = .idle) (id : RowId) :
    ¬ InFlight s i id := by
  intro hin
  rw [InFlight, h] at hin
  cases hin

/-- What a step does to the retry job's fan-out of a row: nothing, or it begins, or it ends. -/
inductive RetryStep (l : Label Party Context Choice Event Call) (t u : Shared) (id : RowId) :
    Prop where
  | same (h : InFlight u .retryJob id ↔ InFlight t .retryJob id)
      (hl : ∀ k c x, l = .call .retryJob k c x → c ≠ .mark (.fanout id) ∧ c.ends ≠ some id)
  | begins (k : Context) (x : Choice) (hl : l = .call .retryJob k (.mark (.fanout id)) x)
      (ht : ¬ InFlight t .retryJob id) (hu : InFlight u .retryJob id)
  | ends (k : Context) (c : Call) (x : Choice) (hl : l = .call .retryJob k c x)
      (hx : x.applies = true) (hc : c.ends = some id) (ht : InFlight t .retryJob id)
      (hu : ¬ InFlight u .retryJob id)

theorem flight_call {k : Context} {c : Call} {x : Choice}
    (ha : (pipeline lib cfg).act (.call .retryJob k c x) t = some u) :
    (activity .retryJob u.trace).flight =
      ((activity .retryJob t.trace).after c (respond lib x t c)).flight := by
  rw [act_trace ha, traced, List.singleton_append, activity_call]

/-- A write that ends a fan-out ends the one the retry job is in. -/
theorem retryStep_ends {k : Context} {c : Call} {x : Choice} {id' : RowId}
    (hl : May lib cfg .retryJob k c t) (hx : x.applies = true)
    (hne : (activity .retryJob t.trace).flight ≠ .idle) (hend : c.ends = some id')
    (ha : (pipeline lib cfg).act (.call .retryJob k c x) t = some u) (id : RowId) :
    RetryStep (.call .retryJob k c x) t u id := by
  have ht := inFlight_of_ends hl hend hne
  have hu : ¬ InFlight u .retryJob id := by
    intro h
    rw [InFlight, flight_call ha] at h
    cases c with
    | markPublished id => cases h
    | markFailed id => cases h
    | recordAttemptFailure id => cases h
    | _ => cases hend
  by_cases hid : id' = id
  · subst hid
    exact .ends k c x rfl hx hend ht hu
  · refine .same ⟨fun h => absurd h hu, fun h => ?_⟩ ?_
    · rw [InFlight] at h ht
      rw [h] at ht
      cases ht
      exact absurd rfl hid
    · intro k c x heq
      cases heq
      refine ⟨?_, ?_⟩
      · intro h
        subst h
        cases hend
      · rw [hend]
        exact fun h => hid (Option.some.inj h)

/-- A fan-out of the retry job begins where it is in none. -/
theorem retryStep_begins {k : Context} {x : Choice} {id' : RowId}
    (hl : May lib cfg .retryJob k (.mark (.fanout id')) t)
    (ha : (pipeline lib cfg).act (.call .retryJob k (.mark (.fanout id')) x) t = some u)
    (id : RowId) : RetryStep (.call .retryJob k (.mark (.fanout id')) x) t u id := by
  have ht := not_inFlight_of_idle (may_fanout hl).1 id
  by_cases hid : id' = id
  · subst hid
    refine .begins k x rfl ht ?_
    rw [InFlight, flight_call ha]
    rfl
  · refine .same ⟨fun h => ?_, fun h => absurd h ht⟩ ?_
    · rw [InFlight, flight_call ha] at h
      exact absurd (Option.some.inj h) hid
    · intro k c x heq
      cases heq
      refine ⟨?_, fun h => by cases h⟩
      intro h
      cases h
      exact hid rfl

/-- Any other call of the retry job leaves it in its fan-out, or in none. -/
theorem retryStep_other {k : Context} {c : Call} {x : Choice} (hend : c.ends = none)
    (hfan : ∀ id, c ≠ .mark (.fanout id))
    (ha : (pipeline lib cfg).act (.call .retryJob k c x) t = some u) (id : RowId) :
    RetryStep (.call .retryJob k c x) t u id := by
  refine .same ?_ ?_
  · rw [InFlight, flight_call ha, after_signalId_eq hend hfan]
    rfl
  · intro k c x heq
    cases heq
    refine ⟨hfan id, ?_⟩
    rw [hend]
    intro h
    cases h

theorem retryStep (hl : l.Allowed (May lib cfg) t)
    (hrest : Label.Rested (pipelineContract lib cfg).post t l) (hc : orderly t l = true)
    (ha : (pipeline lib cfg).act l t = some u) (id : RowId) : RetryStep l t u id := by
  by_cases hp : l.party = some .retryJob
  · cases l with
    | call i k c x =>
        cases hp
        cases hend : c.ends with
        | some id' =>
            simp only [orderly, hend, Option.isNone_some, Bool.false_or, Bool.and_eq_true,
              bne_iff_ne] at hc
            exact retryStep_ends hl hc.1 hc.2 hend ha id
        | none =>
            by_cases hfan : ∃ id', c = .mark (.fanout id')
            · obtain ⟨id', rfl⟩ := hfan
              exact retryStep_begins hl ha id
            · exact retryStep_other hend (fun id h => hfan ⟨id, h⟩) ha id
    | start i e =>
        cases hp
        obtain ⟨_, hidle⟩ := hrest
        have ht := not_inFlight_of_idle hidle id
        refine .same ⟨fun h => ?_, fun h => absurd h ht⟩ (fun k c x h => by cases h)
        rcases act_start ha with ⟨m, hw, -⟩ | ⟨-, rfl⟩
        · cases hw
        · rw [InFlight, Shared.log_trace, activity_start] at h
          cases e <;> cases h
    | env e => cases hp
    | crash i k =>
        cases hp
        rw [orderly, beq_iff_eq] at hc
        have ht := not_inFlight_of_idle hc id
        refine .same ⟨fun h => ?_, fun h => absurd h ht⟩ (fun k c x h => by cases h)
        rw [act_crash ha, InFlight, Shared.log_trace, activity_crash] at h
        cases h
  · refine .same ?_ ?_
    · rw [InFlight, InFlight, act_activity ha hp]
    · intro k c x heq
      subst heq
      exact absurd rfl hp

/-! ## The attempts of one row -/

/-- The attempts made and the attempts left make the budget, but for the one the retry job is
at. -/
structure Attempted (cfg : Config) (s : Shared) (r : Signal) : Prop where
  first : r.firstFanoutUnconfirmed = true →
    r.attempts = cfg.maxAttempts ∧ fanouts r.id s.trace ≤ 1
  waiting : r.awaitsRetry = true → ¬ InFlight s .retryJob r.id →
    (fanouts r.id s.trace : Int) + r.attempts = cfg.maxAttempts
  retried : r.awaitsRetry = true → InFlight s .retryJob r.id →
    (fanouts r.id s.trace : Int) + r.attempts = cfg.maxAttempts + 1

theorem not_awaitsRetry (h : r.firstFanoutUnconfirmed = true) : ¬ r.awaitsRetry = true := by
  intro hw
  have heq : Party.worker = .retryJob := Entitled.unique (r := r) h hw
  cases heq

theorem may_attempt_worker {k : Context}
    (h : May lib cfg .worker k (.recordAttemptFailure id) s) : InFlight s .worker id := by
  cases k with
  | none => exact h.elim
  | some m =>
      obtain ⟨msg, a, hat, hw | ⟨-, r, -, -, -, -, -, -, -, rfl, hf⟩⟩ := h
      · exact hw.elim
      · rw [InFlight, hat.activity, hf]
        rfl

/-- The row after a write of the retry job that ends its fan-out. -/
theorem ended_row (hinv : Inv t) {k : Context} {c : Call} {x : Choice}
    (ha : (pipeline lib cfg).act (.call .retryJob k c x) t = some u) (hx : x.applies = true)
    (hc : c.ends = some r.id) (hr : r ∈ t.rows) (hr' : r' ∈ u.rows) (hid : r'.id = r.id) :
    r'.awaitsRetry = false ∧ r'.firstFanoutUnconfirmed = false ∨
      r' = r.recordAttemptFailure t.now := by
  rw [act_call] at ha
  subst ha
  rw [Shared.log_rows, effect_rows, if_pos hx] at hr'
  cases c with
  | markPublished id' =>
      cases hc
      left
      rw [Signal.eq_of_mem_update hinv.ids hr hr' hid]
      simp [Signal.awaitsRetry, Signal.firstFanoutUnconfirmed]
  | markFailed id' =>
      cases hc
      left
      rw [Signal.eq_of_mem_update hinv.ids hr hr' hid]
      simp [Signal.awaitsRetry, Signal.firstFanoutUnconfirmed]
  | recordAttemptFailure id' =>
      cases hc
      exact .inr (Signal.eq_of_mem_update hinv.ids hr hr' hid)
  | _ => cases hc

/-- A recorded failure leaves one attempt less. -/
theorem attempts_of_recordAttemptFailure {now : Int}
    (hw : (r.recordAttemptFailure now).awaitsRetry = true) :
    (r.recordAttemptFailure now).attempts = r.attempts - 1 := by
  rcases Signal.recordAttemptFailure_cases now r with ⟨-, hst, -⟩ | ⟨-, -, hat⟩
  · simp [Signal.awaitsRetry, hst] at hw
  · exact hat

theorem RowChange.ends {c : Call} (h : RowChange t r c r') : c.ends = some r.id := by
  cases h <;> rfl

/-- Who is in a fan-out of the row is entitled to it. -/
theorem entitled_of_inFlight (hinv : Inv t) (hflying : Flying t) {i : Party} (hr : r ∈ t.rows)
    (h : InFlight t i r.id) : Entitled i r := by
  obtain ⟨q, hq, hid, he⟩ := hflying i r.id h
  rwa [Signal.eq_of_id hinv.ids hq hr hid] at he

/-- The fan-out may start. -/
theorem entitled_of_fanout (hinv : Inv t) {i : Party} {k : Context} (hr : r ∈ t.rows)
    (h : May lib cfg i k (.mark (.fanout r.id)) t) : Entitled i r := by
  obtain ⟨-, q, hq, hid, he⟩ := may_fanout h
  rwa [Signal.eq_of_id hinv.ids hq hr hid] at he

theorem Attempted.confirmed (hconfirmed : r.firstFanoutUnconfirmed = false)
    (hwaits : r.awaitsRetry = false) : Attempted cfg s r := by
  refine ⟨?_, ?_, ?_⟩
  · rw [hconfirmed]
    intro h
    cases h
  · rw [hwaits]
    intro h
    cases h
  · rw [hwaits]
    intro h
    cases h

/-- The first attempt fails, and is recorded. -/
theorem Attempted.first_fails (hinv : Inv t) (hflying : Flying t) (hr : r ∈ t.rows) {k : Context}
    (hl : May lib cfg .worker k (.recordAttemptFailure r.id) t)
    (hn : fanouts r.id u.trace = fanouts r.id t.trace)
    (hsame : InFlight u .retryJob r.id ↔ InFlight t .retryJob r.id)
    (hu : r.firstFanoutUnconfirmed = true) (h : Attempted cfg t r) :
    Attempted cfg u (r.recordAttemptFailure t.now) := by
  have hconfirmed := (RowChange.attempt (s := t) (r := r)).confirmed
  obtain ⟨hat, hle⟩ := h.first hu
  have hge := fanouts_of_inFlight (may_attempt_worker hl)
  refine ⟨?_, ?_, ?_⟩
  · rw [hconfirmed]
    intro hf
    cases hf
  · intro hw _
    rw [Signal.recordAttemptFailure_id, hn, attempts_of_recordAttemptFailure hw]
    omega
  · intro _ hin
    rw [Signal.recordAttemptFailure_id, hsame] at hin
    exact absurd (entitled_of_inFlight hinv hflying hr hin) (not_awaitsRetry hu)

/-- A retry fails, and is recorded. -/
theorem Attempted.retry_fails (hw : r.awaitsRetry = true)
    (hn : fanouts r.id u.trace = fanouts r.id t.trace) (ht : InFlight t .retryJob r.id)
    (hu : ¬ InFlight u .retryJob r.id) (h : Attempted cfg t r) :
    Attempted cfg u (r.recordAttemptFailure t.now) := by
  have hconfirmed := (RowChange.attempt (s := t) (r := r)).confirmed
  have hcount := h.retried hw ht
  refine ⟨?_, ?_, ?_⟩
  · rw [hconfirmed]
    intro hf
    cases hf
  · intro hw' _
    rw [Signal.recordAttemptFailure_id, hn, attempts_of_recordAttemptFailure hw']
    omega
  · intro _ hin
    rw [Signal.recordAttemptFailure_id] at hin
    exact absurd hin hu

theorem Attempted.step (hinv : Inv t) (hl : l.Allowed (May lib cfg) t)
    (hrest : Label.Rested (pipelineContract lib cfg).post t l) (hc : orderly t l = true)
    (ha : (pipeline lib cfg).act l t = some u) (hflying : Flying t)
    (hr : r ∈ t.rows) (hr' : r' ∈ u.rows) (hs : RowStep l t r r') (h : Attempted cfg t r) :
    Attempted cfg u r' := by
  cases retryStep hl hrest hc ha r.id with
  | same hsame hother =>
      rcases id hs with rfl | ⟨i, k, c, x, rfl, he, hch⟩
      · -- the row is as it was; the worker may start a fan-out of it
        rcases fanouts_step ha r'.id with hn | ⟨⟨i, k, x, rfl⟩, hn⟩
        · exact ⟨by rw [hn]; exact h.first, by rw [hn, hsame]; exact h.waiting,
            by rw [hn, hsame]; exact h.retried⟩
        · have he := entitled_of_fanout hinv hr hl
          rcases he.waits with ⟨rfl, hu⟩ | ⟨rfl, -⟩
          · rw [orderly, beq_iff_eq] at hc
            refine ⟨fun _ => ⟨(h.first hu).1, ?_⟩, fun hw => absurd hw (not_awaitsRetry hu),
              fun hw => absurd hw (not_awaitsRetry hu)⟩
            omega
          · exact absurd rfl (hother _ _ _ rfl).1
      · -- the worker has recorded the end of its fan-out
        have hn : fanouts r.id u.trace = fanouts r.id t.trace := by
          rcases fanouts_step ha r.id with hn | ⟨⟨i', k', x', hlab⟩, -⟩
          · exact hn
          · cases hlab
            cases hch
        rcases he.waits with ⟨rfl, hu⟩ | ⟨rfl, -⟩
        · have hconfirmed := hch.confirmed
          cases hch with
          | published =>
              refine .confirmed hconfirmed ?_
              simp [Signal.awaitsRetry]
          | failed =>
              refine .confirmed hconfirmed ?_
              simp [Signal.awaitsRetry]
          | attempt => exact h.first_fails hinv hflying hr hl hn hsame hu
        · exact absurd hch.ends (hother _ _ _ rfl).2
  | begins k x hlab ht hu =>
      subst hlab
      have hmay : May lib cfg .retryJob k (.mark (.fanout r.id)) t := hl
      have hw : r.awaitsRetry = true := entitled_of_fanout hinv hr hmay
      rcases id hs with rfl | ⟨i, k', c, x', hlab, -, hch⟩
      · have hn : fanouts r'.id u.trace = fanouts r'.id t.trace + 1 := by
          rw [act_trace ha, traced, List.singleton_append, fanouts_cons, Entry.fanout, if_pos rfl]
        have hcount := h.waiting hw ht
        refine ⟨fun hf => absurd hw (not_awaitsRetry hf), fun _ hin => absurd hu hin, fun _ _ => ?_⟩
        omega
      · cases hlab
        cases hch
  | ends k c x hlab hx hend ht hu =>
      subst hlab
      have hw : r.awaitsRetry = true := entitled_of_inFlight hinv hflying hr ht
      have hn : fanouts r.id u.trace = fanouts r.id t.trace := by
        rcases fanouts_step ha r.id with hn | ⟨⟨i', k', x', hlab⟩, -⟩
        · exact hn
        · cases hlab
          cases hend
      rcases ended_row hinv ha hx hend hr hr' hs.id_eq with ⟨hwaits, hconfirmed⟩ | rfl
      · exact .confirmed hconfirmed hwaits
      · exact h.retry_fails hw hn ht hu

/-! ## The broadcasts of a run -/

/-- Every fan-out that was started is one of a row. -/
def FanoutRows (s : Shared) : Prop := ∀ id, fanouts id s.trace ≠ 0 → ∃ r ∈ s.rows, r.id = id

theorem FanoutRows.step (hinv : Inv t) (hl : l.Allowed (May lib cfg) t)
    (ha : (pipeline lib cfg).act l t = some u) (h : FanoutRows t) : FanoutRows u := by
  intro id hne
  have hold : ∃ r ∈ t.rows, r.id = id := by
    rcases fanouts_step ha id with hn | ⟨⟨i, k, x, rfl⟩, -⟩
    · exact h id (hn ▸ hne)
    · obtain ⟨-, r, hr, hid, -⟩ := may_fanout hl
      exact ⟨r, hr, hid⟩
  obtain ⟨r, hr, hid⟩ := hold
  obtain ⟨r', hr', hs⟩ := rows_forward hinv hl ha hr
  exact ⟨r', hr', hs.id_eq.trans hid⟩

theorem Attempted.insert (ha : (pipeline lib cfg).act l t = some u) (hknown : FanoutRows t)
    (hins : Inserts lib cfg l t r) : Attempted cfg u r := by
  have hzero : fanouts r.id u.trace = 0 := by
    have hold : fanouts r.id t.trace = 0 := by
      by_contra hne
      obtain ⟨q, hq, hid⟩ := hknown r.id hne
      exact hins.id_fresh hq hid
    rcases fanouts_step ha r.id with hn | ⟨⟨i, k, x, rfl⟩, -⟩
    · rw [hn, hold]
    · obtain ⟨m, msg, a, minted, payload, x', hlab, -⟩ := hins
      cases hlab
  obtain ⟨m, msg, a, minted, payload, x, -, -, -, -, -, rfl, -⟩ := hins
  refine ⟨fun _ => ⟨rfl, by omega⟩, ?_, ?_⟩
  · intro hw
    simp [Signal.awaitsRetry, newRow, Signal.stored, Signal.ofPayload] at hw
  · intro hw
    simp [Signal.awaitsRetry, newRow, Signal.stored, Signal.ofPayload] at hw

/-- The invariant of an orderly run: every fan-out is one of a row, whoever is in one is
entitled to it, and the counters of the rows add up. -/
structure Counted (cfg : Config) (s : Shared) : Prop where
  known : FanoutRows s
  flying : Flying s
  rows : ∀ r ∈ s.rows, Attempted cfg s r

theorem Counted.step (hinv : Inv t) (hl : l.Allowed (May lib cfg) t)
    (hrest : Label.Rested (pipelineContract lib cfg).post t l) (hc : orderly t l = true)
    (ha : (pipeline lib cfg).act l t = some u) (h : Counted cfg t) : Counted cfg u := by
  refine ⟨h.known.step hinv hl ha, flying_step hinv hl ha h.flying, fun r' hr' => ?_⟩
  rcases rows_backward hinv hl ha hr' with ⟨r, hr, hs⟩ | hins
  · exact (h.rows r hr).step hinv hl hrest hc ha h.flying hr hr' hs
  · exact .insert ha h.known hins

/-- What a broadcast is made with. -/
theorem may_broadcast {i : Party} {k : Context} {payload : WebhookPayload} {n : Option Int}
    (h : May lib cfg i k (.broadcast payload n) s) :
    ∃ r ∈ s.rows, Entitled i r ∧ (activity i s.trace).flight = .published r.id ∧
      n = attemptNumberForNotification r.attempts cfg.maxAttempts := by
  rcases i with _ | _ | m
  · cases k with
    | none => exact h.elim
    | some m =>
        obtain ⟨msg, a, hat, hw | ⟨-, r, hr, -, hu, -, -, -, -, hf, -, hn⟩⟩ := h
        · exact hw.elim
        · rw [hat.activity]
          exact ⟨r, hr, hu, hf, hn⟩
  · obtain hj | ⟨r, hr, hw, hf, -, hn⟩ := h
    · exact hj.elim
    · exact ⟨r, hr, hw, hf, hn⟩
  · exact h.elim

/-- An attempt is broadcast with what is left before it: the budget less the attempts before. -/
theorem Attempted.left (h : Attempted cfg s r) {i : Party} (he : Entitled i r)
    (hf : InFlight s i r.id) : r.attempts = cfg.maxAttempts - fanouts r.id s.trace + 1 := by
  rcases he.waits with ⟨rfl, hu⟩ | ⟨rfl, hw⟩
  · obtain ⟨hat, hle⟩ := h.first hu
    have hge := fanouts_of_inFlight hf
    omega
  · have := h.retried hw hf
    omega

theorem attemptNumber_iff {maxAttempts : Int} {k : Nat} (hk : 1 ≤ k) :
    attemptNumberForNotification (maxAttempts - k + 1) maxAttempts = attemptLabel k ↔
      LabelFits maxAttempts k := by
  unfold attemptNumberForNotification attemptLabel LabelFits
  split <;> split <;> simp only [Option.some.injEq, reduceCtorEq, true_iff, false_iff] <;> omega

end

/-- For every run of every budget, every attempt that is broadcast. -/
theorem attempt_labels_iff {lib : Libraries} {cfg : Config} {now : Int}
    {settings : String → Option String} {p q : Pool Party Context Shared Call Call.Result Fault}
    {i : Party} {k : Context} {payload : WebhookPayload} {n : Option Int} {x : Choice} {id : RowId}
    (hrun : (pipeline lib cfg).Reaches (fun s l => orderly s l = true) (startPool now settings) p)
    (hstep : (pipeline lib cfg).Step p (.call i k (.broadcast payload n) x) q)
    (hflight : (activity i p.shared.trace).flight = .published id) :
    n = attemptLabel (fanouts id p.shared.trace) ↔
      LabelFits cfg.maxAttempts (fanouts id p.shared.trace) := by
  obtain ⟨hgood, -⟩ := reaches_good hrun
  have hcounted : Counted cfg p.shared := by
    refine pipeline_holds.induct (J := Counted cfg) good_initial hrun ⟨?_, ?_, ?_⟩
      fun t l u ht _ hl hrest hc ha hj => hj.step ht hl hrest hc ha
    · intro id hne
      exact absurd rfl hne
    · intro i id hin
      cases hin
    · intro r hr
      cases hr
  obtain ⟨hl, -⟩ := reaches_step hrun hstep
  obtain ⟨r, hr, he, hf, rfl⟩ := may_broadcast hl
  rw [hflight] at hf
  cases hf
  have hin : InFlight p.shared i r.id := by
    rw [InFlight, hflight]
    rfl
  rw [(hcounted.rows r hr).left he hin]
  exact attemptNumber_iff (fanouts_of_inFlight hin)

/-! ## A second attempt -/

/-- The number a broadcast carries. -/
def Call.label : Call → Option (Option Int)
  | .broadcast _ n => some n
  | _ => none

namespace Sample

/-- A tick publishes the row and is about to broadcast it. -/
def publishedTick : List (Machine.Move Party Choice Event) :=
  .start .retryJob .tick :: calls .retryJob 6

/-- The retry job is about to broadcast its fan-out of the row with this number. -/
def labels (n : Option Int) (k : Nat) (p : World) : Bool :=
  (p.threads .retryJob).2.next?.bind Call.label == some n &&
    (activity .retryJob p.shared.trace).flight == .published 7 && fanouts 7 p.shared.trace == k

theorem labels_step (c : Config) (moves : List (Machine.Move Party Choice Event))
    (n : Option Int) (k : Nat)
    (h : ((pipeline lib c).replayIf orderly moves (startPool 0 unset)).any (labels n k) = true) :
    ∃ p m payload x q, (pipeline lib c).Reaches (fun s l => orderly s l = true)
        (startPool 0 unset) p ∧
      (pipeline lib c).Step p (.call .retryJob m (.broadcast payload n) x) q ∧
      (activity .retryJob p.shared.trace).flight = .published 7 ∧
      fanouts 7 p.shared.trace = k := by
  rw [Option.any_eq_true] at h
  obtain ⟨p, hreplay, hp⟩ := h
  simp only [labels, Bool.and_eq_true, beq_iff_eq, Option.bind_eq_some_iff] at hp
  obtain ⟨⟨⟨c', hnext, hlabel⟩, hflight⟩, hcount⟩ := hp
  cases c' with
  | broadcast payload n' =>
      cases hlabel
      obtain ⟨q, hstep⟩ := step_next hnext (x := ok)
      exact ⟨p, _, payload, ok, q, reaches_of_replayIf hreplay, hstep, hflight, hcount⟩
  | _ => cases hlabel

end Sample

/-- Of four attempts, the second is broadcast without a number. -/
theorem not_labelsCount : ¬ LabelsCount Sample.lib { Sample.cfg with maxAttempts := 4 }
    fun s l => orderly s l = true := by
  intro h
  obtain ⟨p, m, payload, x, q, hrun, hstep, hflight, hcount⟩ := Sample.labels_step
    { Sample.cfg with maxAttempts := 4 } (Sample.firstFailure ++ Sample.publishedTick) none 2
    (by decide +kernel)
  have hlabel := h (by decide) _ _ _ _ _ _ _ _ _ _ hrun hstep hflight
  rw [hcount] at hlabel
  cases hlabel

/-- Of three, it carries its number. -/
theorem attempt_labels_three : ∃ p m payload x q,
    (pipeline Sample.lib Sample.cfg).Reaches (fun s l => orderly s l = true)
      (startPool 0 Sample.unset) p ∧
    (pipeline Sample.lib Sample.cfg).Step p
      (.call .retryJob m (.broadcast payload (some 2)) x) q ∧
    fanouts 7 p.shared.trace = 2 ∧ (some 2 = attemptLabel 2 ↔ LabelFits 3 2) := by
  obtain ⟨p, m, payload, x, q, hrun, hstep, hflight, hcount⟩ := Sample.labels_step
    Sample.cfg (Sample.firstFailure ++ Sample.publishedTick) (some 2) 2 (by decide +kernel)
  have hlabel := attempt_labels_iff hrun hstep hflight
  rw [hcount] at hlabel
  exact ⟨p, m, payload, x, q, hrun, hstep, hcount, hlabel⟩


end TradingBroker
