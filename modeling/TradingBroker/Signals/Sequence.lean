import TradingBroker.Signals.Runs

/-!
# The order in which a cycle's signals reach the workers

`_handle_one` retries in place because the signals of one cycle must reach the
workers in sequence. It ends that effort with the ack: a fan-out whose failure is
recorded is acked, the next message goes ahead, and the retry job publishes the
earlier signal when its turn comes. A NAK has the same end, and so has a delivery
that is lost or cut short.

The worker has one message at a time, so nothing can go wrong while it is at work
on the earlier of two messages of a cycle. What counts is how it parts with that
message: `leavesBehind` lists the ways that leave its signal to the retry job or
to a redelivery. A run in which none of them comes before the later message is
taken up is in sequence; so is one in which the earlier signal has been sent or
given up again by the time the worker is handed the later message
(`in_sequence_unless_left_behind`).
-/

namespace TradingBroker

open TradingBroker.Lib TradingBroker.Lib.Machine TradingBroker.Lib.Contract

/-- Two envelopes of one cycle. One that names no uxid is of whatever cycle is
minted for it. -/
def SameCycle (lib : Libraries) (msg₁ msg₂ : Message) : Prop :=
  ∃ u₁ p₁ u₂ p₂, msg₁.payload? lib u₁ = some p₁ ∧ msg₂.payload? lib u₂ = some p₂ ∧
    p₁.symbol = p₂.symbol ∧ p₁.strategy = p₂.strategy ∧ p₁.signalUxid = p₂.signalUxid

/-- The first successful publishes of two signals of a cycle are in stream order,
in every run whose moves meet `cond`. -/
def InSequence (lib : Libraries) (cfg : Config)
    (cond : Nat → Nat → Shared → Label Party Context Choice Event Call → Prop) : Prop :=
  ∀ now settings p m₁ m₂ msg₁ msg₂ r₁ r₂,
    (pipeline lib cfg).Reaches (cond m₁ m₂) (startPool now settings) p →
    p.shared.stream[m₁]? = some msg₁ → p.shared.stream[m₂]? = some msg₂ → m₁ < m₂ →
    SameCycle lib msg₁ msg₂ → IsRowOf p.shared m₁ r₁ → IsRowOf p.shared m₂ r₂ →
    Sent p.shared r₁.id → Sent p.shared r₂.id →
    (sends p.shared.trace).idxOf r₁.id < (sends p.shared.trace).idxOf r₂.id

/-- A publish of the message's signal has returned. -/
def sentMessage (s : Shared) (m : Nat) : Bool :=
  (rowOf s m).any fun r => decide (Sent s r.id)

/-- The message may still be fanned out: its row waits for the retry job, or the
message is not settled and its first fan-out not over. -/
def pending (s : Shared) (m : Nat) : Bool :=
  match rowOf s m with
  | none => !s.gone m
  | some r => r.awaitsRetry || (r.firstFanoutUnconfirmed && !s.gone m)

/-- The step gives the message to the worker. -/
def hands (m : Nat) : Label Party Context Choice Event Call → Bool
  | .start .worker (.deliver m') => m' == m
  | _ => false

/-- The step gives `m₂` to the worker while the signal of `m₁` is pending. -/
def outOfTurn (m₁ m₂ : Nat) (s : Shared) (l : Label Party Context Choice Event Call) : Bool :=
  hands m₂ l && pending s m₁ && !sentMessage s m₁

/-- The worker was given the message before. -/
def takenUp (s : Shared) (m : Nat) : Bool :=
  s.trace.any fun
    | .start .worker (.deliver m') => m' == m
    | _ => false

/-- The step ends a delivery of the message and leaves its signal to a redelivery or to the
retry job: the delivery is lost, cut short or NAK-ed, its ack does not arrive, or a failed
publish is recorded that was not the last attempt. -/
def leavesBehind (m : Nat) (s : Shared) : Label Party Context Choice Event Call → Bool
  | .env (.lose m') => m' == m
  | .crash .worker k => k == some m
  | .call .worker k .nak _ => k == some m
  | .call .worker k .ack x => k == some m && !x.applies
  | .call .worker k .term x => k == some m && !x.applies
  | .call .worker _ (.recordAttemptFailure id) x =>
      x.applies && (rowOf s m).any fun r => r.id == id && 1 < r.attempts
  | _ => false

/-- The step leaves the signal of `m₁` behind, which is pending, before the worker has taken
`m₂` up. -/
def leftBehind (m₁ m₂ : Nat) (s : Shared) (l : Label Party Context Choice Event Call) : Bool :=
  leavesBehind m₁ s l && !takenUp s m₂ && pending s m₁ && !sentMessage s m₁

section
variable {lib : Libraries} {cfg : Config} {s t u : Shared} {m m' m₁ m₂ : Nat}
  {r r' : Signal} {l : Label Party Context Choice Event Call}

/-! ## A signal that will never be sent -/

/-- No party will ever fan the message out: its row is out of the retry job's hands, the
worker will not be given the message again or does not own the row, and it has not been
sent. With that the order of the two signals is settled for lack of one of them. -/
structure Shut (m : Nat) (s : Shared) : Prop where
  waiting : ∀ r, IsRowOf s m r → r.awaitsRetry = false
  worker : s.gone m = true ∨ ∃ r, IsRowOf s m r ∧ r.firstFanoutUnconfirmed = false
  unsent : ∀ r, IsRowOf s m r → ¬ Sent s r.id

theorem shut_of_not_pending (hinv : Inv s) (hp : pending s m = false)
    (hs : sentMessage s m = false) : Shut m s := by
  unfold pending at hp
  unfold sentMessage at hs
  split at hp
  · next hrow =>
      have hnone := (rowOf_eq_none hinv).1 hrow
      refine ⟨fun r hr => absurd hr (hnone r), .inl (by simpa using hp), ?_⟩
      exact fun r hr => absurd hr (hnone r)
  · next r hrow =>
      rw [hrow, Option.any_some, decide_eq_false_iff_not] at hs
      rw [Bool.or_eq_false_iff, Bool.and_eq_false_iff] at hp
      have hr := (rowOf_eq_some hinv).1 hrow
      refine ⟨?_, ?_, ?_⟩
      · intro q hq
        rw [hq.unique hinv hr]
        exact hp.1
      · rcases hp.2 with hc | hg
        · exact .inr ⟨r, hr, hc⟩
        · exact .inl (by simpa using hg)
      · intro q hq
        rw [hq.unique hinv hr]
        exact hs

theorem IsRowOf.place_unique (hinv : Inv s) (h : IsRowOf s m r) (h' : IsRowOf s m' r) :
    m = m' := by
  obtain ⟨-, msg, hm, hof⟩ := h
  obtain ⟨-, msg', hm', hof'⟩ := h'
  exact hinv.place_unique hm hm' (isOf_unique hof hof')

/-- The row is the retry job's, or of the message the worker is at work on. -/
def InHands (s : Shared) (i : Party) (r : Signal) : Prop :=
  Entitled i r ∧ (i = .worker → ∃ m, s.gone m = false ∧ IsRowOf s m r)

theorem may_publish_inHands (hinv : Inv s) {i : Party} {k : Context} {w : WorkerMessage}
    (h : May lib cfg i k (.publish w) s) (hr : r ∈ s.rows) (hid : w.signalId = r.id) :
    InHands s i r := by
  rcases i with _ | _ | n
  · cases k with
    | none => exact h.elim
    | some m =>
        obtain ⟨msg, a, hat, hw | ⟨-, q, hq, hof, hu, -, -, -, -, hqid, -⟩⟩ := h
        · exact hw.elim
        · have hqr := Signal.eq_of_id hinv.ids hq hr (hqid.symm.trans hid)
          subst hqr
          exact ⟨hu, fun _ => ⟨m, hat.pending, hq, msg, hat.stored, hof⟩⟩
  · obtain hj | ⟨q, hq, hw, hqid, -⟩ := h
    · exact hj.elim
    · have hqr := Signal.eq_of_id hinv.ids hq hr (hqid.symm.trans hid)
      subst hqr
      exact ⟨hw, fun hi => by cases hi⟩
  · exact h.elim

/-- Whoever changes a row has it in its hands. -/
theorem RowChange.inHands (hinv : Inv s) {i : Party} {k : Context} {c : Call}
    (h : May lib cfg i k c s) (hr : r ∈ s.rows) (he : Entitled i r) (hc : RowChange s r c r') :
    InHands s i r := by
  refine ⟨he, ?_⟩
  rintro rfl
  cases k with
  | none => exact h.elim
  | some m =>
      obtain ⟨msg, a, hat, hw | ⟨-, q, hq, hof, -, _, _, -, -, hf⟩⟩ := h
      · cases hc with
        | published => exact hw.elim
        | failed =>
            obtain ⟨-, -, q, hq, hid, hof, -⟩ := hw
            rw [← Signal.eq_of_id hinv.ids hq hr hid]
            exact ⟨m, hat.pending, hq, msg, hat.stored, hof⟩
        | attempt => exact hw.elim
      · have hid : r.id = q.id := by
          cases hc with
          | published => exact hf.1
          | failed => exact hf.1
          | attempt => exact hf.1
        rw [Signal.eq_of_id hinv.ids hr hq hid]
        exact ⟨m, hat.pending, hq, msg, hat.stored, hof⟩

theorem Shut.not_inHands (hinv : Inv s) (h : Shut m s) (hr : IsRowOf s m r) {i : Party} :
    ¬ InHands s i r := by
  rintro ⟨he, hown⟩
  rcases i with _ | _ | n
  · obtain ⟨m', hg, hr'⟩ := hown rfl
    rw [← hr.place_unique hinv hr'] at hg
    rcases h.worker with hgone | ⟨q, hq, hc⟩
    · rw [hg] at hgone
      cases hgone
    · rw [hq.unique hinv hr] at hc
      rw [Entitled, hc] at he
      cases he
  · rw [Entitled, h.waiting r hr] at he
    cases he
  · exact he

/-- Under `Shut` the message's row is not written if it is missing, and otherwise
stays as it is. -/
theorem Shut.row_step (hinv : Inv t) (hinv' : Inv u) (hl : l.Allowed (May lib cfg) t)
    (ha : (pipeline lib cfg).act l t = some u) (h : Shut m t) (hr' : IsRowOf u m r') :
    IsRowOf t m r' := by
  rcases hr'.backward hinv hinv' hl ha with ⟨r, hr, rfl | ⟨i, k, c, x, rfl, he, hc⟩⟩ | hins
  · exact hr
  · exact absurd (hc.inHands hinv hl hr.1 he) (h.not_inHands hinv hr)
  · rcases id hins with ⟨m', msg', a, minted, payload, x, -, hat, -, -, -, rfl, -⟩
    obtain ⟨-, msg, hm, hof⟩ := hr'
    have hmm := hinv'.place_unique ((act_grows ha).stream m' msg' hat.stored) hm
      (isOf_unique (r := newRow payload _ _ x t) rfl hof)
    subst hmm
    rcases h.worker with hgone | ⟨q, hq, -⟩
    · rw [hat.pending] at hgone
      cases hgone
    · obtain ⟨hqr, msg'', hm'', hqof⟩ := hq
      rw [hat.stored] at hm''
      cases hm''
      exact absurd hqof (hins.key_fresh hqr)

theorem Shut.step (hinv : Inv t) (hinv' : Inv u) (hl : l.Allowed (May lib cfg) t)
    (ha : (pipeline lib cfg).act l t = some u) (h : Shut m t) : Shut m u := by
  refine ⟨?_, ?_, ?_⟩
  · intro r hr
    exact h.waiting r (h.row_step hinv hinv' hl ha hr)
  · rcases h.worker with hg | ⟨r, hr, hc⟩
    · exact .inl ((act_grows ha).gone m hg)
    · obtain ⟨r', hr', hs⟩ := hr.forward hinv hl ha
      rw [(h.row_step hinv hinv' hl ha hr').unique hinv hr] at hr'
      exact .inr ⟨r, hr', hc⟩
  · intro r hr hsent
    have hr₀ := h.row_step hinv hinv' hl ha hr
    rcases sent_step ha hsent with hold | hp
    · exact h.unsent r hr₀ hold
    · cases l with
      | call i k c x =>
          cases c with
          | publish w =>
              simp only [publishes, Bool.and_eq_true, beq_iff_eq] at hp
              exact h.not_inHands hinv hr₀ (may_publish_inHands hinv hl hr₀.1 hp.2)
          | _ => cases hp
      | _ => cases hp

/-- The signal of the message is sent, or never will be. -/
def Decided (m : Nat) (s : Shared) : Prop :=
  (∃ r, IsRowOf s m r ∧ Sent s r.id) ∨ Shut m s

theorem Decided.step (hinv : Inv t) (hinv' : Inv u) (hl : l.Allowed (May lib cfg) t)
    (ha : (pipeline lib cfg).act l t = some u) (h : Decided m t) : Decided m u := by
  rcases h with ⟨r, hr, hs⟩ | hshut
  · obtain ⟨r', hr', hstep⟩ := hr.forward hinv hl ha
    refine .inl ⟨r', hr', ?_⟩
    rw [hstep.id_eq]
    exact (act_grows ha).sent hs
  · exact .inr (hshut.step hinv hinv' hl ha)

theorem decided_of_not_pending (hinv : Inv s) (h : pending s m = false ∨ sentMessage s m = true) :
    Decided m s := by
  cases hsent : sentMessage s m with
  | true =>
      rw [sentMessage, Option.any_eq_true] at hsent
      obtain ⟨r, hrow, hs⟩ := hsent
      exact .inl ⟨r, (rowOf_eq_some hinv).1 hrow, of_decide_eq_true hs⟩
  | false =>
      rcases h with hp | hs
      · exact .inr (shut_of_not_pending hinv hp hsent)
      · rw [hsent] at hs
        cases hs

theorem not_pending_of_decided (hinv : Inv s) (h : Decided m s) :
    pending s m = false ∨ sentMessage s m = true := by
  rcases h with ⟨r, hr, hs⟩ | hshut
  · right
    rw [sentMessage, (rowOf_eq_some hinv).2 hr]
    exact decide_eq_true hs
  · left
    unfold pending
    split
    · next hrow =>
        rcases hshut.worker with hg | ⟨r, hr, -⟩
        · rw [hg]
          rfl
        · exact absurd hr ((rowOf_eq_none hinv).1 hrow r)
    · next r hrow =>
        have hr := (rowOf_eq_some hinv).1 hrow
        rw [hshut.waiting r hr, Bool.false_or, Bool.and_eq_false_iff]
        rcases hshut.worker with hg | ⟨q, hq, hc⟩
        · exact .inr (by rw [hg]; rfl)
        · exact .inl (by rw [hr.unique hinv hq]; exact hc)

/-! ## The order -/

/-- Once the later signal is sent, the earlier one was sent before it or never
will be. -/
def Sequenced (m₁ m₂ : Nat) (s : Shared) : Prop :=
  ∀ r₂, IsRowOf s m₂ r₂ → Sent s r₂.id →
    (∃ r₁, IsRowOf s m₁ r₁ ∧ Sent s r₁.id ∧
      (sends s.trace).idxOf r₁.id < (sends s.trace).idxOf r₂.id) ∨ Shut m₁ s

/-- What is sent later does not move what was sent before. -/
theorem idxOf_grows (ha : (pipeline lib cfg).act l t = some u) {id : RowId} (h : Sent t id) :
    (sends u.trace).idxOf id = (sends t.trace).idxOf id := by
  rcases sends_step ha with he | ⟨id', -, he⟩
  · rw [he]
  · rw [he, List.idxOf_append_of_mem h]

/-- What is sent for the first time comes last. -/
theorem idxOf_fresh (ha : (pipeline lib cfg).act l t = some u) {id id' : RowId}
    (h : Sent t id) (h' : ¬ Sent t id') :
    (sends u.trace).idxOf id < (sends u.trace).idxOf id' := by
  rw [idxOf_grows ha h]
  refine (List.idxOf_lt_length_iff.2 h).trans_le ?_
  rcases sends_step ha with he | ⟨new, -, he⟩
  · rw [he, List.idxOf_of_notMem h']
  · rw [he, List.idxOf_append_of_notMem h']
    exact Nat.le_add_right _ _

theorem Sequenced.step (hinv : Inv t) (hinv' : Inv u) (hl : l.Allowed (May lib cfg) t)
    (ha : (pipeline lib cfg).act l t = some u) (hrows : SentRows t)
    (hearlier : ∀ r₂, IsRowOf t m₂ r₂ → Decided m₁ t) (h : Sequenced m₁ m₂ t) :
    Sequenced m₁ m₂ u := by
  intro r₂' hr₂' hsent
  rcases hr₂'.backward hinv hinv' hl ha with ⟨r₂, hr₂, hs₂⟩ | hins
  · rw [hs₂.id_eq] at hsent ⊢
    by_cases hold : Sent t r₂.id
    · rcases h r₂ hr₂ hold with ⟨r₁, hr₁, hs₁, hlt⟩ | hshut
      · obtain ⟨r₁', hr₁', hs⟩ := hr₁.forward hinv hl ha
        refine .inl ⟨r₁', hr₁', ?_, ?_⟩
        · rw [hs.id_eq]
          exact (act_grows ha).sent hs₁
        · rw [hs.id_eq, idxOf_grows ha hs₁, idxOf_grows ha hold]
          exact hlt
      · exact .inr (hshut.step hinv hinv' hl ha)
    · -- the later signal is sent by this step
      rcases hearlier r₂ hr₂ with ⟨r₁, hr₁, hs₁⟩ | hshut
      · obtain ⟨r₁', hr₁', hs⟩ := hr₁.forward hinv hl ha
        refine .inl ⟨r₁', hr₁', ?_, ?_⟩
        · rw [hs.id_eq]
          exact (act_grows ha).sent hs₁
        · rw [hs.id_eq]
          exact idxOf_fresh ha hs₁ hold
      · exact .inr (hshut.step hinv hinv' hl ha)
  · -- a row is inserted under an id nothing has been sent for
    rcases id hins with ⟨m', msg', a, minted, payload, x, rfl, -, -, -, -, -, -⟩
    have hold := (sent_step ha hsent).resolve_right (by simp [publishes])
    obtain ⟨q, hq, hid⟩ := hrows _ hold
    exact absurd hid (hins.id_fresh hq)

/-! ## Taking messages up -/

theorem takenUp_of_message {trace : List Entry} (hs : s.trace = trace)
    (h : (activity .worker trace).message = some m) : takenUp s m = true := by
  rw [takenUp, hs]
  clear hs
  induction trace with
  | nil => cases h
  | cons e trace ih =>
      rw [List.any_cons, Bool.or_eq_true]
      cases e with
      | call i k c r =>
          right
          by_cases hi : i = .worker
          · subst hi
            rw [activity_call, Activity.after_message] at h
            exact ih h
          · rw [activity_other (e := .call i k c r) hi] at h
            exact ih h
      | start i e =>
          by_cases hi : i = .worker
          · subst hi
            rw [activity_start] at h
            cases e with
            | deliver m' =>
                cases h
                exact .inl (beq_self_eq_true m)
            | _ => cases h
          · rw [activity_other (e := .start i e) hi] at h
            exact .inr (ih h)
      | crash i =>
          right
          by_cases hi : i = .worker
          · subst hi
            rw [activity_crash] at h
            cases h
          · rw [activity_other (e := .crash i) hi] at h
            exact ih h

theorem takenUp_grows (ha : (pipeline lib cfg).act l t = some u) (h : takenUp t m = true) :
    takenUp u m = true := by
  rw [takenUp, act_trace ha, List.any_append, Bool.or_eq_true]
  exact .inr h

/-- What is taken up by a step was handed over by it. -/
theorem takenUp_step (ha : (pipeline lib cfg).act l t = some u) (h : takenUp u m = true) :
    takenUp t m = true ∨ hands m l = true := by
  rw [takenUp, act_trace ha, List.any_append, Bool.or_eq_true] at h
  rcases h with h | h
  · right
    cases l with
    | start i e =>
        rw [traced, List.any_cons, List.any_nil, Bool.or_false] at h
        cases i <;> cases e <;> simp_all [hands]
    | call | env | crash => simp [traced] at h
  · exact .inl h

/-- Only a message that was taken up has a row. -/
def RowsTaken (m : Nat) (s : Shared) : Prop := ∀ r, IsRowOf s m r → takenUp s m = true

theorem RowsTaken.step (hinv : Inv t) (hinv' : Inv u) (hl : l.Allowed (May lib cfg) t)
    (ha : (pipeline lib cfg).act l t = some u) (h : RowsTaken m t) : RowsTaken m u := by
  intro r' hr'
  rcases hr'.backward hinv hinv' hl ha with ⟨r, hr, -⟩ | hins
  · exact takenUp_grows ha (h r hr)
  · obtain ⟨m', msg', a, minted, payload, x, -, hat, -, -, -, rfl, -⟩ := hins
    obtain ⟨-, msg, hm, hof⟩ := hr'
    have hmm := hinv'.place_unique ((act_grows ha).stream m' msg' hat.stored) hm
      (isOf_unique (r := newRow payload _ _ x t) rfl hof)
    subst hmm
    refine takenUp_grows ha (takenUp_of_message rfl ?_)
    rw [hat.activity]
    exact hat.message

/-- The invariant of the runs in which the later message is only handed over with the
earlier one decided. From the hand-over on the earlier signal is sent or will never be,
and so it is before the later one or nowhere. -/
structure InTurn (m₁ m₂ : Nat) (s : Shared) : Prop where
  sent : SentRows s
  taken : RowsTaken m₂ s
  decided : takenUp s m₂ = true → Decided m₁ s
  sequenced : Sequenced m₁ m₂ s

theorem InTurn.step (hinv : Inv t) (hinv' : Inv u) (hl : l.Allowed (May lib cfg) t)
    (ha : (pipeline lib cfg).act l t = some u) (hc : outOfTurn m₁ m₂ t l = false)
    (h : InTurn m₁ m₂ t) : InTurn m₁ m₂ u where
  sent := h.sent.step hinv hl ha
  taken := h.taken.step hinv hinv' hl ha
  decided := by
    intro htaken
    refine Decided.step hinv hinv' hl ha ?_
    rcases takenUp_step ha htaken with hold | hhands
    · exact h.decided hold
    · rw [outOfTurn, hhands, Bool.true_and, Bool.and_eq_false_iff, Bool.not_eq_false'] at hc
      exact decided_of_not_pending hinv hc
  sequenced := h.sequenced.step hinv hinv' hl ha h.sent fun r₂ hr₂ => h.decided (h.taken r₂ hr₂)

/-- No step hands the later message over while the earlier signal is pending. -/
theorem in_sequence_unless_out_of_turn :
    InSequence lib cfg fun m₁ m₂ s l => outOfTurn m₁ m₂ s l = false := by
  intro now settings p m₁ m₂ msg₁ msg₂ r₁ r₂ hrun _ _ _ _ hr₁ hr₂ hs₁ hs₂
  obtain ⟨hgood, htrail⟩ := reaches_good hrun
  have hJ : InTurn m₁ m₂ p.shared := by
    refine htrail.induct (J := InTurn m₁ m₂) ⟨?_, ?_, ?_, ?_⟩ ?_
    · intro id h
      cases h
    · rintro r ⟨hr, -⟩
      cases hr
    · intro h
      cases h
    · rintro r ⟨hr, -⟩
      cases hr
    · intro t l u ht hu hl hc ha hj
      exact hj.step ht hu hl ha hc
  rcases hJ.sequenced r₂ hr₂ hs₂ with ⟨r, hr, -, hlt⟩ | hshut
  · rw [← hr.unique hgood.1 hr₁]
    exact hlt
  · exact absurd hs₁ (hshut.unsent r₁ hr₁)

/-! ## Parting with a message -/

/-- The message has not been left behind: every delivery of it so far has settled it or
is still going on, and its row is not the retry job's. Then the worker has to be done
with it before it is given any other message, which is why the later one cannot overtake
it. -/
structure Kept (m : Nat) (s : Shared) : Prop where
  waiting : ∀ r, IsRowOf s m r → r.awaitsRetry = false
  ended : ∀ c r, Entry.call .worker (some m) c r ∈ s.trace →
    c ≠ .nak ∧ (c = .ack ∨ c = .term → s.gone m = true)
  at_work : 0 < s.delivered m → s.gone m = true ∨ (activity .worker s.trace).message = some m

theorem Kept.gone_of_concluded (h : Kept m s) (hc : Concluded m s) : s.gone m = true := by
  obtain ⟨c, r, hmem, hc⟩ := hc
  obtain ⟨hnak, hgone⟩ := h.ended c r hmem
  rcases hc with hc | hc | hc
  · exact hgone (.inl hc)
  · exact hgone (.inr hc)
  · exact absurd hc hnak

/-- A worker that is given a message has parted with the one before. -/
def Parted (m : Nat) (s : Shared) : Label Party Context Choice Event Call → Prop
  | .start .worker _ => (activity .worker s.trace).message = some m → Concluded m s
  | .crash .worker k => (activity .worker s.trace).message = some m → k = some m
  | _ => True

theorem Kept.waiting_step (hinv : Inv t) (hinv' : Inv u) (hl : l.Allowed (May lib cfg) t)
    (ha : (pipeline lib cfg).act l t = some u) (hb : leavesBehind m t l = false)
    (h : Kept m t) (hr' : IsRowOf u m r') : r'.awaitsRetry = false := by
  rcases hr'.backward hinv hinv' hl ha with ⟨r, hr, hs⟩ | hins
  · rcases id hs with rfl | ⟨i, k, c, x, rfl, he, hc⟩
    · exact h.waiting _ hr
    · cases hc with
      | published => rfl
      | failed => rfl
      | attempt =>
          rcases Signal.recordAttemptFailure_cases t.now r with ⟨-, hst, -⟩ | ⟨hlt, -, -⟩
          · simp [Signal.awaitsRetry, hst]
          · cases i with
            | worker =>
                -- the call took no effect, or it is one that leaves the message behind
                cases hx : x.applies with
                | true =>
                    rw [leavesBehind, hx, (rowOf_eq_some hinv).2 hr] at hb
                    simp [hlt] at hb
                | false =>
                    rw [act_call] at ha
                    subst ha
                    have hrows := hr'.1
                    rw [Shared.log_rows, effect_rows, hx, if_neg Bool.false_ne_true] at hrows
                    rw [Signal.eq_of_id hinv.ids hrows hr.1 hs.id_eq]
                    exact h.waiting r hr
            | retryJob =>
                rw [Entitled, h.waiting r hr] at he
                cases he
            | handshake n => exact he.elim
  · obtain ⟨m', msg', a, minted, payload, x, -, -, -, -, -, rfl, -⟩ := hins
    simp [Signal.awaitsRetry, newRow, Signal.stored, Signal.ofPayload]

theorem Kept.ended_step (ha : (pipeline lib cfg).act l t = some u)
    (hb : leavesBehind m t l = false) (h : Kept m t) {c : Call} {x : c.Result}
    (hmem : Entry.call .worker (some m) c x ∈ u.trace) :
    c ≠ .nak ∧ (c = .ack ∨ c = .term → u.gone m = true) := by
  rw [act_trace ha, List.mem_append] at hmem
  rcases hmem with hnew | hold
  · cases l with
    | call i k c' y =>
        rw [traced, List.mem_singleton] at hnew
        cases hnew
        refine ⟨?_, fun hc => ?_⟩
        · rintro rfl
          simp [leavesBehind] at hb
        · have hx : y.applies = true := by
            rcases hc with rfl | rfl
            · simpa [leavesBehind] using hb
            · simpa [leavesBehind] using hb
          rw [act_call] at ha
          subst ha
          rw [Shared.log_gone, effect_gone, if_pos hx]
          rcases hc with rfl | rfl
          · simp [settle]
          · simp [settle]
    | start i e =>
        rw [traced, List.mem_singleton] at hnew
        cases hnew
    | env e => cases hnew
    | crash i k =>
        rw [traced, List.mem_singleton] at hnew
        cases hnew
  · obtain ⟨hnak, hgone⟩ := h.ended c x hold
    exact ⟨hnak, fun hc => (act_grows ha).gone m (hgone hc)⟩

theorem Kept.at_work_step (ha : (pipeline lib cfg).act l t = some u)
    (hb : leavesBehind m t l = false) (hp : Parted m t l) (h : Kept m t)
    (hd : 0 < u.delivered m) :
    u.gone m = true ∨ (activity .worker u.trace).message = some m := by
  have hgone : t.gone m = true → u.gone m = true := (act_grows ha).gone m
  cases l with
  | call i k c x =>
      have hsame : (activity .worker u.trace).message = (activity .worker t.trace).message := by
        by_cases hi : i = .worker
        · subst hi
          rw [act_call] at ha
          subst ha
          rw [Shared.log_trace, effect_trace, activity_call, Activity.after_message]
        · rw [act_activity ha fun he => hi (Option.some.inj he)]
      rw [hsame]
      rw [act_call] at ha
      subst ha
      rw [Shared.log_delivered, effect_delivered] at hd
      exact (h.at_work hd).imp hgone id
  | start i e =>
      rcases act_start ha with ⟨m', rfl, rfl, -, rfl⟩ | ⟨hi, rfl⟩
      · by_cases hm : m' = m
        · subst hm
          exact .inr (by rw [Shared.log_trace, activity_start]; rfl)
        · have hd' : 0 < t.delivered m := by
            have hhand : (handOut t m').delivered m = t.delivered m := if_neg (Ne.symm hm)
            rwa [Shared.log_delivered, hhand] at hd
          rcases h.at_work hd' with hg | hat
          · exact .inl (hgone hg)
          · exact .inl (hgone (h.gone_of_concluded (hp hat)))
      · rw [Shared.log_trace, activity_other (e := .start i e) hi]
        exact (h.at_work hd).imp hgone id
  | env e =>
      rw [(act_env ha).2.1]
      have hd' : 0 < t.delivered m := by
        simp only [Machine.act, pipeline, environment] at ha
        split at ha
        · split at ha
          · cases ha
            exact hd
          · cases ha
        · cases ha
          exact hd
        · cases ha
          exact hd
        · next m' =>
            split at ha
            · cases ha
              have hm : m ≠ m' := fun heq => by simp [leavesBehind, heq] at hb
              have hhand : (handOut t m').delivered m = t.delivered m := if_neg hm
              rwa [hhand] at hd
            · cases ha
        · cases ha
      exact (h.at_work hd').imp hgone id
  | crash i k =>
      have hd' : 0 < t.delivered m := by
        rw [act_crash ha] at hd
        exact hd
      refine (h.at_work hd').imp hgone fun hat => ?_
      by_cases hi : i = .worker
      · subst hi
        have hk : k = some m := hp hat
        simp [leavesBehind, hk] at hb
      · rw [act_activity ha fun he => hi (Option.some.inj he)]
        exact hat

theorem Kept.step (hinv : Inv t) (hinv' : Inv u) (hl : l.Allowed (May lib cfg) t)
    (ha : (pipeline lib cfg).act l t = some u) (hb : leavesBehind m t l = false)
    (hp : Parted m t l) (h : Kept m t) : Kept m u where
  waiting _ hr' := h.waiting_step hinv hinv' hl ha hb hr'
  ended _ _ hmem := h.ended_step ha hb hmem
  at_work hd := h.at_work_step ha hb hp hd

/-! ## Outcomes -/

/-- The worker's coroutine is that of the message it was last given. -/
def Context.Current (p : Pool Party Context Shared Call Call.Result Fault) : Prop :=
  ∀ m, (activity .worker p.shared.trace).message = some m → (p.threads .worker).1 = some m

theorem Context.Current.step {p q : Pool Party Context Shared Call Call.Result Fault}
    (hs : (pipeline lib cfg).Step p l q) (ha : (pipeline lib cfg).act l p.shared = some q.shared)
    (h : Context.Current p) : Context.Current q := by
  intro m hm
  rcases hs.cases with ⟨i, x, c, f, r, rfl, -, -, rfl⟩ | ⟨i, e, r, rfl, -, hst, rfl⟩ |
    ⟨e, s, rfl, -, rfl⟩ | ⟨i, s, rfl, -, rfl⟩
  · by_cases hi : i = .worker
    · subst hi
      rw [act_call] at ha
      rw [← ha, Shared.log_trace, effect_trace, activity_call, Activity.after_message] at hm
      simpa using h m hm
    · rw [act_activity ha fun he => hi (Option.some.inj he)] at hm
      simpa [Function.update_of_ne (Ne.symm hi)] using h m hm
  · by_cases hi : i = .worker
    · subst hi
      rcases act_start ha with ⟨m', -, rfl, -, heq⟩ | ⟨hne, -⟩
      · rw [heq, Shared.log_trace, activity_start] at hm
        cases hm
        simp only [pipeline, start] at hst
        split at hst
        · split at hst
          · cases hst
            simp
          · cases hst
        · cases hst
      · exact absurd rfl hne
    · rw [act_activity ha fun he => hi (Option.some.inj he)] at hm
      simpa [Function.update_of_ne (Ne.symm hi)] using h m hm
  · rw [act_activity ha (by simp [Label.party])] at hm
    exact h m hm
  · by_cases hi : i = .worker
    · subst hi
      rw [act_crash ha, Shared.log_trace, activity_crash] at hm
      cases hm
    · rw [act_activity ha fun he => hi (Option.some.inj he)] at hm
      simpa [Function.update_of_ne (Ne.symm hi)] using h m hm

/-- The worker is handed a message only when its delivery before has come to its end. -/
theorem parted_of_step {p q : Pool Party Context Shared Call Call.Result Fault}
    (hgood : (pipelineContract lib cfg).Good p) (hcur : Context.Current p)
    (hs : (pipeline lib cfg).Step p l q) : Parted m p.shared l := by
  rcases hs.cases with ⟨i, x, c, f, r, rfl, -, -, -⟩ | ⟨i, e, r, rfl, hd, -, -⟩ |
    ⟨e, s, rfl, -, -⟩ | ⟨i, s, rfl, -, -⟩
  · trivial
  · cases i with
    | worker =>
        intro hat
        exact (hgood.post hd : AtRest .worker _ p.shared) m (hcur m hat) hat
    | retryJob | handshake => trivial
  · trivial
  · cases i with
    | worker => exact fun hat => hcur m hat
    | retryJob | handshake => trivial

/-- With the earlier message kept, the later one is handed over only once the earlier is over. -/
theorem Kept.not_pending_of_hands (hlt : m₁ < m₂) (hp : Parted m₁ t l)
    (ha : (pipeline lib cfg).act l t = some u) (h : Kept m₁ t) (hinv : Inv t)
    (hhands : hands m₂ l = true) : pending t m₁ = false := by
  cases l with
  | start i e =>
      rcases act_start ha with ⟨m', rfl, rfl, hd, -⟩ | ⟨hi, -⟩
      · have hm : m' = m₂ := by simpa [hands] using hhands
        subst hm
        simp only [deliverable, Bool.and_eq_true, List.all_eq_true, List.mem_range,
          decide_eq_true_eq] at hd
        have hgone : t.gone m₁ = true := by
          rcases h.at_work (hd.2 m₁ hlt) with hg | hat
          · exact hg
          · exact h.gone_of_concluded (hp hat)
        unfold pending
        split
        · rw [hgone]
          rfl
        · next r hrow =>
            rw [h.waiting r ((rowOf_eq_some hinv).1 hrow), hgone]
            simp
      · cases i with
        | worker => exact absurd rfl hi
        | retryJob | handshake => simp [hands] at hhands
  | call | env | crash => simp [hands] at hhands

/-- The earlier signal is decided, or its message not left behind so far and the later one not
taken up. -/
def NotBehind (m₁ m₂ : Nat) (s : Shared) : Prop :=
  Decided m₁ s ∨ takenUp s m₂ = false ∧ Kept m₁ s

theorem notBehind_initial {now : Int} {settings : String → Option String} :
    NotBehind m₁ m₂ (Shared.initial now settings) := by
  refine .inr ⟨rfl, ?_, ?_, ?_⟩
  · intro r hr
    exact absurd hr.1 List.not_mem_nil
  · intro c r hmem
    exact absurd hmem List.not_mem_nil
  · intro hd
    exact absurd hd (Nat.lt_irrefl 0)

/-- What is left is a step with the earlier message kept: it does not leave it behind, and does
not hand the later one over. -/
theorem NotBehind.step (hlt : m₁ < m₂) (hinv : Inv t) (hinv' : Inv u)
    (hl : l.Allowed (May lib cfg) t) (ha : (pipeline lib cfg).act l t = some u)
    (hp : Parted m₁ t l) (hc : leftBehind m₁ m₂ t l = false) (h : NotBehind m₁ m₂ t) :
    outOfTurn m₁ m₂ t l = false ∧ NotBehind m₁ m₂ u := by
  by_cases hset : Decided m₁ t
  · refine ⟨?_, .inl (hset.step hinv hinv' hl ha)⟩
    rw [outOfTurn, Bool.and_eq_false_iff, Bool.and_eq_false_iff, Bool.not_eq_false']
    rcases not_pending_of_decided hinv hset with hpend | hsent
    · exact .inl (.inr hpend)
    · exact .inr hsent
  · obtain ⟨htaken, hkept⟩ := h.resolve_left hset
    have hpend : pending t m₁ = true := by
      rw [← Bool.not_eq_false]
      exact fun h => hset (decided_of_not_pending hinv (.inl h))
    have hsent : sentMessage t m₁ = false := by
      rw [← Bool.not_eq_true]
      exact fun h => hset (decided_of_not_pending hinv (.inr h))
    have hb : leavesBehind m₁ t l = false := by
      simpa [leftBehind, htaken, hpend, hsent] using hc
    have hnot : hands m₂ l = false := by
      rw [← Bool.not_eq_true]
      intro hh
      rw [hkept.not_pending_of_hands hlt hp ha hinv hh] at hpend
      cases hpend
    refine ⟨by rw [outOfTurn, hnot]; rfl, .inr ⟨?_, hkept.step hinv hinv' hl ha hb hp⟩⟩
    rw [← Bool.not_eq_true]
    intro htaken'
    rcases takenUp_step ha htaken' with h | h
    · rw [htaken] at h
      cases h
    · rw [hnot] at h
      cases h

/-- A run that leaves nothing behind hands every message over in turn. -/
theorem reaches_inTurn {now : Int} {settings : String → Option String}
    {p : Pool Party Context Shared Call Call.Result Fault} (hlt : m₁ < m₂)
    (h : (pipeline lib cfg).Reaches (fun s l => leftBehind m₁ m₂ s l = false)
      (startPool now settings) p) :
    (pipeline lib cfg).Reaches (fun s l => outOfTurn m₁ m₂ s l = false) (startPool now settings)
      p := by
  suffices hall : Context.Current p ∧ NotBehind m₁ m₂ p.shared ∧
      (pipeline lib cfg).Reaches (fun s l => outOfTurn m₁ m₂ s l = false)
        (startPool now settings) p from hall.2.2
  induction h with
  | refl =>
      refine ⟨?_, notBehind_initial, .refl _⟩
      intro m hm
      cases hm
  | tail hrun hs hc ih =>
      obtain ⟨hcur, hnot, hturn⟩ := ih
      have hgood := (reaches_good hrun).1
      obtain ⟨hl, ha⟩ := reaches_step hrun hs
      have hinv' := act_keeps hgood.1 hl ha
      obtain ⟨hout, hnot'⟩ :=
        hnot.step hlt hgood.1 hinv' hl ha (parted_of_step hgood hcur hs) hc
      exact ⟨hcur.step hs ha, hnot', hturn.tail hs hout⟩

/-- A cycle's signals reach the workers in stream order in every run in which the earlier of two
messages is not left behind before the later one is taken up, and in every run in which the
later one is only handed over with the signal of the earlier one sent or given up. -/
theorem in_sequence_unless_left_behind :
    InSequence lib cfg (fun m₁ m₂ s l => leftBehind m₁ m₂ s l = false) ∧
      InSequence lib cfg fun m₁ m₂ s l => outOfTurn m₁ m₂ s l = false := by
  refine ⟨?_, in_sequence_unless_out_of_turn⟩
  intro now settings p m₁ m₂ msg₁ msg₂ r₁ r₂ hrun hm₁ hm₂ hlt
  exact in_sequence_unless_out_of_turn now settings p m₁ m₂ msg₁ msg₂ r₁ r₂
    (reaches_inTurn hlt hrun) hm₁ hm₂ hlt

end

/-! ## Two runs of one cycle -/

namespace Sample

def storeCycle : List (Machine.Move Party Choice Event) :=
  [.env (.store entry), .env (.store flat), .start .worker (.deliver 0)]

/-- The second message is handled: its row gets the next id. -/
def handleFlat : List (Machine.Move Party Choice Event) :=
  .start .worker (.deliver 1) :: List.replicate 7 (.call .worker next)

/-- The entry's only publish fails and is recorded; its message is acked, the FLAT
goes out, and the retry job sends the entry after it. -/
def overtakenMoves : List (Machine.Move Party Choice Event) :=
  storeCycle ++ calls .worker 5 ++ [.call .worker failed] ++ calls .worker 3 ++ handleFlat ++
    [.env (.pass 100000000), .start .retryJob .tick] ++ calls .retryJob 6

/-- Nothing fails. -/
def inOrderMoves : List (Machine.Move Party Choice Event) :=
  storeCycle ++ calls .worker 10 ++ handleFlat

def inCycle (msg₁ msg₂ : Message) : Bool :=
  match msg₁.payload? lib uxid, msg₂.payload? lib uxid with
  | some p₁, some p₂ =>
      p₁.symbol == p₂.symbol && p₁.strategy == p₂.strategy &&
        decide (p₁.signalUxid = p₂.signalUxid)
  | _, _ => false

/-- Row 7 is the entry's, row 8 the FLAT's, and this is what was sent. -/
def sentInOrder (order : List RowId) (p : World) : Bool :=
  (match p.shared.stream with
    | [msg₁, msg₂] => inCycle msg₁ msg₂
    | _ => false) &&
  (rowOf p.shared 0).any (·.id == 7) && (rowOf p.shared 1).any (·.id == 8) &&
  sends p.shared.trace == order

theorem sentInOrder_iff {order : List RowId} {p : World} (hinv : Inv p.shared)
    (h : sentInOrder order p = true) : ∃ msg₁ msg₂ r₁ r₂,
      p.shared.stream[0]? = some msg₁ ∧ p.shared.stream[1]? = some msg₂ ∧
      SameCycle lib msg₁ msg₂ ∧ IsRowOf p.shared 0 r₁ ∧ IsRowOf p.shared 1 r₂ ∧
      r₁.id = 7 ∧ r₂.id = 8 ∧ sends p.shared.trace = order := by
  simp only [sentInOrder, Bool.and_eq_true, Option.any_eq_true, beq_iff_eq] at h
  obtain ⟨⟨⟨hstream, r₁, hr₁, hid₁⟩, r₂, hr₂, hid₂⟩, horder⟩ := h
  split at hstream
  · next msg₁ msg₂ hs =>
      refine ⟨msg₁, msg₂, r₁, r₂, by rw [hs]; rfl, by rw [hs]; rfl, ?_,
        (rowOf_eq_some hinv).1 hr₁, (rowOf_eq_some hinv).1 hr₂, hid₁, hid₂, horder⟩
      unfold inCycle at hstream
      split at hstream
      · next p₁ p₂ h₁ h₂ =>
          simp only [Bool.and_eq_true, beq_iff_eq, decide_eq_true_eq] at hstream
          exact ⟨uxid, p₁, uxid, p₂, h₁, h₂, hstream.1.1, hstream.1.2, hstream.2⟩
      · cases hstream
  · cases hstream

end Sample

/-- The FLAT of a cycle is published before its entry. -/
theorem not_inSequence : ¬ InSequence Sample.lib Sample.cfg fun _ _ _ _ => True := by
  intro h
  obtain ⟨p, hrun, hp⟩ := Sample.run_any Sample.overtakenMoves (Sample.sentInOrder [8, 7])
    (by decide +kernel)
  obtain ⟨msg₁, msg₂, r₁, r₂, hm₁, hm₂, hcycle, hr₁, hr₂, hid₁, hid₂, horder⟩ :=
    Sample.sentInOrder_iff (reaches_inv hrun) hp
  have hlt := h _ _ p 0 1 msg₁ msg₂ r₁ r₂ hrun hm₁ hm₂ (by decide) hcycle hr₁ hr₂
    (by rw [Sent, horder, hid₁]; decide) (by rw [Sent, horder, hid₂]; decide)
  rw [horder, hid₁, hid₂] at hlt
  revert hlt
  decide

/-- A run with no failures leaves nothing behind, and both signals are sent in it. -/
theorem in_sequence_unless_left_behind_in_order : ∃ p r₁ r₂,
    (pipeline Sample.lib Sample.cfg).Reaches (fun s l => leftBehind 0 1 s l = false)
      (startPool 0 Sample.unset) p ∧
    IsRowOf p.shared 0 r₁ ∧ IsRowOf p.shared 1 r₂ ∧
    (sends p.shared.trace).idxOf r₁.id < (sends p.shared.trace).idxOf r₂.id ∧
    (sends p.shared.trace).length = 2 := by
  have hany : (((pipeline Sample.lib Sample.cfg).replayIf (fun s l => !leftBehind 0 1 s l)
      Sample.inOrderMoves (startPool 0 Sample.unset)).any (Sample.sentInOrder [7, 8])) = true := by
    decide +kernel
  rw [Option.any_eq_true] at hany
  obtain ⟨p, hreplay, hp⟩ := hany
  have hrun : (pipeline Sample.lib Sample.cfg).Reaches (fun s l => leftBehind 0 1 s l = false)
      (startPool 0 Sample.unset) p :=
    (reaches_of_replayIf hreplay).mono fun s l hok => by simpa using hok
  obtain ⟨msg₁, msg₂, r₁, r₂, hm₁, hm₂, hcycle, hr₁, hr₂, hid₁, hid₂, horder⟩ :=
    Sample.sentInOrder_iff (reaches_inv hrun) hp
  refine ⟨p, r₁, r₂, hrun, hr₁, hr₂, ?_, by rw [horder]; rfl⟩
  exact in_sequence_unless_left_behind.1 _ _ p 0 1 msg₁ msg₂ r₁ r₂ hrun hm₁ hm₂ (by decide) hcycle
    hr₁ hr₂ (by rw [Sent, horder, hid₁]; decide) (by rw [Sent, horder, hid₂]; decide)

end TradingBroker
