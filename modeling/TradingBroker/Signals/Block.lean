import TradingBroker.Signals.Ownership

/-!
# What a blocked answer stops

The gate is asked on one of three ways to the workers. Answering `blocked`
leaves the message's row, if it has one, out of the worker's reach for good; but
the retry job does not ask the gate, and goes on with a row whose failure was
recorded before, and a handshake replays rows by strategy and age alone. And an
answer is not an ack: a message that left no row is persisted after all when it
comes back to an open gate.

So what is blocked need not stay blocked. There are three ways out of it
(`blocked_leaves_three_ways`), and the worker's own fan-out is not among them.
For a message with a row the reason is ownership: the answer leaves no row of it
unconfirmed, and only an unconfirmed row is the worker's. For one without, the
trace is cut at the answer, and the invariant `Reopened` says that whatever the
message has gained since, a row or an admitted delivery, it has gained after the
gate was read open.
-/

namespace TradingBroker

open TradingBroker.Lib TradingBroker.Lib.Machine TradingBroker.Lib.Contract

/-- The call takes the row's signal to the workers, or to one of them. -/
def Call.Carries (r : Signal) : Call → Prop
  | .publish w => w.signalId = r.id
  | .replyAck signals => ∃ signal ∈ signals, signal.signalId = r.id
  | _ => False

/-- After `blocked` was answered for a message, no successful call ever carries
its signal. -/
def BlockedStaysBlocked (lib : Libraries) (cfg : Config) : Prop :=
  ∀ now settings p q p' q' m i k c x y,
    (pipeline lib cfg).Runs (startPool now settings) p →
    (pipeline lib cfg).Step p (.call .worker (some m) (.mark (.answered .blocked)) x) q →
    (pipeline lib cfg).Runs q p' →
    (pipeline lib cfg).Step p' (.call i k c y) q' → y.reports = true →
    ∀ r, IsRowOf p'.shared m r → ¬ c.Carries r

/-- The gate was read open in a delivery of `m`. -/
def ReadOpen (m : Nat) (entries : List Entry) : Prop :=
  ∃ value, value ≠ some "1" ∧
    Entry.call .worker (some m) (.getStrict "signal_blocked") (.ok value) ∈ entries

section
variable {lib : Libraries} {cfg : Config} {now : Int} {settings : String → Option String}
  {p q p' q' : Pool Party Context Shared Call Call.Result Fault} {s t u : Shared}
  {l : Label Party Context Choice Event Call} {i : Party} {k : Context} {m : Nat}
  {msg : Message}

/-! ## A row whose first fan-out is over -/

theorem persistent_confirmed (msg : Message) :
    (pipelineContract lib cfg).Persistent fun s =>
      ∃ r ∈ s.rows, r.isOf msg ∧ r.firstFanoutUnconfirmed = false := by
  rintro s l s' hinv - hl ha ⟨r, hr, hof, hc⟩
  obtain ⟨r', hr', hs⟩ := rows_forward hinv hl ha hr
  refine ⟨r', hr', hs.isOf.2 hof, ?_⟩
  rcases hs with rfl | ⟨i, k, c, x, -, -, hch⟩
  · exact hc
  · exact hch.confirmed

theorem not_entitled_worker {r : Signal} (hc : r.firstFanoutUnconfirmed = false) :
    ¬ Entitled .worker r := by
  intro he
  rw [Entitled, hc] at he
  cases he

/-- Confirmed and not waiting for a retry, the row is `PUBLISHED` or `FAILED`. -/
theorem closed_of_confirmed {r : Signal} (hc : r.firstFanoutUnconfirmed = false)
    (hw : r.awaitsRetry = false) : r.status ≠ .queued := by
  intro hst
  rw [Signal.firstFanoutUnconfirmed, hst] at hc
  rw [Signal.awaitsRetry, hst] at hw
  cases hlast : r.lastAttempt with
  | none => simp [hlast] at hc
  | some last => simp [hlast] at hw

theorem may_replyAck {signals : List TradingSignal}
    (h : May lib cfg i k (.replyAck signals) s) : ∃ n, i = .handshake n := by
  rcases i with _ | _ | n
  · cases k with
    | none => exact h.elim
    | some m =>
        obtain ⟨msg, a, -, hw | ⟨-, r, -, -, -, _, _, -, -, hf⟩⟩ := h
        · exact hw.elim
        · exact hf.elim
  · obtain hj | ⟨r, -, -, hf⟩ := h
    · exact hj.elim
    · exact hf.elim
  · exact ⟨n, rfl⟩

/-- A publish carries a row its caller is entitled to; the only other call that
carries one is a handshake's reply. -/
theorem carries_cases (hinv : Inv s) {c : Call} (h : May lib cfg i k c s) {r : Signal}
    (hr : r ∈ s.rows) (hc : c.Carries r) : Entitled i r ∨ ∃ n, i = .handshake n := by
  cases c with
  | publish w =>
      obtain ⟨r', hr', hid, he⟩ := may_publish h
      rw [Signal.eq_of_id hinv.ids hr' hr (hid.trans hc)] at he
      exact .inl he
  | replyAck signals => exact .inr (may_replyAck h)
  | _ => exact hc.elim

/-- From a confirmed row on, the message's signal is carried by a handshake, or by
the retry job that the row was already waiting for. -/
theorem carried_after_confirmed (hp : (pipelineContract lib cfg).Good p)
    (hrun : (pipeline lib cfg).Runs p p')
    (hstep : (pipeline lib cfg).Step p' (.call i k c y) q') {r r' : Signal}
    (hr : r ∈ p.shared.rows) (hof : r.isOf msg) (hconf : r.firstFanoutUnconfirmed = false)
    (hr' : r' ∈ p'.shared.rows) (hof' : r'.isOf msg) (hc : c.Carries r') :
    i = .retryJob ∧ r.awaitsRetry = true ∨ ∃ n, i = .handshake n := by
  have hp' := (pipeline_holds.refines hp hrun).1
  have hinv' : Inv p'.shared := hp'.1
  have hmay : May lib cfg i k c p'.shared := (pipeline_holds.step hp' hstep).1
  rcases carries_cases hinv' hmay hr' hc with he | hh
  · left
    rcases i with _ | _ | n
    · obtain ⟨q, hq, hqof, hqc⟩ := (persistent_confirmed msg).reaches pipeline_holds hp hrun
        ⟨r, hr, hof, hconf⟩
      rw [← Signal.eq_of_deliveryKey hinv'.keys hq hr' (hqof.trans hof'.symm)] at he
      exact absurd he (not_entitled_worker hqc)
    · refine ⟨rfl, ?_⟩
      cases hw : r.awaitsRetry with
      | true => rfl
      | false =>
          have hst := closed_of_confirmed hconf hw
          have hkept := (persistent_closed r hst).reaches pipeline_holds hp hrun hr
          rw [← Signal.eq_of_deliveryKey hinv'.keys hkept hr' (hof.trans hof'.symm)] at he
          exact absurd he.queued hst
    · exact he.elim
  · exact .inr hh

/-! ## A message that left no row -/

/-- `base` is the trace when `blocked` was answered for `m`. A row of `m`, or an
unanswered delivery that found the gate open, is there only if the gate was read
open since. -/
structure Reopened (base : List Entry) (m : Nat) (msg : Message) (s : Shared) : Prop where
  since : ∃ entries, s.trace = entries ++ base
  delivery : (activity .worker s.trace).message = some m →
    (activity .worker s.trace).Admitted →
    ∃ entries, s.trace = entries ++ base ∧ ReadOpen m entries
  row : (∃ r ∈ s.rows, r.isOf msg) → ∃ entries, s.trace = entries ++ base ∧ ReadOpen m entries

theorem ReadOpen.grow {base : List Entry} {entries : List Entry}
    (h : ∃ entries, t.trace = entries ++ base ∧ ReadOpen m entries)
    (hu : u.trace = entries ++ t.trace) :
    ∃ entries, u.trace = entries ++ base ∧ ReadOpen m entries := by
  obtain ⟨es, hes, value, hne, hmem⟩ := h
  refine ⟨entries ++ es, ?_, value, hne, List.mem_append_right _ hmem⟩
  rw [hu, hes, List.append_assoc]

/-- A call either leaves its delivery as admitted as it was or reads the gate
open. -/
theorem admitted_after {a : Activity} {c : Call} {r : c.Result} (h : (a.after c r).Admitted) :
    a.Admitted ∨ ∃ key value, value ≠ some "1" ∧
      ∀ i k, Entry.call i k c r = .call i k (.getStrict key) (.ok value) := by
  obtain ⟨hans, value, hgate, hne⟩ := h
  cases c with
  | getStrict key =>
      cases r with
      | error e => cases hgate
      | ok v =>
          cases hgate
          exact .inr ⟨key, value, hne, fun _ _ => rfl⟩
  | mark mark =>
      cases mark with
      | fanout id => exact .inl ⟨hans, value, hgate, hne⟩
      | answered answer => cases hans
  | _ => exact .inl ⟨hans, value, hgate, hne⟩

theorem may_getStrict {key : String} (h : May lib cfg i k (.getStrict key) s) :
    i = .worker ∧ key = "signal_blocked" ∧ k = (activity .worker s.trace).message := by
  rcases i with _ | _ | n
  · cases k with
    | none => exact h.elim
    | some m =>
        obtain ⟨msg, a, hat, hw | ⟨-, r, -, -, -, _, _, -, -, hf⟩⟩ := h
        · rw [hat.activity]
          exact ⟨rfl, hw, hat.message.symm⟩
        · exact hf.elim
  · obtain hj | ⟨r, -, -, hf⟩ := h
    · exact hj.elim
    · exact hf.elim
  · exact h.elim

/-- A delivery of `m` that is admitted after a step was admitted before it, or has
read the gate open in this very step. -/
theorem delivery_step (hl : l.Allowed (May lib cfg) t)
    (ha : (pipeline lib cfg).act l t = some u)
    (hm : (activity .worker u.trace).message = some m)
    (hadm : (activity .worker u.trace).Admitted) :
    ((activity .worker t.trace).message = some m ∧ (activity .worker t.trace).Admitted) ∨
      ReadOpen m (traced lib t l) := by
  by_cases hp : l.party = some .worker
  · cases l with
    | call i k c x =>
        cases hp
        rw [act_call] at ha
        subst ha
        rw [Shared.log_trace, effect_trace, activity_call] at hm hadm
        rw [Activity.after_message] at hm
        rcases admitted_after hadm with hold | ⟨key, value, hne, hentry⟩
        · exact .inl ⟨hm, hold⟩
        · right
          have hc := hentry .worker k
          simp only [Entry.call.injEq] at hc
          obtain ⟨-, -, rfl, -⟩ := hc
          obtain ⟨-, hkey, hk⟩ := may_getStrict hl
          refine ⟨value, hne, ?_⟩
          rw [traced, List.mem_singleton, hentry, hk, hm, hkey]
    | start i e =>
        cases hp
        rcases act_start ha with ⟨m', -, rfl, -, rfl⟩ | ⟨-, rfl⟩
        · rw [Shared.log_trace, activity_start] at hadm
          obtain ⟨-, value, hgate, -⟩ := hadm
          cases hgate
        · rw [Shared.log_trace, activity_start] at hadm
          obtain ⟨-, value, hgate, -⟩ := hadm
          cases e <;> cases hgate
    | env e => cases hp
    | crash i k =>
        cases hp
        rw [act_crash ha, Shared.log_trace, activity_crash] at hm
        cases hm
  · rw [act_activity ha hp] at hm hadm
    exact .inl ⟨hm, hadm⟩

theorem Reopened.step {base : List Entry} (hinv : Inv t) (hmsg : t.stream[m]? = some msg)
    (hl : l.Allowed (May lib cfg) t) (ha : (pipeline lib cfg).act l t = some u)
    (h : Reopened base m msg t) : Reopened base m msg u := by
  have htrace := act_trace ha
  obtain ⟨entries, he⟩ := h.since
  refine ⟨⟨traced lib t l ++ entries, ?_⟩, ?_, ?_⟩
  · rw [htrace, he, List.append_assoc]
  · intro hm hadm
    rcases delivery_step hl ha hm hadm with ⟨hm', hadm'⟩ | ⟨value, hne, hmem⟩
    · exact ReadOpen.grow (h.delivery hm' hadm') htrace
    · refine ⟨traced lib t l ++ entries, ?_, value, hne, List.mem_append_left _ hmem⟩
      rw [htrace, he, List.append_assoc]
  · rintro ⟨r', hr', hof⟩
    rcases rows_backward hinv hl ha hr' with ⟨r, hr, hs⟩ | hins
    · exact ReadOpen.grow (h.row ⟨r, hr, hs.isOf.1 hof⟩) htrace
    · obtain ⟨m', msg', a, minted, payload, x, -, hat, hadm, -, -, rfl, -⟩ := hins
      -- The inserted row is its message's, and no other message has that key.
      have hm' : m' = m :=
        hinv.place_unique hat.stored hmsg (isOf_unique (r := newRow payload _ _ x t) rfl hof)
      refine ReadOpen.grow (h.delivery ?_ ?_) htrace
      · rw [hat.activity, hat.message, hm']
      · rw [hat.activity]
        exact hadm

/-! ## What can still carry the signal -/

/-- Answering `blocked` leaves the table and the trace of what was read alone. -/
theorem answered_step {x : Choice}
    (h : (pipeline lib cfg).act (.call .worker (some m) (.mark (.answered .blocked)) x) s =
      some t) :
    t.rows = s.rows ∧ (activity .worker t.trace).answer = some .blocked := by
  rw [act_call] at h
  subst h
  refine ⟨?_, ?_⟩
  · rw [Shared.log_rows, effect_rows]
    split <;> rfl
  · rw [Shared.log_trace, activity_call]
    rfl

/-- Once `blocked` was answered for a message its signal is carried in three ways
only: by the retry job, if a failure of its row had been recorded before; in a
handshake's replay, if it had a row; and, if it had none, after it was delivered
again and the gate read open. The worker's own fan-out is never resumed. -/
theorem blocked_leaves_three_ways {x : Choice} {c : Call} {y : Choice}
    (hrun : (pipeline lib cfg).Runs (startPool now settings) p)
    (hans : (pipeline lib cfg).Step p (.call .worker (some m) (.mark (.answered .blocked)) x) q)
    (hrun' : (pipeline lib cfg).Runs q p')
    (hstep : (pipeline lib cfg).Step p' (.call i k c y) q') {r' : Signal}
    (hr' : IsRowOf p'.shared m r') (hc : c.Carries r') :
    (∀ r, IsRowOf p.shared m r → r.firstFanoutUnconfirmed = false) ∧
    ((∃ r, IsRowOf p.shared m r ∧
        (i = .retryJob ∧ r.awaitsRetry = true ∨ ∃ n, i = .handshake n)) ∨
      (∀ r, ¬ IsRowOf p.shared m r) ∧
        ∃ entries, p'.shared.trace = entries ++ q.shared.trace ∧ ReadOpen m entries) := by
  have hgood := (reaches_good hrun).1
  obtain ⟨hmay, hact, hgoodq⟩ := pipeline_holds.step hgood hans
  have hmay : May lib cfg .worker (some m) (.mark (.answered .blocked)) p.shared := hmay
  obtain ⟨msg, a, hat, hw | ⟨-, r, -, -, -, _, _, -, -, hf⟩⟩ := hmay
  swap
  · exact hf.elim
  obtain ⟨-, hclosed⟩ := hw rfl
  obtain ⟨hrows, hanswer⟩ := answered_step hact
  have hmsgq : q.shared.stream[m]? = some msg := (act_grows hact).stream m msg hat.stored
  have hmsg' : p'.shared.stream[m]? = some msg :=
    (persistent_stored m msg).reaches pipeline_holds hgoodq hrun' hmsgq
  obtain ⟨hmem', msg', hm', hof'⟩ := hr'
  rw [hmsg'] at hm'
  cases hm'
  refine ⟨?_, ?_⟩
  · rintro r ⟨hr, msg', hm', hof⟩
    rw [hat.stored] at hm'
    cases hm'
    exact hclosed r hr hof
  by_cases hex : ∃ r ∈ p.shared.rows, r.isOf msg
  · obtain ⟨r, hr, hof⟩ := hex
    refine .inl ⟨r, ⟨hr, msg, hat.stored, hof⟩, ?_⟩
    have hrq : r ∈ q.shared.rows := by
      rw [hrows]
      exact hr
    exact carried_after_confirmed hgoodq hrun' hstep hrq hof (hclosed r hr hof) hmem' hof' hc
  · right
    refine ⟨?_, ?_⟩
    · rintro r ⟨hr, msg', hm', hof⟩
      rw [hat.stored] at hm'
      cases hm'
      exact hex ⟨r, hr, hof⟩
    · have hstart : Reopened q.shared.trace m msg q.shared := by
        refine ⟨⟨[], rfl⟩, ?_, ?_⟩
        · rintro - ⟨hnone, -⟩
          rw [hanswer] at hnone
          cases hnone
        · rintro ⟨r, hr, hof⟩
          rw [hrows] at hr
          exact absurd ⟨r, hr, hof⟩ hex
      have hJ : p'.shared.stream[m]? = some msg ∧
          Reopened q.shared.trace m msg p'.shared :=
        (pipeline_holds.refines hgoodq hrun').2.induct
          (J := fun s => s.stream[m]? = some msg ∧ Reopened q.shared.trace m msg s)
          ⟨hmsgq, hstart⟩ fun t l u ht _ hl _ ha hj =>
            ⟨(act_grows ha).stream m msg hj.1, hj.2.step ht hj.1 hl ha⟩
      exact hJ.2.row ⟨r', hmem', hof'⟩

end

/-! ## A run in which a blocked signal is delivered -/

namespace Sample

/-- The alert's only publish fails and the failure is recorded; the process dies
before the ack, an operator blocks signals, and the message comes back. -/
def blockedMoves : List (Machine.Move Party Choice Event) :=
  [.env (.store entry), .start .worker (.deliver 0)] ++ calls .worker 5 ++
    [.call .worker failed] ++ calls .worker 2 ++
    [.crash .worker, .env (.set "signal_blocked" (some "1")), .start .worker (.deliver 0)] ++
    calls .worker 4

/-- The retry job's next tick, with the gate still closed. -/
def tickMoves : List (Machine.Move Party Choice Event) :=
  calls .worker 1 ++ [.env (.pass 100000000), .start .retryJob .tick] ++ calls .retryJob 5

def answersBlocked (p : World) : Bool :=
  (p.threads .worker).1 == some 0 &&
    match (p.threads .worker).2.next? with
    | some (.mark (.answered .blocked)) => true
    | _ => false

/-- The retry job is about to publish the row of the stream's first message. -/
def retries (p : World) : Bool :=
  p.shared.stream.head?.any fun msg => p.shared.rows.any fun r =>
    r.deliveryKey == some (deliveryKeyFor msg) &&
      match (p.threads .retryJob).2.next? with
      | some (.publish w) => w.signalId == r.id
      | _ => false

theorem retries_iff {p : World} (h : retries p = true) :
    ∃ r w, IsRowOf p.shared 0 r ∧ (p.threads .retryJob).2.next? = some (.publish w) ∧
      (Call.publish w).Carries r := by
  simp only [retries, Option.any_eq_true, List.any_eq_true, Bool.and_eq_true, beq_iff_eq] at h
  obtain ⟨msg, hmsg, r, hr, hkey, hnext⟩ := h
  split at hnext
  · next w hw =>
      refine ⟨r, w, ⟨hr, msg, ?_, hkey⟩, hw, by simpa [Call.Carries] using hnext⟩
      rw [← List.head?_eq_getElem?, hmsg]
  · cases hnext

theorem answersBlocked_iff {p : World} (h : answersBlocked p = true) :
    (p.threads .worker).1 = some 0 ∧
      (p.threads .worker).2.next? = some (.mark (.answered .blocked)) := by
  simp only [answersBlocked, Bool.and_eq_true, beq_iff_eq] at h
  refine ⟨h.1, ?_⟩
  have h2 := h.2
  split at h2
  · next hc => exact hc
  · cases h2

theorem blocked_then_retried : ∃ p q p' q' r w,
    (pipeline lib cfg).Runs (startPool 0 unset) p ∧
    (pipeline lib cfg).Step p (.call .worker (some 0) (.mark (.answered .blocked)) ok) q ∧
    (pipeline lib cfg).Runs q p' ∧
    (pipeline lib cfg).Step p' (.call .retryJob (p'.threads .retryJob).1 (.publish w) ok) q' ∧
    IsRowOf p'.shared 0 r ∧ (Call.publish w).Carries r := by
  obtain ⟨p, l, q, p', hrun, hmove, hrun', hp⟩ := run_then blockedMoves tickMoves .worker
    (fun p p' => answersBlocked p && retries p') (by decide +kernel)
  simp only [Bool.and_eq_true] at hp
  obtain ⟨hctx, hnext⟩ := answersBlocked_iff hp.1
  obtain ⟨r, w, hrow, hpub, hcar⟩ := retries_iff hp.2
  obtain ⟨q', hstep⟩ := step_next (x := ok) hpub
  have hl := move_call hmove hnext
  rw [hctx] at hl
  subst hl
  exact ⟨p, q, p', q', r, w, hrun, ⟨_, hmove⟩, hrun', hstep, hrow, hcar⟩

end Sample

theorem not_blockedStaysBlocked : ¬ BlockedStaysBlocked Sample.lib Sample.cfg := by
  intro h
  obtain ⟨p, q, p', q', r, w, hrun, hans, hrun', hstep, hrow, hcar⟩ :=
    Sample.blocked_then_retried
  exact h _ _ p q p' q' 0 _ _ _ _ _ hrun hans hrun' hstep rfl r hrow hcar

/-- The retry job's publish in the run above is the first of the three ways. -/
theorem blocked_leaves_three_ways_to_retry : ∃ (p q p' : Sample.World) (r : Signal),
    (∀ r, IsRowOf p.shared 0 r → r.firstFanoutUnconfirmed = false) ∧
    ((∃ r, IsRowOf p.shared 0 r ∧ (Party.retryJob = .retryJob ∧ r.awaitsRetry = true ∨
        ∃ n, Party.retryJob = .handshake n)) ∨
      (∀ r, ¬ IsRowOf p.shared 0 r) ∧
        ∃ entries, p'.shared.trace = entries ++ q.shared.trace ∧ ReadOpen 0 entries) ∧
    IsRowOf p'.shared 0 r := by
  obtain ⟨p, q, p', q', r, w, hrun, hans, hrun', hstep, hrow, hcar⟩ :=
    Sample.blocked_then_retried
  exact ⟨p, q, p', r, (blocked_leaves_three_ways hrun hans hrun' hstep hrow hcar).1,
    (blocked_leaves_three_ways hrun hans hrun' hstep hrow hcar).2, hrow⟩

end TradingBroker
