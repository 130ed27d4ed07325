import TradingBroker.Lib.Rows
import TradingBroker.Signals.Contract

/-!
# What one step can do

Every fact about runs of the pipeline is an induction over single steps, and
this file says once what a step is: nothing that was stored, counted, settled or
sent is ever taken back (`act_grows`), a party's own activity is moved by that
party alone (`act_activity`), and the table changes in exactly one of three ways
(`rows_cases`): not at all, by one update of a row the caller is entitled to, or
by the worker's insert. From these the contract keeps what it says it keeps.

The last is the one the invariants go through: `RowStep` says what becomes of
one row across a step, and who may have changed it (`Entitled`). A row that is
queued is the worker's as long as no failure of it is recorded and the retry
job's from then on, so at most one of the two may change it at any time.
-/

namespace TradingBroker

open TradingBroker.Lib

section
variable {lib : Libraries} {cfg : Config} {s s' : Shared}
  {l : Label Party Context Choice Event Call}

/-! ## The shared state, field by field -/

theorem sends_cons (e : Entry) (t : List Entry) :
    sends (e :: t) = sends t ++ e.sends.toList := by
  unfold sends
  cases h : e.sends with
  | none => rw [List.filterMap_cons_none h, Option.toList_none, List.append_nil]
  | some id => rw [List.filterMap_cons_some h, List.reverse_cons, Option.toList_some]

@[simp] theorem effect_now (k : Context) (c : Call) (x : Choice) (s : Shared) :
    (effect lib k c x s).now = s.now := by
  unfold effect
  split <;> rfl

@[simp] theorem effect_stream (k : Context) (c : Call) (x : Choice) (s : Shared) :
    (effect lib k c x s).stream = s.stream := by
  unfold effect
  split <;> rfl

@[simp] theorem effect_delivered (k : Context) (c : Call) (x : Choice) (s : Shared) :
    (effect lib k c x s).delivered = s.delivered := by
  unfold effect
  split <;> rfl

@[simp] theorem effect_trace (k : Context) (c : Call) (x : Choice) (s : Shared) :
    (effect lib k c x s).trace = s.trace := by
  unfold effect
  split <;> rfl

theorem effect_rows (k : Context) (c : Call) (x : Choice) (s : Shared) :
    (effect lib k c x s).rows = if x.applies then writeRows lib x s c else s.rows := by
  unfold effect
  split <;> rfl

theorem effect_gone (k : Context) (c : Call) (x : Choice) (s : Shared) :
    (effect lib k c x s).gone = if x.applies then settle k s c else s.gone := by
  unfold effect
  split <;> rfl

/-- Settling is for good. -/
theorem settle_of_gone {k : Context} {c : Call} {m : Nat} (h : s.gone m = true) :
    settle k s c m = true := by
  cases c <;> simp [settle, h]

/-- Only an ack or a term settles, and only the caller's own message. -/
theorem settle_cases {k : Context} {c : Call} {m : Nat} (h : settle k s c m = true) :
    s.gone m = true ∨ (k = some m ∧ (c = .ack ∨ c = .term)) := by
  cases c <;> simp only [settle, Bool.or_eq_true, beq_iff_eq] at h
  case ack => exact h.imp id fun hk => ⟨hk, .inl rfl⟩
  case term => exact h.imp id fun hk => ⟨hk, .inr rfl⟩
  all_goals exact .inl h

/-! ## The labels -/

theorem act_call {i : Party} {k : Context} {c : Call} {x : Choice} :
    (pipeline lib cfg).act (.call i k c x) s = some s' ↔
      (effect lib k c x s).log (.call i k c (respond lib x s c)) = s' := by
  simp [Machine.act, pipeline, exec]

theorem exec_eq {i : Party} {k : Context} {c : Call} {x : Choice} {r : c.Result} :
    (pipeline lib cfg).exec i k c x s = some (r, s') ↔
      respond lib x s c = r ∧ (effect lib k c x s).log (.call i k c r) = s' := by
  simp only [pipeline, exec, Option.some.injEq, Prod.mk.injEq]
  constructor
  · rintro ⟨rfl, rfl⟩
    exact ⟨rfl, rfl⟩
  · rintro ⟨rfl, rfl⟩
    exact ⟨rfl, rfl⟩

theorem act_of_exec {i : Party} {k : Context} {c : Call} {x : Choice} {r : c.Result}
    (h : (pipeline lib cfg).exec i k c x s = some (r, s')) :
    (pipeline lib cfg).act (.call i k c x) s = some s' := by
  simp only [Machine.act, h, Option.map_some]

/-- What a start is: a delivery hands a message out, and nothing else changes
but the trace. -/
theorem act_start {i : Party} {e : Event} (h : (pipeline lib cfg).act (.start i e) s = some s') :
    (∃ m, i = .worker ∧ e = .deliver m ∧ deliverable s m = true ∧
      s' = (handOut s m).log (.start i e)) ∨
    (i ≠ .worker ∧ s' = s.log (.start i e)) := by
  simp only [Machine.act, pipeline, Option.map_eq_some_iff] at h
  obtain ⟨⟨k, p, t⟩, ht, rfl⟩ := h
  unfold start at ht
  split at ht
  · next m =>
      left
      split at ht
      · next msg hmsg =>
          split at ht
          · next hd =>
              simp only [Option.some.injEq, Prod.mk.injEq] at ht
              exact ⟨m, rfl, rfl, hd, ht.2.2.symm⟩
          · cases ht
      · cases ht
  · right
    simp only [Option.some.injEq, Prod.mk.injEq] at ht
    exact ⟨by simp, ht.2.2.symm⟩
  · right
    simp only [Option.some.injEq, Prod.mk.injEq] at ht
    exact ⟨by simp, ht.2.2.symm⟩
  · cases ht

/-- What the environment does: it touches neither the table nor the trace. -/
theorem act_env {e : Event} (h : (pipeline lib cfg).act (.env e) s = some s') :
    s'.rows = s.rows ∧ s'.trace = s.trace ∧ s'.gone = s.gone ∧
      ((∃ msg, storable s msg = true ∧ s'.stream = s.stream ++ [msg] ∧
          s'.delivered = s.delivered) ∨
        (s'.stream = s.stream ∧ ∀ m, s.delivered m ≤ s'.delivered m)) := by
  simp only [Machine.act, pipeline, environment] at h
  split at h
  · next msg =>
      split at h
      · next hs =>
          cases h
          exact ⟨rfl, rfl, rfl, .inl ⟨msg, hs, rfl, rfl⟩⟩
      · cases h
  · cases h
    exact ⟨rfl, rfl, rfl, .inr ⟨rfl, fun m => Nat.le_refl _⟩⟩
  · cases h
    exact ⟨rfl, rfl, rfl, .inr ⟨rfl, fun m => Nat.le_refl _⟩⟩
  · next m =>
      split at h
      · cases h
        refine ⟨rfl, rfl, rfl, .inr ⟨rfl, fun j => ?_⟩⟩
        show s.delivered j ≤ if j = m then s.delivered m + 1 else s.delivered j
        split
        · next hj =>
            subst hj
            omega
        · exact Nat.le_refl _
      · cases h
  · cases h

theorem act_crash {i : Party} {k : Context}
    (h : (pipeline lib cfg).act (.crash i k) s = some s') : s' = s.log (.crash i) := by
  simp only [Machine.act, pipeline, crash, Option.some.injEq] at h
  exact h.symm

/-- What a step adds to the trace. -/
def traced (lib : Libraries) (s : Shared) : Label Party Context Choice Event Call → List Entry
  | .call i k c x => [.call i k c (respond lib x s c)]
  | .start i e => [.start i e]
  | .env _ => []
  | .crash i _ => [.crash i]

theorem act_trace (h : (pipeline lib cfg).act l s = some s') :
    s'.trace = traced lib s l ++ s.trace := by
  cases l with
  | call i k c x =>
      rw [act_call] at h
      subst h
      rw [Shared.log_trace, effect_trace]
      rfl
  | start i e =>
      rcases act_start h with ⟨m, -, -, -, rfl⟩ | ⟨-, rfl⟩
      · rfl
      · rfl
  | env e => exact (act_env h).2.1
  | crash i k =>
      rw [act_crash h]
      rfl

/-! ## Nothing is taken back -/

/-- What no step takes back: the stream, the counts of deliveries, what is settled, and
the trace. -/
structure Grows (s s' : Shared) : Prop where
  stream : ∀ (m : Nat) msg, s.stream[m]? = some msg → s'.stream[m]? = some msg
  delivered : ∀ m, s.delivered m ≤ s'.delivered m
  gone : ∀ m, s.gone m = true → s'.gone m = true
  trace : ∃ entries, s'.trace = entries ++ s.trace

theorem sends_append (t entries : List Entry) :
    sends (entries ++ t) = sends t ++ sends entries := by
  rw [sends, List.filterMap_append, List.reverse_append, sends, sends]

theorem Grows.sent (h : Grows s s') {id : RowId} (hs : Sent s id) : Sent s' id := by
  obtain ⟨entries, he⟩ := h.trace
  unfold Sent
  rw [he, sends_append]
  exact List.mem_append_left _ hs

theorem handOut_le (s : Shared) (m j : Nat) : s.delivered j ≤ (handOut s m).delivered j := by
  show s.delivered j ≤ if j = m then s.delivered m + 1 else s.delivered j
  split
  · next hj =>
      subst hj
      omega
  · exact Nat.le_refl _

theorem act_grows (h : (pipeline lib cfg).act l s = some s') : Grows s s' := by
  cases l with
  | call i k c x =>
      rw [act_call] at h
      subst h
      refine ⟨?_, ?_, ?_, [.call i k c (respond lib x s c)], ?_⟩
      · intro m msg hm
        simpa using hm
      · intro m
        simp
      · intro m hm
        rw [Shared.log_gone, effect_gone]
        split
        · exact settle_of_gone hm
        · exact hm
      · simp
  | start i e =>
      rcases act_start h with ⟨m, -, -, -, rfl⟩ | ⟨-, rfl⟩
      · exact ⟨fun _ _ hm => hm, handOut_le s m, fun _ hm => hm, [_], rfl⟩
      · exact ⟨fun _ _ hm => hm, fun _ => Nat.le_refl _, fun _ hm => hm, [_], rfl⟩
  | env e =>
      obtain ⟨-, htrace, hgone, hstore | hstep⟩ := act_env h
      · obtain ⟨msg, -, hstream, hdel⟩ := hstore
        refine ⟨?_, fun m => by rw [hdel], fun m hm => by rw [hgone]; exact hm, [], htrace⟩
        intro m msg' hm
        have hlt : m < s.stream.length := (List.getElem?_eq_some_iff.1 hm).1
        rw [hstream, List.getElem?_append_left hlt]
        exact hm
      · refine ⟨?_, hstep.2, fun m hm => by rw [hgone]; exact hm, [], htrace⟩
        intro m msg' hm
        rw [hstep.1]
        exact hm
  | crash i k =>
      rw [act_crash h]
      exact ⟨fun _ _ hm => hm, fun _ => Nat.le_refl _, fun _ hm => hm, [_], rfl⟩

/-- A party's activity is moved by nobody else. -/
theorem act_activity (h : (pipeline lib cfg).act l s = some s') {i : Party}
    (hi : l.party ≠ some i) : activity i s'.trace = activity i s.trace := by
  cases l with
  | call j k c x =>
      rw [act_call] at h
      subst h
      rw [Shared.log_trace, effect_trace]
      exact activity_other fun he => hi (congrArg some he)
  | start j e =>
      have hj : (Entry.start j e).party ≠ i := fun he => hi (congrArg some he)
      rcases act_start h with ⟨m, -, -, -, rfl⟩ | ⟨-, rfl⟩
      · exact activity_other hj
      · exact activity_other hj
  | env e => rw [(act_env h).2.1]
  | crash j k =>
      rw [act_crash h]
      exact activity_other fun he => hi (congrArg some he)

/-- Only the worker settles a message, and its own. -/
theorem act_gone (h : (pipeline lib cfg).act l s = some s') {m : Nat}
    (hm : s'.gone m = true) :
    s.gone m = true ∨ ∃ i c x, l = .call i (some m) c x ∧ (c = .ack ∨ c = .term) := by
  cases l with
  | call i k c x =>
      rw [act_call] at h
      subst h
      rw [Shared.log_gone, effect_gone] at hm
      split at hm
      · rcases settle_cases hm with hg | ⟨rfl, hc⟩
        · exact .inl hg
        · exact .inr ⟨i, c, x, rfl, hc⟩
      · exact .inl hm
  | start i e =>
      rcases act_start h with ⟨m, -, -, -, rfl⟩ | ⟨-, rfl⟩
      · exact .inl hm
      · exact .inl hm
  | env e =>
      rw [(act_env h).2.2.1] at hm
      exact .inl hm
  | crash i k =>
      rw [act_crash h] at hm
      exact .inl hm

/-! ## How the table changes -/

/-- What a call makes of the one row it updates. -/
inductive RowChange (s : Shared) (r : Signal) : Call → Signal → Prop where
  | published : Sent s r.id → RowChange s r (.markPublished r.id) r.markPublished
  | failed : RowChange s r (.markFailed r.id) (r.markFailed s.now)
  | attempt : RowChange s r (.recordAttemptFailure r.id) (r.recordAttemptFailure s.now)

/-- The worker inserts the row of the message it is at work on. -/
def Inserts (lib : Libraries) (cfg : Config) (l : Label Party Context Choice Event Call)
    (s : Shared) (row : Signal) : Prop :=
  ∃ m msg a minted payload x,
    l = .call .worker (some m)
      (.logSignal payload (some (deliveryKeyFor msg)) cfg.maxAttempts) x ∧
    AtWork m msg a s ∧ a.Admitted ∧ a.minted = some minted ∧
    msg.payload? lib minted = some payload ∧
    row = newRow payload (some (deliveryKeyFor msg)) cfg.maxAttempts x s ∧
    Signal.insertable lib s.rows row = true

theorem may_markPublished {i : Party} {k : Context} {id : RowId}
    (h : May lib cfg i k (.markPublished id) s) :
    ∃ r ∈ s.rows, r.id = id ∧ Entitled i r ∧ Sent s r.id := by
  rcases i with _ | _ | n
  · cases k with
    | none => exact h.elim
    | some m =>
        obtain ⟨msg, a, -, hw | ⟨-, r, hr, -, hu, -, -, -, -, hid, -, hs⟩⟩ := h
        · exact hw.elim
        · exact ⟨r, hr, hid.symm, hu, hs⟩
  · obtain hj | ⟨r, hr, hw, hid, -, hs⟩ := h
    · exact hj.elim
    · exact ⟨r, hr, hid.symm, hw, hs⟩
  · exact h.elim

theorem may_markFailed {i : Party} {k : Context} {id : RowId}
    (h : May lib cfg i k (.markFailed id) s) :
    ∃ r ∈ s.rows, r.id = id ∧ Entitled i r := by
  rcases i with _ | _ | n
  · cases k with
    | none => exact h.elim
    | some m =>
        obtain ⟨msg, a, -, ⟨-, -, r, hr, hid, -, hu⟩ | ⟨-, r, hr, -, hu, -, -, -, -, hid, -⟩⟩ := h
        · exact ⟨r, hr, hid, hu⟩
        · exact ⟨r, hr, hid.symm, hu⟩
  · obtain hj | ⟨r, hr, hw, hid, -⟩ := h
    · exact hj.elim
    · exact ⟨r, hr, hid.symm, hw⟩
  · exact h.elim

theorem may_recordAttemptFailure {i : Party} {k : Context} {id : RowId}
    (h : May lib cfg i k (.recordAttemptFailure id) s) :
    ∃ r ∈ s.rows, r.id = id ∧ Entitled i r := by
  rcases i with _ | _ | n
  · cases k with
    | none => exact h.elim
    | some m =>
        obtain ⟨msg, a, -, hw | ⟨-, r, hr, -, hu, -, -, -, -, hid, -⟩⟩ := h
        · exact hw.elim
        · exact ⟨r, hr, hid.symm, hu⟩
  · obtain ⟨-, r, hr, hid, hw⟩ | ⟨r, hr, hw, hid, -⟩ := h
    · exact ⟨r, hr, hid, hw⟩
    · exact ⟨r, hr, hid.symm, hw⟩
  · exact h.elim

theorem may_publish {i : Party} {k : Context} {w : WorkerMessage}
    (h : May lib cfg i k (.publish w) s) :
    ∃ r ∈ s.rows, r.id = w.signalId ∧ Entitled i r := by
  rcases i with _ | _ | n
  · cases k with
    | none => exact h.elim
    | some m =>
        obtain ⟨msg, a, -, hw | ⟨-, r, hr, -, hu, -, -, -, -, hid, -⟩⟩ := h
        · exact hw.elim
        · exact ⟨r, hr, hid.symm, hu⟩
  · obtain hj | ⟨r, hr, hw, hid, -⟩ := h
    · exact hj.elim
    · exact ⟨r, hr, hid.symm, hw⟩
  · exact h.elim

theorem may_logSignal {i : Party} {k : Context} {payload : WebhookPayload}
    {key : Option String} {attempts : Int} {x : Choice}
    (h : May lib cfg i k (.logSignal payload key attempts) s)
    (hins : Signal.insertable lib s.rows (newRow payload key attempts x s) = true) :
    Inserts lib cfg (.call i k (.logSignal payload key attempts) x) s
      (newRow payload key attempts x s) := by
  rcases i with _ | _ | n
  · cases k with
    | none => exact h.elim
    | some m =>
        obtain ⟨msg, a, hat,
          ⟨hadm, -, rfl, rfl, -, minted, hm, hp⟩ | ⟨-, r, -, -, -, _, _, -, -, hf⟩⟩ := h
        · exact ⟨m, msg, a, minted, payload, x, rfl, hat, hadm, hm, hp, rfl, hins⟩
        · exact hf.elim
  · obtain hj | ⟨r, -, -, hf⟩ := h
    · exact hj.elim
    · exact hf.elim
  · exact h.elim

/-- One step changes the table in one of three ways. -/
theorem rows_cases (hl : l.Allowed (May lib cfg) s) (h : (pipeline lib cfg).act l s = some s') :
    s'.rows = s.rows ∨
    (∃ i k c x r f, l = .call i k c x ∧ r ∈ s.rows ∧ Entitled i r ∧ RowChange s r c (f r) ∧
      (∀ q : Signal, (f q).identity = q.identity) ∧ s'.rows = Signal.update s.rows r.id f) ∨
    (∃ row, Inserts lib cfg l s row ∧ s'.rows = s.rows ++ [row]) := by
  cases l with
  | start i e =>
      rcases act_start h with ⟨m, -, -, -, rfl⟩ | ⟨-, rfl⟩
      · exact .inl rfl
      · exact .inl rfl
  | env e => exact .inl (act_env h).1
  | crash i k =>
      rw [act_crash h]
      exact .inl rfl
  | call i k c x =>
      rw [act_call] at h
      subst h
      rw [Shared.log_rows, effect_rows]
      by_cases hx : x.applies = true
      · rw [if_pos hx]
        cases c with
        | markPublished id =>
            obtain ⟨r, hr, rfl, he, hs⟩ := may_markPublished hl
            exact .inr (.inl ⟨i, k, _, x, r, Signal.markPublished, rfl, hr, he, .published hs,
              Signal.markPublished_identity, rfl⟩)
        | markFailed id =>
            obtain ⟨r, hr, rfl, he⟩ := may_markFailed hl
            exact .inr (.inl ⟨i, k, _, x, r, Signal.markFailed s.now, rfl, hr, he, .failed,
              Signal.markFailed_identity s.now, rfl⟩)
        | recordAttemptFailure id =>
            obtain ⟨r, hr, rfl, he⟩ := may_recordAttemptFailure hl
            exact .inr (.inl ⟨i, k, _, x, r, Signal.recordAttemptFailure s.now, rfl, hr, he,
              .attempt, Signal.recordAttemptFailure_identity s.now, rfl⟩)
        | logSignal payload key attempts =>
            simp only [writeRows]
            split
            · next hins => exact .inr (.inr ⟨_, may_logSignal hl hins, rfl⟩)
            · exact .inl rfl
        | _ => exact .inl rfl
      · rw [if_neg hx]
        exact .inl rfl

/-! ## Row by row -/

/-- One row across one step. -/
def RowStep (l : Label Party Context Choice Event Call) (s : Shared) (r r' : Signal) : Prop :=
  r' = r ∨ ∃ i k c x, l = .call i k c x ∧ Entitled i r ∧ RowChange s r c r'

theorem Entitled.queued {i : Party} {r : Signal} (h : Entitled i r) : r.status = .queued := by
  cases i with
  | worker =>
      simp only [Entitled, Signal.firstFanoutUnconfirmed, Bool.and_eq_true, beq_iff_eq] at h
      exact h.1
  | retryJob =>
      simp only [Entitled, Signal.awaitsRetry, Bool.and_eq_true, beq_iff_eq] at h
      exact h.1
  | handshake n => exact h.elim

theorem RowChange.identity {c : Call} {r r' : Signal} (h : RowChange s r c r') :
    r'.identity = r.identity := by
  cases h with
  | published => exact Signal.markPublished_identity r
  | failed => exact Signal.markFailed_identity s.now r
  | attempt => exact Signal.recordAttemptFailure_identity s.now r

theorem RowStep.identity {r r' : Signal} (h : RowStep l s r r') : r'.identity = r.identity := by
  rcases h with rfl | ⟨i, k, c, x, -, -, hc⟩
  · rfl
  · exact hc.identity

theorem RowStep.id_eq {r r' : Signal} (h : RowStep l s r r') : r'.id = r.id :=
  (Signal.identity_eq.1 h.identity).1

theorem RowStep.isOf {r r' : Signal} (h : RowStep l s r r') {msg : Message} :
    r'.isOf msg ↔ r.isOf msg := by
  unfold Signal.isOf
  rw [(Signal.identity_eq.1 h.identity).2.1]

/-- The two owners never meet: a row is at most one party's. -/
theorem Entitled.unique {i j : Party} {r : Signal} (hi : Entitled i r) (hj : Entitled j r) :
    i = j := by
  rcases i with _ | _ | n <;> rcases j with _ | _ | n' <;>
    simp only [Entitled, Signal.firstFanoutUnconfirmed, Signal.awaitsRetry, Bool.and_eq_true,
      beq_iff_eq, bne_iff_ne] at hi hj
  · rfl
  · exact absurd hi.2 hj.2
  · exact absurd hj.2 hi.2
  · rfl

theorem rows_forward (hinv : Inv s) (hl : l.Allowed (May lib cfg) s)
    (h : (pipeline lib cfg).act l s = some s') {r : Signal} (hr : r ∈ s.rows) :
    ∃ r' ∈ s'.rows, RowStep l s r r' := by
  rcases rows_cases hl h with he | ⟨i, k, c, x, q, f, hlab, hq, hent, hc, -, he⟩ | ⟨row, -, he⟩
  · rw [he]
    exact ⟨r, hr, .inl rfl⟩
  · rw [he]
    by_cases hid : r.id = q.id
    · have hrq : r = q := Signal.eq_of_id hinv.ids hr hq hid
      subst hrq
      exact ⟨f r, Signal.mem_update.2 ⟨r, hr, by rw [if_pos rfl]⟩,
        .inr ⟨i, k, c, x, hlab, hent, hc⟩⟩
    · exact ⟨r, Signal.mem_update.2 ⟨r, hr, by rw [if_neg hid]⟩, .inl rfl⟩
  · rw [he]
    exact ⟨r, List.mem_append_left _ hr, .inl rfl⟩

theorem rows_backward (hinv : Inv s) (hl : l.Allowed (May lib cfg) s)
    (h : (pipeline lib cfg).act l s = some s') {r' : Signal} (hr' : r' ∈ s'.rows) :
    (∃ r ∈ s.rows, RowStep l s r r') ∨ Inserts lib cfg l s r' := by
  rcases rows_cases hl h with he | ⟨i, k, c, x, q, f, hlab, hq, hent, hc, -, he⟩ | ⟨row, hi, he⟩
  · rw [he] at hr'
    exact .inl ⟨r', hr', .inl rfl⟩
  · rw [he] at hr'
    obtain ⟨r, hr, rfl⟩ := Signal.mem_update.1 hr'
    refine .inl ⟨r, hr, ?_⟩
    split
    · next hid =>
        have hrq : r = q := Signal.eq_of_id hinv.ids hr hq hid
        subst hrq
        exact .inr ⟨i, k, c, x, hlab, hent, hc⟩
    · exact .inl rfl
  · rw [he] at hr'
    rcases List.mem_append.1 hr' with hr | hr
    · exact .inl ⟨r', hr, .inl rfl⟩
    · rw [List.mem_singleton] at hr
      subst hr
      exact .inr hi

/-- A row is changed by its owner alone. -/
theorem rows_kept (hinv : Inv s) (hl : l.Allowed (May lib cfg) s)
    (h : (pipeline lib cfg).act l s = some s') {i : Party} (hi : l.party ≠ some i)
    {r : Signal} (hr : r ∈ s.rows) (he : Entitled i r) : r ∈ s'.rows := by
  obtain ⟨r', hr', rfl | ⟨j, k, c, x, rfl, hj, -⟩⟩ := rows_forward hinv hl h hr
  · exact hr'
  · exact absurd (congrArg some (hj.unique he)) hi

theorem Done.step {r r' : Signal} (hg : Grows s s') (h : Done s r) (hs : RowStep l s r r') :
    Done s' r' := by
  rcases hs with rfl | ⟨i, k, c, x, -, hent, hc⟩
  · exact h.imp hg.sent id
  · rw [Done, (Signal.identity_eq.1 hc.identity).1]
    cases hc with
    | published hsent => exact .inl (hg.sent hsent)
    | failed => exact .inr (.inl rfl)
    | attempt =>
        rcases Signal.recordAttemptFailure_cases s.now r with ⟨-, hst, -⟩ | ⟨-, hst, -⟩
        · exact .inr (.inl hst)
        · refine .inr (.inr ?_)
          simp [Signal.awaitsRetry, hst, hent.queued]

/-! ## The invariant is kept -/

theorem Activity.after_message (a : Activity) (c : Call) (r : c.Result) :
    (a.after c r).message = a.message := by
  cases c with
  | getStrict key => cases r <;> rfl
  | mark m => cases m <;> rfl
  | _ => rfl

theorem Sound.step (hg : Grows s s') {r r' : Signal} (h : Sound s r) (hs : RowStep l s r r') :
    Sound s' r' := by
  obtain ⟨hid, hkey, huxid, hraw⟩ := Signal.identity_eq.1 hs.identity
  refine ⟨?_, ?_, ?_, ?_⟩
  · obtain ⟨m, msg, hm, hof, hd⟩ := h.message
    exact ⟨m, msg, hg.stream m msg hm, hs.isOf.2 hof, hd.trans_le (hg.delivered m)⟩
  · intro hw
    rcases hs with rfl | ⟨i, k, c, x, -, hent, hc⟩
    · exact h.attempts hw
    · cases hc with
      | published => simp [Signal.awaitsRetry] at hw
      | failed => simp [Signal.awaitsRetry] at hw
      | attempt =>
          rcases Signal.recordAttemptFailure_cases s.now r with ⟨-, hst, -⟩ | ⟨hlt, -, hat⟩
          · simp [Signal.awaitsRetry, hst] at hw
          · rw [hat]
            omega
  · intro hp
    rw [hid]
    rcases hs with rfl | ⟨i, k, c, x, -, hent, hc⟩
    · exact hg.sent (h.published hp)
    · cases hc with
      | published hsent => exact hg.sent hsent
      | failed => cases hp
      | attempt =>
          rcases Signal.recordAttemptFailure_cases s.now r with ⟨-, hst, -⟩ | ⟨-, hst, -⟩
          · rw [hst] at hp
            cases hp
          · rw [hst, hent.queued] at hp
            cases hp
  · rw [hraw, huxid]
    exact h.raw

theorem Inserts.sound (hinv : Inv s) (hg : Grows s s') {row : Signal}
    (h : Inserts lib cfg l s row) : Sound s' row := by
  obtain ⟨m, msg, a, minted, payload, x, -, hat, -, -, -, rfl, -⟩ := h
  have hd : 0 < s.delivered m := by
    refine hinv.handed m ?_
    rw [hat.activity]
    exact hat.message
  refine ⟨⟨m, msg, hg.stream m msg hat.stored, rfl, hd.trans_le (hg.delivered m)⟩, ?_, ?_,
    payload, rfl, rfl⟩
  · intro hw
    simp [Signal.awaitsRetry, newRow, Signal.stored, Signal.ofPayload] at hw
  · intro hp
    cases hp

theorem Inserts.key_fresh {row : Signal} (h : Inserts lib cfg l s row) {r : Signal}
    (hr : r ∈ s.rows) : r.deliveryKey ≠ row.deliveryKey := by
  obtain ⟨m, msg, a, minted, payload, x, -, -, -, -, -, rfl, hins⟩ := h
  exact Signal.insertable_key hins rfl hr

theorem Inserts.id_fresh {row : Signal} (h : Inserts lib cfg l s row) {r : Signal}
    (hr : r ∈ s.rows) : r.id ≠ row.id := by
  obtain ⟨m, msg, a, minted, payload, x, -, -, -, -, -, -, hins⟩ := h
  exact Signal.insertable_id hins hr

theorem nodup_rows {α : Type} (g : Signal → α)
    (hg : ∀ q r : Signal, q.identity = r.identity → g q = g r)
    (hfresh : ∀ row, Inserts lib cfg l s row → ∀ r ∈ s.rows, g r ≠ g row)
    (hl : l.Allowed (May lib cfg) s) (h : (pipeline lib cfg).act l s = some s')
    (hn : (s.rows.map g).Nodup) : (s'.rows.map g).Nodup := by
  rcases rows_cases hl h with he | ⟨i, k, c, x, r, f, -, -, -, -, hf, he⟩ | ⟨row, hi, he⟩
  · rw [he]
    exact hn
  · rw [he, Signal.map_update g fun q => hg _ _ (hf q)]
    exact hn
  · rw [he]
    exact nodup_map_concat hn (hfresh row hi)

theorem act_stream (h : (pipeline lib cfg).act l s = some s') :
    s'.stream = s.stream ∨ ∃ msg, storable s msg = true ∧ s'.stream = s.stream ++ [msg] := by
  cases l with
  | call i k c x =>
      rw [act_call] at h
      subst h
      exact .inl (by simp)
  | start i e =>
      rcases act_start h with ⟨m, -, -, -, rfl⟩ | ⟨-, rfl⟩
      · exact .inl rfl
      · exact .inl rfl
  | env e =>
      obtain ⟨-, -, -, ⟨msg, hs, hstream, -⟩ | ⟨hstream, -⟩⟩ := act_env h
      · exact .inr ⟨msg, hs, hstream⟩
      · exact .inl hstream
  | crash i k =>
      rw [act_crash h]
      exact .inl rfl

theorem act_handed (h : (pipeline lib cfg).act l s = some s')
    (hh : ∀ m, (activity .worker s.trace).message = some m → 0 < s.delivered m) :
    ∀ m, (activity .worker s'.trace).message = some m → 0 < s'.delivered m := by
  intro m hm
  have hg := act_grows h
  by_cases hp : l.party = some .worker
  · cases l with
    | call i k c x =>
        cases hp
        rw [act_call] at h
        subst h
        rw [Shared.log_trace, effect_trace, activity_call, Activity.after_message] at hm
        exact (hh m hm).trans_le (hg.delivered m)
    | start i e =>
        cases hp
        rcases act_start h with ⟨m', -, rfl, -, rfl⟩ | ⟨hne, -⟩
        · rw [Shared.log_trace, activity_start] at hm
          cases hm
          show 0 < if m = m then s.delivered m + 1 else s.delivered m
          rw [if_pos rfl]
          omega
        · exact absurd rfl hne
    | env e => cases hp
    | crash i k =>
        cases hp
        rw [act_crash h, Shared.log_trace, activity_crash] at hm
        cases hm
  · rw [act_activity h hp] at hm
    exact (hh m hm).trans_le (hg.delivered m)

theorem act_keeps (hinv : Inv s) (hl : l.Allowed (May lib cfg) s)
    (h : (pipeline lib cfg).act l s = some s') : Inv s' := by
  have hg := act_grows h
  refine ⟨?_, ?_, ?_, act_handed h hinv.handed, ?_⟩
  · exact nodup_rows Signal.id (fun q r he => (Signal.identity_eq.1 he).1)
      (fun row hi r hr => hi.id_fresh hr) hl h hinv.ids
  · exact nodup_rows Signal.deliveryKey (fun q r he => (Signal.identity_eq.1 he).2.1)
      (fun row hi r hr => hi.key_fresh hr) hl h hinv.keys
  · rcases act_stream h with he | ⟨msg, hs, he⟩
    · rw [he]
      exact hinv.stream
    · rw [he]
      refine nodup_map_concat hinv.stream fun old hold heq => ?_
      obtain ⟨hseq, htime⟩ := deliveryKeyFor_inj heq
      have hfresh := List.all_eq_true.1 hs old hold
      simp [hseq, htime] at hfresh
  · intro r' hr'
    rcases rows_backward hinv hl h hr' with ⟨r, hr, hs⟩ | hi
    · exact (hinv.rows r hr).step hg hs
    · exact hi.sound hinv hg

/-- The contract of the pipeline. -/
def pipelineContract (lib : Libraries) (cfg : Config) : Contract (pipeline lib cfg) where
  inv := Inv
  pre := May lib cfg
  post := AtRest
  keeps := act_keeps

end

end TradingBroker
