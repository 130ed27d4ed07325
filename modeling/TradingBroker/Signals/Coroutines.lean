import TradingBroker.Signals.Steps

/-!
# The coroutines keep the contract

A walk over the functions of `Service`, one specification each. An assertion
that is carried across an `await` has to survive the other parties, and what
survives them is listed first: a party's own activity, the message in the
worker's hands, a row the party is entitled to, and everything that only grows.
The fan-out is walked once, for the worker and the retry job alike: `Seat` is
where its caller stands, `InFanout` what it holds in its hands.

The specifications carry two kinds of knowledge. What was read of the table may
be out of date by the next call, so of a row that is somebody else's only the
part survives that never changes back (`FoundAs`, `Closed`); of a row that is
the party's own everything does, since nobody else may touch it. Exceptions are
specified along with returns: an `except` branch is entered in the state the
raising call left, and what it knows is what was known before.
-/

namespace TradingBroker

open TradingBroker.Lib TradingBroker.Lib.Contract

section
variable {lib : Libraries} {cfg : Config} {s s' : Shared} {i : Party} {k : Context}

/-! ## What the others leave alone -/

theorem may_settle {c : Call} (h : May lib cfg i k c s) (hc : c = .ack ∨ c = .term) :
    i = .worker := by
  rcases i with _ | _ | n
  · rfl
  · rcases hc with rfl | rfl
    · obtain hj | ⟨r, -, -, hf⟩ := h
      · exact hj.elim
      · exact hf.elim
    · obtain hj | ⟨r, -, -, hf⟩ := h
      · exact hj.elim
      · exact hf.elim
  · rcases hc with rfl | rfl
    · exact h.elim
    · exact h.elim

theorem stable_activity (a : Activity) :
    (pipelineContract lib cfg).Stable i fun s => activity i s.trace = a := by
  rintro s s' ⟨-, -, l, hp, -, ha⟩ h
  rw [act_activity ha hp]
  exact h

theorem persistent_stored (m : Nat) (msg : Message) :
    (pipelineContract lib cfg).Persistent fun s => s.stream[m]? = some msg :=
  fun _ _ _ _ _ _ ha h => (act_grows ha).stream m msg h

theorem persistent_sent (id : RowId) :
    (pipelineContract lib cfg).Persistent fun s => Sent s id :=
  fun _ _ _ _ _ _ ha h => (act_grows ha).sent h

theorem stable_pending (m : Nat) :
    (pipelineContract lib cfg).Stable .worker fun s => s.gone m = false := by
  rintro s s' ⟨-, -, l, hp, hl, ha⟩ h
  cases hg : s'.gone m with
  | false => rfl
  | true =>
      rcases act_gone ha hg with hm | ⟨j, c, x, rfl, hc⟩
      · rw [h] at hm
        cases hm
      · exact absurd (congrArg some (may_settle hl hc)) hp

theorem stable_entitled (r : Signal) :
    (pipelineContract lib cfg).Stable i fun s => r ∈ s.rows ∧ Entitled i r := by
  rintro s s' ⟨hinv, -, l, hp, hl, ha⟩ ⟨hr, he⟩
  exact ⟨rows_kept hinv hl ha hp hr he, he⟩

theorem persistent_done (key : Option String) :
    (pipelineContract lib cfg).Persistent fun s =>
      ∃ r ∈ s.rows, r.deliveryKey = key ∧ Done s r := by
  rintro s l s' hinv - hl ha ⟨r, hr, hkey, hd⟩
  obtain ⟨r', hr', hs⟩ := rows_forward hinv hl ha hr
  refine ⟨r', hr', ?_, hd.step (act_grows ha) hs⟩
  rw [(Signal.identity_eq.1 hs.identity).2.1, hkey]

/-- Only the worker writes a row for its message. -/
theorem stable_unseen (msg : Message) :
    (pipelineContract lib cfg).Stable .worker fun s => ∀ r ∈ s.rows, ¬ r.isOf msg := by
  rintro s s' ⟨hinv, -, l, hp, hl, ha⟩ h r' hr' hof
  rcases rows_backward hinv hl ha hr' with ⟨r, hr, hs⟩ | ⟨_, _, _, _, _, _, rfl, -⟩
  · exact h r hr (hs.isOf.1 hof)
  · exact hp rfl

theorem RowChange.confirmed {c : Call} {r r' : Signal} (h : RowChange s r c r') :
    r'.firstFanoutUnconfirmed = false := by
  cases h with
  | published => simp [Signal.firstFanoutUnconfirmed]
  | failed => simp [Signal.firstFanoutUnconfirmed]
  | attempt => simp [Signal.firstFanoutUnconfirmed]

theorem stable_confirmed (msg : Message) :
    (pipelineContract lib cfg).Stable .worker fun s =>
      ∀ r ∈ s.rows, r.isOf msg → r.firstFanoutUnconfirmed = false := by
  rintro s s' ⟨hinv, -, l, hp, hl, ha⟩ h r' hr' hof
  rcases rows_backward hinv hl ha hr' with ⟨r, hr, hs⟩ | ⟨_, _, _, _, _, _, rfl, -⟩
  · rcases id hs with rfl | ⟨j, k, c, x, -, -, hc⟩
    · exact h r' hr hof
    · exact hc.confirmed
  · exact absurd rfl hp

theorem persistent_troubled :
    (pipelineContract lib cfg).Persistent fun s => Troubled i k s := by
  rintro s l s' - - - ha ⟨c, r, hmem, hr⟩
  refine ⟨c, r, ?_, hr⟩
  rw [act_trace ha]
  exact List.mem_append_right _ hmem

theorem persistent_concluded (m : Nat) :
    (pipelineContract lib cfg).Persistent (Concluded m) := by
  rintro s l s' - - - ha ⟨c, r, hmem, hc⟩
  refine ⟨c, r, ?_, hc⟩
  rw [act_trace ha]
  exact List.mem_append_right _ hmem

theorem called_of_exec {c : Call} {x : Choice} {a : c.Result}
    (he : (pipeline lib cfg).exec i k c x s = some (a, s')) : Entry.call i k c a ∈ s'.trace := by
  obtain ⟨-, rfl⟩ := exec_eq.1 he
  rw [Shared.log_trace]
  exact List.mem_cons_self

theorem troubled_of_exec {c : Call} {x : Choice} {a : c.Result}
    (he : (pipeline lib cfg).exec i k c x s = some (a, s')) (hr : c.refused a = true) :
    Troubled i k s' :=
  ⟨c, a, called_of_exec he, hr⟩

/-! ## Where a party stands -/

/-- The party has got as far as `a` says; the worker holds its message. -/
def Seat (i : Party) (k : Context) (msg : Message) (a : Activity) (s : Shared) : Prop :=
  match i, k with
  | .worker, some m => AtWork m msg a s
  | .worker, none => False
  | i, _ => activity i s.trace = a

theorem Seat.activity {msg : Message} {a : Activity} (h : Seat i k msg a s) :
    activity i s.trace = a := by
  rcases i with _ | _ | n
  · cases k with
    | none => exact h.elim
    | some m => exact AtWork.activity h
  · exact h
  · exact h

theorem stable_seat (msg : Message) (a : Activity) :
    (pipelineContract lib cfg).Stable i (Seat i k msg a) := by
  intro s s' hi h
  rcases i with _ | _ | n
  · cases k with
    | none => exact h.elim
    | some m =>
        have hw : AtWork m msg a s := h
        exact ⟨stable_activity a s s' hi hw.activity, hw.message,
          (persistent_stored m msg).stable s s' hi hw.stored, stable_pending m s s' hi hw.pending⟩
  · exact stable_activity a s s' hi h
  · exact stable_activity a s s' hi h

/-- A call moves its caller's activity; the message stays in the worker's hands
until it is settled. -/
theorem Seat.call {msg : Message} {a : Activity} (h : Seat i k msg a s) {c : Call} {x : Choice}
    {r : c.Result} (he : (pipeline lib cfg).exec i k c x s = some (r, s'))
    (hc : c ≠ .ack ∧ c ≠ .term) : Seat i k msg (a.after c r) s' := by
  obtain ⟨rfl, rfl⟩ := exec_eq.1 he
  have hact : TradingBroker.activity i ((effect lib k c x s).log
      (.call i k c (respond lib x s c))).trace = a.after c (respond lib x s c) := by
    rw [Shared.log_trace, effect_trace, activity_call, h.activity]
  rcases i with _ | _ | n
  · cases k with
    | none => exact h.elim
    | some m =>
        have hw : AtWork m msg a s := h
        refine ⟨hact, ?_, ?_, ?_⟩
        · rw [Activity.after_message]
          exact hw.message
        · rw [Shared.log_stream, effect_stream]
          exact hw.stored
        · rw [Shared.log_gone, effect_gone]
          split
          · cases hg : settle (some m) s c m with
            | false => rfl
            | true =>
                rcases settle_cases hg with hm | ⟨-, rfl | rfl⟩
                · rw [hw.pending] at hm
                  cases hm
                · exact absurd rfl hc.1
                · exact absurd rfl hc.2
          · exact hw.pending
  · exact hact
  · exact hact

theorem Seat.may_utcnow {msg : Message} {a : Activity} (h : Seat i k msg a s) :
    May lib cfg i k .utcnow s := by
  rcases i with _ | _ | n
  · cases k with
    | none => exact h.elim
    | some m => exact ⟨msg, a, h, .inl trivial⟩
  · exact .inl trivial
  · trivial

/-! ## The fan-out -/

/-- Why a party may fan the row out: the worker for the message the row is of,
the retry job under the cycle id the row has. -/
def Purpose (lib : Libraries) (i : Party) (msg : Message) (base : Activity) (r : Signal)
    (uxid : Uxid) : Prop :=
  match i with
  | .worker =>
      r.isOf msg ∧ base.Admitted ∧ ∃ minted payload, base.minted = some minted ∧
        msg.payload? lib minted = some payload ∧ payload.signalUxid = uxid
  | .retryJob => r.signalUxid = uxid
  | .handshake _ => False

/-- Inside a fan-out of row `r`, which is still the party's. -/
structure InFanout (i : Party) (k : Context) (msg : Message) (base : Activity) (r : Signal)
    (f : Flight) (s : Shared) : Prop where
  seat : Seat i k msg { base with flight := f } s
  row : r ∈ s.rows
  entitled : Entitled i r

variable {msg : Message} {base : Activity} {r : Signal} {uxid : Uxid} {f f' : Flight}

theorem stable_inFanout :
    (pipelineContract lib cfg).Stable i (InFanout i k msg base r f) := by
  intro s s' hi h
  obtain ⟨hr, he⟩ := stable_entitled r s s' hi ⟨h.row, h.entitled⟩
  exact ⟨stable_seat msg _ s s' hi h.seat, hr, he⟩

theorem InFanout.may (hP : Purpose lib i msg base r uxid) (h : InFanout i k msg base r f s)
    {c : Call} (hc : FanoutCall cfg r { base with flight := f } uxid s c) :
    May lib cfg i k c s := by
  obtain ⟨hseat, hr, he⟩ := h
  rcases i with _ | _ | n
  · cases k with
    | none => exact hseat.elim
    | some m =>
        obtain ⟨hof, hadm, minted, payload, hm, hp, rfl⟩ := hP
        exact ⟨msg, _, hseat, .inr ⟨hadm, r, hr, hof, he, minted, payload, hm, hp, hc⟩⟩
  · refine .inr ⟨r, hr, he, ?_⟩
    cases hP
    rw [hseat.activity]
    exact hc
  · exact hP.elim

theorem InFanout.call (h : InFanout i k msg base r f s) {c : Call} {x : Choice} {a : c.Result}
    (he : (pipeline lib cfg).exec i k c x s = some (a, s'))
    (hw : writeRows lib x s c = s.rows) (hc : c ≠ .ack ∧ c ≠ .term)
    (hf : Activity.after { base with flight := f } c a = { base with flight := f' }) :
    InFanout i k msg base r f' s' := by
  refine ⟨?_, ?_, h.entitled⟩
  · have hs := h.seat.call he hc
    rw [hf] at hs
    exact hs
  · obtain ⟨-, rfl⟩ := exec_eq.1 he
    rw [Shared.log_rows, effect_rows, hw, ite_self]
    exact h.row

theorem orRaise_cases {α : Type} (x : Choice) (a : α) :
    x.orRaise a = .ok a ∨ x.orRaise a = .error .unavailable := by
  unfold Choice.orRaise
  split
  · exact .inl rfl
  · exact .inr rfl

/-- One message on the strategy subject, under the row's id. -/
theorem send_spec (hP : Purpose lib i msg base r uxid) {w : WorkerMessage}
    (hid : w.signalId = r.id) (huxid : w.signalUxid = uxid) :
    (pipelineContract lib cfg).Spec i k (InFanout i k msg base r (.started r.id))
      (.call (.publish w) .ofExcept)
      (fun _ s => InFanout i k msg base r (.published r.id) s ∧ Sent s r.id)
      (fun e s => e ≠ .signalParse ∧ InFanout i k msg base r (.published r.id) s) := by
  refine Spec.call (fun a s => InFanout i k msg base r (.published r.id) s ∧
    match a with
    | .ok _ => Sent s r.id
    | .error e => e ≠ .signalParse) stable_inFanout ?_ ?_ ?_
  · intro s _ h
    exact h.may hP ⟨hid, rfl, huxid⟩
  · intro s x a s' _ h he _
    refine ⟨h.call he rfl (by simp) rfl, ?_⟩
    obtain ⟨hr, rfl⟩ := exec_eq.1 he
    cases a with
    | ok u =>
        show r.id ∈ sends (Shared.log _ _).trace
        rw [Shared.log_trace, sends_cons]
        simp [Entry.sends, hid]
    | error e =>
        have hr' : x.orRaise () = .error e := hr
        rcases orRaise_cases x () with ho | ho
        · rw [ho] at hr'
          cases hr'
        · rw [ho] at hr'
          cases hr'
          simp
  · intro a
    cases a with
    | ok u =>
        exact Spec.pure (stable_inFanout.and (persistent_sent r.id).stable) fun s _ h => h
    | error e =>
        exact Spec.raise ((Stable.const _).and stable_inFanout) fun s _ h => ⟨h.2, h.1⟩

theorem publishFlat_spec (hP : Purpose lib i msg base r uxid) {payload : WebhookPayload}
    (huxid : payload.signalUxid = uxid) :
    (pipelineContract lib cfg).Spec i k (InFanout i k msg base r (.started r.id))
      (publishFlat lib payload r.id)
      (fun _ s => InFanout i k msg base r (.published r.id) s ∧ Sent s r.id)
      (fun e s => e ≠ .signalParse ∧ InFanout i k msg base r (.published r.id) s) :=
  send_spec hP rfl huxid

/-- What a failed publish leaves: nothing was sent if the signal did not parse,
otherwise the publisher was called. -/
def PublishFault (i : Party) (k : Context) (msg : Message) (base : Activity) (r : Signal)
    (e : Fault) (s : Shared) : Prop :=
  (e = .signalParse ∧ InFanout i k msg base r (.started r.id) s) ∨
    (e ≠ .signalParse ∧ InFanout i k msg base r (.published r.id) s)

theorem stable_publishFault (e : Fault) :
    (pipelineContract lib cfg).Stable i (PublishFault i k msg base r e) :=
  ((Stable.const _).and stable_inFanout).or ((Stable.const _).and stable_inFanout)

theorem publishSignal_spec (hP : Purpose lib i msg base r uxid) {payload : WebhookPayload}
    (huxid : payload.signalUxid = uxid) :
    (pipelineContract lib cfg).Spec i k (InFanout i k msg base r (.started r.id))
      (publishSignal lib payload r.id)
      (fun _ s => InFanout i k msg base r (.published r.id) s ∧ Sent s r.id)
      (PublishFault i k msg base r) := by
  refine Spec.call (fun _ s => InFanout i k msg base r (.started r.id) s) stable_inFanout
    ?_ ?_ ?_
  · intro s _ h
    exact h.seat.may_utcnow
  · intro s x a s' _ h he _
    exact h.call he rfl (by simp) rfl
  · intro now
    split
    · exact Spec.raise (stable_publishFault _) fun s _ h => .inl ⟨rfl, h⟩
    · next signal hsig =>
        obtain ⟨hid, hux⟩ := parseSignal_ids hsig
        exact (send_spec hP (w := .signal signal) hid (hux.trans huxid)).mono
          (fun _ _ h => h) (fun _ _ _ h => h) (fun e s _ h => .inr h)

/-- A fan-out's last call changes its row, if it is carried out. -/
theorem InFanout.updated (h : InFanout i k msg base r f s) {c : Call} {x : Choice}
    {a : c.Result} (he : (pipeline lib cfg).exec i k c x s = some (a, s'))
    {g : Signal → Signal} (hw : writeRows lib x s c = Signal.update s.rows r.id g)
    (hx : x.applies = true) : g r ∈ s'.rows := by
  obtain ⟨-, rfl⟩ := exec_eq.1 he
  rw [Shared.log_rows, effect_rows, if_pos hx, hw]
  exact Signal.mem_update.2 ⟨r, h.row, by rw [if_pos rfl]⟩

/-- The last call of a fan-out puts its caller back where it stood. -/
theorem InFanout.land (h : InFanout i k msg base r f s) (hidle : base.flight = .idle)
    {c : Call} {x : Choice} {a : c.Result}
    (he : (pipeline lib cfg).exec i k c x s = some (a, s')) (hc : c ≠ .ack ∧ c ≠ .term)
    (hf : Activity.after { base with flight := f } c a = { base with flight := .idle }) :
    Seat i k msg base s' := by
  have hs := h.seat.call he hc
  rw [hf, ← hidle] at hs
  exact hs

/-- A fan-out that is over: the caller is back where it stood, and `done` says
whether anything is still owed to the row. -/
def FanoutLeft (i : Party) (k : Context) (msg : Message) (base : Activity) (r : Signal)
    (done : Prop) (s : Shared) : Prop :=
  Seat i k msg base s ∧ (done → ∃ q ∈ s.rows, q.deliveryKey = r.deliveryKey ∧ Done s q)

/-- A fan-out that raised: the write that should have ended it was refused. -/
def FanoutFailed (i : Party) (k : Context) (msg : Message) (base : Activity) (r : Signal)
    (s : Shared) : Prop :=
  FanoutLeft i k msg base r False s ∧ Troubled i k s

theorem stable_fanoutLeft (done : Prop) :
    (pipelineContract lib cfg).Stable i (FanoutLeft i k msg base r done) :=
  (stable_seat msg base).and (Stable.imp_left fun _ => (persistent_done r.deliveryKey).stable)

theorem stable_fanoutFailed :
    (pipelineContract lib cfg).Stable i (FanoutFailed i k msg base r) :=
  (stable_fanoutLeft False).and persistent_troubled.stable

theorem applies_of_reports {x : Choice} (h : x.reports = true) : x.applies = true := by
  simp only [Choice.reports, beq_iff_eq] at h
  simp [Choice.applies, h]

theorem giveUp_spec (hP : Purpose lib i msg base r uxid) (hidle : base.flight = .idle) :
    (pipelineContract lib cfg).Spec i k (InFanout i k msg base r (.started r.id))
      (giveUp r.id)
      (fun answer s => answer ≠ .blocked ∧ FanoutLeft i k msg base r True s)
      (fun _ => FanoutFailed i k msg base r) := by
  refine Spec.call (fun marked : Bool => fun s => FanoutLeft i k msg base r (marked = true) s ∧
    (marked = false → Troubled i k s)) stable_inFanout ?_ ?_ ?_
  · intro s _ h
    exact h.may hP ⟨rfl, rfl⟩
  · intro s x marked s' _ h he _
    refine ⟨⟨?_, ?_⟩, ?_⟩
    · exact h.land hidle he (by simp) rfl
    · intro hm
      subst hm
      have hx : x.reports = true := by
        have := (exec_eq.1 he).1
        simp only [respond, Bool.and_eq_true] at this
        exact this.1
      exact ⟨_, h.updated he rfl (applies_of_reports hx), rfl, .inr (.inl rfl)⟩
    · rintro rfl
      exact troubled_of_exec he rfl
  · intro marked
    cases marked with
    | true =>
        exact Spec.pure ((Stable.const _).and (stable_fanoutLeft _)) fun s _ h =>
          ⟨by simp, h.1.1, fun _ => h.1.2 rfl⟩
    | false =>
        exact Spec.raise stable_fanoutFailed fun s _ h => ⟨⟨h.1.1, False.elim⟩, h.2 rfl⟩

theorem leaveToRetryJob_spec (hP : Purpose lib i msg base r uxid)
    (hidle : base.flight = .idle) (attemptsBefore : Int) :
    (pipelineContract lib cfg).Spec i k (InFanout i k msg base r (.published r.id))
      (leaveToRetryJob r.id attemptsBefore)
      (fun answer s => answer ≠ .blocked ∧ FanoutLeft i k msg base r True s)
      (fun _ => FanoutFailed i k msg base r) := by
  refine Spec.call
    (fun recorded : Option Signal => fun s =>
      FanoutLeft i k msg base r (recorded.isSome = true) s ∧ (recorded = none → Troubled i k s))
    stable_inFanout ?_ ?_ ?_
  · intro s _ h
    exact h.may hP ⟨rfl, rfl⟩
  · intro s x recorded s' _ h he _
    refine ⟨⟨?_, ?_⟩, ?_⟩
    · exact h.land hidle he (by simp) rfl
    · intro hm
      have hx : x.reports = true := by
        have hr := (exec_eq.1 he).1
        simp only [respond] at hr
        split at hr
        · next hx => exact hx
        · subst hr
          cases hm
      refine ⟨_, h.updated he rfl (applies_of_reports hx), ?_, ?_⟩
      · exact (Signal.identity_eq.1 (Signal.recordAttemptFailure_identity s.now r)).2.1
      · rcases Signal.recordAttemptFailure_cases s.now r with ⟨-, hst, -⟩ | ⟨-, hst, -⟩
        · exact .inr (.inl hst)
        · refine .inr (.inr ?_)
          simp [Signal.awaitsRetry, hst, h.entitled.queued]
    · rintro rfl
      exact troubled_of_exec he rfl
  · intro recorded
    cases recorded with
    | none =>
        exact Spec.raise stable_fanoutFailed fun s _ h => ⟨⟨h.1.1, False.elim⟩, h.2 rfl⟩
    | some row =>
        exact Spec.pure ((Stable.const _).and (stable_fanoutLeft _)) fun s _ h =>
          ⟨by simp, h.1.1, fun _ => h.1.2 rfl⟩

theorem broadcast_spec (hP : Purpose lib i msg base r uxid) {payload : WebhookPayload}
    (huxid : payload.signalUxid = uxid) :
    (pipelineContract lib cfg).Spec i k
      (fun s => InFanout i k msg base r (.published r.id) s ∧ Sent s r.id)
      (broadcast cfg payload r.attempts)
      (fun _ s => InFanout i k msg base r (.published r.id) s ∧ Sent s r.id)
      (fun _ => FanoutFailed i k msg base r) := by
  unfold broadcast
  split
  · refine Spec.call (fun _ s => InFanout i k msg base r (.published r.id) s ∧ Sent s r.id)
      (stable_inFanout.and (persistent_sent _).stable) ?_ ?_ ?_
    · intro s _ h
      exact h.1.may hP ⟨rfl, huxid, rfl⟩
    · intro s x a s' _ h he _
      exact ⟨h.1.call he rfl (by simp) rfl, (act_grows (act_of_exec he)).sent h.2⟩
    · intro a
      exact Spec.pure (stable_inFanout.and (persistent_sent _).stable) fun s _ h => h
  · exact Spec.pure (stable_inFanout.and (persistent_sent _).stable) fun s _ h => h

theorem confirm_spec (hP : Purpose lib i msg base r uxid) (hidle : base.flight = .idle)
    {payload : WebhookPayload} (huxid : payload.signalUxid = uxid) :
    (pipelineContract lib cfg).Spec i k
      (fun s => InFanout i k msg base r (.published r.id) s ∧ Sent s r.id)
      (confirm cfg r.id payload r.attempts)
      (fun answer s => answer ≠ .blocked ∧ FanoutLeft i k msg base r True s)
      (fun _ => FanoutFailed i k msg base r) := by
  refine Spec.bind _ (broadcast_spec hP huxid) fun _ => ?_
  refine Spec.call (fun _ => FanoutLeft i k msg base r True)
    (stable_inFanout.and (persistent_sent _).stable) ?_ ?_ ?_
  · intro s _ h
    exact h.1.may hP ⟨rfl, rfl, h.2⟩
  · intro s x a s' hinv h he _
    have ha := act_of_exec he
    refine ⟨h.1.land hidle he (by simp) rfl, fun _ => ?_⟩
    obtain ⟨q, hq, hstep⟩ := rows_forward hinv
      (l := .call i k (.markPublished r.id) x) (h.1.may hP ⟨rfl, rfl, h.2⟩) ha h.1.row
    refine ⟨q, hq, (Signal.identity_eq.1 hstep.identity).2.1, .inl ?_⟩
    rw [hstep.id_eq]
    exact (act_grows ha).sent h.2
  · intro a
    exact Spec.pure ((Stable.const _).and (stable_fanoutLeft _)) fun s _ h => ⟨by simp, h⟩

theorem publish_spec (hP : Purpose lib i msg base r uxid) {payload : WebhookPayload}
    (huxid : payload.signalUxid = uxid) :
    (pipelineContract lib cfg).Spec i k (InFanout i k msg base r (.started r.id))
      (if payload.position.action = .flat then publishFlat lib payload r.id
        else publishSignal lib payload r.id)
      (fun _ s => InFanout i k msg base r (.published r.id) s ∧ Sent s r.id)
      (PublishFault i k msg base r) := by
  split
  · exact (publishFlat_spec hP huxid).mono (fun _ _ h => h) (fun _ _ _ h => h)
      (fun _ _ _ h => .inr h)
  · exact publishSignal_spec hP huxid

/-- The fan-out of a row by the party the row is of: it is left with the row done,
unless it raises. -/
theorem fanout_spec (hP : Purpose lib i msg base r uxid) (hidle : base.flight = .idle)
    {payload : WebhookPayload} (huxid : payload.signalUxid = uxid) :
    (pipelineContract lib cfg).Spec i k (InFanout i k msg base r .idle)
      (fanout lib cfg r.id payload r.attempts)
      (fun answer s => answer ≠ .blocked ∧ FanoutLeft i k msg base r True s)
      (fun _ => FanoutFailed i k msg base r) := by
  refine Spec.bind (fun _ => InFanout i k msg base r (.started r.id)) ?_ fun _ => ?_
  · refine Spec.call (fun _ => InFanout i k msg base r (.started r.id)) stable_inFanout ?_ ?_
      fun _ => Spec.pure stable_inFanout fun s _ h => h
    · intro s _ h
      exact h.may hP ⟨rfl, rfl⟩
    · intro s x a s' _ h he _
      exact h.call he rfl (by simp) rfl
  · refine Spec.bind _ (Spec.attempt (publish_spec hP huxid)) fun published => ?_
    cases published with
    | ok u => exact confirm_spec hP hidle huxid
    | error e =>
        cases e with
        | signalParse =>
            refine (giveUp_spec hP hidle).pre fun s _ h => ?_
            rcases h with ⟨-, hf⟩ | ⟨hne, -⟩
            · exact hf
            · exact absurd rfl hne
        | _ =>
            refine (leaveToRetryJob_spec hP hidle r.attempts).pre fun s _ h => ?_
            rcases h with ⟨he, -⟩ | ⟨-, hf⟩
            · cases he
            · exact hf

/-! ## The worker -/

variable {m : Nat} {u : Uxid} {g : Option (Option String)}

/-- Between two fan-outs of one delivery, its envelope parsed with `u` drawn and
the gate last read as `g`. -/
def Handling (m : Nat) (u : Uxid) (g : Option (Option String)) : Activity :=
  ⟨some m, some u, g, none, .idle⟩

/-- The delivery is still being handled, whatever the gate was read as. -/
def Between (m : Nat) (msg : Message) (u : Uxid) (s : Shared) : Prop :=
  ∃ g, Seat .worker (some m) msg (Handling m u g) s

theorem stable_between :
    (pipelineContract lib cfg).Stable .worker (Between m msg u) :=
  Stable.exists fun g => stable_seat msg (Handling m u g)

/-- `handle_enqueued` raised, because a call of the repository was refused. -/
def Raised (m : Nat) (msg : Message) (u : Uxid) (s : Shared) : Prop :=
  Between m msg u s ∧ Troubled .worker (some m) s

theorem stable_raised : (pipelineContract lib cfg).Stable .worker (Raised m msg u) :=
  stable_between.and persistent_troubled.stable

/-- The message's row is beyond the worker's reach. -/
def Closed (msg : Message) (s : Shared) : Prop :=
  (∃ q ∈ s.rows, q.deliveryKey = some (deliveryKeyFor msg) ∧ Done s q) ∧
    ∀ q ∈ s.rows, q.isOf msg → q.firstFanoutUnconfirmed = false

/-- What the row found for a message, if any, says about the table from then
on. -/
def FoundAs (msg : Message) : Option Signal → Shared → Prop
  | none, s => ∀ q ∈ s.rows, ¬ q.isOf msg
  | some row, s =>
      row.isOf msg ∧
        ((row.firstFanoutUnconfirmed = true ∧ row ∈ s.rows) ∨
          (row.firstFanoutUnconfirmed = false ∧ Closed msg s))

theorem stable_closed :
    (pipelineContract lib cfg).Stable .worker (Closed msg) :=
  ((persistent_done _).stable).and (stable_confirmed msg)

theorem stable_seen (existing : Option Signal) :
    (pipelineContract lib cfg).Stable .worker (FoundAs msg existing) := by
  cases existing with
  | none => exact stable_unseen msg
  | some row =>
      refine (Stable.const _).and (Stable.or ?_ ((Stable.const _).and stable_closed))
      rintro s s' hi ⟨he, hr⟩
      exact ⟨he, (stable_entitled row s s' hi ⟨hr, he⟩).1⟩

/-- A call that writes nothing leaves what was seen. -/
theorem FoundAs.call {existing : Option Signal} (h : FoundAs msg existing s) {c : Call} {x : Choice}
    {a : c.Result} (he : (pipeline lib cfg).exec i k c x s = some (a, s'))
    (hw : writeRows lib x s c = s.rows) : FoundAs msg existing s' := by
  have hrows : s'.rows = s.rows := by
    obtain ⟨-, rfl⟩ := exec_eq.1 he
    rw [Shared.log_rows, effect_rows, hw, ite_self]
  have hg := act_grows (act_of_exec he)
  cases existing with
  | none =>
      intro q hq
      rw [hrows] at hq
      exact h q hq
  | some row =>
      refine ⟨h.1, ?_⟩
      rcases h.2 with ⟨hu, hr⟩ | ⟨hu, ⟨q, hq, hkey, hd⟩, hall⟩
      · exact .inl ⟨hu, by rw [hrows]; exact hr⟩
      · refine .inr ⟨hu, ⟨q, by rw [hrows]; exact hq, hkey, hd.imp hg.sent id⟩, ?_⟩
        rw [hrows]
        exact hall

/-- A confirmed row is done: it was sent, it failed, or it awaits its retry. -/
theorem done_of_confirmed (hinv : Inv s) {q : Signal} (hq : q ∈ s.rows)
    (h : q.firstFanoutUnconfirmed = false) : Done s q := by
  cases hst : q.status with
  | published => exact .inl ((hinv.rows q hq).published hst)
  | failed => exact .inr (.inl hst)
  | queued =>
      refine .inr (.inr ?_)
      simp only [Signal.firstFanoutUnconfirmed, hst, BEq.rfl, Bool.true_and,
        beq_eq_false_iff_ne] at h
      simp [Signal.awaitsRetry, hst, h]

theorem findExisting_spec (redelivered : Bool) :
    (pipelineContract lib cfg).Spec .worker (some m)
      (fun s => Between m msg u s ∧ (redelivered = false → FoundAs msg none s))
      (findExisting (some (deliveryKeyFor msg)) redelivered)
      (fun existing s => Between m msg u s ∧ FoundAs msg existing s)
      (fun _ => Raised m msg u) := by
  unfold findExisting
  simp only []
  split
  · next hred =>
      refine Spec.call (fun found s => Between m msg u s ∧
        (∀ existing, found = .ok existing → FoundAs msg existing s) ∧
        ∀ e, found = .error e → Troubled .worker (some m) s)
        (stable_between.and (Stable.imp_left fun _ => stable_seen none)) ?_ ?_ ?_
      · rintro s _ ⟨⟨g, hs⟩, -⟩
        exact ⟨msg, _, hs, .inl trivial⟩
      · rintro s x found s' hinv ⟨⟨g, hs⟩, -⟩ he _
        refine ⟨⟨g, hs.call he (by simp)⟩, ?_, ?_⟩
        swap
        · rintro e rfl
          exact troubled_of_exec he rfl
        rintro existing rfl
        have hseen : FoundAs msg (Signal.byDeliveryKey s.rows (deliveryKeyFor msg)) s := by
          cases hk : Signal.byDeliveryKey s.rows (deliveryKeyFor msg) with
          | none => exact fun q hq => Signal.byDeliveryKey_none hk hq
          | some row =>
              obtain ⟨hr, hof⟩ := Signal.byDeliveryKey_some hk
              refine ⟨hof, ?_⟩
              cases hu : row.firstFanoutUnconfirmed with
              | true => exact .inl ⟨rfl, hr⟩
              | false =>
                  refine .inr ⟨rfl, ⟨row, hr, hof, done_of_confirmed hinv hr hu⟩, ?_⟩
                  intro q hq hqof
                  rw [Signal.eq_of_deliveryKey hinv.keys hq hr (hqof.trans hof.symm)]
                  exact hu
        have hr := (exec_eq.1 he).1
        have hr' : x.orRaise (Signal.byDeliveryKey s.rows (deliveryKeyFor msg)) =
            .ok existing := hr
        rcases orRaise_cases x (Signal.byDeliveryKey s.rows (deliveryKeyFor msg)) with ho | ho
        · rw [ho] at hr'
          cases hr'
          exact hseen.call he rfl
        · rw [ho] at hr'
          cases hr'
      · intro found
        cases found with
        | ok existing =>
            exact Spec.pure (stable_between.and (stable_seen existing)) fun s _ h =>
              ⟨h.1, h.2.1 existing rfl⟩
        | error e => exact Spec.raise stable_raised fun s _ h => ⟨h.1, h.2.2 e rfl⟩
  · next hred =>
      exact Spec.pure (stable_between.and (stable_seen none)) fun s _ h =>
        ⟨h.1, h.2 (by simpa using hred)⟩

/-- The gate was read: `b` says whether it is closed. -/
def GateRead (m : Nat) (msg : Message) (u : Uxid) (b : Bool) (s : Shared) : Prop :=
  ∃ value, Seat .worker (some m) msg (Handling m u (some value)) s ∧
    (b = true ↔ value = some "1")

theorem stable_gateRead (b : Bool) :
    (pipelineContract lib cfg).Stable .worker (GateRead m msg u b) :=
  Stable.exists fun _ => (stable_seat msg _).and (Stable.const _)

theorem GateRead.between {b : Bool} (h : GateRead m msg u b s) : Between m msg u s := by
  obtain ⟨value, hs, -⟩ := h
  exact ⟨some value, hs⟩

theorem isBlocked_spec (payload : WebhookPayload) (existing : Option Signal) :
    (pipelineContract lib cfg).Spec .worker (some m)
      (fun s => Between m msg u s ∧ FoundAs msg existing s) (isBlocked payload)
      (fun b s => GateRead m msg u b s ∧ FoundAs msg existing s)
      (fun _ => Raised m msg u) := by
  have hstable : ∀ b, (pipelineContract lib cfg).Stable .worker
      fun s => GateRead m msg u b s ∧ FoundAs msg existing s :=
    fun b => (stable_gateRead b).and (stable_seen existing)
  refine Spec.call (fun read s => Between m msg u s ∧ FoundAs msg existing s ∧
    (∀ value, read = .ok value → GateRead m msg u (value == some "1") s) ∧
    ∀ e, read = .error e → Troubled .worker (some m) s)
    (stable_between.and (stable_seen existing)) ?_ ?_ ?_
  · rintro s _ ⟨⟨g, hs⟩, -⟩
    exact ⟨msg, _, hs, .inl rfl⟩
  · rintro s x read s' _ ⟨⟨g, hs⟩, hseen⟩ he _
    have hseat := hs.call he (by simp)
    cases read with
    | error e =>
        refine ⟨⟨.none, hseat⟩, hseen.call he rfl, ?_, fun _ _ => troubled_of_exec he rfl⟩
        intro value h
        cases h
    | ok value =>
        refine ⟨⟨some value, hseat⟩, hseen.call he rfl, ?_, ?_⟩
        · intro value' h
          cases h
          exact ⟨value, hseat, by simp⟩
        · intro e h
          cases h
  · intro read
    cases read with
    | error e => exact Spec.raise stable_raised fun s _ h => ⟨h.1, h.2.2.2 e rfl⟩
    | ok value =>
        show (pipelineContract lib cfg).Spec .worker (some m) _
          (if value ≠ some "1" then pure false
            else .call (.notifyBlocked payload) fun _ => pure true) _ _
        split
        · next hv =>
            refine Spec.pure (hstable false) fun s _ h => ⟨?_, h.2.1⟩
            have hg := h.2.2.1 value rfl
            rwa [beq_eq_false_iff_ne.2 hv] at hg
        · next hv =>
            have hv' : value = some "1" := not_not.1 hv
            refine Spec.call (fun _ s => GateRead m msg u true s ∧ FoundAs msg existing s)
              (stable_between.and ((stable_seen existing).and (Stable.and ?_ ?_))) ?_ ?_ ?_
            · rintro s s' hi h value' hval
              exact stable_gateRead _ s s' hi (h value' hval)
            · rintro s s' hi h e he
              exact persistent_troubled.stable s s' hi (h e he)
            · rintro s _ ⟨⟨g, hs⟩, -⟩
              exact ⟨msg, _, hs, .inl trivial⟩
            · rintro s x a s' _ ⟨-, hseen, hgate, -⟩ he _
              obtain ⟨value', hs, hval⟩ := hgate value rfl
              subst hv'
              exact ⟨⟨value', hs.call he (by simp), by simpa using hval⟩, hseen.call he rfl⟩
            · intro a
              exact Spec.pure (hstable true) fun s _ h => h

/-- What `handle_enqueued` leaves when it returns. -/
def Answered (m : Nat) (msg : Message) (u : Uxid) (answer : Answer) (s : Shared) : Prop :=
  ∃ value, Seat .worker (some m) msg (Handling m u (some value)) s ∧
    (answer = .blocked → value = some "1" ∧
      ∀ q ∈ s.rows, q.isOf msg → q.firstFanoutUnconfirmed = false) ∧
    (answer ≠ .blocked →
      ∃ q ∈ s.rows, q.deliveryKey = some (deliveryKeyFor msg) ∧ Done s q)

theorem stable_answered (answer : Answer) :
    (pipelineContract lib cfg).Stable .worker (Answered m msg u answer) :=
  Stable.exists fun _ => (stable_seat msg _).and
    ((Stable.imp_left fun _ => (Stable.const _).and (stable_confirmed msg)).and
      (Stable.imp_left fun _ => (persistent_done _).stable))

theorem closeBlocked_spec (existing : Option Signal) :
    (pipelineContract lib cfg).Spec .worker (some m)
      (fun s => GateRead m msg u true s ∧ FoundAs msg existing s) (closeBlocked existing)
      (Answered m msg u) (fun _ => Raised m msg u) := by
  have hpure : ∀ P : Shared → Prop,
      (∀ s, P s → GateRead m msg u true s ∧
        ∀ q ∈ s.rows, q.isOf msg → q.firstFanoutUnconfirmed = false) →
      (pipelineContract lib cfg).Spec .worker (some m) P (pure .blocked : Prog Answer)
        (Answered m msg u) (fun _ => Raised m msg u) := by
    intro P hP
    refine Spec.pure (stable_answered _) fun s _ h => ?_
    obtain ⟨⟨value, hs, hval⟩, hall⟩ := hP s h
    exact ⟨value, hs, fun _ => ⟨hval.1 rfl, hall⟩, fun hne => absurd rfl hne⟩
  cases existing with
  | none => exact hpure _ fun s h => ⟨h.1, fun q hq hof => absurd hof (h.2 q hq)⟩
  | some row =>
      unfold closeBlocked
      simp only []
      split
      · next hu =>
          refine Spec.call (fun marked : Bool => fun s => GateRead m msg u true s ∧
            (marked = true → ∀ q ∈ s.rows, q.isOf msg → q.firstFanoutUnconfirmed = false) ∧
            (marked = false → Troubled .worker (some m) s))
            ((stable_gateRead true).and (stable_seen _)) ?_ ?_ ?_
          · rintro s _ ⟨⟨value, hs, hval⟩, hof, ⟨-, hr⟩ | ⟨hc, -⟩⟩
            · exact ⟨msg, _, hs, .inl ⟨congrArg some (hval.1 rfl), rfl, row, hr, rfl, hof, hu⟩⟩
            · rw [hu] at hc
              cases hc
          · rintro s x marked s' hinv ⟨⟨value, hs, hval⟩, hof, hseen⟩ he hinv'
            refine ⟨⟨value, hs.call he (by simp), hval⟩, ?_, ?_⟩
            swap
            · rintro rfl
              exact troubled_of_exec he rfl
            rintro rfl q hq hqof
            have hr : row ∈ s.rows := by
              rcases hseen with ⟨-, hr⟩ | ⟨hc, -⟩
              · exact hr
              · rw [hu] at hc
                cases hc
            have hx : x.reports = true := by
              have := (exec_eq.1 he).1
              simp only [respond, Bool.and_eq_true] at this
              exact this.1
            have hrow : row.markFailed s.now ∈ s'.rows := by
              obtain ⟨-, rfl⟩ := exec_eq.1 he
              rw [Shared.log_rows, effect_rows, if_pos (applies_of_reports hx)]
              exact Signal.mem_update.2 ⟨row, hr, by rw [if_pos rfl]⟩
            rw [Signal.eq_of_deliveryKey hinv'.keys hq hrow (hqof.trans hof.symm)]
            rfl
          · intro marked
            cases marked with
            | true => exact hpure _ fun s h => ⟨h.1, h.2.1 rfl⟩
            | false => exact Spec.raise stable_raised fun s _ h => ⟨h.1.between, h.2.2 rfl⟩
      · next hu =>
          refine hpure _ fun s h => ⟨h.1, ?_⟩
          rcases h.2.2 with ⟨hc, -⟩ | ⟨-, hclosed⟩
          · exact absurd hc hu
          · exact hclosed.2

variable {payload : WebhookPayload}

/-- An open gate admits the worker to the fan-out of its message's row. -/
theorem worker_purpose {value : Option String} (hpay : msg.payload? lib u = some payload)
    (hopen : value ≠ some "1") (hof : r.isOf msg) :
    Purpose lib .worker msg (Handling m u (some value)) r payload.signalUxid :=
  ⟨hof, ⟨rfl, value, rfl, hopen⟩, u, payload, rfl, hpay, rfl⟩

theorem worker_fanout_spec {value : Option String} (hpay : msg.payload? lib u = some payload)
    (hopen : value ≠ some "1") (hof : r.isOf msg) {attempts : Int}
    (hatt : r.attempts = attempts) :
    (pipelineContract lib cfg).Spec .worker (some m)
      (InFanout .worker (some m) msg (Handling m u (some value)) r .idle)
      (fanout lib cfg r.id payload attempts)
      (Answered m msg u) (fun _ => Raised m msg u) := by
  subst hatt
  refine (fanout_spec (worker_purpose hpay hopen hof) rfl rfl).mono (fun _ _ h => h) ?_ ?_
  · rintro answer s - ⟨hne, hs, hdone⟩
    refine ⟨value, hs, fun he => absurd he hne, fun _ => ?_⟩
    obtain ⟨q, hq, hkey, hd⟩ := hdone trivial
    exact ⟨q, hq, hkey.trans hof, hd⟩
  · rintro e s - ⟨⟨hs, -⟩, ht⟩
    exact ⟨⟨some value, hs⟩, ht⟩

theorem handleRedelivery_spec (hpay : msg.payload? lib u = some payload) (row : Signal) :
    (pipelineContract lib cfg).Spec .worker (some m)
      (fun s => GateRead m msg u false s ∧ FoundAs msg (some row) s)
      (handleRedelivery lib cfg row payload)
      (Answered m msg u) (fun _ => Raised m msg u) := by
  unfold handleRedelivery
  split
  · next hu =>
      rintro s hinv ⟨⟨value, hs, hval⟩, hof, hseen⟩
      have hopen : value ≠ some "1" := fun he => absurd (hval.2 he) (by simp)
      have hr : row ∈ s.rows := by
        rcases hseen with ⟨-, hr⟩ | ⟨hc, -⟩
        · exact hr
        · rw [hu] at hc
          cases hc
      exact worker_fanout_spec hpay hopen hof rfl s hinv ⟨hs, hr, hu⟩
  · next hu =>
      refine Spec.pure (stable_answered _) ?_
      rintro s - ⟨⟨value, hs, hval⟩, hof, ⟨hc, -⟩ | ⟨-, hdone, -⟩⟩
      · exact absurd hc hu
      · exact ⟨value, hs, fun he => (by cases he), fun _ => hdone⟩

theorem persistAndFanout_spec (hpay : msg.payload? lib u = some payload) :
    (pipelineContract lib cfg).Spec .worker (some m)
      (fun s => GateRead m msg u false s ∧ FoundAs msg none s)
      (persistAndFanout lib cfg payload (some (deliveryKeyFor msg)))
      (Answered m msg u) (fun _ => Raised m msg u) := by
  refine Spec.call (fun inserted : Option RowId => fun s => Between m msg u s ∧
    (∀ id, inserted = some id → ∃ value row, value ≠ some "1" ∧ row.isOf msg ∧ row.id = id ∧
      row.attempts = cfg.maxAttempts ∧
      InFanout .worker (some m) msg (Handling m u (some value)) row .idle s) ∧
    (inserted = none → Troubled .worker (some m) s))
    ((stable_gateRead false).and (stable_seen none)) ?_ ?_ ?_
  · rintro s _ ⟨⟨value, hs, hval⟩, hseen⟩
    have hopen : value ≠ some "1" := fun he => absurd (hval.2 he) (by simp)
    exact ⟨msg, _, hs, .inl ⟨⟨rfl, value, rfl, hopen⟩, rfl, rfl, rfl, hseen, u, rfl, hpay⟩⟩
  · rintro s x inserted s' _ ⟨⟨value, hs, hval⟩, -⟩ he _
    have hopen : value ≠ some "1" := fun he => absurd (hval.2 he) (by simp)
    have hseat := hs.call he (by simp)
    refine ⟨⟨_, hseat⟩, ?_, ?_⟩
    swap
    · rintro rfl
      exact troubled_of_exec he rfl
    rintro id rfl
    have hr := (exec_eq.1 he).1
    simp only [respond] at hr
    split at hr
    · next hx =>
        simp only [Bool.and_eq_true] at hx
        simp only [Option.some.injEq] at hr
        refine ⟨value, newRow payload (some (deliveryKeyFor msg)) cfg.maxAttempts x s, hopen,
          rfl, hr, rfl, hseat, ?_, rfl⟩
        obtain ⟨-, rfl⟩ := exec_eq.1 he
        rw [Shared.log_rows, effect_rows, if_pos (applies_of_reports hx.1)]
        simp only [writeRows, if_pos hx.2]
        exact List.mem_append_right _ (List.mem_singleton.2 rfl)
    · cases hr
  · intro inserted
    cases inserted with
    | none => exact Spec.raise stable_raised fun s _ h => ⟨h.1, h.2.2 rfl⟩
    | some id =>
        rintro s hinv ⟨-, h, -⟩
        obtain ⟨value, row, hopen, hof, rfl, hatt, hin⟩ := h id rfl
        exact worker_fanout_spec hpay hopen hof hatt s hinv hin

theorem handleEnqueued_spec (hpay : msg.payload? lib u = some payload) (redelivered : Bool) :
    (pipelineContract lib cfg).Spec .worker (some m)
      (fun s => Between m msg u s ∧ (redelivered = false → FoundAs msg none s))
      (handleEnqueued lib cfg payload (some (deliveryKeyFor msg)) redelivered)
      (Answered m msg u) (fun _ => Raised m msg u) := by
  refine Spec.bind _ (findExisting_spec redelivered) fun existing => ?_
  refine Spec.bind _ (isBlocked_spec payload existing) fun blocked => ?_
  cases blocked with
  | true => exact closeBlocked_spec existing
  | false =>
      cases existing with
      | none => exact persistAndFanout_spec hpay
      | some row => exact handleRedelivery_spec hpay row

/-- The message is still in the worker's hands. -/
def InHand (m : Nat) (msg : Message) (s : Shared) : Prop :=
  ∃ a, Seat .worker (some m) msg a s

theorem stable_inHand : (pipelineContract lib cfg).Stable .worker (InHand m msg) :=
  Stable.exists fun a => stable_seat msg a

theorem Between.inHand (h : Between m msg u s) : InHand m msg s := by
  obtain ⟨g, hs⟩ := h
  exact ⟨_, hs⟩

theorem concluded_spec {P : Shared → Prop} {c : Call}
    (hP : (pipelineContract lib cfg).Stable .worker P)
    (hpre : ∀ s, Inv s → P s → May lib cfg .worker (some m) c s)
    (hc : c = .ack ∨ c = .term ∨ c = .nak) {X : Fault → Shared → Prop} :
    (pipelineContract lib cfg).Spec .worker (some m) P
      (.call c fun _ => pure () : Prog Unit) (fun _ => Concluded m) X :=
  Spec.call (fun _ => Concluded m) hP hpre
    (fun _ _ r _ _ _ he _ => ⟨c, r, called_of_exec he, hc⟩)
    fun _ => Spec.pure (persistent_concluded m).stable fun _ _ h => h

theorem nak_spec {X : Fault → Shared → Prop} :
    (pipelineContract lib cfg).Spec .worker (some m)
      (fun s => InHand m msg s ∧ (msg.data = .unreadable ∨ Troubled .worker (some m) s))
      JetStreamPullWorker.nak (fun _ => Concluded m) X := by
  refine concluded_spec (stable_inHand.and ((Stable.const _).or persistent_troubled.stable)) ?_
    (.inr (.inr rfl))
  rintro s - ⟨⟨a, hs⟩, h⟩
  refine ⟨msg, a, hs, .inl (h.imp id fun ht => ?_)⟩
  rw [hs.message]
  exact ht

theorem acknowledge_spec (answer : Answer) {X : Fault → Shared → Prop} :
    (pipelineContract lib cfg).Spec .worker (some m) (Answered m msg u answer)
      (.call (.mark (.answered answer)) fun _ => JetStreamPullWorker.ack : Prog Unit)
      (fun _ => Concluded m) X := by
  refine Spec.call (fun _ s => ∃ value,
    Seat .worker (some m) msg ⟨some m, some u, some value, some answer, .idle⟩ s ∧
      (answer = .blocked → value = some "1") ∧
      (answer ≠ .blocked →
        ∃ q ∈ s.rows, q.deliveryKey = some (deliveryKeyFor msg) ∧ Done s q))
    (stable_answered answer) ?_ ?_ fun _ => ?_
  · rintro s _ ⟨value, hs, hblocked, -⟩
    refine ⟨msg, _, hs, .inl fun he => ?_⟩
    obtain ⟨hv, hall⟩ := hblocked he
    exact ⟨congrArg some hv, hall⟩
  · rintro s x a s' hinv ⟨value, hs, hblocked, hdone⟩ he hinv'
    refine ⟨value, hs.call he (by simp), fun hb => (hblocked hb).1, fun hne => ?_⟩
    obtain ⟨q, hq, hkey, hd⟩ := hdone hne
    have hg := act_grows (act_of_exec he)
    refine ⟨q, ?_, hkey, hd.imp hg.sent id⟩
    obtain ⟨-, rfl⟩ := exec_eq.1 he
    rw [Shared.log_rows, effect_rows]
    simp only [writeRows, ite_self]
    exact hq
  · refine concluded_spec (Stable.exists fun value => (stable_seat msg _).and
      ((Stable.const _).and (Stable.imp_left fun _ => (persistent_done _).stable))) ?_ (.inl rfl)
    rintro s _ ⟨value, hs, hblocked, hdone⟩
    refine ⟨msg, _, hs, .inl ?_⟩
    by_cases hb : answer = .blocked
    · exact .inl ⟨congrArg some (hblocked hb), congrArg some hb⟩
    · exact .inr (hdone hb)

/-- The loop of in-place retries: every attempt after the first looks for the row
the one before may have written. -/
theorem handleInPlace_spec (hpay : msg.payload? lib u = some payload)
    {X : Fault → Shared → Prop} :
    ∀ (delays : List Rat) (redelivered : Bool),
      (pipelineContract lib cfg).Spec .worker (some m)
        (fun s => Between m msg u s ∧ (redelivered = false → FoundAs msg none s))
        (handleInPlace lib cfg payload (deliveryKeyFor msg) delays redelivered)
        (fun _ => Concluded m) X := by
  intro delays
  induction delays with
  | nil =>
      intro redelivered
      refine Spec.bind _ (Spec.attempt (handleEnqueued_spec hpay redelivered)) fun outcome => ?_
      cases outcome with
      | ok answer => exact acknowledge_spec answer
      | error e => exact nak_spec.pre fun s _ h => ⟨h.1.inHand, .inr h.2⟩
  | cons delay delays ih =>
      intro redelivered
      refine Spec.bind _ (Spec.attempt (handleEnqueued_spec hpay redelivered)) fun outcome => ?_
      cases outcome with
      | ok answer => exact acknowledge_spec answer
      | error e =>
          refine Spec.call (fun _ => Between m msg u) stable_raised ?_ ?_ fun _ => ?_
          · rintro s _ ⟨⟨g, hs⟩, ht⟩
            exact ⟨msg, _, hs, .inl ht⟩
          · rintro s x a s' _ ⟨⟨g, hs⟩, -⟩ he _
            exact ⟨g, hs.call he (by simp)⟩
          · refine Spec.call (fun _ => Between m msg u) stable_between ?_ ?_ fun _ => ?_
            · rintro s _ ⟨g, hs⟩
              exact ⟨msg, _, hs, .inl trivial⟩
            · rintro s x a s' _ ⟨g, hs⟩ he _
              exact ⟨g, hs.call he (by simp)⟩
            · exact (ih true).pre fun s _ h => ⟨h, fun hf => by cases hf⟩

theorem term_spec {X : Fault → Shared → Prop} 
    (hnone : ∀ minted, msg.payload? lib minted = none) :
    (pipelineContract lib cfg).Spec .worker (some m) (InHand m msg) JetStreamPullWorker.term
      (fun _ => Concluded m) X := by
  refine concluded_spec stable_inHand ?_ (.inr (.inl rfl))
  rintro s _ ⟨a, hs⟩
  exact ⟨msg, a, hs, .inl hnone⟩

/-- Where a delivery starts: nothing is known of the table unless the message was
never delivered before. -/
def Delivered (m : Nat) (msg : Message) (deliveryCount : Nat) (s : Shared) : Prop :=
  Seat .worker (some m) msg (Activity.started (.deliver m)) s ∧
    (deliveryCount ≤ 1 → FoundAs msg none s)

theorem stable_delivered (deliveryCount : Nat) :
    (pipelineContract lib cfg).Stable .worker (Delivered m msg deliveryCount) :=
  (stable_seat msg _).and (Stable.imp_left fun _ => stable_seen none)

theorem handleOne_spec (deliveryCount : Nat) :
    (pipelineContract lib cfg).Spec .worker (some m) (Delivered m msg deliveryCount)
      (handleOne lib cfg msg deliveryCount) (fun _ => Concluded m)
      (fun _ s => InHand m msg s ∧ msg.data = .unreadable) := by
  unfold handleOne
  split
  · next hdata =>
      exact Spec.raise (stable_inHand.and (Stable.const _)) fun s _ h => ⟨⟨_, h.1⟩, hdata⟩
  · next hdata =>
      have hnone : ∀ minted, msg.payload? lib minted = none := by
        intro minted
        rw [Message.payload?, hdata]
      exact (term_spec hnone).pre fun s _ h => ⟨_, h.1⟩
  · next envelope hdata =>
      have hpayload : ∀ minted, msg.payload? lib minted = (rawPayload envelope).bind fun raw =>
          WebhookPayload.validate lib.coerce raw minted := by
        intro minted
        rw [Message.payload?, hdata]
      split
      · next hraw =>
          have hnone : ∀ minted, msg.payload? lib minted = none := by
            intro minted
            rw [hpayload, hraw]
            rfl
          exact (term_spec hnone).pre fun s _ h => ⟨_, h.1⟩
      · next raw hraw =>
          refine Spec.call (fun u s => Seat .worker (some m) msg (Handling m u .none) s ∧
            (deliveryCount ≤ 1 → FoundAs msg none s)) (stable_delivered deliveryCount) ?_ ?_
            fun u => ?_
          · rintro s _ ⟨hs, -⟩
            exact ⟨msg, _, hs, .inl rfl⟩
          · rintro s x u s' _ ⟨hs, hseen⟩ he _
            exact ⟨hs.call he (by simp), fun hd => (hseen hd).call he rfl⟩
          · have hp : ∀ minted, msg.payload? lib minted =
                WebhookPayload.validate lib.coerce raw minted := by
              intro minted
              rw [hpayload, hraw, Option.bind_some]
            split
            · next hpay =>
                have hnone : ∀ minted, msg.payload? lib minted = none := by
                  intro minted
                  have hbody := validate_body lib.coerce raw minted u
                  rw [hpay, Option.map_none, Option.map_eq_none_iff] at hbody
                  rw [hp, hbody]
                exact (term_spec hnone).pre fun s _ h => ⟨_, h.1⟩
            · next payload hpay =>
                refine (handleInPlace_spec ((hp u).trans hpay) _ _).pre fun s _ h =>
                  ⟨⟨_, h.1⟩, fun hd => ?_⟩
                exact h.2 (by simpa using hd)

theorem workerTask_spec (deliveryCount : Nat) :
    (pipelineContract lib cfg).Spec .worker (some m) (Delivered m msg deliveryCount)
      (workerTask lib cfg msg deliveryCount) (fun _ => Concluded m) (fun _ => Concluded m) := by
  refine Spec.bind _ (Spec.attempt (handleOne_spec deliveryCount)) fun outcome => ?_
  cases outcome with
  | ok u => exact Spec.pure (persistent_concluded m).stable fun _ _ h => h
  | error e => exact nak_spec.pre fun _ _ h => ⟨h.1, .inl h.2⟩

/-! ## The retry job -/

/-- The retry job between two fan-outs. -/
def Polling (s : Shared) : Prop := (activity .retryJob s.trace).flight = .idle

theorem stable_polling : (pipelineContract lib cfg).Stable .retryJob Polling := by
  rintro s s' ⟨-, -, l, hp, -, ha⟩ h
  unfold Polling
  rw [act_activity ha hp]
  exact h

theorem Polling.call {c : Call} {x : Choice} {a : c.Result} (h : Polling s)
    (he : (pipeline lib cfg).exec .retryJob k c x s = some (a, s'))
    (hf : ∀ b : Activity, b.flight = .idle → (b.after c a).flight = .idle) : Polling s' := by
  obtain ⟨-, rfl⟩ := exec_eq.1 he
  unfold Polling
  rw [Shared.log_trace, effect_trace, activity_call]
  exact hf _ h

/-- The row is the retry job's, as it was read. -/
def Waiting (row : Signal) (s : Shared) : Prop := row ∈ s.rows ∧ row.awaitsRetry = true

theorem invalid_spec (row : Signal) :
    (pipelineContract lib cfg).Spec .retryJob k (fun s => Polling s ∧ Waiting row s)
      (.call (.recordAttemptFailure row.id) fun _ => pure (.invalid row.id) : Prog Answer)
      (fun _ s => Polling s) (fun _ s => Polling s) := by
  refine Spec.call (fun _ => Polling) (stable_polling.and (stable_entitled row)) ?_ ?_ fun _ =>
    Spec.pure stable_polling fun _ _ h => h
  · rintro s _ ⟨hs, hr, hw⟩
    exact .inl ⟨hs, row, hr, rfl, hw⟩
  · rintro s x a s' _ ⟨hs, -⟩ he _
    exact hs.call he fun _ _ => rfl

theorem retry_fanout_spec {row : Signal} (huxid : payload.signalUxid = row.signalUxid) :
    (pipelineContract lib cfg).Spec .retryJob k (fun s => Polling s ∧ Waiting row s)
      (fanout lib cfg row.id payload row.attempts)
      (fun _ s => Polling s) (fun _ s => Polling s) := by
  rintro s hinv ⟨hs, hr, hw⟩
  obtain ⟨m, msg, -⟩ := (hinv.rows row hr).message
  have hP : Purpose lib .retryJob msg (activity .retryJob s.trace) row row.signalUxid := rfl
  have hleft : ∀ done t, FanoutLeft .retryJob k msg (activity .retryJob s.trace) row done t →
      Polling t := by
    rintro done t ⟨hseat, -⟩
    unfold Polling
    rw [hseat.activity]
    exact hs
  refine (fanout_spec hP hs huxid).mono (fun _ _ h => h) (fun _ t _ h => hleft _ t h.2)
    (fun _ t _ h => hleft _ t h.1) s hinv ⟨?_, hr, hw⟩
  show activity .retryJob s.trace = { activity .retryJob s.trace with flight := .idle }
  have hs' : (activity .retryJob s.trace).flight = .idle := hs
  rw [← hs']

/-- A failure of the row was recorded. It stays recorded, so the row is the retry
job's for as long as it is queued. -/
def Failed (id : RowId) (s : Shared) : Prop :=
  ∃ r ∈ s.rows, r.id = id ∧ r.lastAttempt ≠ none

theorem persistent_failed (id : RowId) :
    (pipelineContract lib cfg).Persistent (Failed id) := by
  rintro s l s' hinv - hl ha ⟨r, hr, hid, hlast⟩
  obtain ⟨r', hr', hs⟩ := rows_forward hinv hl ha hr
  refine ⟨r', hr', hs.id_eq.trans hid, ?_⟩
  rcases hs with rfl | ⟨j, k, c, x, -, -, hc⟩
  · exact hlast
  · cases hc with
    | published => exact hlast
    | failed => simp
    | attempt => simp

theorem retrySignal_spec (id : RowId) :
    (pipelineContract lib cfg).Spec .retryJob k (fun s => Polling s ∧ Failed id s)
      (retrySignal lib cfg id) (fun _ s => Polling s) (fun _ s => Polling s) := by
  refine Spec.call (fun found s => Polling s ∧ ∀ row, found = some row →
    row.id = id ∧ row ∈ s.rows ∧ row.lastAttempt ≠ none ∧ Sound s row)
    (stable_polling.and (persistent_failed id).stable) (fun s _ _ => .inl trivial) ?_
      fun found => ?_
  · rintro s x found s' hinv ⟨hs, hfailed⟩ he hinv'
    refine ⟨hs.call he fun _ h => h, ?_⟩
    rintro row rfl
    have hr := (exec_eq.1 he).1
    simp only [respond] at hr
    split at hr
    · obtain ⟨hmem, hid⟩ := Signal.byId_some hr
      obtain ⟨q, hq, hqid, hlast⟩ := hfailed
      have hqr : q = row := Signal.eq_of_id hinv.ids hq hmem (hqid.trans hid.symm)
      subst hqr
      have hmem' : q ∈ s'.rows := by
        obtain ⟨-, rfl⟩ := exec_eq.1 he
        rw [Shared.log_rows, effect_rows]
        simp only [writeRows, ite_self]
        exact hmem
      exact ⟨hid, hmem', hlast, hinv'.rows q hmem'⟩
    · cases hr
  · cases found with
    | none => exact Spec.pure stable_polling fun s _ h => h.1
    | some row =>
        simp only []
        split
        · exact Spec.pure stable_polling fun s _ h => h.1
        · next hq =>
            have hqueued : row.status = .queued := by
              by_contra hne
              exact hq (.inl hne)
            rintro s hinv ⟨hs, hrow⟩
            obtain ⟨rfl, hmem, hlast, hsound⟩ := hrow row rfl
            have hw : row.awaitsRetry = true := by
              simp [Signal.awaitsRetry, hqueued, hlast]
            obtain ⟨stored, hraw, huxid⟩ := hsound.raw
            rw [hraw]
            refine Spec.call (fun _ s => Polling s ∧ Waiting row s)
              (stable_polling.and (stable_entitled row)) ?_ ?_ ?_ s hinv ⟨hs, hmem, hw⟩
            · exact fun t _ _ => .inl trivial
            · rintro t x a t' _ ⟨ht, hmem', hw'⟩ he _
              refine ⟨ht.call he fun _ h => h, ?_, hw'⟩
              obtain ⟨-, rfl⟩ := exec_eq.1 he
              rw [Shared.log_rows, effect_rows]
              simp only [writeRows, ite_self]
              exact hmem'
            · intro minted
              split
              · exact invalid_spec row
              · next payload hpay =>
                  exact retry_fanout_spec ((validate_dump_signalUxid hpay).trans huxid)

theorem retryRows_spec :
    ∀ rows : List Signal, (pipelineContract lib cfg).Spec .retryJob k
      (fun s => Polling s ∧ ∀ row, row ∈ rows → Failed row.id s) (retryRows lib cfg rows)
      (fun _ => Polling) (fun _ => Polling) := by
  intro rows
  induction rows with
  | nil => exact Spec.pure stable_polling fun _ _ h => h.1
  | cons row rows ih =>
      have hrest : (pipelineContract lib cfg).Persistent
          fun s => ∀ row, row ∈ rows → Failed row.id s :=
        Persistent.forall fun row => Persistent.imp_left fun _ => persistent_failed row.id
      refine Spec.bind (fun _ s => Polling s ∧ ∀ row, row ∈ rows → Failed row.id s)
        (Spec.mono (X := fun _ => Polling)
          (Spec.attempt (Spec.frame hrest (retrySignal_spec row.id))) ?_ ?_ ?_) fun _ => ih
      · rintro s - ⟨hs, hall⟩
        exact ⟨⟨hs, hall row List.mem_cons_self⟩, fun q hq => hall q (List.mem_cons_of_mem _ hq)⟩
      · intro outcome s _ h
        cases outcome with
        | ok answer => exact h
        | error e => exact h
      · exact fun _ _ _ h => h

theorem tickOnce_spec :
    (pipelineContract lib cfg).Spec .retryJob k Polling (tickOnce lib cfg)
      (fun _ => Polling) (fun _ => Polling) := by
  refine Spec.call (fun rows : List Signal => fun s => Polling s ∧
    ∀ row, row ∈ rows → Failed row.id s) stable_polling (fun s _ _ => .inl trivial) ?_
    fun rows => retryRows_spec rows
  intro s x rows s' _ hs he _
  refine ⟨hs.call he fun _ h => h, ?_⟩
  intro row hrow
  have hr := (exec_eq.1 he).1
  subst hr
  simp only [respond] at hrow
  split at hrow
  · obtain ⟨hmem, hw⟩ := Signal.mem_listRetryable hrow
    obtain ⟨-, rfl⟩ := exec_eq.1 he
    refine ⟨row, ?_, rfl, ?_⟩
    · rw [Shared.log_rows, effect_rows]
      simp only [writeRows, ite_self]
      exact hmem
    · simp only [Signal.awaitsRetry, Bool.and_eq_true, bne_iff_ne] at hw
      exact hw.2
  · cases hrow

/-! ## The handshake -/

variable {n : Nat}

/-- The table has a row of this id and document. -/
def Recorded (entry : RowId × Json) (s : Shared) : Prop :=
  ∃ r ∈ s.rows, r.id = entry.1 ∧ r.raw = entry.2

/-- The table has a row the replayed signal is of. -/
def Replayable (signal : TradingSignal) (s : Shared) : Prop :=
  ∃ r ∈ s.rows, r.id = signal.signalId ∧ r.signalUxid = signal.signalUxid

theorem persistent_identity (P : RowId × Option String × Uxid × Json → Prop) :
    (pipelineContract lib cfg).Persistent fun s => ∃ r ∈ s.rows, P r.identity := by
  rintro s l s' hinv - hl ha ⟨r, hr, hP⟩
  obtain ⟨r', hr', hs⟩ := rows_forward hinv hl ha hr
  exact ⟨r', hr', by rw [hs.identity]; exact hP⟩

theorem persistent_recorded (entry : RowId × Json) :
    (pipelineContract lib cfg).Persistent (Recorded entry) :=
  persistent_identity fun d => d.1 = entry.1 ∧ d.2.2.2 = entry.2

theorem persistent_replayable (signal : TradingSignal) :
    (pipelineContract lib cfg).Persistent (Replayable signal) :=
  persistent_identity fun d => d.1 = signal.signalId ∧ d.2.2.1 = signal.signalUxid

theorem persistent_exec {F : Shared → Prop} (hF : (pipelineContract lib cfg).Persistent F)
    {c : Call} {x : Choice} {a : c.Result}
    (he : (pipeline lib cfg).exec i k c x s = some (a, s')) (hinv : Inv s) (hinv' : Inv s')
    (hl : May lib cfg i k c s) (h : F s) : F s' :=
  hF s (.call i k c x) s' hinv hinv' hl (act_of_exec he) h

theorem parseReplay_spec :
    ∀ envelopes : List (RowId × Json), (pipelineContract lib cfg).Spec (.handshake n) k
      (fun s => ∀ entry, entry ∈ envelopes → Recorded entry s) (parseReplay lib envelopes)
      (fun signals s => ∀ signal, signal ∈ signals → Replayable signal s)
      (fun _ _ => True) := by
  have hpersistent : ∀ envelopes : List (RowId × Json), (pipelineContract lib cfg).Persistent
      fun s => ∀ entry, entry ∈ envelopes → Recorded entry s := fun envelopes =>
    Persistent.forall fun entry => Persistent.imp_left fun _ => persistent_recorded entry
  have hstable : ∀ signals : List TradingSignal, (pipelineContract lib cfg).Stable (.handshake n)
      fun s => ∀ signal, signal ∈ signals → Replayable signal s := fun signals =>
    (Persistent.forall fun signal => Persistent.imp_left fun _ =>
      persistent_replayable signal).stable
  intro envelopes
  induction envelopes with
  | nil => exact Spec.pure (hstable []) fun s _ _ signal hs => by cases hs
  | cons entry envelopes ih =>
      have htail : ∀ s, (∀ e, e ∈ entry :: envelopes → Recorded e s) →
          ∀ e, e ∈ envelopes → Recorded e s := fun s h e he => h e (List.mem_cons_of_mem _ he)
      obtain ⟨id, raw⟩ := entry
      cases raw with
      | obj kvs =>
          refine Spec.call (fun _ s => ∀ e, e ∈ (id, Json.obj kvs) :: envelopes → Recorded e s)
            (hpersistent _).stable (fun s _ _ => trivial) ?_ fun minted => ?_
          · exact fun s x a s' hi h he hi' => persistent_exec (hpersistent _) he hi hi' trivial h
          · split
            · exact ih.pre fun s _ h => htail s h
            · next payload hpay =>
                refine Spec.call
                  (fun _ s => ∀ e, e ∈ (id, Json.obj kvs) :: envelopes → Recorded e s)
                  (hpersistent _).stable (fun s _ _ => trivial) ?_ fun now => ?_
                · exact fun s x a s' hi h he hi' =>
                    persistent_exec (hpersistent _) he hi hi' trivial h
                · split
                  · exact ih.pre fun s _ h => htail s h
                  · next signal hsig =>
                      refine Spec.bind _ (Spec.mono
                        (Spec.frame (persistent_replayable signal) ih) ?_ (fun _ _ _ h => h)
                        fun _ _ _ _ => trivial) fun signals => ?_
                      · intro s hinv h
                        refine ⟨htail s h, ?_⟩
                        obtain ⟨r, hr, hid, hraw⟩ := h _ List.mem_cons_self
                        obtain ⟨stored, hstored, huxid⟩ := (hinv.rows r hr).raw
                        obtain ⟨hsid, hsuxid⟩ := parseSignal_ids hsig
                        rw [hstored] at hraw
                        simp only [Json.obj.injEq] at hraw
                        rw [← hraw] at hpay
                        refine ⟨r, hr, hid.trans hsid.symm, ?_⟩
                        rw [hsuxid, validate_dump_signalUxid hpay, huxid]
                      · refine Spec.pure (hstable _) ?_
                        rintro s - ⟨hrest, hhead⟩ other ho
                        rcases List.mem_cons.1 ho with rfl | ho
                        · exact hhead
                        · exact hrest other ho
      | _ => exact ih.pre fun s _ h => htail s h

theorem getMaxRetryTimeoutSeconds_spec :
    (pipelineContract lib cfg).Spec (.handshake n) k (fun _ => True) getMaxRetryTimeoutSeconds
      (fun _ _ => True) (fun _ _ => True) := by
  refine Spec.call (fun _ _ => True) (Stable.const _) (fun _ _ _ => trivial)
    (fun _ _ _ _ _ _ _ _ => trivial) fun raw => ?_
  split
  · exact Spec.pure (Stable.const _) fun _ _ h => h
  · exact Spec.pure (Stable.const _) fun _ _ h => h

theorem answerHandshake_spec (strategies : List String) :
    (pipelineContract lib cfg).Spec (.handshake n) k (fun _ => True)
      (answerHandshake lib cfg strategies) (fun _ _ => True) (fun _ _ => True) := by
  have hstable : ∀ signals : List TradingSignal, (pipelineContract lib cfg).Stable (.handshake n)
      fun s => ∀ signal, signal ∈ signals → Replayable signal s := fun signals =>
    (Persistent.forall fun signal => Persistent.imp_left fun _ =>
      persistent_replayable signal).stable
  refine Spec.bind (fun signals s => ∀ signal, signal ∈ signals → Replayable signal s) ?_
    fun signals => ?_
  · unfold buildRetrySignals
    split
    · exact Spec.pure (hstable []) fun s _ _ signal hs => by cases hs
    · refine Spec.bind _ getMaxRetryTimeoutSeconds_spec fun window => ?_
      refine Spec.call (fun envelopes : List (RowId × Json) => fun s =>
        ∀ entry, entry ∈ envelopes → Recorded entry s) (Stable.const _)
        (fun _ _ _ => trivial) ?_ fun envelopes => parseReplay_spec envelopes
      rintro s x envelopes s' - - he -
      intro entry hentry
      obtain ⟨hr, rfl⟩ := exec_eq.1 he
      subst hr
      simp only [respond] at hentry
      split at hentry
      · obtain ⟨r, hmem, hid, hraw⟩ := Signal.mem_listRecentByStrategies hentry
        refine ⟨r, ?_, hid, hraw⟩
        rw [Shared.log_rows, effect_rows]
        simp only [writeRows, ite_self]
        exact hmem
      · cases hentry
  · refine Spec.call (fun _ _ => True) (hstable signals) ?_ (fun _ _ _ _ _ _ _ _ => trivial)
      fun _ => Spec.pure (Stable.const _) fun _ _ h => h
    intro s _ h signal hs
    exact h signal hs

/-! ## The contract holds -/

/-- A delivery key names one place in the stream. -/
theorem Inv.place_unique (hinv : Inv s) {m m' : Nat} {msg msg' : Message}
    (hm : s.stream[m]? = some msg) (hm' : s.stream[m']? = some msg')
    (hkey : deliveryKeyFor msg = deliveryKeyFor msg') : m = m' := by
  have hlt : m < (s.stream.map deliveryKeyFor).length := by
    rw [List.length_map]
    exact (List.getElem?_eq_some_iff.1 hm).1
  refine (List.getElem?_inj hlt hinv.stream).1 ?_
  rw [List.getElem?_map, List.getElem?_map, hm, hm']
  exact congrArg some hkey

theorem isOf_unique {r : Signal} {msg msg' : Message} (h : r.isOf msg) (h' : r.isOf msg') :
    deliveryKeyFor msg = deliveryKeyFor msg' :=
  Option.some.inj (h.symm.trans h')

/-- A message first delivered has no row yet. -/
theorem seen_of_undelivered (hinv : Inv s) {m : Nat} {msg : Message}
    (hm : s.stream[m]? = some msg) (hd : s.delivered m = 0) : FoundAs msg none s := by
  intro r hr hof
  obtain ⟨m', msg', hm', hof', hd'⟩ := (hinv.rows r hr).message
  have hmm := hinv.place_unique hm hm' (isOf_unique hof hof')
  subst hmm
  omega

theorem stable_atRest (i : Party) (k : Context) :
    (pipelineContract lib cfg).Stable i (AtRest i k) := by
  cases i with
  | worker =>
      intro s s' hi h m hk hm
      obtain ⟨-, -, l, hp, -, ha⟩ := id hi
      rw [act_activity ha hp] at hm
      exact (persistent_concluded m).stable s s' hi (h m hk hm)
  | retryJob => exact stable_polling
  | handshake n => exact Stable.const True

theorem pipeline_holds : (pipelineContract lib cfg).Holds where
  crash := by
    intro i k s s' _ h
    have hs' : s' = s.log (.crash i) := act_crash h
    subst hs'
    cases i with
    | worker =>
        intro m _ hm
        rw [Shared.log_trace, activity_crash] at hm
        cases hm
    | retryJob =>
        show (activity .retryJob (s.log (.crash .retryJob)).trace).flight = .idle
        rw [Shared.log_trace, activity_crash]
        rfl
    | handshake n => trivial
  stable := stable_atRest
  start := by
    intro i e s k₀ k p s' hinv hrest₀ hstart hinv'
    clear hrest₀
    have hinv₀ : Inv s := hinv
    simp only [pipeline, start] at hstart
    split at hstart
    · next m =>
        split at hstart
        · next msg hmsg =>
            split at hstart
            · next hd =>
                simp only [Option.some.injEq, Prod.mk.injEq] at hstart
                obtain ⟨rfl, rfl, rfl⟩ := hstart
                have hrest : ∀ t, Concluded m t → AtRest .worker (some m) t := by
                  intro t h m' hm' _
                  cases hm'
                  exact h
                refine (workerTask_spec _).mono (fun _ _ h => h) (fun _ t _ => hrest t)
                  (fun _ t _ => hrest t) _ hinv' ⟨⟨activity_start _ _ _, rfl, hmsg, ?_⟩, ?_⟩
                · simp only [deliverable, Bool.and_eq_true, Bool.not_eq_true'] at hd
                  exact hd.1.2
                · intro hcount
                  exact seen_of_undelivered hinv₀ hmsg (by omega)
            · cases hstart
        · cases hstart
    · simp only [Option.some.injEq, Prod.mk.injEq] at hstart
      obtain ⟨rfl, rfl, rfl⟩ := hstart
      refine tickOnce_spec _ hinv' ?_
      unfold Polling
      rw [Shared.log_trace, activity_start]
      rfl
    · simp only [Option.some.injEq, Prod.mk.injEq] at hstart
      obtain ⟨rfl, rfl, rfl⟩ := hstart
      exact answerHandshake_spec _ _ hinv' trivial
    · cases hstart

end

end TradingBroker
