import TradingBroker.Signals.Ownership
import TradingBroker.Signals.Sequence

/-!
# One message, one row, one cycle

Three paths rebuild a signal's payload: the first delivery parses the envelope, a
redelivery parses it again, the retry job parses the stored `raw`. The row's id is
never in doubt. The cycle is, on the second path: an envelope that leaves its
`signal_uxid` out is given a new one by every parse, and `_handle_redelivery`
publishes the parse of the delivery under the id of a row that stores another.

The invariant (`Cycles`) ties the uxid that was minted for a delivery to the cycle
the row stores. They agree if the envelope names its uxid, whatever was minted,
and if the row was written in this very delivery; a fan-out is started with them
agreeing, and nothing changes them while it is in flight. `resumesUnnamed` is the
one start that breaks it. It looks at the envelope and at the delivery, and not at
what is going to be published.
-/

namespace TradingBroker

open TradingBroker.Lib TradingBroker.Lib.Machine TradingBroker.Lib.Contract

/-- The envelope's payload leaves `signal_uxid` to be minted. -/
def Message.leavesUxid (msg : Message) : Bool :=
  match msg.data with
  | .json envelope =>
      (rawPayload envelope).any fun raw => TradingBroker.leavesUxid (raw.get? "signal_uxid")
  | _ => false

def Call.isLogSignal : Call → Bool
  | .logSignal _ _ _ => true
  | _ => false

/-- The worker has written the row of its message since it was given it. -/
def writtenInDelivery : List Entry → Bool
  | [] => false
  | .call i _ c _ :: t => (i == .worker && c.isLogSignal) || writtenInDelivery t
  | .start i _ :: t => i != .worker && writtenInDelivery t
  | .crash i :: t => i != .worker && writtenInDelivery t

/-- The step takes up a fan-out for an envelope that names no uxid, in a delivery
other than the one that wrote the row. -/
def resumesUnnamed (s : Shared) : Label Party Context Choice Event Call → Bool
  | .call .worker (some m) (.mark (.fanout _)) _ =>
      (s.stream[m]?).any Message.leavesUxid && !writtenInDelivery s.trace
  | _ => false

/-- The call is made for message `m`: in a delivery of it, or in a fan-out of its
row. -/
def MadeFor (s : Shared) (m : Nat) (i : Party) (k : Context) : Prop :=
  (i = .worker ∧ k = some m) ∨
    (i ≠ .worker ∧ ∃ r, IsRowOf s m r ∧ (activity i s.trace).flight.signalId? = some r.id)

/-- In every run whose moves meet `cond`, a message has one row, once and for all,
and what is published and broadcast for it carries the ids of that row. -/
def OneSignal (lib : Libraries) (cfg : Config)
    (cond : Shared → Label Party Context Choice Event Call → Prop) : Prop :=
  ∀ now settings p m,
    (pipeline lib cfg).Reaches cond (startPool now settings) p →
    (∀ p' r r', (pipeline lib cfg).Runs p p' → IsRowOf p.shared m r → IsRowOf p'.shared m r' →
      r'.id = r.id ∧ r'.signalUxid = r.signalUxid) ∧
    ∀ i k c x q, (pipeline lib cfg).Step p (.call i k c x) q → MadeFor p.shared m i k →
      (∀ w, c = .publish w → ∃ r, IsRowOf p.shared m r ∧ w.signalId = r.id ∧
        w.signalUxid = r.signalUxid) ∧
      (∀ payload n, c = .broadcast payload n → ∃ r, IsRowOf p.shared m r ∧
        payload.signalUxid = r.signalUxid)

section
variable {lib : Libraries} {cfg : Config} {s t u : Shared} {m : Nat} {r r' : Signal}
  {msg : Message} {minted : Uxid} {l : Label Party Context Choice Event Call}

/-- An envelope that names its cycle parses to the same payload every time. -/
theorem payload?_named (h : msg.leavesUxid = false) (minted minted' : Uxid) :
    msg.payload? lib minted = msg.payload? lib minted' := by
  unfold Message.leavesUxid at h
  unfold Message.payload?
  cases hdata : msg.data with
  | json envelope =>
      simp only [hdata] at h ⊢
      cases hraw : rawPayload envelope with
      | none => rfl
      | some raw =>
          rw [hraw, Option.any_some] at h
          simp only [Option.bind_some]
          exact validate_named h minted minted'
  | malformed => rfl
  | unreadable => rfl

/-- A parse that is handed `minted` gives the message the cycle its row stores. -/
def Agrees (lib : Libraries) (s : Shared) (m : Nat) (minted : Uxid) (r : Signal) : Prop :=
  ∀ msg payload, s.stream[m]? = some msg → msg.payload? lib minted = some payload →
    payload.signalUxid = r.signalUxid

theorem Agrees.step (ha : (pipeline lib cfg).act l t = some u) (hr : IsRowOf t m r)
    (hs : RowStep l t r r') (h : Agrees lib t m minted r) : Agrees lib u m minted r' := by
  intro msg' payload hm hp
  obtain ⟨-, msg, hm₀, -⟩ := hr
  have hm' := (act_grows ha).stream m msg hm₀
  rw [hm] at hm'
  cases hm'
  rw [h msg' payload hm₀ hp, (Signal.identity_eq.1 hs.identity).2.2.1]

/-- The row just inserted stores the cycle of the parse it was built from. -/
theorem Inserts.agrees (hinv' : Inv u) (ha : (pipeline lib cfg).act l t = some u)
    (hins : Inserts lib cfg l t r) (hr : IsRowOf u m r) :
    ∃ minted, (activity .worker t.trace).message = some m ∧
      (activity .worker t.trace).minted = some minted ∧ Agrees lib u m minted r := by
  obtain ⟨m', msg, a, minted, payload, x, rfl, hat, -, hmint, hpay, rfl, -⟩ := hins
  obtain ⟨-, msg', hm', hof⟩ := hr
  have hm := (act_grows ha).stream m' msg hat.stored
  have hmm := hinv'.place_unique hm hm' (isOf_unique (r := newRow payload _ _ x t) rfl hof)
  subst hmm
  refine ⟨minted, ?_, ?_, ?_⟩
  · rw [hat.activity, hat.message]
  · rw [hat.activity, hmint]
  · intro msg₁ payload₁ hm₁ hpay₁
    rw [hm] at hm₁
    cases hm₁
    rw [hpay] at hpay₁
    cases hpay₁
    rfl

/-- The cycles the rows store, and the worker's part in them: a parse of an envelope
that names its uxid agrees with the row whenever it is made; before a uxid is minted
nothing was written in this delivery; what was written in it was written from the parse
at hand; and a fan-out that is in flight was started with the two agreeing. -/
structure Cycles (lib : Libraries) (s : Shared) : Prop where
  named : ∀ m msg r minted, s.stream[m]? = some msg → msg.leavesUxid = false →
    IsRowOf s m r → Agrees lib s m minted r
  fresh : (activity .worker s.trace).minted = none → writtenInDelivery s.trace = false
  written : writtenInDelivery s.trace = true → ∀ m minted r,
    (activity .worker s.trace).message = some m →
    (activity .worker s.trace).minted = some minted →
    IsRowOf s m r → Agrees lib s m minted r
  flying : ∀ id, (activity .worker s.trace).flight.signalId? = some id → ∃ m minted,
    (activity .worker s.trace).message = some m ∧
    (activity .worker s.trace).minted = some minted ∧
    ∀ r, IsRowOf s m r → r.id = id → Agrees lib s m minted r

/-! ## One step -/

theorem named_step (hinv : Inv t) (hinv' : Inv u) (hl : l.Allowed (May lib cfg) t)
    (ha : (pipeline lib cfg).act l t = some u) (h : Cycles lib t) {r' : Signal}
    (hm : u.stream[m]? = some msg) (hnamed : msg.leavesUxid = false) (hr' : IsRowOf u m r') :
    Agrees lib u m minted r' := by
  rcases hr'.backward hinv hinv' hl ha with ⟨r, hr, hs⟩ | hins
  · obtain ⟨-, msg₀, hm₀, -⟩ := id hr
    have hm₁ := (act_grows ha).stream m msg₀ hm₀
    rw [hm] at hm₁
    cases hm₁
    exact (h.named m msg r minted hm₀ hnamed hr).step ha hr hs
  · obtain ⟨minted', -, -, hagree⟩ := hins.agrees hinv' ha hr'
    intro msg₁ payload hm₁ hpay
    rw [hm] at hm₁
    cases hm₁
    exact hagree msg payload hm (payload?_named hnamed minted minted' ▸ hpay)

/-- What the worker's own call leaves of its activity: only drawing a uxid changes
what is minted, and that comes before everything else. -/
theorem minted_after {a : Activity} {c : Call} {b : c.Result} :
    (a.after c b).minted = a.minted ∨ c = .newUxid := by
  cases c with
  | newUxid => exact .inr rfl
  | getStrict key => cases b <;> exact .inl rfl
  | mark mark => cases mark <;> exact .inl rfl
  | _ => exact .inl rfl

theorem may_newUxid {k : Context} (h : May lib cfg .worker k .newUxid s) :
    (activity .worker s.trace).minted = none := by
  cases k with
  | none => exact h.elim
  | some m =>
      obtain ⟨msg, a, hat, hw | ⟨-, r, -, -, -, _, _, -, -, hf⟩⟩ := h
      · rw [hat.activity]
        exact hw
      · exact hf.elim

/-- A uxid that was minted stays the delivery's. -/
theorem minted_kept {k : Context} {c : Call} {b : c.Result} {minted : Uxid}
    (hl : May lib cfg .worker k c t) (h : (activity .worker t.trace).minted = some minted) :
    ((activity .worker t.trace).after c b).minted = some minted := by
  rcases minted_after (a := activity .worker t.trace) (b := b) with he | rfl
  · exact he.trans h
  · rw [may_newUxid hl] at h
    cases h

/-- A message is written once: when `log_signal` is called it has no row. -/
theorem may_logSignal_unseen {k : Context} {c : Call} (hc : c.isLogSignal = true)
    (h : May lib cfg .worker k c s) :
    (activity .worker s.trace).flight = .idle ∧
    (∃ minted, (activity .worker s.trace).minted = some minted) ∧
    ∀ m r, (activity .worker s.trace).message = some m → ¬ IsRowOf s m r := by
  cases c with
  | logSignal payload key attempts =>
      cases k with
      | none => exact h.elim
      | some m =>
          obtain ⟨msg, a, hat, ⟨-, hidle, -, -, hun, minted, hmint, -⟩ |
            ⟨-, r, -, -, -, _, _, -, -, hf⟩⟩ := h
          · rw [hat.activity]
            refine ⟨hidle, ⟨minted, hmint⟩, ?_⟩
            rintro m' r hm' ⟨hr, msg', hm, hof⟩
            rw [hat.message] at hm'
            cases hm'
            rw [hat.stored] at hm
            cases hm
            exact hun r hr hof
          · exact hf.elim
  | _ => cases hc

/-- The fan-out that starts is of a row that agrees with the parse of this very
delivery. -/
theorem fanout_agrees {k : Context} {id : RowId} {x : Choice}
    (h : May lib cfg .worker k (.mark (.fanout id)) t)
    (hc : resumesUnnamed t (.call .worker k (.mark (.fanout id)) x) = false)
    (hcyc : Cycles lib t) : ∃ m minted, (activity .worker t.trace).message = some m ∧
      (activity .worker t.trace).minted = some minted ∧
      ∀ r, IsRowOf t m r → Agrees lib t m minted r := by
  cases k with
  | none => exact h.elim
  | some m =>
      obtain ⟨msg, a, hat, hw | ⟨-, r, hr, hof, -, minted, payload, hmint, -, -⟩⟩ := h
      · exact hw.elim
      · refine ⟨m, minted, by rw [hat.activity, hat.message], by rw [hat.activity, hmint], ?_⟩
        intro r' hr'
        rw [resumesUnnamed, hat.stored, Option.any_some, Bool.and_eq_false_iff,
          Bool.not_eq_false'] at hc
        rcases hc with hnamed | hwritten
        · exact hcyc.named m msg r' minted hat.stored hnamed hr'
        · exact hcyc.written hwritten m minted r' (by rw [hat.activity, hat.message])
            (by rw [hat.activity, hmint]) hr'

theorem Cycles.call {k : Context} {c : Call} {x : Choice} (hinv : Inv t) (hinv' : Inv u)
    (hl : May lib cfg .worker k c t)
    (ha : (pipeline lib cfg).act (.call .worker k c x) t = some u)
    (hc : resumesUnnamed t (.call .worker k c x) = false) (h : Cycles lib t) :
    Cycles lib u := by
  have htrace := act_trace ha
  rw [traced, List.singleton_append] at htrace
  have hact : activity .worker u.trace =
      (activity .worker t.trace).after c (respond lib x t c) := by
    rw [htrace, activity_call]
  have hwrit : writtenInDelivery u.trace = (c.isLogSignal || writtenInDelivery t.trace) := by
    rw [htrace]
    rfl
  have hmsg : (activity .worker u.trace).message = (activity .worker t.trace).message := by
    rw [hact, Activity.after_message]
  refine ⟨?_, ?_, ?_, ?_⟩
  · intro m msg r minted hm hnamed hr
    exact named_step hinv hinv' (l := .call .worker k c x) hl ha h hm hnamed hr
  · intro hnone
    rw [hact] at hnone
    rw [hwrit]
    cases hlog : c.isLogSignal with
    | true =>
        obtain ⟨-, ⟨minted, hmint⟩, -⟩ := may_logSignal_unseen hlog hl
        rw [minted_kept hl hmint] at hnone
        cases hnone
    | false =>
        rcases minted_after (a := activity .worker t.trace) (b := respond lib x t c) with he | rfl
        · rw [he] at hnone
          exact h.fresh hnone
        · exact h.fresh (may_newUxid hl)
  · intro hw m minted r' hm hmint hr'
    rw [hwrit] at hw
    rw [hmsg] at hm
    rcases hr'.backward hinv hinv' (l := .call .worker k c x) hl ha with ⟨r, hr, hs⟩ | hins
    · cases hlog : c.isLogSignal with
      | true => exact absurd hr ((may_logSignal_unseen hlog hl).2.2 m r hm)
      | false =>
          rw [hlog, Bool.false_or] at hw
          rcases minted_after (a := activity .worker t.trace) (b := respond lib x t c)
            with he | rfl
          · rw [hact, he] at hmint
            exact (h.written hw m minted r hm hmint hr).step ha hr hs
          · rw [h.fresh (may_newUxid hl)] at hw
            cases hw
    · obtain ⟨minted', -, hmint', hagree⟩ := hins.agrees hinv' ha hr'
      rw [hact, minted_kept hl hmint'] at hmint
      rw [← Option.some.inj hmint]
      exact hagree
  · intro id hf
    rw [hact] at hf
    obtain ⟨m, minted, hm, hmint, hagree⟩ : ∃ m minted,
        (activity .worker t.trace).message = some m ∧
        (activity .worker t.trace).minted = some minted ∧
        ∀ r, IsRowOf t m r → r.id = id → Agrees lib t m minted r := by
      rcases after_signalId hf with rfl | hold
      · obtain ⟨m, minted, hm, hmint, hagree⟩ := fanout_agrees hl hc h
        exact ⟨m, minted, hm, hmint, fun r hr _ => hagree r hr⟩
      · exact h.flying id hold
    refine ⟨m, minted, hmsg.trans hm, hact ▸ minted_kept hl hmint, ?_⟩
    intro r' hr' hid
    rcases hr'.backward hinv hinv' (l := .call .worker k c x) hl ha with ⟨r, hr, hs⟩ | hins
    · exact (hagree r hr (hs.id_eq ▸ hid)).step ha hr hs
    · -- The insert is made with no fan-out under way.
      obtain ⟨m', msg', a, minted', payload, x', hlab, -, -, -, -, -, -⟩ := hins
      cases hlab
      have hidle := (may_logSignal_unseen rfl hl).1
      rcases after_signalId hf with he | hold
      · cases he
      · rw [hidle] at hold
        cases hold

theorem Cycles.step (hinv : Inv t) (hinv' : Inv u) (hl : l.Allowed (May lib cfg) t)
    (ha : (pipeline lib cfg).act l t = some u) (hc : resumesUnnamed t l = false)
    (h : Cycles lib t) : Cycles lib u := by
  by_cases hp : l.party = some .worker
  · cases l with
    | call i k c x =>
        cases hp
        exact h.call hinv hinv' hl ha hc
    | start i e =>
        cases hp
        have htrace := act_trace ha
        rw [traced, List.singleton_append] at htrace
        have hact : activity .worker u.trace = Activity.started e := by
          rw [htrace, activity_start]
        have hw : writtenInDelivery u.trace = false := by
          rw [htrace]
          rfl
        refine ⟨?_, fun _ => hw, fun hw' => ?_, fun id hf => ?_⟩
        · intro m msg r minted hm hnamed hr
          exact named_step hinv hinv' hl ha h hm hnamed hr
        · rw [hw] at hw'
          cases hw'
        · rw [hact] at hf
          cases e <;> cases hf
    | env e => cases hp
    | crash i k =>
        cases hp
        have htrace := act_trace ha
        rw [traced, List.singleton_append] at htrace
        have hw : writtenInDelivery u.trace = false := by
          rw [htrace]
          rfl
        refine ⟨?_, fun _ => hw, fun hw' => ?_, fun id hf => ?_⟩
        · intro m msg r minted hm hnamed hr
          exact named_step hinv hinv' hl ha h hm hnamed hr
        · rw [hw] at hw'
          cases hw'
        · rw [htrace, activity_crash] at hf
          cases hf
  · have hact := act_activity ha hp
    have hw : writtenInDelivery u.trace = writtenInDelivery t.trace := by
      rw [act_trace ha]
      cases l with
      | call i k c x =>
          have hi : (i == Party.worker) = false := by simpa [Label.party] using hp
          simp [traced, writtenInDelivery, hi]
      | start i e =>
          have hi : (i != Party.worker) = true := by simpa [Label.party] using hp
          simp [traced, writtenInDelivery, hi]
      | env e => rfl
      | crash i k =>
          have hi : (i != Party.worker) = true := by simpa [Label.party] using hp
          simp [traced, writtenInDelivery, hi]
    have hrows : ∀ m r', IsRowOf u m r' → ∃ r, IsRowOf t m r ∧ RowStep l t r r' := by
      intro m r' hr'
      refine (hr'.backward hinv hinv' hl ha).resolve_right ?_
      rintro ⟨_, _, _, _, _, _, rfl, -⟩
      exact hp rfl
    refine ⟨?_, ?_, ?_, ?_⟩
    · intro m msg r minted hm hnamed hr
      exact named_step hinv hinv' hl ha h hm hnamed hr
    · rw [hact, hw]
      exact h.fresh
    · intro hw' m minted r' hm hmint hr'
      obtain ⟨r, hr, hs⟩ := hrows m r' hr'
      rw [hact] at hm hmint
      exact (h.written (hw ▸ hw') m minted r hm hmint hr).step ha hr hs
    · intro id hf
      rw [hact] at hf ⊢
      obtain ⟨m, minted, hm, hmint, hagree⟩ := h.flying id hf
      refine ⟨m, minted, hm, hmint, fun r' hr' hid => ?_⟩
      obtain ⟨r, hr, hs⟩ := hrows m r' hr'
      exact (hagree r hr (hs.id_eq ▸ hid)).step ha hr hs

theorem reaches_cycles {now : Int} {settings : String → Option String}
    {p : Pool Party Context Shared Call Call.Result Fault}
    (h : (pipeline lib cfg).Reaches (fun s l => resumesUnnamed s l = false)
      (startPool now settings) p) : Cycles lib p.shared := by
  refine (reaches_good h).2.induct ⟨?_, ?_, ?_, ?_⟩
    fun t l u ht hu hl hc ha hj => hj.step ht hu hl ha hc
  · rintro m msg r minted - - ⟨hr, -⟩
    cases hr
  · exact fun _ => rfl
  · intro hw
    cases hw
  · intro id hf
    cases hf

/-! ## The ids of the row -/

/-- A message's row keeps its ids in every run. -/
theorem ids_kept {p p' : Pool Party Context Shared Call Call.Result Fault}
    (hp : (pipelineContract lib cfg).Good p) (hrun : (pipeline lib cfg).Runs p p')
    (hr : IsRowOf p.shared m r) (hr' : IsRowOf p'.shared m r') :
    r'.id = r.id ∧ r'.signalUxid = r.signalUxid := by
  have hinv' : Inv p'.shared := (pipeline_holds.refines hp hrun).1.1
  obtain ⟨hmem, msg, hm, hof⟩ := hr
  obtain ⟨hmem', msg', hm', hof'⟩ := hr'
  rw [(persistent_stored m msg).reaches pipeline_holds hp hrun hm] at hm'
  cases hm'
  have hident : (pipelineContract lib cfg).Persistent _ :=
    persistent_identity fun ident => ident = r.identity
  obtain ⟨q, hq, hqr⟩ := hident.reaches pipeline_holds hp hrun ⟨r, hmem, rfl⟩
  obtain ⟨hid, hkey, huxid, -⟩ := Signal.identity_eq.1 hqr
  have hqr' : q = r' :=
    Signal.eq_of_deliveryKey hinv'.keys hq hmem' (hkey.trans (hof.trans hof'.symm))
  rw [← hqr']
  exact ⟨hid, huxid⟩

/-- The row a publish or a broadcast is made from is the one its caller's fan-out
is of, and for the worker its message's; the cycle is the one the caller's payload
is of. -/
theorem fanoutCall_row (hinv : Inv s) (hcyc : Cycles lib s) {i : Party} {k : Context} {c : Call}
    (h : May lib cfg i k c s)
    (hc : (∃ w, c = .publish w) ∨ ∃ payload n, c = .broadcast payload n)
    (hmade : MadeFor s m i k) : ∃ r, IsRowOf s m r ∧
      (∀ w, c = .publish w → w.signalId = r.id ∧ w.signalUxid = r.signalUxid) ∧
      ∀ payload n, c = .broadcast payload n → payload.signalUxid = r.signalUxid := by
  rcases i with _ | _ | n
  · rcases hmade with ⟨-, rfl⟩ | ⟨hne, -⟩
    · obtain ⟨msg, a, hat, hw | ⟨-, r, hr, hof, -, minted, payload, hmint, hpay, hf⟩⟩ := h
      · rcases hc with ⟨w, rfl⟩ | ⟨payload, n, rfl⟩
        · exact hw.elim
        · exact hw.elim
      · have hrow : IsRowOf s m r := ⟨hr, msg, hat.stored, hof⟩
        have hflight : a.flight.signalId? = some r.id := by
          rcases hc with ⟨w, rfl⟩ | ⟨payload', n, rfl⟩
          · rw [hf.2.1]
            rfl
          · rw [hf.1]
            rfl
        have hagree : payload.signalUxid = r.signalUxid := by
          obtain ⟨m', minted', hm', hmint', hag⟩ := hcyc.flying r.id (hat.activity ▸ hflight)
          rw [hat.activity] at hm' hmint'
          rw [hat.message] at hm'
          rw [hmint] at hmint'
          cases hm'
          cases hmint'
          exact hag r hrow rfl msg payload hat.stored hpay
        refine ⟨r, hrow, ?_, ?_⟩
        · rintro w rfl
          exact ⟨hf.1, hf.2.2.trans hagree⟩
        · rintro payload' n rfl
          exact hf.2.1.trans hagree
    · exact absurd rfl hne
  · rcases hmade with ⟨hi, -⟩ | ⟨-, r, hrow, hflight⟩
    · cases hi
    · obtain hj | ⟨q, hq, -, hf⟩ := h
      · rcases hc with ⟨w, rfl⟩ | ⟨payload, n, rfl⟩
        · exact hj.elim
        · exact hj.elim
      · have hid : q.id = r.id := by
          rcases hc with ⟨w, rfl⟩ | ⟨payload, n, rfl⟩
          · rw [hf.2.1] at hflight
            exact Option.some.inj hflight
          · rw [hf.1] at hflight
            exact Option.some.inj hflight
        rw [Signal.eq_of_id hinv.ids hq hrow.1 hid] at hf
        refine ⟨r, hrow, ?_, ?_⟩
        · rintro w rfl
          exact ⟨hf.1, hf.2.2⟩
        · rintro payload n rfl
          exact hf.2.1
  · rcases hc with ⟨w, rfl⟩ | ⟨payload, n, rfl⟩
    · exact h.elim
    · exact h.elim

/-- In every run in which no fan-out is resumed for an envelope that leaves its
uxid out, a message is one signal. -/
theorem one_signal_unless_resumed_unnamed :
    OneSignal lib cfg fun s l => resumesUnnamed s l = false := by
  intro now settings p m hrun
  refine ⟨?_, ?_⟩
  · intro p' r r' hrun' hr hr'
    exact ids_kept (reaches_good hrun).1 hrun' hr hr'
  · intro i k c x q hstep hmade
    have hrow := fun hc => fanoutCall_row (c := c) (reaches_inv hrun) (reaches_cycles hrun)
      (reaches_step hrun hstep).1 hc hmade
    refine ⟨?_, ?_⟩
    · rintro w rfl
      obtain ⟨r, hr, hids, -⟩ := hrow (.inl ⟨w, rfl⟩)
      exact ⟨r, hr, (hids w rfl).1, (hids w rfl).2⟩
    · rintro payload n rfl
      obtain ⟨r, hr, -, huxid⟩ := hrow (.inr ⟨payload, n, rfl⟩)
      exact ⟨r, hr, huxid payload n rfl⟩

end

/-! ## An alert that leaves its cycle to be minted -/

namespace Sample

def blank : Message := ⟨1, time, envelope "LONG" .null, entry.seq_lt⟩

/-- The worker is about to publish. -/
def publishing (p : Pool Party Context Shared Call Call.Result Fault) : Bool :=
  match (p.threads .worker).2.next? with
  | some (.publish _) => true
  | _ => false

/-- The alert is published and the process dies before the row is marked; the
message comes back, and its parse may draw another uxid. -/
def resumedMoves (msg : Message) : List (Machine.Move Party Choice Event) :=
  [.env (.store msg), .start .worker (.deliver 0)] ++ calls .worker 6 ++
    [.crash .worker, .start .worker (.deliver 0), .call .worker next] ++ calls .worker 4

/-- The worker is about to publish the first message's signal under a cycle its
row does not store. -/
def publishesOtherCycle (p : World) : Bool :=
  (p.threads .worker).1 == some 0 &&
    match (p.threads .worker).2.next?, rowOf p.shared 0 with
    | some (.publish w), some r => decide (w.signalUxid ≠ r.signalUxid)
    | _, _ => false

end Sample

/-- A redelivered alert that names no cycle is published under a second one. -/
theorem not_oneSignal : ¬ OneSignal Sample.lib Sample.cfg fun _ _ => True := by
  intro h
  obtain ⟨p, hrun, hp⟩ := Sample.run_any (Sample.resumedMoves Sample.blank)
    Sample.publishesOtherCycle
    (by decide +kernel)
  simp only [Sample.publishesOtherCycle, Bool.and_eq_true, beq_iff_eq] at hp
  obtain ⟨hctx, hnext⟩ := hp
  split at hnext
  · next w r hw hr =>
      obtain ⟨q, hstep⟩ := step_next (x := Sample.ok) hw
      rw [hctx] at hstep
      obtain ⟨r', hr', -, huxid⟩ :=
        ((h _ _ p 0 hrun).2 _ _ _ _ q hstep (.inl ⟨rfl, rfl⟩)).1 w rfl
      rw [hr'.unique (reaches_inv hrun) ((rowOf_eq_some (reaches_inv hrun)).1 hr)] at huxid
      exact of_decide_eq_true hnext huxid
  · cases hnext

/-- The same with an alert that names its cycle: its fan-out is resumed under the
ids of its row. -/
theorem one_signal_unless_resumed_unnamed_named : ∃ p w q,
    (pipeline Sample.lib Sample.cfg).Reaches (fun s l => resumesUnnamed s l = false)
      (startPool 0 Sample.unset) p ∧ (sends p.shared.trace).length = 1 ∧
    (pipeline Sample.lib Sample.cfg).Step p (.call .worker (some 0) (.publish w) Sample.ok) q ∧
    ∃ r, IsRowOf p.shared 0 r ∧ w.signalId = r.id ∧ w.signalUxid = r.signalUxid := by
  have hany : (((pipeline Sample.lib Sample.cfg).replayIf (fun s l => !resumesUnnamed s l)
      (Sample.resumedMoves Sample.entry) (startPool 0 Sample.unset)).any fun p =>
        (p.threads .worker).1 == some 0 && (sends p.shared.trace).length == 1 &&
          Sample.publishing p) = true := by
    decide +kernel
  simp only [Option.any_eq_true, Bool.and_eq_true, beq_iff_eq] at hany
  obtain ⟨p, hreplay, ⟨hctx, hlen⟩, hnext⟩ := hany
  rw [Sample.publishing] at hnext
  have hrun : (pipeline Sample.lib Sample.cfg).Reaches (fun s l => resumesUnnamed s l = false)
      (startPool 0 Sample.unset) p :=
    (reaches_of_replayIf hreplay).mono fun s l hok => by simpa using hok
  split at hnext
  · next w hw =>
      obtain ⟨q, hstep⟩ := step_next (x := Sample.ok) hw
      rw [hctx] at hstep
      exact ⟨p, w, q, hrun, hlen, hstep,
        ((one_signal_unless_resumed_unnamed _ _ p 0 hrun).2 _ _ _ _ q hstep
          (.inl ⟨rfl, rfl⟩)).1 w rfl⟩
  · cases hnext

end TradingBroker
