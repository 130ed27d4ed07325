import TradingBroker.Handshake.Answer
import TradingBroker.Signals.Stored

/-!
# A signal live and replayed

A worker sees a signal up to twice: on the strategy subject when it is fanned out, and in
`retry_signals` when it reconnects. Live, a FLAT is the directive of `publish_flat` and
everything else the `TradingSignal` of `parse_signal`; replayed, all of them are
`TradingSignal`s, parsed from the row. `TradingSignal` stamps itself when it is built, so
the replay carries the time of the replay. And a price that was no number went out as
`null` but was stored as one, and a missing price is zero.

A payload that is stored and read back is the payload with its numbers as the column has
them (`Reread`, from `Schemas.RoundTrip`), and both messages are built from it by one
function. They can only differ where that function looks at something the store changes,
or at the clock: the action FLAT, the timestamp, and the numbers a missing price and one
that was no number turn into. `ReplayMatches` is decided by these, for every payload that
was accepted and every row that was made of it.
-/

namespace TradingBroker

open TradingBroker.Lib

/-- What `_fanout` publishes for a row. -/
def liveMessage (lib : Libraries) (payload : WebhookPayload) (signalId : RowId) (now : Int) :
    Option WorkerMessage :=
  if payload.position.action = .flat then some (.flat (flatDirective lib payload signalId))
  else (parseSignal lib payload signalId now).map .signal

/-- What `_build_retry_signals` makes of a row. -/
def replayedSignal (lib : Libraries) (raw : JsonObject) (signalId : RowId) (minted : Uxid)
    (now : Int) : Option TradingSignal :=
  (WebhookPayload.validate lib.coerce raw minted).bind fun payload =>
    parseSignal lib payload signalId now

/-! ## On the wire -/

/-- A field of a message: a row's id, the text of an instant in UTC, or JSON. -/
inductive WireValue where
  | id (n : RowId)
  | instant (t : Int)
  | json (v : Json)

/-- `model_dump_json()`, field by field. -/
def TradingSignal.wire (s : TradingSignal) : List (String × WireValue) :=
  [("signal_id", .id s.signalId),
    ("signal_uxid", .json (.str s.signalUxid.1)),
    ("timestamp", .instant s.timestamp),
    ("strategy", .json (dumpStr s.strategy)),
    ("action", .json (dumpStr s.action.value)),
    ("symbol", .json (dumpStr s.symbol)),
    ("price", .json s.price.dump),
    ("quantity", .json s.quantity.dump),
    ("sl", .json (dumpOpt PyFloat.dump s.sl)),
    ("tp1", .json (dumpOpt PyFloat.dump s.tp1)),
    ("tp2", .json (dumpOpt PyFloat.dump s.tp2)),
    ("tp1_percent", .json (dumpOpt PyFloat.dump s.tp1Percent)),
    ("move_sl_to_be", .json (dumpOpt Json.bool s.moveSlToBe)),
    ("is_running", .json (dumpOpt Json.bool s.isRunning)),
    ("risk_percent", .json (dumpOpt PyFloat.dump s.riskPercent)),
    ("use_equity_sizing", .json (dumpOpt Json.bool s.useEquitySizing)),
    ("is_scale_position", .json (dumpOpt Json.bool s.isScalePosition)),
    ("scale_strategy", .json (dumpOpt dumpStr s.scaleStrategy)),
    ("scaling", .json (dumpOpt ScalingSchema.dump s.scaling))]

/-- The object `publish_flat` dumps. -/
def FlatDirective.wire (d : FlatDirective) : List (String × WireValue) :=
  [("signal_id", .id d.signalId),
    ("signal_uxid", .json (.str d.signalUxid.1)),
    ("strategy", .json (dumpStr d.strategy)),
    ("timestamp", .json (dumpStr d.timestamp)),
    ("action", .json (dumpStr d.action.value)),
    ("symbol", .json (dumpStr d.symbol))]

def WorkerMessage.wire : WorkerMessage → List (String × WireValue)
  | .signal s => s.wire
  | .flat d => d.wire

/-- No price, size or risk went out as `null`. -/
def WebhookPayload.Numeric (p : WebhookPayload) : Prop :=
  (PyFloat.orZero p.position.price).isFinite = true ∧
    (PyFloat.orZero p.position.quantity).isFinite = true ∧
    p.effectiveRiskPercent.isFinite = true

/-! ## The two paths -/

section
variable {lib : Libraries}

/-- The fan-out's publish is `liveMessage` at the time it reads. -/
theorem fanout_publishes {payload : WebhookPayload} {signalId : RowId} :
    (if payload.position.action = .flat then publishFlat lib payload signalId
      else publishSignal lib payload signalId) =
      if payload.position.action = .flat then
        .call (.publish (.flat (flatDirective lib payload signalId))) .ofExcept
      else .call .utcnow fun now =>
        match liveMessage lib payload signalId now with
        | none => .raise .signalParse
        | some m => .call (.publish m) .ofExcept := by
  split
  · rfl
  · next h =>
      refine congrArg (Coro.call Call.utcnow) (funext fun now => ?_)
      rw [liveMessage, if_neg h]
      cases parseSignal lib payload signalId now <;> rfl

/-- Every signal of the replay is some envelope's, parsed when the loop came to it. -/
theorem replay_signals (cfg : Handshake.Config) (envelopes : List (RowId × Json))
    (w : Handshake.World) {signals : List TradingSignal}
    (h : ((Handshake.replay cfg envelopes).run Handshake.exec w).1 = .ok signals) :
    ∀ s ∈ signals, ∃ signalId raw minted now, (signalId, .obj raw) ∈ envelopes ∧
      replayedSignal cfg.lib raw signalId minted now = some s := by
  induction envelopes generalizing w signals with
  | nil =>
      have hnil : signals = [] := (Except.ok.inj h).symm
      rw [hnil]
      intro s hs
      exact absurd hs List.not_mem_nil
  | cons envelope envelopes ih =>
      obtain ⟨signalId, raw⟩ := envelope
      have hrest : ∀ {w signals},
          ((Handshake.replay cfg envelopes).run Handshake.exec w).1 = .ok signals →
          ∀ s ∈ signals, ∃ id raw' minted now, (id, .obj raw') ∈ (signalId, raw) :: envelopes ∧
            replayedSignal cfg.lib raw' id minted now = some s := by
        intro w signals h s hs
        obtain ⟨id, raw', minted, now, hmem, hparsed⟩ := ih w h s hs
        exact ⟨id, raw', minted, now, List.mem_cons_of_mem _ hmem, hparsed⟩
      cases raw with
      | obj raw =>
          rw [Handshake.replay, Coro.run] at h
          cases hvalid : WebhookPayload.validate cfg.lib.coerce raw
              (Handshake.exec .newUxid w).1 with
          | none =>
              rw [hvalid] at h
              exact hrest h
          | some payload =>
              rw [hvalid] at h
              simp only [Coro.run] at h
              cases hparse : parseSignal cfg.lib payload signalId
                  (Handshake.exec .utcnow (Handshake.exec .newUxid w).2).1 with
              | none =>
                  rw [hparse] at h
                  exact hrest h
              | some signal =>
                  rw [hparse] at h
                  simp only [Coro.run_bind] at h
                  split at h
                  · next rest w' hrun =>
                      cases h
                      intro s hs
                      rcases List.mem_cons.1 hs with rfl | hs
                      · refine ⟨signalId, raw, (Handshake.exec .newUxid w).1,
                          (Handshake.exec .utcnow (Handshake.exec .newUxid w).2).1,
                          List.mem_cons_self, ?_⟩
                        rw [replayedSignal, hvalid]
                        exact hparse
                      · exact hrest (by rw [hrun]) s hs
                  · cases h
      | _ => exact hrest h

/-! ## What the store changes -/

/-- `r` is `q` as `parse_signal` reads it after a store. -/
structure Reread (q r : WebhookPayload) : Prop where
  strategy : r.strategy = q.strategy
  symbol : r.symbol = q.symbol
  signalUxid : r.signalUxid = q.signalUxid
  position : r.position = q.position.stored
  riskPercent : r.inputs.bind InputsSchema.riskPercent =
    finiteOnly (q.inputs.bind InputsSchema.riskPercent)

theorem finiteOnly_finiteOnly (x : Option PyFloat) :
    finiteOnly (finiteOnly x) = finiteOnly x := by
  rw [finiteOnly, finiteOnly, Option.filter_filter]
  simp only [Bool.and_self]

theorem stored_stored (p : PositionSchema) : p.stored.stored = p.stored := by
  have hscaling : (p.scaling.map ScalingSchema.stored).map ScalingSchema.stored =
      p.scaling.map ScalingSchema.stored := by
    cases p.scaling with
    | none => rfl
    | some s => simp only [Option.map_some, ScalingSchema.stored, finiteOnly_finiteOnly]
  simp only [PositionSchema.stored, finiteOnly_finiteOnly, hscaling]

theorem reread_of_restored {ofInt : Int → Option Rat} {m : Store} {p r : WebhookPayload}
    (h : p.Restored ofInt m r) : Reread p r := by
  have hfields := h.fields
  have hstrategy := congrArg (fun p => p.strategy) hfields
  have hsymbol := congrArg (fun p => p.symbol) hfields
  have huxid := congrArg (fun p => p.signalUxid) hfields
  have hposition := congrArg (fun p => p.position) hfields
  have hrisk : ∀ {x y : Option InputsSchema}, Option.Rel (InputsSchema.Restored ofInt m) x y →
      y.bind InputsSchema.riskPercent = finiteOnly (x.bind InputsSchema.riskPercent) := by
    intro x y hxy
    cases hxy with
    | none => rfl
    | some hvw => exact congrArg InputsSchema.riskPercent hvw.fields
  exact ⟨hstrategy, hsymbol, huxid, hposition, hrisk h.inputs⟩

/-- Once stored, a payload is read again as it is. -/
theorem Reread.again {p q r : WebhookPayload} (hq : Reread p q) (hr : Reread p r) :
    Reread q r where
  strategy := hr.strategy.trans hq.strategy.symm
  symbol := hr.symbol.trans hq.symbol.symm
  signalUxid := hr.signalUxid.trans hq.signalUxid.symm
  position := by rw [hr.position, hq.position, stored_stored]
  riskPercent := by rw [hr.riskPercent, hq.riskPercent, finiteOnly_finiteOnly]

/-! ## What the wire shows -/

theorem dump_finiteOnly (x : Option PyFloat) :
    dumpOpt PyFloat.dump (finiteOnly x) = dumpOpt PyFloat.dump x := by
  cases x with
  | none => rfl
  | some x => cases x <;> rfl

theorem dump_stored (s : ScalingSchema) : s.stored.dump = s.dump := by
  simp only [ScalingSchema.dump, ScalingSchema.stored, dump_finiteOnly]

/-- A number is stored, and sent, as it is; what is not one was sent as `null` and is a
zero when it is read again. -/
theorem dump_orZero_iff (x : Option PyFloat) :
    (PyFloat.orZero (finiteOnly x)).dump = (PyFloat.orZero x).dump ↔
      (PyFloat.orZero x).isFinite = true := by
  cases x with
  | none => exact iff_of_true rfl rfl
  | some x =>
      cases x with
      | finite q => exact iff_of_true rfl rfl
      | _ => exact iff_of_false nofun nofun

theorem dump_effectiveRiskPercent_iff {q r : WebhookPayload} (h : Reread q r) :
    r.effectiveRiskPercent.dump = q.effectiveRiskPercent.dump ↔
      q.effectiveRiskPercent.isFinite = true := by
  have hposition : r.position.riskPercent = finiteOnly q.position.riskPercent := by
    rw [h.position]
    rfl
  rw [WebhookBody.effectiveRiskPercent, WebhookBody.effectiveRiskPercent, hposition,
    h.riskPercent]
  -- the position's own risk decides if it has one, and a NaN counts as one until it is stored
  cases q.position.riskPercent with
  | none =>
      cases q.inputs.bind InputsSchema.riskPercent with
      | none => exact iff_of_true rfl rfl
      | some y =>
          cases y with
          | finite _ => exact iff_of_true rfl rfl
          | _ => exact iff_of_false nofun nofun
  | some x =>
      cases x with
      | finite _ => exact iff_of_true rfl rfl
      | _ =>
          refine iff_of_false ?_ nofun
          cases q.inputs.bind InputsSchema.riskPercent with
          | none => exact nofun
          | some y => cases y <;> exact nofun

/-- A signal is on the wire as it was, at the same instant, and only then, if its numbers
are numbers. -/
theorem wire_reread_iff (lib : Libraries) {q r : WebhookPayload} (h : Reread q r)
    (signalId : RowId) (now now' : Int) :
    (tradingSignal lib r signalId now').wire = (tradingSignal lib q signalId now).wire ↔
      now' = now ∧ q.Numeric := by
  have hprice : (tradingSignal lib r signalId now').price =
      PyFloat.orZero (finiteOnly q.position.price) := by
    rw [tradingSignal, h.position]
    rfl
  have hquantity : (tradingSignal lib r signalId now').quantity =
      PyFloat.orZero (finiteOnly q.position.quantity) := by
    rw [tradingSignal, h.position]
    rfl
  constructor
  · intro heq
    have field : ∀ i : Nat, (tradingSignal lib r signalId now').wire[i]? =
        (tradingSignal lib q signalId now).wire[i]? := fun i => by rw [heq]
    have hnow := WireValue.instant.inj (Prod.mk.inj (Option.some.inj (field 2))).2
    have hp := WireValue.json.inj (Prod.mk.inj (Option.some.inj (field 6))).2
    have hq := WireValue.json.inj (Prod.mk.inj (Option.some.inj (field 7))).2
    have hr := WireValue.json.inj (Prod.mk.inj (Option.some.inj (field 14))).2
    rw [hprice] at hp
    rw [hquantity] at hq
    exact ⟨hnow, (dump_orZero_iff _).1 hp, (dump_orZero_iff _).1 hq,
      (dump_effectiveRiskPercent_iff h).1 hr⟩
  · rintro ⟨rfl, hp, hq, hr⟩
    have hscaling : dumpOpt ScalingSchema.dump
        (if q.position.isScalePosition = some true then
          q.position.scaling.map ScalingSchema.stored else none) =
        dumpOpt ScalingSchema.dump
          (if q.position.isScalePosition = some true then q.position.scaling else none) := by
      split
      · cases q.position.scaling with
        | none => rfl
        | some s => exact dump_stored s
      · rfl
    have hrisk : dumpOpt PyFloat.dump (some r.effectiveRiskPercent) =
        dumpOpt PyFloat.dump (some q.effectiveRiskPercent) :=
      (dump_effectiveRiskPercent_iff h).2 hr
    simp only [TradingSignal.wire, tradingSignal, h.strategy, h.symbol, h.signalUxid,
      h.position, PositionSchema.stored, dump_finiteOnly, (dump_orZero_iff _).2 hp,
      (dump_orZero_iff _).2 hq, hscaling, hrisk]

/-- A directive and a signal have not the same fields. -/
theorem wire_flat_ne (s : TradingSignal) (d : FlatDirective) : s.wire ≠ d.wire := by
  intro h
  have hlen := congrArg List.length h
  simp [TradingSignal.wire, FlatDirective.wire] at hlen

end

/-! ## The replay and the live message -/

/-- A worker that reconnects receives for the row what was published for it. -/
def ReplayMatches (lib : Libraries) (raw : JsonObject) (signalId : RowId) (minted : Uxid)
    (now' : Int) (m : WorkerMessage) : Prop :=
  ∃ s, replayedSignal lib raw signalId minted now' = some s ∧ s.wire = m.wire

/-- The payload a row was made of, and those the retry job rebuilds from it. -/
def FannedOut (co : LaxReads) (p : WebhookPayload) (raw : JsonObject) (q : WebhookPayload) :
    Prop :=
  q = p ∨ ∃ minted, WebhookPayload.parse co raw minted = some q

section
variable {co : LaxReads} {lib : Libraries}

theorem reread_of_fannedOut {p q r : WebhookPayload} {raw : JsonObject} {minted : Uxid}
    (hp : p.Sound co) (hraw : Json.Kept co.ofInt .column (.obj p.dump) (.obj raw))
    (hq : FannedOut co p raw q) (hr : WebhookPayload.parse co raw minted = some r) :
    Reread q r := by
  have hreread : ∀ {m r}, WebhookPayload.parse co raw m = some r → Reread p r := by
    intro m r hr
    obtain ⟨r', hr', hres⟩ := parse_kept hp hraw m
    rw [hr', Option.some.injEq] at hr
    exact hr ▸ reread_of_restored hres
  rcases hq with rfl | ⟨m, hq⟩
  · exact hreread hr
  · exact (hreread hq).again (hreread hr)

/-- The replay of a row is the live message exactly when that was a signal, and is parsed
at the instant the live one was, and all its numbers are numbers. `hwire`: what
`TradingSignal` makes of two signals that read the same on the wire is the same. -/
theorem replay_matches_iff (hlib : lib.coerce = WebhookBody.ofFields co)
    (hdate : ∀ v t, co.datetime v = some t → co.datetime (.str t.jsonText) = some t)
    (hwire : ∀ s s' : TradingSignal, s.wire = s'.wire → lib.accepts s = lib.accepts s')
    {received : JsonObject} {minted minted' : Uxid} {p q : WebhookPayload} {raw : JsonObject}
    (haccepted : WebhookPayload.parse co received minted = some p)
    (hraw : Json.Kept co.ofInt .column (.obj p.dump) (.obj raw)) (hq : FannedOut co p raw q)
    {signalId : RowId} {now now' : Int} {m : WorkerMessage}
    (hlive : liveMessage lib q signalId now = some m) :
    ReplayMatches lib raw signalId minted' now' m ↔
      q.position.action ≠ .flat ∧ now' = now ∧ q.Numeric := by
  have hp := sound_of_parse hdate haccepted
  obtain ⟨r, hr, -⟩ := parse_kept hp hraw minted'
  have hreread := reread_of_fannedOut hp hraw hq hr
  have hreplayed : replayedSignal lib raw signalId minted' now' =
      parseSignal lib r signalId now' := by
    rw [replayedSignal, hlib]
    show (WebhookPayload.parse co raw minted').bind _ = _
    rw [hr, Option.bind_some]
  rw [ReplayMatches, hreplayed]
  rw [liveMessage] at hlive
  split at hlive
  · next hflat =>
      cases hlive
      refine iff_of_false ?_ fun h => h.1 hflat
      rintro ⟨s, -, hs⟩
      exact wire_flat_ne s _ hs
  · next hflat =>
      obtain ⟨live, hparsed, rfl⟩ := Option.map_eq_some_iff.1 hlive
      have haccepts : lib.accepts (tradingSignal lib q signalId now) = true := by
        rw [parseSignal] at hparsed
        split at hparsed
        · next h => exact h
        · cases hparsed
      rw [parseSignal, if_pos haccepts, Option.some.injEq] at hparsed
      subst hparsed
      constructor
      · rintro ⟨s, hs, hsame⟩
        rw [parseSignal] at hs
        split at hs
        · cases hs
          exact ⟨hflat, (wire_reread_iff lib hreread signalId now now').1 hsame⟩
        · cases hs
      · rintro ⟨-, hrest⟩
        have hsame := (wire_reread_iff lib hreread signalId now now').2 hrest
        refine ⟨_, ?_, hsame⟩
        rw [parseSignal, if_pos ((hwire _ _ hsame).trans haccepts)]

end

/-- Whatever was published comes back the same, for every payload, in whatever way it
was fanned out. -/
def ReplayEqualsLive (co : LaxReads) (lib : Libraries) : Prop :=
  ∀ (received : JsonObject) (minted minted' : Uxid) (p q : WebhookPayload) (raw : JsonObject)
    (signalId : RowId) (now now' : Int) (m : WorkerMessage),
    WebhookPayload.parse co received minted = some p →
      Json.Kept co.ofInt .column (.obj p.dump) (.obj raw) → FannedOut co p raw q →
        liveMessage lib q signalId now = some m → ReplayMatches lib raw signalId minted' now' m

namespace Spelling

def lib : Libraries where
  coerce := WebhookBody.ofFields co
  upper := id
  accepts _ := true
  maxNesting := 200

theorem accepted_bare : WebhookPayload.parse co (raw []) uxid = some (payload []) := rfl

/-- A LONG of row 7 goes out at `now`. -/
def live (now : Int) : TradingSignal := tradingSignal lib (payload []) 7 now

theorem live_now (now : Int) :
    liveMessage lib (payload []) 7 now = some (.signal (live now)) := rfl

theorem replayed_now (now : Int) :
    replayedSignal lib (payload []).dump 7 uxid now = some (live now) := rfl

end Spelling

/-- A worker that reconnects sees the time of its own handshake. -/
theorem not_replayEqualsLive : ¬ ReplayEqualsLive Spelling.co Spelling.lib := by
  intro h
  obtain ⟨s, hs, hsame⟩ := h _ Spelling.uxid Spelling.uxid _ _ _ 7 63915992100000000
    63915992130000000 _ Spelling.accepted_bare (.same _) (.inl rfl) (Spelling.live_now _)
  rw [Spelling.replayed_now, Option.some.injEq] at hs
  subst hs
  have hfield := congrArg (fun fields : List (String × WireValue) => fields[2]?) hsame
  have hnow := WireValue.instant.inj (Prod.mk.inj (Option.some.inj hfield)).2
  exact absurd hnow (by decide)

theorem replay_matches_at_once :
    ReplayMatches Spelling.lib (Spelling.payload []).dump 7 Spelling.uxid 63915992100000000
      (.signal (Spelling.live 63915992100000000)) :=
  (replay_matches_iff rfl Spelling.date_again (fun _ _ _ => rfl) Spelling.accepted_bare (.same _)
    (.inl rfl) (Spelling.live_now _)).2 ⟨by decide, rfl, rfl, rfl, rfl⟩

end TradingBroker
