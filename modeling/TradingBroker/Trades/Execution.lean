import Mathlib.Data.List.Induction
import TradingBroker.Trades.Lifecycle
import TradingBroker.Trades.System

/-!
# The worker's row on the cycle

A report that is persisted goes to two tables: the trade's row, which ignores it if
it would be a downgrade, and the worker's row on the broadcast, which takes whatever
differs from what it shows. The two agree as long as the reports come in the order
of the lifecycle and part with the first that does not (`tables_agree_iff`).

The trade's row is that of the greatest rank so far, whatever the order (`Follows`),
and the worker's row on the cycle shows the report that came last. So they agree
after a report exactly if that report has the greatest rank of all so far, and after
every one exactly if the ranks never fall. `InStep` carries what both tables hold
from report to report, and with it that no report creates or loses the cycle it
belongs to. Where the key of the position is cut by its columns there is no row of
the position to agree with, from the first report on.
-/

namespace TradingBroker.Trades

open TradingBroker.Lib TradingBroker.TradeStatusPolicy
open TradingBroker.Broadcast (Execution Cycle BroadcastWorker Change)

/-! ## What is recorded on the cycle -/

theorem find?_upsert {workers : List BroadcastWorker} {v : BroadcastWorker} :
    (Change.upsert workers v).find? (fun u => u.workerId == v.workerId) = some v := by
  have hself : (fun u : BroadcastWorker => u.workerId == v.workerId) v = true :=
    beq_self_eq_true v.workerId
  unfold Change.upsert
  split
  · next hany =>
      induction workers with
      | nil => cases hany
      | cons u workers ih =>
        by_cases hu : u.workerId = v.workerId
        · rw [List.map_cons, if_pos hu]
          exact List.find?_cons_of_pos hself
        · have hany' : (workers.any fun u => u.workerId == v.workerId) = true := by
            simpa [hu] using hany
          rw [List.map_cons, if_neg hu, List.find?_cons_of_neg (by simpa using hu)]
          exact ih hany'
  · next hnone =>
      have hnot : workers.find? (fun u => u.workerId == v.workerId) = none := by
        rw [List.find?_eq_none]
        simpa using hnone
      rw [List.find?_append, hnot, Option.none_or]
      exact List.find?_cons_of_pos hself

/-- Afterwards the worker's row shows the execution, whether that was news or not. -/
theorem worker?_recordExecution (c : Cycle) (x : Execution) (now : Int) :
    ∃ v, (c.recordExecution x now).worker? x.workerId = some v ∧
      v.latestStatus = x.latestStatus := by
  unfold Cycle.recordExecution
  split
  · next hsame =>
      obtain ⟨v, hv, hunchanged⟩ := (Option.any_eq_true _ _).1 hsame
      refine ⟨v, hv, ?_⟩
      exact eq_of_beq (Bool.and_eq_true_iff.1 hunchanged).1
  · have hid : (x.worker now (c.worker? x.workerId)).workerId = x.workerId := by
      cases hw : c.worker? x.workerId with
      | none => rfl
      | some w =>
        have hfound := List.find?_some hw
        exact eq_of_beq hfound
    refine ⟨x.worker now (c.worker? x.workerId), ?_, ?_⟩
    · show (Change.upsert c.workers (x.worker now (c.worker? x.workerId))).find? _ = _
      have hfind := @find?_upsert c.workers (x.worker now (c.worker? x.workerId))
      rw [hid] at hfind
      exact hfind
    · cases c.worker? x.workerId <;> rfl

def workerIdOf (p : Position) : String :=
  composeWorkerId p.market (p.gateway.getD "") p.accountId

/-- The gateway a report names, or else the one its trade's row has. -/
theorem execution_workerId {e : PositionEvent} {row : Trade} {status : TradeStatus}
    (h : row.isOf (position e) = true) :
    (execution e (some row) status).workerId = workerIdOf (position e) := by
  have hgateway : row.gateway = e.gateway ∨ row.gateway = none := by
    simp only [Trade.isOf, position, Bool.and_eq_true, Bool.or_eq_true, beq_iff_eq,
      Option.isNone_iff_eq_none] at h
    exact h.2
  have hsame : (gatewayOf e (some row)).getD "" = e.gateway.getD "" := by
    unfold gatewayOf
    cases he : e.gateway with
    | none =>
      rw [he] at hgateway
      rcases hgateway with hrow | hrow <;> simp [hrow]
    | some gateway =>
      rw [he] at hgateway
      by_cases hempty : gateway = ""
      · rcases hgateway with hrow | hrow <;> simp [hrow, hempty]
      · simp [hempty]
  show composeWorkerId e.market ((gatewayOf e (some row)).getD "") e.accountId = _
  rw [hsame]
  rfl

/-! ## Reports that are persisted -/

/-- A message that is a report of the position, of a known status and with the id of a signal
of the cycle, and what its calls draw. -/
structure Report (schema : Schema) (signals : String → Option SignalRow) (p : Position)
    (key : CycleKey) where
  data : MessageData
  draw : Draw
  event : PositionEvent
  status : TradeStatus
  parses : parseReport schema data = some event
  known : toTradeStatus event.status = some status
  of : position event = p
  names : ∃ signalId, event.signalId = some signalId ∧ signalId ≠ "" ∧
    signals signalId = some ⟨key.symbol, key.strategy, some key.signalUxid⟩

/-- The broadcast records executions. -/
def Config.Records (cfg : Config) : Prop :=
  cfg.hasBroadcast = true ∧ cfg.telegramEnabled = true ∧ cfg.hasSignals = true

section
variable {schema : Schema} {signals : String → Option SignalRow} {p : Position} {key : CycleKey}
  (cfg : Config)

/-- The handler gets the message, and every call it makes succeeds. -/
def Report.receive (w : World) (r : Report schema signals p key) :
    Except Fault TradeOutcome × World :=
  (handleSubjectTrade cfg schema r.data).run (perform ⟨0, r.data, 1⟩ ⟨.ok, r.draw⟩) w

/-- The tables after the reports, one after the other. -/
def after (w : World) (rs : List (Report schema signals p key)) : World :=
  rs.foldl (fun w r => (r.receive cfg w).2) w

/-- Every report is persisted. -/
def Persists : World → List (Report schema signals p key) → Prop
  | _, [] => True
  | w, r :: rs => (r.receive cfg w).1 = .ok .persisted ∧ Persists (r.receive cfg w).2 rs

end

/-- The worker's row on the cycle shows the status of the trade. -/
def Agrees (p : Position) (key : CycleKey) (w : World) : Prop :=
  ∃ row c v, w.store.trades.filter (Trade.isOf p) = [row] ∧ w.cycles key = some c ∧
    c.worker? (workerIdOf p) = some v ∧ v.latestStatus = row.status

section
variable {schema : Schema} {signals : String → Option SignalRow} {p : Position} {key : CycleKey}
  {cfg : Config} {w : World} {r : Report schema signals p key}
  {rs : List (Report schema signals p key)}

theorem handle_report : handleSubjectTrade cfg schema r.data = applyReport cfg r.event := by
  have hparses := r.parses
  unfold handleSubjectTrade
  cases hdata : r.data with
  | json envelope =>
    rw [hdata] at hparses
    simp only [hparses]
  | malformed =>
    rw [hdata] at hparses
    cases hparses
  | unreadable =>
    rw [hdata] at hparses
    cases hparses

theorem recordExecution_report {e : PositionEvent} {signalId : String} {status : TradeStatus}
    (hcfg : cfg.Records) (hid : e.signalId = some signalId) (hne : signalId ≠ "")
    (hstatus : toTradeStatus e.status = some status) (trade : Option Trade) :
    recordExecution cfg e trade =
      .call (.getById signalId) fun
        | some ⟨symbol, strategy, some signalUxid⟩ =>
            .call (.recordWorkerExecution ⟨symbol, strategy, signalUxid⟩
              (execution e trade status)) fun _ => pure ()
        | _ => pure () := by
  obtain ⟨-, htelegram, hhas⟩ := hcfg
  unfold recordExecution
  simp only [htelegram, hhas, hid, hstatus, Bool.and_self, Bool.not_true, if_neg hne]
  rfl

/-- The world after an execution is recorded on a cycle. -/
def World.record (w : World) (key : CycleKey) (x : Execution) (now : Int) : World :=
  { w with
    cycles := Function.update w.cycles key ((w.cycles key).map fun c => c.recordExecution x now) }

/-- What the fan-out leaves: the execution, on the cycle of the report. -/
theorem run_fanOut (hcfg : cfg.Records) (hsignals : w.signals = signals) (trade : Option Trade)
    (k : Delivery) :
    (fanOut cfg r.event trade).run (perform k ⟨.ok, r.draw⟩) w =
      (.ok (), w.record key (execution r.event trade r.status) r.draw.now) := by
  obtain ⟨signalId, hid, hne, hrow⟩ := r.names
  rw [← hsignals] at hrow
  have hrecord : (recordExecution cfg r.event trade).run (perform k ⟨.ok, r.draw⟩) w =
      (.ok (), w.record key (execution r.event trade r.status) r.draw.now) := by
    rw [recordExecution_report hcfg hid hne r.known, Coro.run]
    have hfound : perform k ⟨.ok, r.draw⟩ (.getById signalId) w =
        (some ⟨key.symbol, key.strategy, some key.signalUxid⟩, w) := by
      simp only [perform, answer, effect, write, hrow, if_true, reduceCtorEq, if_false]
    rw [hfound]
    rfl
  have hcard : (updateCard cfg r.event trade).run (perform k ⟨.ok, r.draw⟩) w = (.ok (), w) := by
    unfold updateCard
    split <;> rfl
  unfold fanOut
  rw [Coro.run_bind, hcard]
  dsimp only
  unfold updateCycle
  rw [if_pos hcfg.1, Coro.run_bind, Coro.run_attempt, hrecord]
  rfl

/-- A report that is persisted is written to the trade and recorded on the cycle. -/
theorem receive_persisted (hcfg : cfg.Records) (hsignals : w.signals = signals)
    (h : (r.receive cfg w).1 = .ok .persisted) :
    ∃ trade s, upsertByPositionEvent r.event r.draw w.store = some (trade, s) ∧
      (r.receive cfg w).2 =
        World.record { w with store := s } key (execution r.event trade r.status) r.draw.now := by
  unfold Report.receive at h ⊢
  rw [handle_report] at h ⊢
  unfold applyReport at h ⊢
  rw [Coro.run] at h ⊢
  cases hupsert : upsertByPositionEvent r.event r.draw w.store with
  | none =>
    have hraised : perform ⟨0, r.data, 1⟩ ⟨.ok, r.draw⟩ (.upsertByPositionEvent r.event) w =
        (.error .unavailable, w) := by
      simp only [perform, answer, effect, write, hupsert, reduceCtorEq, if_false]
    rw [hraised] at h
    cases h
  | some result =>
    obtain ⟨trade, s⟩ := result
    have hdone : perform ⟨0, r.data, 1⟩ ⟨.ok, r.draw⟩ (.upsertByPositionEvent r.event) w =
        (.ok trade, { w with store := s }) := by
      simp only [perform, answer, effect, write, hupsert, reduceCtorEq, if_true, if_false]
    refine ⟨trade, s, rfl, ?_⟩
    rw [hdone]
    dsimp only
    rw [Coro.run_bind, run_fanOut (w := { w with store := s }) hcfg hsignals]
    rfl

/-! ## Report after report -/

/-- The reports handled so far, and where the trade and the cycle stand after them: the
invariant of the run. -/
structure InStep (p : Position) (key : CycleKey) (signals : String → Option SignalRow)
    (es : List PositionEvent) (w : World) : Prop where
  signals : w.signals = signals
  cycle : (w.cycles key).isSome = true
  follows : Follows p es w.store

/-- The trade after one more report has the status of the report exactly if no earlier one
has a greater rank. -/
theorem status_after {es : List PositionEvent} {s s' : Store} {e : PositionEvent} {x : Draw}
    {status : TradeStatus} {answer : Option Trade} (hkey : (position e).stored = position e)
    (h : Follows (position e) es s)
    (hstatus : toTradeStatus e.status = some status)
    (hupsert : upsertByPositionEvent e x s = some (answer, s')) :
    ∃ row, answer = some row ∧ row.isOf (position e) = true ∧
      s'.trades.filter (Trade.isOf (position e)) = [row] ∧
      (row.status = status ↔
        ∀ e' ∈ es, ∀ status', toTradeStatus e'.status = some status' →
          rank status' ≤ rank status) := by
  rcases h with ⟨rfl, hnone⟩ | ⟨old, hold, -⟩
  · obtain ⟨row, hanswer, hrow, honly⟩ := upsert_first hkey hstatus hnone hupsert
    exact ⟨row, hanswer, (mem_of_only honly).2, honly,
      fun _ e' he' => absurd he' List.not_mem_nil, fun _ => (ofEvent_stored hrow).2.1⟩
  · rcases upsert_row hkey hstatus hold.only hupsert with ⟨hlt, hanswer, htrades⟩ |
      ⟨hle, hanswer, honly⟩
    · have honly : s'.trades.filter (Trade.isOf (position e)) = [old] := by
        rw [htrades]
        exact hold.only
      refine ⟨old, hanswer, (mem_of_only honly).2, honly, fun hst => ?_, fun hall => ?_⟩
      · rw [hst] at hlt
        omega
      · obtain ⟨e₀, he₀, hst₀⟩ := hold.reported
        have := hall e₀ he₀ _ hst₀
        omega
    · refine ⟨_, hanswer, (mem_of_only honly).2, honly, fun _ e' he' status' hstatus' => ?_,
        fun _ => rfl⟩
      exact le_trans (hold.greatest e' he' status' hstatus') hle

theorem InStep.receive {es : List PositionEvent} (hcfg : cfg.Records) (hkey : p.stored = p)
    (h : InStep p key signals es w) (hr : (r.receive cfg w).1 = .ok .persisted) :
    InStep p key signals (es ++ [r.event]) (r.receive cfg w).2 ∧
      (Agrees p key (r.receive cfg w).2 ↔
        ∀ e ∈ es, ∀ status, toTradeStatus e.status = some status →
          rank status ≤ rank r.status) := by
  obtain ⟨trade, s, hupsert, hw⟩ := receive_persisted hcfg h.signals hr
  obtain ⟨c, hc⟩ := Option.isSome_iff_exists.1 h.cycle
  have hreports : Reports p r.event := ⟨r.of, by rw [r.known]; rfl⟩
  have hfollows : Follows (position r.event) es w.store := by
    rw [r.of]
    exact h.follows
  have hstored : (position r.event).stored = position r.event := by
    rw [r.of]
    exact hkey
  obtain ⟨row, rfl, hof, honly, hiff⟩ := status_after hstored hfollows r.known hupsert
  -- the cycle shows the report
  have hworker : (execution r.event (some row) r.status).workerId = workerIdOf p := by
    rw [execution_workerId hof, r.of]
  obtain ⟨v, hv, hlatest⟩ := worker?_recordExecution c (execution r.event (some row) r.status)
    r.draw.now
  rw [hworker] at hv
  have hcycle : (r.receive cfg w).2.cycles key =
      some (c.recordExecution (execution r.event (some row) r.status) r.draw.now) := by
    rw [hw]
    show Function.update w.cycles key _ key = _
    rw [Function.update_self, hc]
    rfl
  rw [r.of] at honly
  have htrades : (r.receive cfg w).2.store.trades.filter (Trade.isOf p) = [row] := by
    rw [hw]
    exact honly
  refine ⟨⟨?_, ?_, ?_⟩, Iff.trans ⟨?_, fun hst => ?_⟩ hiff⟩
  · rw [hw]
    exact h.signals
  · rw [hcycle]
    rfl
  · rw [hw]
    exact h.follows.upsert hkey hreports hupsert
  · rintro ⟨row', c', v', hrow', hc', hv', hagree⟩
    rw [htrades] at hrow'
    rw [hcycle] at hc'
    cases hrow'
    cases hc'
    rw [hv] at hv'
    cases hv'
    rw [← hagree, hlatest]
    rfl
  · exact ⟨row, _, v, htrades, hcycle, hv, by rw [hlatest, hst]; rfl⟩

theorem after_concat : after cfg w (rs ++ [r]) = (r.receive cfg (after cfg w rs)).2 :=
  List.foldl_concat ..

theorem persists_concat : ∀ {w : World}, Persists cfg w (rs ++ [r]) ↔
    Persists cfg w rs ∧ (r.receive cfg (after cfg w rs)).1 = .ok .persisted := by
  induction rs with
  | nil => exact fun {w} => ⟨fun h => ⟨trivial, h.1⟩, fun h => ⟨h.2, trivial⟩⟩
  | cons r' rs ih => exact fun {w} => (and_congr_right fun _ => ih).trans and_assoc.symm

theorem inStep_after (hcfg : cfg.Records) (hkey : p.stored = p) (h : InStep p key w.signals [] w)
    (rs : List (Report schema w.signals p key)) (hok : Persists cfg w rs) :
    InStep p key w.signals (rs.map Report.event) (after cfg w rs) := by
  induction rs using List.reverseRecOn with
  | nil => exact h
  | append_singleton rs r ih =>
    obtain ⟨hrs, hr⟩ := persists_concat.1 hok
    rw [after_concat, List.map_append]
    exact ((ih hrs).receive hcfg hkey hr).1

/-- Of a position whose key is not cut. -/
theorem agree_iff_of_uncut (hcfg : cfg.Records) (hkey : p.stored = p)
    (hnone : ∀ row ∈ w.store.trades, row.isOf p = false) (hcycle : (w.cycles key).isSome = true)
    (rs : List (Report schema w.signals p key))
    (hok : Persists cfg w rs) :
    (∀ n < rs.length, Agrees p key (after cfg w (rs.take (n + 1)))) ↔
      (rs.map fun r => rank r.status).Pairwise (· ≤ ·) := by
  have hstart : InStep p key w.signals [] w := by
    refine ⟨rfl, hcycle, .inl ⟨rfl, List.filter_eq_nil_iff.2 fun row hrow => ?_⟩⟩
    rw [hnone row hrow]
    exact Bool.false_ne_true
  induction rs using List.reverseRecOn with
  | nil => exact ⟨fun _ => .nil, fun _ n hn => absurd hn (Nat.not_lt_zero n)⟩
  | append_singleton rs r ih =>
    obtain ⟨hrs, hr⟩ := persists_concat.1 hok
    obtain ⟨-, hlast⟩ := (inStep_after hcfg hkey hstart rs hrs).receive hcfg hkey hr
    rw [← after_concat] at hlast
    have hsplit :
      (∀ n < (rs ++ [r]).length, Agrees p key (after cfg w ((rs ++ [r]).take (n + 1)))) ↔
        (∀ n < rs.length, Agrees p key (after cfg w (rs.take (n + 1)))) ∧
          Agrees p key (after cfg w (rs ++ [r])) := by
      constructor
      · intro h
        refine ⟨fun n hn => ?_, ?_⟩
        · have hn' := h n (by rw [List.length_append]; omega)
          rw [List.take_append_of_le_length hn] at hn'
          exact hn'
        · have hn' := h rs.length (by rw [List.length_append, List.length_singleton]; omega)
          rw [List.take_of_length_le (by rw [List.length_append, List.length_singleton])] at hn'
          exact hn'
      · rintro ⟨h, hend⟩ n hn
        rw [List.length_append, List.length_singleton] at hn
        by_cases hlt : n < rs.length
        · rw [List.take_append_of_le_length hlt]
          exact h n hlt
        · rw [List.take_of_length_le (by rw [List.length_append, List.length_singleton]; omega)]
          exact hend
    refine hsplit.trans ((and_congr (ih hrs) hlast).trans ?_)
    rw [List.map_append, List.pairwise_append]
    constructor
    · rintro ⟨hpairs, hall⟩
      refine ⟨hpairs, List.pairwise_singleton _ _, fun a ha b hb => ?_⟩
      obtain ⟨r', hr', rfl⟩ := List.mem_map.1 ha
      rw [List.mem_singleton.1 hb]
      exact hall r'.event (List.mem_map_of_mem hr') _ r'.known
    · rintro ⟨hpairs, -, hall⟩
      refine ⟨hpairs, fun e he status hstatus => ?_⟩
      obtain ⟨r', hr', rfl⟩ := List.mem_map.1 he
      rw [r'.known] at hstatus
      cases hstatus
      exact hall _ (List.mem_map_of_mem hr') _ (List.mem_singleton.2 rfl)

/-- If it is cut, no row has it. -/
theorem not_agrees_of_cut (hcfg : cfg.Records) (hcut : p.stored ≠ p)
    (hsignals : w.signals = signals) (hnone : ∀ row ∈ w.store.trades, row.isOf p = false)
    (hr : (r.receive cfg w).1 = .ok .persisted) : ¬ Agrees p key (r.receive cfg w).2 := by
  obtain ⟨trade, s, hupsert, hw⟩ := receive_persisted hcfg hsignals hr
  obtain ⟨row, -, hcases⟩ := upsert_cases r.known hupsert
  have hmiss : w.store.trades.find? (Trade.isOf (position r.event)) = none := by
    rw [r.of, List.find?_eq_none]
    intro row hrow
    rw [hnone row hrow]
    exact Bool.false_ne_true
  rw [hmiss] at hcases
  rcases hcases with ⟨hsome, -, -⟩ | ⟨old, hsome, -, -, -⟩ | ⟨-, hrow, htrades⟩
  · cases hsome
  · cases hsome
  · rintro ⟨row', c, v, honly, -⟩
    obtain ⟨built, hbuilt, rfl⟩ := Option.map_eq_some_iff.1 hrow
    obtain ⟨hmem, hof⟩ := mem_of_only honly
    have hmem' : row' ∈ w.store.trades ++ [built.stored] := by
      rw [← htrades]
      rw [hw] at hmem
      exact hmem
    rcases List.mem_append.1 hmem' with hold | hnew
    · rw [hnone row' hold] at hof
      cases hof
    · rw [List.mem_singleton.1 hnew, ← r.of] at hof
      have huncut := uncut_of_isOf hbuilt hof
      rw [r.of] at huncut
      exact hcut huncut

/-- The two tables agree after each of the reports exactly if the trade's row has the key of the
position and no report has a lower rank than one before it. -/
theorem tables_agree_iff (hcfg : cfg.Records) (hnone : ∀ row ∈ w.store.trades, row.isOf p = false)
    (hcycle : (w.cycles key).isSome = true) (rs : List (Report schema w.signals p key))
    (hok : Persists cfg w rs) :
    (∀ n < rs.length, Agrees p key (after cfg w (rs.take (n + 1)))) ↔
      (rs ≠ [] → p.stored = p) ∧ (rs.map fun r => rank r.status).Pairwise (· ≤ ·) := by
  by_cases hkey : p.stored = p
  · rw [agree_iff_of_uncut hcfg hkey hnone hcycle rs hok]
    exact (and_iff_right fun _ => hkey).symm
  · cases rs with
    | nil =>
        exact ⟨fun _ => ⟨fun hne => absurd rfl hne, .nil⟩,
          fun _ n hn => absurd hn (Nat.not_lt_zero n)⟩
    | cons r rs =>
      refine iff_of_false (fun h => ?_) fun h => hkey (h.1 nofun)
      exact not_agrees_of_cut hcfg hkey rfl hnone hok.1 (h 0 (Nat.zero_lt_succ _))

end

/-! ## A report that comes late -/

/-- The two tables agree after each report of a position, whatever the order, as long as
each is persisted. What becomes of one that is not is said in `Trades.Reports`. -/
def TablesAgree : Prop :=
  ∀ (cfg : Config) (schema : Schema) (p : Position) (key : CycleKey) (w : World)
    (rs : List (Report schema w.signals p key)), cfg.Records →
    (∀ row ∈ w.store.trades, row.isOf p = false) → (w.cycles key).isSome = true →
    Persists cfg w rs → ∀ n < rs.length, Agrees p key (after cfg w (rs.take (n + 1)))

namespace Sample

def cfg : Config := ⟨false, true, true, true⟩

/-- A report on the wire. -/
def wire (status : String) : JsonObject :=
  [(pyStr "event", .str (pyStr "UPDATED")), (pyStr "market", .str (pyStr "FOREX")),
    (pyStr "strategy", .str (pyStr "S")), (pyStr "id", .int 1),
    (pyStr "signal_id", .str (pyStr "s-1")), (pyStr "ref_source_id", .str (pyStr "r-1")),
    (pyStr "ref_id", .str (pyStr "r")), (pyStr "symbol", .str (pyStr "ETHUSD")),
    (pyStr "action", .str (pyStr "long")), (pyStr "volume", .int 1),
    (pyStr "opened_price", .int 100), (pyStr "status", .str (pyStr status)),
    (pyStr "account_id", .str (pyStr "1")), (pyStr "gateway", .str (pyStr "MT5"))]

/-- The schema, on these reports. -/
def schema : Schema := fun fields =>
  match fields.get? "status" with
  | some (.str status) => some (report (String.ofList (status.map Char.ofNat)))
  | _ => none

def key : CycleKey := ⟨"ETHUSD", "S", Broadcast.Sample.uxid⟩

def signals : String → Option SignalRow := fun signalId =>
  if signalId = "s-1" then some ⟨"ETHUSD", "S", some Broadcast.Sample.uxid⟩ else none

def world : World where
  store := Trades.empty
  signals := signals
  cycles := fun k => if k = key then some ((Broadcast.Sample.record .long "1").opened 0) else none
  stream := []
  delivered := fun _ => 0
  gone := fun _ => false

def heard (n : RowId) (status : String) (broker : TradeStatus)
    (known : toTradeStatus status = some broker)
    (parses : parseReport schema (.json (.obj (wire status))) = some (report status)) :
    Report schema world.signals (position (report "OPENED")) key where
  data := .json (.obj (wire status))
  draw := ⟨n, n, 0⟩
  event := report status
  status := broker
  parses
  known
  of := rfl
  names := ⟨"s-1", rfl, by decide, rfl⟩

def opened : Report schema world.signals (position (report "OPENED")) key :=
  heard 1 "OPENED" .opened (by decide) rfl

def closed : Report schema world.signals (position (report "OPENED")) key :=
  heard 2 "TP2" .closed (by decide) rfl

end Sample

/-- The report that opened the position is delivered again after the close: the broadcast
shows the trade as open. -/
theorem not_tablesAgree : ¬ TablesAgree := by
  intro h
  have hagree := h Sample.cfg Sample.schema (position (Sample.report "OPENED")) Sample.key
    Sample.world [Sample.opened, Sample.closed, Sample.opened] ⟨rfl, rfl, rfl⟩ (by decide) rfl
    ⟨by decide +kernel, by decide +kernel, by decide +kernel, trivial⟩ 2 (by decide)
  obtain ⟨row, c, v, hrow, hc, hv, hstatus⟩ := hagree
  have htrade : row.status = .closed := by
    have hlist : [row.status] = [.closed] := by
      rw [← List.map_singleton (f := Trade.status), ← hrow]
      decide +kernel
    exact List.singleton_inj.1 hlist
  have hworker : some v.latestStatus = some .opened := by
    rw [← Option.map_some, ← hv, ← Option.bind_some (f := fun c => Cycle.worker? c _), ← hc]
    decide +kernel
  rw [htrade] at hstatus
  rw [hstatus] at hworker
  cases hworker

theorem tables_agree_in_order :
    ([Sample.opened, Sample.closed].map fun r => rank r.status).Pairwise (· ≤ ·) ∧
      ∀ n < [Sample.opened, Sample.closed].length,
        Agrees (position (Sample.report "OPENED")) Sample.key
          (after Sample.cfg Sample.world ([Sample.opened, Sample.closed].take (n + 1))) := by
  have hranks : ([Sample.opened, Sample.closed].map fun r => rank r.status).Pairwise (· ≤ ·) := by
    decide
  exact ⟨hranks, (tables_agree_iff (w := Sample.world) ⟨rfl, rfl, rfl⟩ (by decide) rfl
    [Sample.opened, Sample.closed] ⟨by decide +kernel, by decide +kernel, trivial⟩).2
      ⟨fun _ => by decide, hranks⟩⟩

end TradingBroker.Trades
