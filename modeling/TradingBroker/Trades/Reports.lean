import TradingBroker.Trades.Execution

/-!
# Reports that are not lost

Each delivery of a message is settled once, and a report that parses is acked once its
trade stands at least where the report says, given up after `TRADE_MAX_DELIVERIES`
deliveries, and NAK-ed otherwise. This holds in every run, whatever fails, of every
message but two kinds (`never_lost_iff`): a report of a status the policy does not know
is acked without a row, and what `json.loads` raises beyond the exceptions the handler
names leaves it.

The handler is walked twice. Which paths it has is a matter of the coroutine alone:
whatever the calls answer, it returns, and makes one settling call. What holds when it
makes one is a matter of the run: a report that is persisted has been upserted by this
delivery, so its trade stands at its rank or above, and since nobody else writes
`trades` and no upsert lowers a rank that is still so at the ack (`Carried`). The count
of the deliveries and that none has been acked are known the same way (`InHand`).
-/

namespace TradingBroker.Trades

open TradingBroker.Lib TradingBroker.TradeStatusPolicy
open TradingBroker.Lib.Coro (Ends Returns MakesOne)

/-! ## What a message is owed -/

/-- The calls that settle a message. -/
def Call.settles : Call → Bool
  | .ack => true
  | .nak => true
  | .term => true
  | _ => false

/-- A trade of the report's position, as the columns have it, stands where the report says, or
further on. -/
def Stored (e : PositionEvent) (w : World) : Prop :=
  ∃ status, toTradeStatus e.status = some status ∧
    ∃ row ∈ w.store.trades, row.isOf (position e).stored = true ∧ rank status ≤ rank row.status

/-- The message has been delivered so often, and no ack of any delivery has arrived. -/
def GivenUp (k : Delivery) (w : World) : Prop :=
  tradeMaxDeliveries ≤ w.delivered k.index ∧ w.gone k.index = false

section
variable (cfg : Config) (schema : Schema)

/-- What is promised of a message: the handler never raises on it and settles each
delivery once; if it is a report it is acked once it is stored, and given up as late as
that. `acked` and `given_up` speak of every run of the consumer and every step that
makes the call, whatever comes of it. -/
structure NeverLost (data : MessageData) : Prop where
  returns : ∀ deliveries, (handleOne cfg schema data deliveries).Returns
  settled : ∀ deliveries, (workerTask cfg schema data deliveries).MakesOne Call.settles
  acked : ∀ w p q k x e, (consumer cfg schema).Runs (idlePool w) p →
    (consumer cfg schema).Step p (.call () k .ack x) q → k.data = data →
    parseReport schema data = some e → Stored e p.shared
  given_up : ∀ w p q k x e, (consumer cfg schema).Runs (idlePool w) p →
    (consumer cfg schema).Step p (.call () k .term x) q → k.data = data →
    parseReport schema data = some e → GivenUp k p.shared

/-- Decoding the message ends in a way the handler names, and if it is a report, the
policy knows its status: a condition on the message alone. -/
def Readable (data : MessageData) : Prop :=
  data ≠ .unreadable ∧
    ∀ e, parseReport schema data = some e → (toTradeStatus e.status).isSome = true

end

/-! ## The paths of the handler -/

section
variable {cfg : Config} {schema : Schema} {data : MessageData} {e : PositionEvent}

theorem ends_recordExecution (trade : Option Trade) :
    Ends Call.settles (fun n r => n = 0 ∧ r.toBool = true) 0 (recordExecution cfg e trade) := by
  unfold recordExecution
  split
  · exact ⟨rfl, rfl⟩
  · split
    · exact ⟨rfl, rfl⟩
    · split
      · exact ⟨rfl, rfl⟩
      · split
        · exact ⟨rfl, rfl⟩
        · intro row
          dsimp only
          split
          · exact fun _ => ⟨rfl, rfl⟩
          · exact ⟨rfl, rfl⟩

theorem ends_fanOut (trade : Option Trade) :
    Ends Call.settles (fun n r => n = 0 ∧ r.toBool = true) 0 (fanOut cfg e trade) := by
  have hcard : Ends Call.settles (fun n (r : Except Fault Unit) => n = 0 ∧ r.toBool = true) 0
      (updateCard cfg e trade) := by
    unfold updateCard
    split
    · exact fun _ => ⟨rfl, rfl⟩
    · exact ⟨rfl, rfl⟩
  refine Ends.bind (fun n _ hn => ?_) (fun _ _ h => h) hcard
  obtain ⟨rfl, -⟩ := hn
  unfold updateCycle
  split
  · have hrecord : Ends Call.settles
        (fun n (r : Except Fault (Except Fault Unit)) => n = 0 ∧ r.toBool = true) 0
        (recordExecution cfg e trade).attempt :=
      Ends.attempt (fun n r h => ⟨h.1, rfl⟩) (ends_recordExecution trade)
    refine Ends.bind (fun n _ hn => ?_) (fun _ _ h => absurd h.2 Bool.false_ne_true) hrecord
    obtain ⟨rfl, -⟩ := hn
    exact ⟨rfl, rfl⟩
  · exact ⟨rfl, rfl⟩

theorem ends_handleSubjectTrade (h : data ≠ .unreadable) :
    Ends Call.settles (fun n r => n = 0 ∧ r.toBool = true) 0
      (handleSubjectTrade cfg schema data) := by
  unfold handleSubjectTrade
  split
  · exact absurd rfl h
  · exact ⟨rfl, rfl⟩
  · split
    · exact ⟨rfl, rfl⟩
    · next e _ =>
        intro r
        cases r with
        | error f => exact ⟨rfl, rfl⟩
        | ok trade =>
          refine Ends.bind (fun n _ hn => ?_) (fun _ _ h => absurd h.2 Bool.false_ne_true)
            (ends_fanOut trade)
          obtain ⟨rfl, -⟩ := hn
          exact ⟨rfl, rfl⟩

theorem ends_settle (deliveries : Nat) (outcome : TradeOutcome) :
    Ends Call.settles (fun n r => n = 1 ∧ r.toBool = true) 0 (settle deliveries outcome) := by
  cases outcome with
  | persisted => exact fun _ => ⟨rfl, rfl⟩
  | unreadable => exact fun _ => ⟨rfl, rfl⟩
  | retry =>
    show Ends _ _ 0 (if tradeMaxDeliveries ≤ deliveries then term else nak)
    split
    · exact fun _ => ⟨rfl, rfl⟩
    · exact fun _ => ⟨rfl, rfl⟩

theorem ends_handleOne (h : data ≠ .unreadable) (deliveries : Nat) :
    Ends Call.settles (fun n r => n = 1 ∧ r.toBool = true) 0
      (handleOne cfg schema data deliveries) := by
  refine Ends.bind (fun n outcome hn => ?_) (fun _ _ h => absurd h.2 Bool.false_ne_true)
    (ends_handleSubjectTrade h)
  obtain ⟨rfl, -⟩ := hn
  exact ends_settle deliveries outcome

/-- A message whose handler raises is NAK-ed by the loop. -/
theorem makesOne_workerTask (data : MessageData) (deliveries : Nat) :
    (workerTask cfg schema data deliveries).MakesOne Call.settles := by
  by_cases h : data = .unreadable
  · subst h
    exact fun _ => rfl
  · have hone : Ends Call.settles
        (fun n (r : Except Fault (Except Fault Unit)) => n = 1 ∧ ∃ r', r = .ok r' ∧
          r'.toBool = true)
        0 (handleOne cfg schema data deliveries).attempt :=
      Ends.attempt (fun n r h => ⟨h.1, r, rfl, h.2⟩) (ends_handleOne h deliveries)
    refine Ends.bind (fun n r hn => ?_) (fun n f hn => ?_) hone
    swap
    · obtain ⟨-, r', hr', -⟩ := hn
      cases hr'
    obtain ⟨rfl, r', hr', hok⟩ := hn
    cases hr'
    cases r with
    | error f => cases hok
    | ok u => rfl

end

/-! ## What a call finds -/

/-- The consumer is at work on the delivery. -/
def InHand (k : Delivery) (w : World) : Prop :=
  k.count ≤ w.delivered k.index ∧ w.gone k.index = false

/-- What must be true before a call: an ack of a report is only made once the report is
stored, a term of one only once it is given up. Of the other calls nothing is asked. -/
def Promised (schema : Schema) (k : Delivery) (c : Call) (w : World) : Prop :=
  ∀ e, parseReport schema k.data = some e →
    (c = .ack → Readable schema k.data → Stored e w) ∧ (c = .term → GivenUp k w)

section
variable {cfg : Config} {schema : Schema} {e : PositionEvent} {k : Delivery} {w w' : World}
  {status : TradeStatus}

def promises (cfg : Config) (schema : Schema) : Contract (consumer cfg schema) where
  inv _ := True
  pre _ k c w := Promised schema k c w
  post _ _ _ := True
  keeps := fun _ _ _ => trivial

theorem environment_frame {ev : Event} (h : environment w ev = some w') :
    w'.store.trades = w.store.trades ∧ w'.gone = w.gone ∧
      ∀ m, w.delivered m ≤ w'.delivered m := by
  cases ev with
  | publish data =>
    cases h
    exact ⟨rfl, rfl, fun _ => Nat.le_refl _⟩
  | lose m =>
    simp only [environment] at h
    split at h
    · cases h
      refine ⟨rfl, rfl, fun j => ?_⟩
      show _ ≤ Function.update w.delivered m (w.delivered m + 1) j
      rw [Function.update_apply]
      split
      · next hj =>
          rw [hj]
          omega
      · exact Nat.le_refl _
    · cases h
  | others accounts signals cycles =>
    obtain ⟨s, hcommit, rfl⟩ := Option.map_eq_some_iff.1 h
    exact ⟨commit_trades hcommit, rfl, fun _ => Nat.le_refl _⟩
  | deliver m => cases h

/-- While the consumer waits, only the outside moves. -/
theorem interferes_frame (h : (promises cfg schema).Interferes () w w') :
    w'.store.trades = w.store.trades ∧ w'.gone = w.gone ∧
      ∀ m, w.delivered m ≤ w'.delivered m := by
  obtain ⟨-, -, l, hparty, -, hact⟩ := h
  cases l with
  | call i k c x => exact absurd rfl hparty
  | start i ev => exact absurd rfl hparty
  | env ev => exact environment_frame hact
  | crash i k => exact absurd rfl hparty

theorem stable_inHand : (promises cfg schema).Stable () (InHand k) := by
  rintro w w' h ⟨hcount, hgone⟩
  obtain ⟨-, hgone', hdelivered⟩ := interferes_frame h
  refine ⟨Nat.le_trans hcount (hdelivered _), ?_⟩
  rw [hgone']
  exact hgone

theorem Stored.of_trades (h : Stored e w) (heq : w'.store.trades = w.store.trades) :
    Stored e w' := by
  obtain ⟨status, hstatus, row, hrow⟩ := h
  rw [← heq] at hrow
  exact ⟨status, hstatus, row, hrow⟩

theorem stable_stored : (promises cfg schema).Stable () (Stored e) :=
  fun _ _ h hs => hs.of_trades (interferes_frame h).1

/-- A report of a known status that was persisted is stored. -/
theorem stored_of_upsert {x : Draw} {s s' : Store} {answer : Option Trade}
    (hstatus : toTradeStatus e.status = some status)
    (h : upsertByPositionEvent e x s = some (answer, s')) (hw : w.store = s') : Stored e w := by
  subst hw
  obtain ⟨row, -, hcases⟩ := upsert_cases hstatus h
  refine ⟨status, hstatus, row, ?_⟩
  rcases hcases with ⟨hfind, hdown, htrades⟩ | ⟨old, hfind, -, rfl, htrades⟩ | ⟨-, hrow, htrades⟩
  · have hrow : row ∈ s.trades := List.mem_of_find?_eq_some hfind
    have hof : row.stored.isOf (position e).stored = true :=
      Trade.isOf_stored (List.find?_some hfind)
    rw [Trade.stored_of_fits (s.trade_fits hrow)] at hof
    rw [htrades]
    exact ⟨hrow, hof, Int.le_of_lt (of_decide_eq_true hdown)⟩
  · rw [htrades]
    refine ⟨mem_replaceFirst hfind, ?_, Int.le_refl _⟩
    exact Trade.isOf_stored (isOf_update (List.find?_some hfind))
  · obtain ⟨hof, hstat, -⟩ := ofEvent_stored hrow
    rw [htrades]
    refine ⟨List.mem_append_right _ (List.mem_singleton.2 rfl), hof, ?_⟩
    rw [hstat]

/-- An upsert that returned has been committed. -/
theorem answer_upsert {x : Choice} {trade : Option Trade}
    (h : answer x w (.upsertByPositionEvent e) = .ok trade) :
    ∃ s, upsertByPositionEvent e x.draw w.store = some (trade, s) ∧
      (effect k x w (.upsertByPositionEvent e)).store = s := by
  unfold answer at h
  cases hupsert : upsertByPositionEvent e x.draw w.store with
  | none =>
    simp only [hupsert] at h
    cases h
  | some r =>
    simp only [hupsert] at h
    split at h
    · next hok =>
        cases h
        refine ⟨r.2, rfl, ?_⟩
        simp only [effect, write, hok, hupsert, reduceCtorEq, if_false]
    · cases h

/-! ## The walk over the handler -/

/-- A call other than the upsert leaves the trades alone, and one that does not settle leaves
the message in hand. -/
theorem perform_trades {x : Choice} {c : Call} (h : ∀ e, c ≠ .upsertByPositionEvent e) :
    (perform k x c w).2.store = w.store := by
  unfold perform effect write
  cases c with
  | upsertByPositionEvent e => exact absurd rfl (h e)
  | _ => split <;> rfl

theorem perform_inHand {x : Choice} {c : Call} (hc : c.settles = false) (h : InHand k w) :
    InHand k (perform k x c w).2 := by
  unfold perform effect write
  cases c with
  | upsertByPositionEvent e =>
    dsimp only
    split
    · exact h
    · split <;> exact h
  | handleEvent e trade => split <;> exact h
  | getById signalId => split <;> exact h
  | recordWorkerExecution key ex => split <;> exact h
  | ack => cases hc
  | nak => cases hc
  | term => cases hc

/-- A fact that the environment and the calls of the fan-out leave alone, so that what
an upsert establishes is still there when the delivery is settled. -/
def Carried (cfg : Config) (schema : Schema) (k : Delivery) (P : World → Prop) : Prop :=
  (promises cfg schema).Stable () P ∧ ∀ (w : World) (x : Choice) (c : Call), c.settles = false →
    (∀ e, c ≠ .upsertByPositionEvent e) → P w → P (perform k x c w).2

theorem carried_inHand : Carried cfg schema k (InHand k) :=
  ⟨stable_inHand, fun _ _ _ hc _ h => perform_inHand hc h⟩

theorem carried_stored : Carried cfg schema k (Stored e) :=
  ⟨stable_stored, fun _ _ _ _ hup h => h.of_trades (congrArg Store.trades (perform_trades hup))⟩

theorem Carried.and {P P' : World → Prop} (h : Carried cfg schema k P)
    (h' : Carried cfg schema k P') : Carried cfg schema k fun w => P w ∧ P' w :=
  ⟨h.1.and h'.1, fun w x c hc hup hw => ⟨h.2 w x c hc hup hw.1, h'.2 w x c hc hup hw.2⟩⟩

theorem Carried.imp {a : Prop} {P : World → Prop} (h : Carried cfg schema k P) :
    Carried cfg schema k fun w => a → P w :=
  ⟨Contract.Stable.imp_left fun _ => h.1, fun w x c hc hup hw ha => h.2 w x c hc hup (hw ha)⟩

theorem Carried.call {P : World → Prop} {c : Call} {α : Type} {f : c.Result → Prog α}
    {Q : α → World → Prop} {X : Fault → World → Prop} (h : Carried cfg schema k P)
    (hc : c.settles = false) (hup : ∀ e, c ≠ .upsertByPositionEvent e)
    (hf : ∀ r, (promises cfg schema).Spec () k P (f r) Q X) :
    (promises cfg schema).Spec () k P (.call c f) Q X := by
  refine Contract.Spec.call (fun _ => P) h.1 (fun w _ _ e _ => ⟨?_, ?_⟩) ?_ hf
  · rintro rfl
    cases hc
  · rintro rfl
    cases hc
  · intro w x r w' _ hw hexec _
    cases hexec
    exact h.2 w x c hc hup hw

theorem Carried.pure {P : World → Prop} (h : Carried cfg schema k P) :
    (promises cfg schema).Spec () k P (Pure.pure () : Prog Unit) (fun _ => P) fun _ => P :=
  Contract.Spec.pure h.1 fun _ _ hw => hw

theorem Carried.recordExecution {P : World → Prop} (h : Carried cfg schema k P)
    (trade : Option Trade) :
    (promises cfg schema).Spec () k P (recordExecution cfg e trade) (fun _ => P) fun _ => P := by
  unfold Trades.recordExecution
  split
  · exact h.pure
  · split
    · exact h.pure
    · split
      · exact h.pure
      · split
        · exact h.pure
        · refine h.call rfl (fun _ => nofun) fun row => ?_
          split
          · exact h.call rfl (fun _ => nofun) fun _ => h.pure
          · exact h.pure

/-- The fan-out carries it too. -/
theorem Carried.fanOut {P : World → Prop} (h : Carried cfg schema k P) (trade : Option Trade) :
    (promises cfg schema).Spec () k P (fanOut cfg e trade) (fun _ => P) fun _ => P := by
  refine Contract.Spec.bind (fun _ => P) ?_ fun _ => ?_
  · unfold updateCard
    split
    · exact h.call rfl (fun _ => nofun) fun _ => h.pure
    · exact h.pure
  · unfold updateCycle
    split
    · refine Contract.Spec.bind _ (Contract.Spec.attempt (h.recordExecution trade)) fun r => ?_
      cases r with
      | ok u => exact h.pure
      | error f => exact h.pure
    · exact h.pure

/-- What the handler's answer says of a delivery that is in hand. -/
def Handled (schema : Schema) (k : Delivery) (outcome : TradeOutcome) (w : World) : Prop :=
  InHand k w ∧ ∀ e, parseReport schema k.data = some e →
    (outcome = .persisted → Readable schema k.data → Stored e w) ∧ outcome ≠ .unreadable

theorem stable_handled {outcome : TradeOutcome} :
    (promises cfg schema).Stable () (Handled schema k outcome) := by
  refine stable_inHand.and fun w w' h hw e he => ⟨fun hp hr => ?_, (hw e he).2⟩
  exact stable_stored w w' h ((hw e he).1 hp hr)

theorem applyReport_spec (he : parseReport schema k.data = some e) :
    (promises cfg schema).Spec () k (InHand k) (applyReport cfg e) (Handled schema k)
      fun _ => InHand k := by
  refine Contract.Spec.call (fun r w => InHand k w ∧
      (∀ trade, r = .ok trade → Readable schema k.data → Stored e w)) stable_inHand
    (fun w _ _ e _ => ⟨nofun, nofun⟩) ?_ fun r => ?_
  · intro w x r w' _ hw hexec _
    have hstays : InHand k (perform k x (.upsertByPositionEvent e) w).2 := perform_inHand rfl hw
    cases hexec
    refine ⟨hstays, fun trade hr hreadable => ?_⟩
    obtain ⟨status, hstatus⟩ := Option.isSome_iff_exists.1 (hreadable.2 e he)
    obtain ⟨s, hupsert, hstore⟩ := answer_upsert hr
    exact stored_of_upsert hstatus hupsert hstore
  · cases r with
    | error f =>
      refine Contract.Spec.pure stable_handled fun w _ hw => ⟨hw.1, fun e' _ => ⟨nofun, nofun⟩⟩
    | ok trade =>
      have hcarried : Carried cfg schema k fun w =>
          InHand k w ∧ (Readable schema k.data → Stored e w) :=
        carried_inHand.and carried_stored.imp
      refine Contract.Spec.bind (fun _ w => InHand k w ∧ (Readable schema k.data → Stored e w))
        ((hcarried.fanOut trade).mono (fun w _ hw => ⟨hw.1, hw.2 trade rfl⟩) (fun _ _ _ h => h)
          fun _ _ _ h => h.1) fun _ => ?_
      refine Contract.Spec.pure stable_handled fun w _ hw => ⟨hw.1, fun e' he' => ?_⟩
      rw [he] at he'
      cases he'
      exact ⟨fun _ => hw.2, nofun⟩

theorem handleSubjectTrade_spec :
    (promises cfg schema).Spec () k (InHand k) (handleSubjectTrade cfg schema k.data)
      (Handled schema k) fun _ => InHand k := by
  have hmalformed : parseReport schema k.data = none → ∀ w, InHand k w →
      Handled schema k .unreadable w := by
    intro hnone w hw
    refine ⟨hw, fun e he => ?_⟩
    rw [hnone] at he
    cases he
  unfold handleSubjectTrade
  split
  · exact Contract.Spec.raise stable_inHand fun _ _ hw => hw
  · next hdata =>
      refine Contract.Spec.pure stable_handled fun w _ hw => hmalformed ?_ w hw
      rw [hdata]
      rfl
  · split
    · next hnone => exact Contract.Spec.pure stable_handled fun w _ hw => hmalformed hnone w hw
    · next e he => exact applyReport_spec he

/-- A message is settled as promised. -/
theorem settleCall_spec {c : Call} {P : World → Prop} (hP : (promises cfg schema).Stable () P)
    (hpre : ∀ w, P w → Promised schema k c w) :
    (promises cfg schema).Spec () k P (.call c fun _ => (Pure.pure () : Prog Unit))
      (fun _ _ => True) fun _ _ => True :=
  Contract.Spec.call (fun _ _ => True) hP (fun w _ hw => hpre w hw) (fun _ _ _ _ _ _ _ _ => trivial)
    fun _ => Contract.Spec.pure (Contract.Stable.const True) fun _ _ _ => trivial

theorem settle_spec (outcome : TradeOutcome) :
    (promises cfg schema).Spec () k (Handled schema k outcome) (settle k.count outcome)
      (fun _ _ => True) fun _ _ => True := by
  cases outcome with
  | persisted =>
    exact settleCall_spec stable_handled fun w hw e he => ⟨fun _ => (hw.2 e he).1 rfl, nofun⟩
  | unreadable =>
    exact settleCall_spec stable_handled fun w hw e he => absurd rfl (hw.2 e he).2
  | retry =>
    show (promises cfg schema).Spec () k _ (if tradeMaxDeliveries ≤ k.count then term else nak) _ _
    split
    · next hmax =>
        refine settleCall_spec stable_handled fun w hw e _ => ⟨nofun, fun _ => ?_⟩
        exact ⟨Nat.le_trans hmax hw.1.1, hw.1.2⟩
    · exact settleCall_spec stable_handled fun w _ e _ => ⟨nofun, nofun⟩

theorem workerTask_spec :
    (promises cfg schema).Spec () k (InHand k) (workerTask cfg schema k.data k.count)
      (fun _ _ => True) fun _ _ => True := by
  have hone : (promises cfg schema).Spec () k (InHand k) (handleOne cfg schema k.data k.count)
      (fun _ _ => True) fun _ _ => True :=
    Contract.Spec.bind (Handled schema k)
      (handleSubjectTrade_spec.mono (fun _ _ h => h) (fun _ _ _ h => h) fun _ _ _ _ => trivial)
      settle_spec
  refine Contract.Spec.bind _ (Contract.Spec.attempt hone) fun r => ?_
  cases r with
  | ok u => exact Contract.Spec.pure (Contract.Stable.const True) fun _ _ _ => trivial
  | error f =>
    exact settleCall_spec (Contract.Stable.const True) fun w _ e _ => ⟨nofun, nofun⟩

theorem promises_hold : (promises cfg schema).Holds where
  start := by
    intro i ev w k₀ k p w' hinv _ hstart hinv'
    cases ev with
    | deliver m =>
      simp only [consumer, start] at hstart
      split at hstart
      · next data hdata =>
          split at hstart
          · next hdeliverable =>
              cases hstart
              refine workerTask_spec _ trivial ⟨?_, ?_⟩
              · show w.delivered m + 1 ≤ Function.update w.delivered m (w.delivered m + 1) m
                rw [Function.update_self]
              · show w.gone m = false
                simpa using (Bool.and_eq_true_iff.1 hdeliverable).2
          · cases hstart
      · cases hstart
    | publish data => cases hstart
    | lose m => cases hstart
    | others accounts signals cycles => cases hstart
  crash := fun _ _ => trivial
  stable := fun _ _ => Contract.Stable.const True

/-- Every settle call of a run is made as promised. -/
theorem promised_of_step {w : World} {p q : Pool Unit Delivery World Call Call.Result Fault}
    {c : Call} {x : Choice} (hrun : (consumer cfg schema).Runs (idlePool w) p)
    (hstep : (consumer cfg schema).Step p (.call () k c x) q) : Promised schema k c p.shared := by
  have hgood : (promises cfg schema).Good (idlePool w) := ⟨trivial, fun i s _ => trivial⟩
  exact (promises_hold.step (promises_hold.refines hgood hrun).1 hstep).1

/-! ## A report of a status the policy does not know -/

theorem updateCycle_unknown (h : toTradeStatus e.status = none) (trade : Option Trade) :
    updateCycle cfg e trade = pure () := by
  have hrecord : recordExecution cfg e trade = pure () := by
    unfold recordExecution
    split
    · rfl
    · split
      · rfl
      · split
        · rfl
        · rw [h]
  unfold updateCycle
  split
  · rw [hrecord]
    rfl
  · rfl

/-- The calls of a delivery of such a report, if nothing fails: the upsert, the card if there
is one, the ack. -/
theorem workerTask_unknown {data : MessageData} {n : Nat} (he : parseReport schema data = some e)
    (h : toTradeStatus e.status = none) :
    ∃ f, workerTask cfg schema data n = .call (.upsertByPositionEvent e) f ∧
      ((∃ g, f (.ok none) = .call .ack g) ∨
        ∃ g g', f (.ok none) = .call (.handleEvent e none) g ∧ ∀ r, g r = .call .ack g') := by
  have hhandle : handleSubjectTrade cfg schema data = applyReport cfg e := by
    unfold handleSubjectTrade
    cases data with
    | json envelope => simp only [he]
    | malformed => cases he
    | unreadable => cases he
  unfold workerTask handleOne
  rw [hhandle]
  refine ⟨_, rfl, ?_⟩
  dsimp only
  unfold fanOut
  rw [updateCycle_unknown h, updateCard]
  cases cfg.hasCards with
  | false => exact .inl ⟨_, rfl⟩
  | true => exact .inr ⟨_, _, rfl, fun _ => rfl⟩

/-- Nothing but the message, which has not been delivered. -/
def published (data : MessageData) : World where
  store := empty
  signals := fun _ => none
  cycles := fun _ => none
  stream := [data]
  delivered := fun _ => 0
  gone := fun _ => false

/-- It is acked all the same. -/
theorem acked_unknown {data : MessageData} (he : parseReport schema data = some e)
    (h : toTradeStatus e.status = none) :
    ∃ w p q k x, (consumer cfg schema).Runs (idlePool w) p ∧
      (consumer cfg schema).Step p (.call () k .ack x) q ∧ k.data = data := by
  have hack : ∀ {p : Pool Unit Delivery World Call Call.Result Fault}
      {g : Call.ack.Result → Prog Unit},
      (consumer cfg schema).Runs (idlePool (published data)) p →
      p.threads () = (⟨0, data, 1⟩, .call .ack g) →
      ∃ w p q k x, (consumer cfg schema).Runs (idlePool w) p ∧
        (consumer cfg schema).Step p (.call () k .ack x) q ∧ k.data = data := by
    intro p g hrun hth
    obtain ⟨q, hstep⟩ := Machine.step_of_next? (M := consumer cfg schema) (p := p) (i := ())
      (c := .ack) (x := ⟨.ok, ⟨0, 0, 0⟩⟩) (by rw [hth]; rfl) rfl
    refine ⟨_, p, q, _, _, hrun, hstep, ?_⟩
    rw [hth]
  obtain ⟨f, hprog, hrest⟩ := @workerTask_unknown cfg schema e data 1 he h
  have hstart : (consumer cfg schema).Runs (idlePool (published data))
      ⟨handOut 0 (published data), Function.update (idlePool (published data)).threads ()
        (⟨0, data, 1⟩, workerTask cfg schema data 1)⟩ :=
    .tail (.refl _) ⟨.start () (.deliver 0), rfl⟩ trivial
  rw [hprog] at hstart
  have hanswer : (consumer cfg schema).exec () ⟨0, data, 1⟩ (.upsertByPositionEvent e)
      ⟨.ok, ⟨0, 0, 0⟩⟩ (handOut 0 (published data)) =
      some (.ok none, handOut 0 (published data)) := by
    show some (perform _ _ _ _) = _
    simp only [perform, answer, effect, write, upsert_unknown h, if_true, reduceCtorEq, if_false]
  have hth₀ : Function.update (idlePool (published data)).threads ()
      ((⟨0, data, 1⟩, .call (.upsertByPositionEvent e) f) : Delivery × Prog Unit) () =
      (⟨0, data, 1⟩, .call (.upsertByPositionEvent e) f) := Function.update_self ..
  obtain ⟨p₁, hrun₁, -, hth₁⟩ := hstart.call hth₀ hanswer trivial
  rcases hrest with ⟨g, hg⟩ | ⟨g, g', hg, hg'⟩
  · rw [hg] at hth₁
    exact hack hrun₁ hth₁
  · rw [hg] at hth₁
    obtain ⟨p₂, hrun₂, -, hth₂⟩ := hrun₁.call (x := ⟨.ok, ⟨0, 0, 0⟩⟩) hth₁ rfl trivial
    rw [hg'] at hth₂
    exact hack hrun₂ hth₂

/-! ## The verdict -/

/-- Nothing is lost of a message exactly if decoding it ends in a way the handler names and its
status, if it is a report, is one the policy knows. -/
theorem never_lost_iff (cfg : Config) (schema : Schema) (data : MessageData) :
    NeverLost cfg schema data ↔ Readable schema data := by
  constructor
  · intro h
    refine ⟨fun hdata => ?_, fun e he => ?_⟩
    · have hreturns := h.returns 1
      rw [hdata] at hreturns
      exact Bool.false_ne_true hreturns
    · cases hstatus : toTradeStatus e.status with
      | some status => rfl
      | none =>
        obtain ⟨w, p, q, k, x, hrun, hstep, hk⟩ := @acked_unknown cfg schema e data he hstatus
        obtain ⟨status, hknown, -⟩ := h.acked w p q k x e hrun hstep hk he
        rw [hstatus] at hknown
        cases hknown
  · intro h
    refine ⟨fun n => ((ends_handleOne h.1 n).mono fun _ _ hr => hr.2).returns,
      fun n => makesOne_workerTask data n, ?_, ?_⟩
    · rintro w p q k x e hrun hstep rfl he
      exact (promised_of_step hrun hstep e he).1 rfl h
    · rintro w p q k x e hrun hstep rfl he
      exact (promised_of_step hrun hstep e he).2 rfl

end

/-- The status is a string the schema accepts and the policy does not know. -/
theorem not_neverLost : ¬ ∀ cfg schema data, NeverLost cfg schema data := by
  intro h
  have hparses : parseReport Sample.schema (.json (.obj (Sample.wire "EXPIRED"))) =
      some (Sample.report "EXPIRED") := rfl
  have hunknown : toTradeStatus (Sample.report "EXPIRED").status = none := by decide
  obtain ⟨w, p, q, k, x, hrun, hstep, hk⟩ :=
    @acked_unknown Sample.cfg Sample.schema _ _ hparses hunknown
  obtain ⟨status, hknown, -⟩ :=
    (h Sample.cfg Sample.schema _).acked w p q k x _ hrun hstep hk hparses
  rw [hunknown] at hknown
  cases hknown

end TradingBroker.Trades
