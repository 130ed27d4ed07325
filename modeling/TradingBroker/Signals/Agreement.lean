import TradingBroker.Broadcast.Cycle
import TradingBroker.Handshake.Replayed

/-!
# Three accounts of one alert

An accepted alert is told three times: to the auditor as the row of `log_signal`, to the
workers as the `TradingSignal` of `parse_signal`, to the chats as the event of
`build_broadcast_event`. Each builder takes the position and the inputs apart by itself, in
its own order and with its own defaults. `Terms` is the part all three tell, read with one
set of defaults.

The row and the event tell what the payload says (`terms_ofPayload`,
`terms_buildBroadcastEvent`). The signal tells the same but for one field: `parse_signal`
drops a scale strategy that comes without the flag of a scale-in, and neither of the other
two asks for the flag (`terms_tradingSignal`).

So the three agree exactly if the field is not dropped, and this is a condition on the
payload: it has the flag, or no scale strategy. The projections say it for every payload
at once, with no case for the action or for what is missing from it.
-/

namespace TradingBroker

/-- What the three tell of an alert. A price, a quantity or a risk that is absent counts as
zero, a flag that is absent as false. -/
structure Terms where
  action : SignalAction
  price : PyFloat
  quantity : PyFloat
  sl : Option PyFloat
  tp1 : Option PyFloat
  tp2 : Option PyFloat
  isRunning : Bool
  riskPercent : PyFloat
  isScalePosition : Bool
  scaleStrategy : Option String
  deriving DecidableEq

/-- What the payload itself says. -/
def WebhookBody.terms (p : WebhookBody) : Terms where
  action := p.position.action
  price := PyFloat.orZero p.position.price
  quantity := PyFloat.orZero p.position.quantity
  sl := p.position.sl
  tp1 := p.position.tp1
  tp2 := p.position.tp2
  isRunning := p.position.isRunning.getD false
  riskPercent := p.effectiveRiskPercent
  isScalePosition := p.position.isScalePosition.getD false
  scaleStrategy := p.position.scaleStrategy

def Signal.terms (row : Signal) : Terms where
  action := row.action
  price := row.price
  quantity := row.quantity
  sl := row.sl
  tp1 := row.tp1
  tp2 := row.tp2
  isRunning := row.isRunning
  riskPercent := row.riskPercent
  isScalePosition := row.isScalePosition
  scaleStrategy := row.scaleStrategy

def TradingSignal.terms (signal : TradingSignal) : Terms where
  action := signal.action
  price := signal.price
  quantity := signal.quantity
  sl := signal.sl
  tp1 := signal.tp1
  tp2 := signal.tp2
  isRunning := signal.isRunning.getD false
  riskPercent := PyFloat.orZero signal.riskPercent
  isScalePosition := signal.isScalePosition.getD false
  scaleStrategy := signal.scaleStrategy

def Broadcast.BroadcastEvent.terms (event : Broadcast.BroadcastEvent) : Terms where
  action := event.action
  price := PyFloat.orZero event.price
  quantity := PyFloat.orZero event.quantity
  sl := event.sl
  tp1 := event.tp1
  tp2 := event.tp2
  isRunning := event.isRunning.getD false
  riskPercent := PyFloat.orZero event.riskPercent
  isScalePosition := event.isScalePosition.getD false
  scaleStrategy := event.scaleStrategy

/-- The terms without a scale strategy that no scale-in explains. -/
def Terms.flagged (t : Terms) : Terms :=
  { t with scaleStrategy := if t.isScalePosition then t.scaleStrategy else none }

/-! ## What each builder tells -/

theorem terms_ofPayload (payload : WebhookPayload) (id : RowId) (now : Int)
    (deliveryKey : Option String) (attempts : Int) :
    (Signal.ofPayload payload id now deliveryKey attempts).terms = payload.terms := rfl

/-- The event leaves the risk open where the row and the signal write a zero. -/
theorem orZero_riskPercent (payload : WebhookPayload) (attemptNumber : Option Int) :
    PyFloat.orZero (Broadcast.buildBroadcastEvent payload attemptNumber).riskPercent =
      payload.effectiveRiskPercent := by
  simp only [Broadcast.buildBroadcastEvent, WebhookBody.effectiveRiskPercent]
  cases hown : payload.position.riskPercent with
  | some x => rfl
  | none =>
      cases hinputs : payload.inputs.bind InputsSchema.riskPercent with
      | some x => rfl
      | none => rfl

theorem terms_buildBroadcastEvent (payload : WebhookPayload) (attemptNumber : Option Int) :
    (Broadcast.buildBroadcastEvent payload attemptNumber).terms = payload.terms := by
  unfold Broadcast.BroadcastEvent.terms WebhookBody.terms
  rw [orZero_riskPercent]
  rfl

theorem flag_iff (flag : Option Bool) : flag = some true ↔ flag.getD false = true := by
  cases flag with
  | none => simp
  | some b => simp

theorem terms_tradingSignal (lib : Libraries) (payload : WebhookPayload) (signalId : RowId)
    (now : Int) : (tradingSignal lib payload signalId now).terms = payload.terms.flagged := by
  have hscale : (tradingSignal lib payload signalId now).scaleStrategy =
      payload.terms.flagged.scaleStrategy := by
    unfold tradingSignal Terms.flagged WebhookBody.terms
    simp only [flag_iff]
  unfold TradingSignal.terms
  rw [hscale]
  rfl

/-- A signal that `parse_signal` returns is the one it hands to the constructor. -/
theorem parseSignal_eq {lib : Libraries} {payload : WebhookPayload} {signalId : RowId}
    {now : Int} {s : TradingSignal} (h : parseSignal lib payload signalId now = some s) :
    s = tradingSignal lib payload signalId now := by
  simp only [parseSignal] at h
  split at h
  · exact (Option.some.inj h).symm
  · cases h

/-! ## Where they agree -/

theorem flagged_eq_iff (t : Terms) :
    t.flagged = t ↔ t.isScalePosition = true ∨ t.scaleStrategy = none := by
  constructor
  · intro h
    cases hflag : t.isScalePosition with
    | true => exact .inl rfl
    | false =>
        have hfield := congrArg Terms.scaleStrategy h
        simp only [Terms.flagged, hflag, Bool.false_eq_true, if_false] at hfield
        exact .inr hfield.symm
  · intro h
    have hkept : (if t.isScalePosition then t.scaleStrategy else none) = t.scaleStrategy := by
      rcases h with h | h
      · rw [if_pos h]
      · rw [h, ite_self]
    rw [Terms.flagged, hkept]

/-- The row, the signal and the event tell the same exactly if the payload flags a scale-in
or names no scale strategy. -/
theorem accounts_agree_iff {lib : Libraries} {payload : WebhookPayload} {signalId : RowId}
    {now : Int} {signal : TradingSignal}
    (hsignal : parseSignal lib payload signalId now = some signal) (created : Int)
    (deliveryKey : Option String) (attempts : Int) (attemptNumber : Option Int) :
    ((Signal.ofPayload payload signalId created deliveryKey attempts).terms = signal.terms ∧
        (Broadcast.buildBroadcastEvent payload attemptNumber).terms = signal.terms) ↔
      payload.position.isScalePosition = some true ∨ payload.position.scaleStrategy = none := by
  rw [parseSignal_eq hsignal, terms_ofPayload, terms_buildBroadcastEvent, terms_tradingSignal,
    and_self, eq_comm, flagged_eq_iff, flag_iff]
  rfl

/-! ## A strategy without its flag -/

namespace Unflagged

def payload (flag : Option Bool) : WebhookPayload :=
  { Spelling.payload [] with
    position := { Spelling.position with
      isScalePosition := flag
      scaleStrategy := some "add_on_pullback" } }

def named : JsonObject := [(pyStr "scale_strategy", .str (pyStr "add_on_pullback"))]
def flagged : JsonObject := (pyStr "is_scale_position", .bool true) :: named

/-- The alert as it arrives, with further entries in its position. -/
def raw (scale : JsonObject) : JsonObject :=
  mapKey "position" (fun _ => .obj ([(pyStr "action", .str (pyStr "LONG")),
    (pyStr "price", .float (.finite 68250))] ++ scale)) (Spelling.raw [])

def signal (flag : Option Bool) : TradingSignal :=
  tradingSignal Spelling.lib (payload flag) 7 63915992100000000

theorem parsed (flag : Option Bool) :
    parseSignal Spelling.lib (payload flag) 7 63915992100000000 = some (signal flag) := rfl

end Unflagged

/-- The row keeps a name that the workers are not told. -/
theorem not_accounts_agree : ∃ payload signal,
    WebhookPayload.parse Spelling.co (Unflagged.raw Unflagged.named) Spelling.uxid =
      some payload ∧
    payload.position.action ≠ .flat ∧
    parseSignal Spelling.lib payload 7 63915992100000000 = some signal ∧
    (Signal.ofPayload payload 7 63915992100000000 none 3).terms ≠ signal.terms :=
  ⟨Unflagged.payload none, Unflagged.signal none, rfl, by decide, Unflagged.parsed none,
    by decide⟩

theorem accounts_agree_scaleIn : ∃ payload signal,
    WebhookPayload.parse Spelling.co (Unflagged.raw Unflagged.flagged) Spelling.uxid =
      some payload ∧
    parseSignal Spelling.lib payload 7 63915992100000000 = some signal ∧
    (Signal.ofPayload payload 7 63915992100000000 none 3).terms = signal.terms ∧
    (Broadcast.buildBroadcastEvent payload none).terms = signal.terms :=
  ⟨Unflagged.payload (some true), Unflagged.signal (some true), rfl, Unflagged.parsed _,
    (accounts_agree_iff (Unflagged.parsed (some true)) 63915992100000000 none 3 none).2 (.inl rfl)⟩

end TradingBroker
