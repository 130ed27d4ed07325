import TradingBroker.Lib.Coroutine
import TradingBroker.Schemas.Core

/-!
# The settings a worker runs on

`broker/services/account_settings_service.py`, and the three endpoints that
change a setting and push it: `/prevent` and `/maxorders` of an account's owner
(`broker/api/telegram.py`) and the admin's global `max_open_orders`
(`broker/api/admin.py`). Two scopes feed one block: the account's own JSONB blob
and the broker-wide default it inherits. Every endpoint stores first and
publishes after.

`resolve_account_settings` is the one place where the two scopes meet, and the
handshake goes through it as well. A blob that does not validate is salvaged
item by item, with what pydantic makes of a value that is not of the field's own
type as a parameter. Of a publish there is only its message; that a call fails
is told by its answer.
-/

namespace TradingBroker.Settings

open TradingBroker.Lib

/-! ## The block -/

/-- Pydantic's coercion of a stored value to a field's type; `none` is its
`ValidationError`. -/
structure Coercions where
  bool : Json → Option Bool
  int : Json → Option Int

/-- `AccountSettings`. -/
structure AccountSettings where
  signalBlocked : Bool := false
  maxOpenOrders : Option Nat := none
  deriving DecidableEq

def signalBlockedKey : String := "signal_blocked"

/-- The key of the account's own cap, and of the broker-wide default. -/
def maxOpenOrdersKey : String := "max_open_orders"

def defaultMaxOpenOrders : Nat := 5

/-- `Optional[int]` with `ge=0`. -/
def Coercions.cap (co : Coercions) : Json → Option (Option Nat)
  | .null => some none
  | value => (co.int value).bind fun n => if 0 ≤ n then some (some n.toNat) else none

/-- A field that is absent has its default. -/
def field {α : Type} (coerce : Json → Option α) (default : α) (fields : JsonObject)
    (name : String) : Option α :=
  match fields.get? name with
  | none => some default
  | some value => coerce value

/-- `AccountSettings(**fields)`. -/
def AccountSettings.ofFields (co : Coercions) (fields : JsonObject) : Option AccountSettings :=
  (field co.bool false fields signalBlockedKey).bind fun signalBlocked =>
    (field co.cap none fields maxOpenOrdersKey).map fun maxOpenOrders =>
      { signalBlocked, maxOpenOrders }

/-- The item names a field of `AccountSettings` and validates on its own. -/
def kept (co : Coercions) (item : PyStr × Json) : Bool :=
  (item.1 == pyStr signalBlockedKey || item.1 == pyStr maxOpenOrdersKey) &&
    (AccountSettings.ofFields co [item]).isSome

theorem get?_singleton (item : PyStr × Json) (name : String) :
    JsonObject.get? [item] name = if item.1 = pyStr name then some item.2 else none := by
  by_cases h : item.1 = pyStr name
  · simp [JsonObject.get?, h]
  · simp [JsonObject.get?, h]

/-- What is left after the filter validates together. -/
theorem ofFields_kept (co : Coercions) (items : JsonObject) :
    (AccountSettings.ofFields co (items.filter (kept co))).isSome = true := by
  have hfield : ∀ {α : Type} (coerce : Json → Option α) (default : α) (name : String),
      (∀ item, kept co item = true → item.1 = pyStr name → (coerce item.2).isSome = true) →
        (field coerce default (items.filter (kept co)) name).isSome = true := by
    intro α coerce default name h
    unfold field
    split
    · rfl
    · next value hv =>
        simp only [JsonObject.get?, Option.map_eq_some_iff] at hv
        obtain ⟨item, hitem, rfl⟩ := hv
        exact h item (List.mem_filter.1 (List.mem_of_find?_eq_some hitem)).2
          (by simpa using List.find?_some hitem)
  have hkept : ∀ item, kept co item = true →
      (AccountSettings.ofFields co [item]).isSome = true := by
    intro item h
    exact (Bool.and_eq_true_iff.1 h).2
  have hblocked := hfield co.bool false signalBlockedKey fun item h hname => by
    have hs := hkept item h
    rw [AccountSettings.ofFields, field, get?_singleton, if_pos hname] at hs
    cases hb : co.bool item.2 with
    | none => simp [hb] at hs
    | some b => rfl
  have hcap := hfield co.cap none maxOpenOrdersKey fun item h hname => by
    have hs := hkept item h
    rw [AccountSettings.ofFields] at hs
    cases hc : co.cap item.2 with
    | none =>
        have hf : field co.cap none [item] maxOpenOrdersKey = none := by
          rw [field, get?_singleton, if_pos hname]
          exact hc
        rw [hf] at hs
        cases hfb : field co.bool false [item] signalBlockedKey <;> rw [hfb] at hs <;> cases hs
    | some c => rfl
  obtain ⟨b, hb⟩ := Option.isSome_iff_exists.1 hblocked
  obtain ⟨c, hc⟩ := Option.isSome_iff_exists.1 hcap
  rw [AccountSettings.ofFields, hb, hc]
  rfl

/-- `parse_account_settings`: one field at a time, so that a bad value costs only
its own setting. -/
def parseAccountSettings (co : Coercions) : Json → AccountSettings
  | .obj items =>
      (AccountSettings.ofFields co (items.filter (kept co))).get (ofFields_kept co items)
  | _ => {}

/-- `parse_global_max_open_orders`. -/
def parseGlobalMaxOpenOrders : Option String → Nat
  | none => defaultMaxOpenOrders
  | some raw =>
      match pyInt raw with
      | none => defaultMaxOpenOrders
      | some value => if value < 0 then defaultMaxOpenOrders else value.toNat

def resolveAccountSettings (settings : AccountSettings) (globalMaxOpenOrders : Nat) :
    AccountSettings :=
  match settings.maxOpenOrders with
  | none => { settings with maxOpenOrders := some globalMaxOpenOrders }
  | some _ => settings

/-- A worker is always told a number. -/
theorem resolveAccountSettings_isSome (settings : AccountSettings) (n : Nat) :
    (resolveAccountSettings settings n).maxOpenOrders.isSome = true := by
  unfold resolveAccountSettings
  split
  · rfl
  · next h =>
      rw [h]
      rfl

/-- Postgres' `left || right` on JSONB. -/
def concatJsonb : Json → Json → Json
  | .obj l, .obj r => .obj (l.filter (fun item => !r.any fun other => other.1 == item.1) ++ r)
  | .arr l, .arr r => .arr (l ++ r)
  | .arr l, r => .arr (l ++ [r])
  | l, .arr r => .arr (l :: r)
  | l, r => .arr [l, r]

/-! ## Accounts and what is published to their workers -/

/-- A row of `accounts`, as far as a settings push reads it. -/
structure Account where
  id : Nat
  accountId : String
  market : MarketType
  gateway : Option String
  settings : Json

def composeAdminSubject (market : MarketType) (gateway accountId : String) : String :=
  "ADMIN." ++ market.value ++ "." ++ gateway ++ "." ++ accountId

inductive AdminAction where
  | flat | blockSignal | allowSignal
  deriving DecidableEq

def AdminAction.value : AdminAction → String
  | .flat => "FLAT"
  | .blockSignal => "BLOCK_SIGNAL"
  | .allowSignal => "ALLOW_SIGNAL"

/-- What goes out to workers: an `AdminSignal` on its subject, or a
`WORKER_SETTINGS_UPDATE` on `SYSTEM`, which a worker filters by `account_id`. -/
inductive Outgoing where
  | admin (subject : String) (action : AdminAction)
  | settingsUpdate (accountId : String) (settings : AccountSettings)
  deriving DecidableEq

/-! ## The endpoints -/

inductive Fault where
  | unavailable
  | http (status : Nat) (detail : String)
  | invalid (message : String)

inductive Call where
  | updateSettings (id : Nat) (patch : PyStr × Json)
  | getSetting (key : String)
  | setSetting (key value : String)
  | getAll
  | sendMessage (text : String)
  | publish (message : Outgoing)

abbrev Call.Result : Call → Type
  | .updateSettings _ _ => Option Json
  | .getSetting _ => Option String
  | .setSetting _ _ => Bool
  | .getAll => List Account
  | .sendMessage _ => Bool
  | .publish _ => Except Fault Unit

abbrev Prog := Coro Call Call.Result Fault

structure CommandResult where
  action : String
  scope : String
  settings : Option Json

structure MaxOpenOrdersResponse where
  maxOpenOrders : Nat
  source : String
  globalMaxOpenOrders : Nat

structure SettingValueResponse where
  setting : String
  value : String

/-- `_scope`. -/
def scope (accountId : String) (strategy symbol : Option String) : String :=
  let part := fun (name : String) (value : Option String) =>
    match value with
    | some text => if text = "" then [] else [name ++ "=" ++ text]
    | none => []
  ", ".intercalate
    (part "strategy" strategy ++ part "symbol" symbol ++ ["account=" ++ accountId])

/-- `publish_admin_signal` of an account-scoped signal. -/
def publishAdminSignal (action : AdminAction) (accountId : String) (market : MarketType)
    (gateway : Option String) : Prog Unit :=
  match gateway with
  | none => .raise (.invalid "market and gateway are required when account_id is set")
  | some gateway =>
      .call (.publish (.admin (composeAdminSubject market gateway accountId) action)) .ofExcept

/-- `push_worker_settings_update`: a publish that raises is logged. -/
def pushWorkerSettingsUpdate (accountId : String) (market : MarketType)
    (gateway : Option String) (settings : AccountSettings) : Prog Unit :=
  match gateway with
  | none => pure ()
  | some gateway =>
      if gateway = "" then pure ()
      else
        .call (.publish (.settingsUpdate (composeWorkerId market gateway accountId) settings))
          fun _ => pure ()

/-- `/prevent` and `/allow`. -/
def prevent (account : Account) (enabled : Bool) : Prog CommandResult :=
  let action : AdminAction := if enabled then .blockSignal else .allowSignal
  .call (.updateSettings account.id (pyStr signalBlockedKey, .bool enabled)) fun
    | none => .raise (.http 500 "Failed to persist account settings")
    | some settings => do
        publishAdminSignal action account.accountId account.market account.gateway
        pure ⟨action.value, scope account.accountId none none, some settings⟩

/-- The JSON a cap is stored as; `null` hands the account back to the global
default. -/
def capJson : Option Nat → Json
  | none => .null
  | some n => .int n

/-- `/maxorders`. -/
def setMaxOpenOrders (co : Coercions) (account : Account) (maxOpenOrders : Option Nat) :
    Prog MaxOpenOrdersResponse :=
  .call (.updateSettings account.id (pyStr maxOpenOrdersKey, capJson maxOpenOrders)) fun
    | none => .raise (.http 500 "Failed to persist account settings")
    | some stored =>
        .call (.getSetting maxOpenOrdersKey) fun raw => do
          let globalValue := parseGlobalMaxOpenOrders raw
          let resolved := resolveAccountSettings (parseAccountSettings co stored) globalValue
          pushWorkerSettingsUpdate account.accountId account.market account.gateway resolved
          pure ⟨resolved.maxOpenOrders.get (resolveAccountSettings_isSome _ _),
            if maxOpenOrders.isNone then "global" else "account", globalValue⟩

/-- The loop of `_push_max_open_orders`. -/
def pushToEach (co : Coercions) (globalValue : Nat) : List Account → Prog Unit
  | [] => pure ()
  | account :: accounts => do
      pushWorkerSettingsUpdate account.accountId account.market account.gateway
        (resolveAccountSettings (parseAccountSettings co account.settings) globalValue)
      pushToEach co globalValue accounts

/-- `_push_max_open_orders`: the rows are all read before the first push. -/
def pushMaxOpenOrders (co : Coercions) : Prog Unit :=
  .call (.getSetting maxOpenOrdersKey) fun raw =>
    .call .getAll fun accounts => pushToEach co (parseGlobalMaxOpenOrders raw) accounts

/-- What the admin channel is told. -/
def settingChangedText (value : String) : String :=
  "⚙️ <b>Broker setting changed</b>\nSetting: <code>" ++ maxOpenOrdersKey ++
    "</code>\nMax open orders: <b>" ++ value ++
    "</b>\nAccounts with their own cap are unaffected.\n"

/-- The admin's `set_max_open_orders`. -/
def setGlobalMaxOpenOrders (co : Coercions) (maxOpenOrders : Nat) :
    Prog SettingValueResponse :=
  let value := toString maxOpenOrders
  .call (.setSetting maxOpenOrdersKey value) fun ok =>
    if ok then
      .call (.sendMessage (settingChangedText value)) fun _ => do
        pushMaxOpenOrders co
        pure ⟨maxOpenOrdersKey, value⟩
    else .raise (.http 500 "Failed to update broker setting")

end TradingBroker.Settings
