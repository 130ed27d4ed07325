import TradingBroker.Accounts.Table
import TradingBroker.Bot.AdminFlat
import TradingBroker.Settings.Service

/-!
# The owner's commands

`/flat`, `/prevent`, `/allow` and `/maxorders` of `bot/app/handlers/commands.py`
and `/unlink` of `bot/app/handlers/account.py`, each with the endpoint of
`broker/api/telegram.py` it ends in. The bot's guard resolves the caller's active
account for every update, and so does every endpoint; a prompt is only a message,
so nothing carries the account from the one to the other, except that
`/maxorders` remembers its account id.

A handler is the list of its calls, the bot's requests among them, and a request
is the endpoint's own list. What differs between the three commands that are
confirmed by a button is the text and the endpoint, so they are one handler with
the command as an argument.
-/

namespace TradingBroker.Bot

open TradingBroker.Lib
open TradingBroker.Trades (Account)
open TradingBroker.Settings (AdminAction AccountSettings Coercions MaxOpenOrdersResponse
  parseGlobalMaxOpenOrders parseAccountSettings resolveAccountSettings
  resolveAccountSettings_isSome signalBlockedKey maxOpenOrdersKey capJson)

/-- The commands that ask for a confirmation. -/
inductive Command where
  | flat | prevent | allow | unlink
  deriving DecidableEq

/-- What a message shows; only a prompt to confirm has buttons. The account is the row the
prompt was made for. -/
inductive Text where
  | confirm (command : Command) (account : Account)
  | maxOpenOrders (current : MaxOpenOrdersResponse) (account : Account)
  | note (text : String)

/-- The prompt of a command. -/
def confirmText (accountId : String) : Command → String
  | .flat =>
      warning ++ " Confirm <b>FLAT</b> (close all positions) for account <code>" ++ accountId ++
        "</code>?"
  | .prevent =>
      warning ++ " Confirm <b>BLOCK</b> new orders for account <code>" ++ accountId ++ "</code>?"
  | .allow => "Confirm <b>ALLOW</b> new orders for account <code>" ++ accountId ++ "</code>?"
  | .unlink =>
      "Are you sure you want to <b>unlink</b> your active account (<code>" ++ accountId ++
        "</code>) from Telegram?"

/-- A cap, as it is shown. -/
def shownCap (n : Nat) : String :=
  if n = 0 then "<b>no limit</b>" else "<b>" ++ toString n ++ "</b>"

/-- `format_max_open_orders`. -/
def formatMaxOpenOrders (state : MaxOpenOrdersResponse) (accountId : String) : String :=
  "⚙️ <b>Max open positions</b>\n" ++ "Account: <code>" ++ Html.escape accountId ++
    "</code>\n" ++ "Current: " ++ shownCap state.maxOpenOrders ++ " — " ++
    (if state.source = "account" then "your own setting for this account"
    else "the broker-wide default") ++ "\n" ++
    (if state.source = "account" then
      "Default if you clear it: <b>" ++ toString state.globalMaxOpenOrders ++ "</b>\n"
    else "") ++
    "\nThis caps how many positions your account may hold at once. A new entry " ++
    "beyond it is not placed — it is recorded as rejected and reported back.\n\n" ++
    "Send a new number (<code>0</code> = no limit), <code>-</code> to go back to " ++
    "the default, or /cancel to abort."

/-- `format_max_open_orders_updated`. -/
def formatMaxOpenOrdersUpdated (state : MaxOpenOrdersResponse) : String :=
  check ++ " <b>Max open positions updated</b>\nNow: " ++ shownCap state.maxOpenOrders ++
    (if state.source = "account" then "" else " (the broker-wide default)") ++
    "\n\n<i>Your worker has been notified, and will apply it on reconnect " ++
    "regardless.</i>"

def Text.shown : Text → String
  | .confirm command account => confirmText account.accountId command
  | .maxOpenOrders current account => formatMaxOpenOrders current account.accountId
  | .note text => text

/-- The row a prompt was made for. -/
def Text.account : Text → Option Account
  | .confirm _ account => some account
  | .maxOpenOrders _ account => some account
  | .note _ => none

/-! ## Calls -/

/-- What a handler or an endpoint awaits. `getAccount` and `getMaxOpenOrders` ask the broker;
`linkedAccount` is an endpoint resolving its caller before it changes anything; the rest are the
bot's own messages and data. Of the question in `waitFor` it keeps the account id. -/
inductive Call where
  | getAccount
  | getMaxOpenOrders
  | linkedAccount
  | updateSettings (account : Account) (patch : JsonObject)
  | publish (action : AdminAction) (account : Account)
  | dropLink (account : Account)
  | getSetting (key : String)
  | push (account : Account) (settings : AccountSettings)
  | waitFor (current : MaxOpenOrdersResponse) (account : Account)
  | getData
  | clear
  | answer (text : Text)
  | edit (message : Nat) (text : Text)

abbrev Call.Result : Call → Type
  | .getAccount => Option Account
  | .getMaxOpenOrders => Option MaxOpenOrdersResponse
  | .linkedAccount => Option Account
  | .updateSettings _ _ => Option JsonObject
  | .publish _ _ => Except Settings.Fault Unit
  | .dropLink _ => Bool
  | .getSetting _ => Option String
  | .push _ _ => Unit
  | .waitFor _ _ => Unit
  | .getData => Option String
  | .clear => Unit
  | .answer _ => Unit
  | .edit _ _ => Unit

abbrev Prog := Coro Call Call.Result Settings.Fault

/-! ## The broker's endpoints -/

/-- `get_linked_account`. -/
def getLinkedAccount : Prog Account :=
  .call .linkedAccount fun
    | none => .raise (.http 404 "No account linked to this Telegram user")
    | some account => pure account

/-- `publish_admin_signal`, for one account. -/
def publishAdminSignal (action : AdminAction) (account : Account) : Prog Unit :=
  match account.gateway with
  | none => .raise (.invalid "market and gateway are required when account_id is set")
  | some _ => .call (.publish action account) .ofExcept

/-- `flat`. -/
def flat : Prog CommandResult := do
  let account ← getLinkedAccount
  publishAdminSignal .flat account
  pure ⟨AdminAction.flat.value, Settings.scope account.accountId none none⟩

/-- `update_settings`, whose failure ends the request. -/
def persist (account : Account) (patch : JsonObject) : Prog JsonObject :=
  .call (.updateSettings account patch) fun
    | none => .raise (.http 500 "Failed to persist account settings")
    | some settings => pure settings

/-- `prevent`. -/
def prevent (enabled : Bool) : Prog CommandResult := do
  let account ← getLinkedAccount
  let action : AdminAction := if enabled then .blockSignal else .allowSignal
  let _ ← persist account [(pyStr signalBlockedKey, .bool enabled)]
  publishAdminSignal action account
  pure ⟨action.value, Settings.scope account.accountId none none⟩

/-- `push_worker_settings_update`. -/
def pushWorkerSettingsUpdate (account : Account) (settings : AccountSettings) : Prog Unit :=
  match account.gateway with
  | none => pure ()
  | some gateway => if gateway = "" then pure () else .call (.push account settings) .pure

/-- `set_max_open_orders`. -/
def setMaxOpenOrders (co : Coercions) (maxOpenOrders : Option Nat) :
    Prog MaxOpenOrdersResponse := do
  let account ← getLinkedAccount
  let stored ← persist account [(pyStr maxOpenOrdersKey, capJson maxOpenOrders)]
  .call (.getSetting maxOpenOrdersKey) fun raw => do
    let globalValue := parseGlobalMaxOpenOrders raw
    let resolved := resolveAccountSettings (parseAccountSettings co (.obj stored)) globalValue
    pushWorkerSettingsUpdate account resolved
    pure ⟨resolved.maxOpenOrders.get (resolveAccountSettings_isSome _ _),
      if maxOpenOrders.isNone then "global" else "account", globalValue⟩

/-- `unlink_account`; `unlink_telegram` resolves the caller itself. -/
def unlinkAccount : Prog Unit :=
  .call .linkedAccount fun
    | none => .raise (.http 404 "No account linked to this Telegram user")
    | some account =>
        .call (.dropLink account) fun ok =>
          if ok then pure () else .raise (.http 404 "No account linked to this Telegram user")

/-! ## The bot's handlers -/

def say (text : Text) : Prog Unit := .call (.answer text) fun _ => pure ()

def note (text : String) : Prog Unit := say (.note text)

/-- `AuthMiddleware`. -/
def withAccount (handler : Account → Prog Unit) : Prog Unit :=
  .call .getAccount fun
    | none =>
        note "You haven't linked an account yet. Type /start to link using your UUID code."
    | some account => handler account

/-- `cmd_flat`, `cmd_prevent`, `cmd_allow` and `cmd_unlink`. -/
def cmdConfirm (command : Command) : Prog Unit :=
  withAccount fun account => say (.confirm command account)

/-- The request a confirmation ends in. -/
def Command.request : Command → Prog CommandResult
  | .flat => Bot.flat
  | .prevent => Bot.prevent true
  | .allow => Bot.prevent false
  | .unlink => do
      unlinkAccount
      pure ⟨"UNLINK", ""⟩

/-- What the prompt is turned into. -/
def Command.outcome : Command → Except Settings.Fault CommandResult → String
  | .unlink, .ok _ => check ++ " Unlinked. Type /start to link again."
  | .unlink, .error _ => cross ++ " Unlink failed. Try again later."
  | _, .ok result => formatCommandResult result
  | _, .error _ => cross ++ " Command failed. Try again later."

/-- `cb_confirm` and `cb_unlink`. -/
def cbConfirm (command : Command) (message : Nat) : Prog Unit :=
  withAccount fun _ => do
    let result ← command.request.attempt
    .call (.edit message (.note (command.outcome result))) fun _ => pure ()

/-- `cb_cancel` and `cb_unlink_cancel`. -/
def cbCancel (message : Nat) : Prog Unit :=
  withAccount fun _ => .call (.edit message (.note "Cancelled.")) fun _ => pure ()

/-- `cmd_max_orders`. -/
def cmdMaxOrders : Prog Unit :=
  withAccount fun account =>
    .call .clear fun _ =>
      .call .getMaxOpenOrders fun
        | none => note (warning ++ " Failed to fetch the current limit.")
        | some current =>
            .call (.waitFor current account) fun _ => say (.maxOpenOrders current account)

/-- The number a reply gives: `-` is none, and what is no number is an error. -/
def replyValue (text : String) : Except String (Option Nat) :=
  let raw := stripped text
  if raw = "-" then .ok none
  else
    match pyInt raw with
    | none =>
        .error (warning ++ " Please send a whole number (e.g. <code>5</code>), " ++
          "<code>0</code> for no limit, or <code>-</code> for the default. " ++
          "Send /cancel to abort.")
    | some value =>
        if value < 0 then
          .error (warning ++ " The limit cannot be negative. Send <code>0</code> for " ++
            "no limit, or <code>-</code> for the default. Send /cancel to abort.")
        else .ok (some value.toNat)

/-- `receive_max_orders`. -/
def receiveMaxOrders (co : Coercions) (text : String) : Prog Unit :=
  withAccount fun account =>
    .call .getData fun promptedFor =>
      if promptedFor = some account.accountId then
        match replyValue text with
        | .error complaint => note complaint
        | .ok value => do
            let result ← (setMaxOpenOrders co value).attempt
            .call .clear fun _ =>
              match result with
              | .error _ =>
                  note (cross ++ " Failed to update the limit. Run /maxorders to retry.")
              | .ok state => note (formatMaxOpenOrdersUpdated state)
      else
        .call .clear fun _ =>
          note (warning ++ " Nothing was changed — your active account is now <code>" ++
            account.accountId ++ "</code>, but that prompt was for <code>" ++
            strOrNone promptedFor ++ "</code>. Run /maxorders again to set the limit " ++
            "for the account you have active.")

end TradingBroker.Bot
