import TradingBroker.Helpers.Display
import TradingBroker.Bot.Table
import TradingBroker.Lib.Display

/-!
# The messages of the bot

`bot/app/presenters/messages.py`, and `format_exit_prompt` of `presenters/trade_card.py`. A
message is put together from texts of the program's, from values of the broker's answers,
which pass `_esc`, and from a few numbers that do not. What Python makes of a value is a
parameter: its `str`, and how it is written as an amount, if it is a number.

The payloads are those the broker's API answers with. The values of a row are anything at all,
but the API's own figures are what its response models make them: the offset and the total of
a page, the count of the open positions and that of the accounts switched are integers if they
are there, the users of an account are a list, the offset of the display zone is within a day,
and a time that can be read stays within the calendar when it is moved by it. Of other payloads
`int`, `len`, `timezone` and `astimezone` would raise, and so would `float` of an integer past
the largest double; the presenters do not catch it, and there are no such payloads here.
-/

namespace TradingBroker.Bot

open TradingBroker.Lib.Markup TradingBroker.Lib.Display TradingBroker.Bot.Table

/-- `str(value)`; `f"{float(value):,.2f}"`, unless `float` finds no number in the value; the two
figures of a row that are worked out before they are shown; and `str` of a time in the short
format. -/
structure Spelling where
  str : Json → PyStr
  amount : Json → Option PyStr
  pnl : Json → Json → PyStr
  shortTime : Json → Helpers.Hours → PyStr
  amount_bare : ∀ v t, amount v = some t → Bare t

/-- `d.get(key)`, where an absent key is `None`. -/
def field (d : JsonObject) (key : String) : Json := (d.get? key).getD .null

/-- What a condition makes of a value. -/
def truthy : Json → Bool
  | .null => false
  | .bool b => b
  | .int n => n != 0
  | .float x => x != .finite 0
  | .str s => !s.isEmpty
  | .arr xs => !xs.isEmpty
  | .obj kvs => !kvs.isEmpty

/-- An f-string. -/
def fstring (parts : List PyStr) : PyStr := parts.flatten

def number (n : Int) : PyStr := pyStr (toString n)

/-- The arguments of a call of `render_table`. -/
structure TextTable where
  headers : List PyStr
  rows : List (List Value)
  aligns : List String := []
  maxWidths : List (Option Int) := []

def TextTable.render (t : TextTable) : Option PyStr :=
  renderTable t.headers t.rows t.aligns t.maxWidths

/-- The lines of a table, as they are to be seen. -/
def TextTable.text (t : TextTable) : PyStr :=
  [newline].intercalate (tableLines t.headers t.rows t.aligns t.maxWidths)

section
variable (sp : Spelling)

/-- `_esc`. -/
def esc : Json → PyStr
  | .null => pyStr "—"
  | v => escapeQuoted (sp.str v)

/-- What of a value is to be seen. -/
def seen : Json → PyStr
  | .null => pyStr "—"
  | v => sp.str v

/-- `_fmt_num`. -/
def fmtNum : Json → PyStr
  | .null => pyStr "—"
  | v => (sp.amount v).getD (esc sp v)

/-- What of an amount is to be seen. -/
def seenNum : Json → PyStr
  | .null => pyStr "—"
  | v => (sp.amount v).getD (seen sp v)

end

/-- The `page` dict, of which a key may be missing; `PageMeta` has integers for both. -/
structure PageDict where
  offset : Option Int
  total : Option Int

/-- `_page_range`. -/
def pageRange (page : PageDict) (shown : Nat) : PyStr :=
  fstring [number (page.offset.getD 0 + 1), pyStr "–", number (page.offset.getD 0 + shown),
    pyStr " / ", number (page.total.getD shown)]

/-! ## For users -/

/-- `value == 0`. -/
def isZero : Json → Bool
  | .bool b => !b
  | .int n => n == 0
  | .float x => x == .finite 0
  | _ => false

/-- `_ACTION_LABEL.get(str(action), _esc(action))`. -/
def actionText (sp : Spelling) (action : Json) : PyStr :=
  if sp.str action = pyStr "FLAT" then pyStr "Flat"
  else if sp.str action = pyStr "BLOCK_SIGNAL" then pyStr "Prevent"
  else if sp.str action = pyStr "ALLOW_SIGNAL" then pyStr "Allow"
  else esc sp action

/-- `format_command_result`, of the answer as it was received. -/
def formatCommandAnswer (sp : Spelling) (result : JsonObject) : PyStr :=
  fstring [pyStr "✅", pyStr " Command <b>", actionText sp (field result "action"),
    pyStr "</b> done\nScope: <code>", esc sp (field result "scope"), pyStr "</code>\n\n",
    pyStr "<i>The command has been dispatched to the worker via the broker.</i>"]

namespace UserMessages

def commandsHint : PyStr :=
  fstring
    [pyStr "<b>Available commands</b>\n",
      pyStr "/trades — Recent trades\n",
      pyStr "/flat — Close all positions\n",
      pyStr "/prevent — Block new orders\n",
      pyStr "/allow — Allow new orders\n",
      pyStr "/maxorders — Max open positions\n",
      pyStr "/status — Account info + open positions\n",
      pyStr "/myaccounts — List linked accounts\n",
      pyStr "/link — Add another account\n",
      pyStr "/switch — Change active account\n",
      pyStr "/unlink — Unlink active account\n",
      pyStr "/subscribe — Live trade alerts (active account)\n",
      pyStr "/unsubscribe — Stop trade alerts (active account)\n",
      pyStr "/subscribeall — Live trade alerts (all accounts)\n",
      pyStr "/unsubscribeall — Stop trade alerts (all accounts)"]

def helpText : PyStr :=
  fstring
    [pyStr "🤖 <b>Trading Bot</b>\n\n",
      pyStr "This bot helps you track trades and control your account.\n\n",
      pyStr "Start with /start and enter the <b>UUID</b> code your admin gave you to link.\n\n",
      commandsHint]

section
variable (sp : Spelling)

/-- `state.get("source") != "account"`. -/
def inherited (state : JsonObject) : Bool :=
  match field state "source" with
  | .str s => s != pyStr "account"
  | _ => true

/-- A cap, as both messages about it show it. -/
def shownLimit (limit : Json) : PyStr :=
  fstring [pyStr "<b>", if isZero limit then pyStr "no limit" else esc sp limit, pyStr "</b>"]

/-- The line of `format_max_open_orders` that names the account, if there is an id to name. -/
def accountLine (accountId : Json) : PyStr :=
  match accountId with
  | .null => []
  | id => fstring [pyStr "Account: <code>", esc sp id, pyStr "</code>\n"]

/-- `format_max_open_orders`. -/
def formatMaxOpenOrders (state : JsonObject) (accountId : Json) : PyStr :=
  let origin :=
    if inherited state then pyStr "the broker-wide default"
    else pyStr "your own setting for this account"
  let default :=
    if inherited state then []
    else fstring [pyStr "Default if you clear it: <b>",
      esc sp (field state "global_max_open_orders"), pyStr "</b>\n"]
  fstring [pyStr "⚙️ <b>Max open positions</b>\n", accountLine sp accountId,
    pyStr "Current: ", shownLimit sp (field state "max_open_orders"), pyStr " — ", origin,
    pyStr "\n", default,
    pyStr "\nThis caps how many positions your account may hold at once. A new entry ",
    pyStr "beyond it is not placed — it is recorded as rejected and reported back.\n\n",
    pyStr "Send a new number (<code>0</code> = no limit), <code>-</code> to go back to ",
    pyStr "the default, or /cancel to abort."]

/-- `format_max_open_orders_updated`. -/
def formatMaxOpenOrdersUpdated (state : JsonObject) : PyStr :=
  fstring [pyStr "✅", pyStr " <b>Max open positions updated</b>\nNow: ",
    shownLimit sp (field state "max_open_orders"),
    if inherited state then pyStr " (the broker-wide default)" else [],
    pyStr "\n\n<i>Your worker has been notified, and will apply it on reconnect ",
    pyStr "regardless.</i>"]

/-- `format_broadcast_subscription`. -/
def formatBroadcastSubscription (subscribed : Bool) (account : JsonObject) : PyStr :=
  let parts := [field account "market", field account "gateway"].filter truthy
  let kind := (pyStr "/").intercalate (parts.map sp.str)
  let label := fstring
    [pyStr "<code>", esc sp (field account "account_id"), pyStr "</code>",
      if kind.isEmpty then [] else fstring [pyStr " (", escapeQuoted kind, pyStr ")"]]
  if subscribed then
    fstring [pyStr "✅ <b>Subscribed</b> — ", label,
      pyStr "\n\nYou'll now get a message here the moment this account opens a trade. Each ",
      pyStr "message updates itself as the trade moves — partial close, close, flat — and carries ",
      pyStr "🔍 <b>Detail</b> and 🏁 <b>Close</b> buttons while the trade is still running.\n\nThis ",
      pyStr "covers this account only; your other linked accounts are unchanged (/switch to change ",
      pyStr "one). Use /unsubscribe to stop."]
  else
    fstring [pyStr "✅ <b>Unsubscribed</b> — ", label,
      pyStr "\n\nYou'll no longer get trade alerts for this account. Trades already showing in ",
      pyStr "this chat keep updating until they close.\n\nYour other linked accounts are unchanged ",
      pyStr "(/switch to change one). Use /subscribe to turn it back on."]

/-- `format_broadcast_subscription_all`; `count` is `int(result.get("accounts") or 0)`. -/
def formatBroadcastSubscriptionAll (subscribed : Bool) (count : Int) : PyStr :=
  let accounts := fstring [number count, pyStr " linked account",
    if count = 1 then [] else pyStr "s"]
  if subscribed then
    fstring [pyStr "✅ <b>Subscribed</b> — all accounts (", number count,
      pyStr ")\n\nYou'll now get a trade card for each of your ", accounts,
      pyStr ": a message the moment one opens a trade, updating itself until it closes.\n\nAn ",
      pyStr "account you link later starts off — /subscribe on it, or run /subscribeall again. Use ",
      pyStr "/unsubscribeall to stop for all of them, or /switch and /unsubscribe for just one."]
  else
    fstring [pyStr "✅ <b>Unsubscribed</b> — all accounts (", number count,
      pyStr ")\n\nNo more trade alerts for any of your ", accounts,
      pyStr ". Trades already showing in this chat keep updating until they close.\n\nUse ",
      pyStr "/subscribeall to turn them all back on, or /switch and /subscribe for just one."]

/-- `format_account`. -/
def formatAccount (account : JsonObject) : PyStr :=
  fstring [pyStr "<b>📂 Account</b>\n• ID: <code>", esc sp (field account "account_id"),
    pyStr "</code>\n• Name: ", esc sp (field account "account_name"),
    pyStr "\n• Balance: <b>", fmtNum sp (field account "account_balance"),
    pyStr "</b>\n• Market: ", esc sp (field account "market")]

/-- A cell of a table. -/
def cell : Json → Value
  | .null => none
  | v => some (sp.str v)

/-- `value or default`, as a cell. -/
def cellOr (v : Json) (default : String) : Value :=
  if truthy v then some (sp.str v) else some (pyStr default)

/-- The table of `format_accounts_list`. -/
def accountsTable (accounts : List JsonObject) : TextTable where
  headers := [pyStr "★", pyStr "MARKET", pyStr "GATEWAY", pyStr "ACCOUNT"]
  rows := accounts.map fun a =>
    [some (if truthy (field a "is_active") then pyStr "★" else []),
      cell sp (field a "market"), cellOr sp (field a "gateway") "?",
      cell sp (field a "account_id")]
  maxWidths := [some 1, none, none, some 24]

/-- `format_accounts_list`. -/
def formatAccountsList (accounts : List JsonObject) (page : PageDict) (withSwitchHint : Bool) :
    Option PyStr :=
  if accounts.isEmpty then some (pyStr "📭 No linked accounts.")
  else
    (accountsTable sp accounts).render.map fun table =>
        fstring [pyStr "<b>📂 Your accounts</b> (", pageRange page accounts.length, pyStr ")\n\n",
          table,
          if withSwitchHint then pyStr "\n\n<i>Tap an account below to make it active.</i>"
          else []]

/-- `_STATUS_LABEL`. -/
def statusLabel (status : PyStr) : PyStr :=
  if status = pyStr "OPENED" then pyStr "OPEN"
  else if status = pyStr "REJECTED" then pyStr "REJECT"
  else if status = pyStr "PARTIALLY_CLOSED" then pyStr "PARTIAL"
  else status

/-- `_trade_row`. -/
def tradeRow (trade : JsonObject) (tzOffsetHours : Helpers.Hours) : List Value :=
  [cellOr sp (field trade "symbol") "—", cellOr sp (field trade "action") "—",
    some (statusLabel (((trade.get? "status").map sp.str).getD [])),
    some (fmtNum sp (field trade "price")), some (fmtNum sp (field trade "quantity")),
    some (fmtNum sp (field trade "account_balance")),
    some (sp.pnl (field trade "account_balance") (field trade "account_balance_init")),
    some (sp.shortTime (field trade "updatedAt") tzOffsetHours)]

/-- `_trades_table`. -/
def tradesTable (data : List JsonObject) (tzOffsetHours : Helpers.Hours) : TextTable where
  headers := [pyStr "SYMBOL", pyStr "ACTION", pyStr "STATUS", pyStr "PRICE", pyStr "QTY",
    pyStr "BALANCE", pyStr "PNL", pyStr "TIME"]
  rows := data.map fun t => tradeRow sp t tzOffsetHours
  aligns := ["l", "l", "l", "r", "r", "r", "r", "l"]
  maxWidths := [some 12, some 6, some 7, none, none, none, none, none]

/-- `format_trades`. -/
def formatTrades (data : List JsonObject) (page : PageDict) (tzOffsetHours : Helpers.Hours) :
    Option PyStr :=
  if data.isEmpty then some (pyStr "📭 No trades yet.")
  else
    (tradesTable sp data tzOffsetHours).render.map fun table =>
      fstring [pyStr "<b>📊 Trades</b> (", pageRange page data.length, pyStr ") · times in ",
        pyStr (Helpers.formatUtcLabel tzOffsetHours), pyStr "\n\n", table]

/-- The broker's answer about the open positions: its rows, and their count if it has one. -/
structure Positions where
  data : List JsonObject
  count : Option Int

/-- `format_status`. -/
def formatStatus (account : JsonObject) (positions : Option Positions)
    (tzOffsetHours : Helpers.Hours) :
    Option PyStr :=
  let countLine := match positions with
    | none => pyStr "• Open positions: ⚠️ failed to load"
    | some p => fstring [pyStr "• Open positions: <b>", number (p.count.getD p.data.length),
        pyStr "</b>"]
  let head := fstring [formatAccount sp account, pyStr "\n", countLine]
  let data := (positions.map Positions.data).getD []
  if data.isEmpty then some head
  else
    (tradesTable sp data tzOffsetHours).render.map fun table =>
      fstring [head, pyStr "\n\n<b>📊 Open positions</b> · times in ",
        pyStr (Helpers.formatUtcLabel tzOffsetHours), pyStr "\n\n", table]

end

end UserMessages

/-! ## For admins -/

namespace AdminMessages

open UserMessages (cell cellOr formatTrades)

/-- The label of a setting. -/
def settingLabel (setting : PyStr) : PyStr :=
  if setting = pyStr "signal_blocked" then pyStr "Block signal"
  else if setting = pyStr "silent_signal" then pyStr "Mute notifications"
  else if setting = pyStr "notification_include_signal_raw" then
    pyStr "Include raw in notification"
  else setting

def adminHelp : PyStr :=
  fstring
    [pyStr "⚙️ <b>Admin commands</b>\n",
      pyStr "/admin_accounts — Account list\n",
      pyStr "/admin_newaccount — Register a new account\n",
      pyStr "/admin_trades — Trades for an account\n",
      pyStr "/admin_flat — FLAT with strategy/market/gateway pickers (each has All) / one account\n",
      pyStr "/admin_rotate — Rotate token + unlink users\n",
      pyStr "/admin_settings — Broker settings\n",
      pyStr "/admin_magicmap — Edit strategy magic map\n",
      pyStr "/admin_crypto_symbols — Set crypto allowed symbols\n",
      pyStr "/admin_crypto_leverage — Set crypto max leverage\n",
      pyStr "/admin_max_orders — Set the default max open positions\n",
      pyStr "/admin_public_chats — Public broadcast chats\n",
      pyStr "/admin_private_reply_notify — Toggle private broadcast reply notify\n",
      pyStr "/admin_public_reply_notify — Toggle public broadcast reply notify\n",
      pyStr "/admin_linkaccount — Link a Telegram user to an account\n",
      pyStr "/admin_invite_url — One-tap invite link for an account"]

section
variable (sp : Spelling)

/-- How many users an account has, `len(a.get("linked_user_ids") or [])` of a list. -/
def linkedUsers (account : JsonObject) : Nat :=
  match field account "linked_user_ids" with
  | .arr users => users.length
  | _ => 0

/-- The table of `format_accounts_admin`. -/
def accountsTable (accounts : List JsonObject) : TextTable where
  headers := [pyStr "MARKET", pyStr "GATEWAY", pyStr "ACCOUNT", pyStr "NAME", pyStr "BALANCE",
    pyStr "USERS"]
  rows := accounts.map fun a =>
    [cell sp (field a "market"), cellOr sp (field a "gateway") "?",
      cell sp (field a "account_id"), cellOr sp (field a "account_name") "—",
      some (fmtNum sp (field a "account_balance")), some (number (linkedUsers a))]
  aligns := ["l", "l", "l", "l", "r", "r"]
  maxWidths := [none, none, some 24, some 20, none, none]

/-- `format_accounts_admin`. -/
def formatAccountsAdmin (accounts : List JsonObject) (page : PageDict) : Option PyStr :=
  if accounts.isEmpty then some (pyStr "📭 No accounts yet.")
  else
    (accountsTable sp accounts).render.map fun table =>
        fstring [pyStr "<b>📂 Accounts</b> (", pageRange page accounts.length, pyStr ")\n\n",
          table]

/-- `format_admin_trades`. -/
def formatAdminTrades (accountId : Json) (data : List JsonObject) (page : PageDict)
    (tzOffsetHours : Helpers.Hours) : Option PyStr :=
  (formatTrades sp data page tzOffsetHours).map fun trades =>
    fstring [pyStr "<b>Account</b> <code>", esc sp accountId, pyStr "</code>\n\n", trades]

/-- The table of `format_settings`. -/
def settingsTable (states : List JsonObject) : TextTable where
  headers := [pyStr "STATE", pyStr "SETTING"]
  rows := states.map fun s =>
    [cell sp (field s "state"), some (settingLabel (sp.str (field s "setting")))]

/-- `format_settings`. -/
def formatSettings (states : List JsonObject) : Option PyStr :=
  if states.isEmpty then some (pyStr "📭 No settings found.")
  else
    (settingsTable sp states).render.map fun table =>
        fstring [pyStr "<b>⚙️ Broker settings</b>\n\n", table,
          pyStr "\n\n<i>Tap a button below to toggle.</i>"]

/-- `format_account_created`. -/
def formatAccountCreated (account : JsonObject) (inviteUrl : Json) : PyStr :=
  let invite :=
    if truthy inviteUrl then
      fstring [pyStr "🔗 Invite link:\n<tg-spoiler>", esc sp inviteUrl,
        pyStr "</tg-spoiler>\n\n"]
    else []
  fstring [pyStr "✅ <b>Account created</b>\n• ID: <code>", esc sp (field account "account_id"),
    pyStr "</code>\n• Market: ", esc sp (field account "market"),
    pyStr "\n• Gateway: ", esc sp (field account "gateway"),
    pyStr "\n\n🔑 Link token:\n<tg-spoiler>", esc sp (field account "link_token"),
    pyStr "</tg-spoiler>\n\n", invite]

/-- `format_rotate_result`. -/
def formatRotateResult (result : JsonObject) : PyStr :=
  fstring [pyStr "🔑 New link token for <code>", esc sp (field result "account_id"),
    pyStr "</code>:\n<tg-spoiler><code>", esc sp (field result "link_token"),
    pyStr "</code></tg-spoiler>\n\n<i>Previous tokens have been revoked and every Telegram user ",
    pyStr "that was linked to this account has been unlinked. Send this new token to whoever ",
    pyStr "should have access now — the new token is the only way back in.</i>"]

/-- The account of an invite, if it is known. -/
def inviteWho (account : Option JsonObject) : PyStr :=
  match account with
  | none => []
  | some a =>
      fstring [pyStr "• Account: <code>", esc sp (field a "account_id"), pyStr "</code> (",
        esc sp (field a "market"), pyStr "/", esc sp (field a "gateway"), pyStr ")\n"]

/-- `format_invite_url`. -/
def formatInviteUrl (url : Json) (account : Option JsonObject) : PyStr :=
  fstring [pyStr "🔗 <b>Invite link</b>\n", inviteWho sp account, pyStr "\n<tg-spoiler>",
    esc sp url,
    pyStr "</tg-spoiler>\n\n<i>Send this to the end user. Opening it starts the bot and links ",
    pyStr "the account straight away — no UUID to type. It carries the link token, so share it ",
    pyStr "privately; /admin_rotate revokes it.</i>"]

/-- `format_magic_map_prompt`. -/
def formatMagicMapPrompt (currentValue : Json) : PyStr :=
  fstring [pyStr "⚙️ <b>Strategy magic map</b>\n\nCurrent value:\n<code>",
    if truthy currentValue then esc sp currentValue else pyStr "—",
    pyStr "</code>\n\nSend the new value as a JSON object mapping each strategy to its magic ",
    pyStr "number, e.g.\n<code>\x7b\"MT5_GOLD_M5_V1\": 20260409, \"MT5_MULTI_M5_V1\": ",
    pyStr "20260708\x7d</code>"]

/-- `format_magic_map_updated`. -/
def formatMagicMapUpdated (value : Json) : PyStr :=
  fstring [pyStr "✅ <b>Strategy magic map updated</b>\n\n<code>", esc sp value,
    pyStr "</code>\n\n<i>Workers apply the new map on their next connect.</i>"]

/-- `format_linked_account`. -/
def formatLinkedAccount (account : JsonObject) (telegramUserId : Int) : PyStr :=
  fstring [pyStr "✅ <b>Telegram user linked</b>\n• Account: <code>",
    esc sp (field account "account_id"), pyStr "</code> (", esc sp (field account "market"),
    pyStr "/", esc sp (field account "gateway"), pyStr ")\n• Telegram user: <code>",
    escapeQuoted (number telegramUserId), pyStr "</code>\n• Linked users now: ",
    escapeQuoted (number (linkedUsers account))]

end

end AdminMessages

/-- `format_exit_prompt`. -/
def formatExitPrompt (sp : Spelling) (trade : JsonObject) : PyStr :=
  fstring [pyStr "⚠️ Close <b>", esc sp (field trade "symbol"), pyStr "</b> (<b>",
    esc sp (field trade "action"),
    pyStr "</b>) now?\n\n<i>This closes exactly this trade. Any other positions for strategy ",
    pyStr "<code>",
    esc sp (field trade "strategy"), pyStr "</code> on <code>", esc sp (field trade "symbol"),
    pyStr "</code> are not affected.</i>"]

end TradingBroker.Bot
