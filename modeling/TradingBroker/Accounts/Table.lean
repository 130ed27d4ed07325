import Mathlib.Data.List.Sort
import Mathlib.Logic.Relation
import TradingBroker.Trades.Table

/-!
# Accounts and who may drive them

`broker/db/models.py` from `Account` on, and `broker/db/repository/account.py`: the
accounts, the links of bot users to them, the secrets that grant a link, and the
account each user has selected. A method of the repository is one transaction or a
few; each is given here by the tables it ends with, and Postgres refuses it if they
break a constraint. A method that is refused logs that and changes nothing.

What a caller may not rely on is left open. The UUIDs and instants a method draws
are in its `Draw`, rows come in any order where no order is asked for
(`Db.Rearranged`), and a call may be overtaken between its transactions, whose last
one then runs against other tables than were read (`Step.repair`, `Step.drop`). A
`Db` is a set of tables together with the proof that they meet the constraints, so
whatever is true of every `Db` is true of every database that any calls lead to.
-/

namespace TradingBroker.Accounts

open TradingBroker.Lib
open TradingBroker.Trades (Account Trade textFits accountsOk tradesOk)

/-! ## Rows -/

/-- `BotPlatformTypeEnum`. -/
inductive BotPlatform where
  | telegram
  deriving DecidableEq

/-- Whom a method is called for. -/
structure BotUser where
  platform : BotPlatform
  telegramUserId : Int
  deriving DecidableEq

def BotUser.platformUserId (u : BotUser) : String := toString u.telegramUserId

structure AccountBotLink where
  id : RowId
  accountId : RowId
  platform : BotPlatform
  platformUserId : String
  tradeCardsEnabled : Bool
  deriving DecidableEq

/-- A secret; `token` is its UUID. -/
structure AccountLinkToken where
  id : RowId
  accountId : RowId
  token : RowId
  expiresAt : Option Int
  revokedAt : Option Int
  lastUsedAt : Option Int

structure BotSession where
  id : RowId
  platform : BotPlatform
  platformUserId : String
  activeAccountId : Option RowId

/-- The tables; `createdAt` and `settings` are two more columns of `accounts`. -/
structure Tables where
  accounts : List Account
  createdAt : RowId → Int
  settings : RowId → JsonObject
  trades : List Trade
  links : List AccountBotLink
  tokens : List AccountLinkToken
  sessions : List BotSession

namespace Tables

variable (t : Tables)

/-- The accounts foreign keys may name. -/
def accountIds : List RowId := t.accounts.map Account.id

/-- `uq_account_bot_links_platform_user_account`. An id of a platform's user is a numeral, of which
a column cuts nothing. -/
def linksOk : Bool :=
  t.links.all (fun l => textFits 64 l.platformUserId && t.accountIds.contains l.accountId) &&
    decide (t.links.map AccountBotLink.id).Nodup &&
    decide (t.links.map fun l => (l.platform, l.platformUserId, l.accountId)).Nodup

def tokensOk : Bool :=
  t.tokens.all (fun k => t.accountIds.contains k.accountId) &&
    decide (t.tokens.map AccountLinkToken.id).Nodup &&
    decide (t.tokens.map AccountLinkToken.token).Nodup

/-- `uq_bot_sessions_platform_user`. -/
def sessionsOk : Bool :=
  t.sessions.all (fun s =>
      textFits 64 s.platformUserId && s.activeAccountId.all t.accountIds.contains) &&
    decide (t.sessions.map BotSession.id).Nodup &&
    decide (t.sessions.map fun s => (s.platform, s.platformUserId)).Nodup

def ok : Bool :=
  accountsOk t.accounts && tradesOk t.trades && t.linksOk && t.tokensOk && t.sessionsOk

end Tables

/-- Tables whose rows meet the constraints. -/
structure Db extends Tables where
  ok : toTables.ok = true

/-- A transaction ends with these tables, or is refused and changes nothing. -/
def Db.commit (t : Tables) : Option Db :=
  if h : t.ok = true then some ⟨t, h⟩ else none

/-- What a method draws from outside: the ids of rows it may insert, a new secret, and the
clock. -/
structure Draw extends Trades.Draw where
  linkRow : RowId
  sessionRow : RowId
  tokenRow : RowId
  token : RowId

/-! ## Accounts -/

/-- The lookup of `upsert_gateway` and `get_settings`: on this gateway, or on none yet. -/
def isAt (accountId : String) (market : MarketType) (gateway : String) (r : Account) : Bool :=
  r.accountId == accountId && r.market == market &&
    (r.gateway == some gateway || r.gateway.isNone)

/-- `_new_link_token`. -/
def newLinkToken (accountId : RowId) (x : Draw) : AccountLinkToken :=
  ⟨x.tokenRow, accountId, x.token, none, none, none⟩

namespace Tables

variable (t : Tables)

/-- A new row of `accounts` starts with the defaults of its other columns. -/
def insertAccount (r : Account) (now : Int) : Tables :=
  { t with
    accounts := t.accounts ++ [r]
    createdAt := Function.update t.createdAt r.id now
    settings := Function.update t.settings r.id [] }

def insertToken (k : AccountLinkToken) : Tables := { t with tokens := t.tokens ++ [k] }

/-- `create_account`; `none` if the account is there already. -/
def createAccount (accountId : String) (market : MarketType) (gateway : String)
    (accountName : Option String) (x : Draw) : Option Tables :=
  match t.accounts.find? fun r =>
      r.accountId == accountId && r.market == market && r.gateway == some gateway with
  | some _ => none
  | none =>
      let account : Account :=
        { id := x.accountRow, accountId, accountName, accountBalance := none, market
          gateway := some gateway, lastActivityAt := some x.now }
      some ((t.insertAccount account.stored x.now).insertToken (newLinkToken account.id x))

/-- `upsert_gateway`; `none` if there is nothing to write. -/
def upsertGateway (accountId : String) (market : MarketType) (gateway : String) (x : Draw) :
    Option Tables :=
  match t.accounts.find? (isAt accountId market gateway) with
  | some row =>
      if row.market = market ∧ row.gateway = some gateway then none
      else
        let row' : Account := { row with market, gateway := some gateway }
        some { t with
          accounts := replaceFirst (isAt accountId market gateway) row'.stored t.accounts }
  | none =>
      let account : Account :=
        { id := x.accountRow, accountId, accountName := none, accountBalance := none, market
          gateway := some gateway, lastActivityAt := some x.now }
      some ((t.insertAccount account.stored x.now).insertToken (newLinkToken account.id x))

/-- `_upsert_account` within these tables. -/
def upsertAccount (e : PositionEvent) (x : Draw) : Tables :=
  match t.accounts.find? (Account.isOf (Trades.position e)) with
  | some _ => { t with accounts := Trades.upsertAccount e x.accountRow x.now t.accounts }
  | none => t.insertAccount (Account.ofEvent e x.accountRow x.now).stored x.now

/-- The rows of `trades` that `upsert_by_position_event` ends with; `none` if the action of a
first report is no value of its column. -/
def upsertTrade (e : PositionEvent) (status : TradeStatus) (x : Draw) : Option (List Trade) :=
  match t.trades.find? (Trade.isOf (Trades.position e)) with
  | some row =>
      if TradeStatusPolicy.isDowngrade status row.status then some t.trades
      else
        some (replaceFirst (Trade.isOf (Trades.position e)) (row.update e status).stored t.trades)
  | none => (Trade.ofEvent e status x.tradeRow).map fun row => t.trades ++ [row.stored]

/-- `upsert_by_position_event`; `none` if there is nothing to write, or it raises first. -/
def upsertByPositionEvent (e : PositionEvent) (x : Draw) : Option Tables :=
  (TradeStatusPolicy.toTradeStatus e.status).bind fun status =>
    (t.upsertTrade e status x).map fun trades => { t.upsertAccount e x with trades }

/-- `get_settings`. -/
def getSettings (accountId : String) (market : MarketType) (gateway : String) : JsonObject :=
  match t.accounts.find? (isAt accountId market gateway) with
  | some row => t.settings row.id
  | none => []

/-- `||` on two `jsonb` objects. -/
def merge (settings patch : JsonObject) : JsonObject :=
  settings.filter (fun kv => !patch.any fun kv' => kv'.1 == kv.1) ++ patch

/-- `update_settings`. -/
def updateSettings (account : RowId) (patch : JsonObject) : Tables :=
  { t with settings := Function.update t.settings account (merge (t.settings account) patch) }

/-! ## Links, tokens and sessions -/

end Tables

def AccountBotLink.isOf (u : BotUser) (l : AccountBotLink) : Bool :=
  l.platform == u.platform && l.platformUserId == u.platformUserId

def BotSession.isOf (u : BotUser) (s : BotSession) : Bool :=
  s.platform == u.platform && s.platformUserId == u.platformUserId

/-- Neither revoked nor expired. -/
def AccountLinkToken.isValid (now : Int) (k : AccountLinkToken) : Bool :=
  k.revokedAt.isNone && k.expiresAt.all fun expiresAt => now < expiresAt

namespace Tables

variable (t : Tables)

/-- The user holds a link to the account. -/
def isLinked (u : BotUser) (account : RowId) : Bool :=
  t.links.any fun l => l.accountId == account && l.isOf u

/-- The account the user's session names. -/
def selected (u : BotUser) : Option RowId :=
  (t.sessions.find? (BotSession.isOf u)).bind BotSession.activeAccountId

/-- `last_activity_at` descending, nulls first as Postgres has it, then `createdAt`. -/
def listedBefore (a b : Account) : Bool :=
  match a.lastActivityAt, b.lastActivityAt with
  | none, some _ => true
  | some _, none => false
  | none, none => t.createdAt a.id ≤ t.createdAt b.id
  | some m, some n => n < m || (m == n && t.createdAt a.id ≤ t.createdAt b.id)

/-- Accounts in that order. -/
def listed (p : Account → Bool) : List Account :=
  (t.accounts.filter p).insertionSort fun a b => t.listedBefore a b = true

/-- `list_by_telegram_user_id`. -/
def listByTelegramUserId (u : BotUser) : List Account := t.listed fun a => t.isLinked u a.id

/-- The session of the user is pointed at the account, or made. -/
def pointAt (u : BotUser) (account : Option RowId) (x : Draw) : Tables :=
  match t.sessions.find? (BotSession.isOf u) with
  | some s =>
      { t with
        sessions := replaceFirst (BotSession.isOf u) { s with activeAccountId := account }
          t.sessions }
  | none =>
      { t with
        sessions := t.sessions ++ [⟨x.sessionRow, u.platform, u.platformUserId, account⟩] }

/-- The lookup of `get_active_account` and `set_active_account`: the account if it is linked. -/
def linkedAccount (u : BotUser) (account : RowId) : Option Account :=
  t.accounts.find? fun a => a.id == account && t.isLinked u a.id

/-- `set_active_account`. -/
def setActiveAccount (u : BotUser) (account : RowId) (x : Draw) : Option (Account × Tables) :=
  (t.linkedAccount u account).map fun a => (a, t.pointAt u (some a.id) x)

def addLink (u : BotUser) (account : RowId) (x : Draw) : Tables :=
  if t.isLinked u account then t
  else { t with
    links := t.links ++ [⟨x.linkRow, account, u.platform, u.platformUserId, false⟩] }

/-- What `link_telegram` and `admin_link_telegram` share: the link, and the session if it
selects nothing. -/
def link (u : BotUser) (account : RowId) (x : Draw) : Tables :=
  let t' := t.addLink u account x
  match t.selected u with
  | none => t'.pointAt u (some account) x
  | some _ => t'

/-- `admin_link_telegram`. -/
def adminLinkTelegram (account : RowId) (u : BotUser) (x : Draw) : Option (Account × Tables) :=
  (t.accounts.find? fun a => a.id == account).map fun a => (a, t.link u a.id x)

/-- `link_telegram`. -/
def linkTelegram (token : RowId) (u : BotUser) (x : Draw) : Option (Account × Tables) :=
  let known := fun k : AccountLinkToken => k.token == token && k.isValid x.now
  (t.tokens.find? known).bind fun k =>
    (t.accounts.find? fun a => a.id == k.accountId).map fun a =>
      let tokens := replaceFirst known { k with lastUsedAt := some x.now } t.tokens
      (a, { t with tokens }.link u a.id x)

/-- The transaction `unlink_telegram` ends with. -/
def dropLink (u : BotUser) (account : RowId) (x : Draw) : Tables :=
  let t' := { t with links := t.links.filter fun l => !(l.accountId == account && l.isOf u) }
  let remaining := (t'.listed fun a => t'.isLinked u a.id && a.id != account).head?
  match t.sessions.find? (BotSession.isOf u) with
  | some _ => t'.pointAt u (remaining.map Account.id) x
  | none => t'

/-- `rotate_link_token`, of the first account with that id. -/
def rotateLinkToken (accountId : String) (x : Draw) : Option (Account × Tables) :=
  (t.accounts.find? fun a => a.accountId == accountId).map fun a =>
    let tokens := t.tokens.map fun k =>
      if k.accountId == a.id && k.revokedAt.isNone then { k with revokedAt := some x.now } else k
    let sessions := t.sessions.map fun s =>
      if s.activeAccountId = some a.id then { s with activeAccountId := none } else s
    (a, { t with
      tokens := tokens ++ [newLinkToken a.id x]
      links := t.links.filter fun l => l.accountId != a.id
      sessions })

end Tables

/-! ## Methods of several transactions -/

namespace Db

variable (db : Db)

/-- `get_active_account`; a session that selects no account of the user is repaired, and if
that fails the answer stands. -/
def getActiveAccount (u : BotUser) (x : Draw) : Option Account × Db :=
  match (db.selected u).bind (db.linkedAccount u) with
  | some a => (some a, db)
  | none =>
      match (db.listByTelegramUserId u).head? with
      | some fallback => (some fallback, (commit (db.pointAt u (some fallback.id) x)).getD db)
      | none => (none, db)

/-- `unlink_telegram`. -/
def unlinkTelegram (u : BotUser) (x : Draw) : Bool × Db :=
  match db.getActiveAccount u x with
  | (some active, db') =>
      match commit (db'.dropLink u active.id x) with
      | some db'' => (true, db'')
      | none => (false, db')
  | (none, db') => (false, db')

end Db

/-! ## Calls -/

/-- A call of one of the methods. -/
inductive Op where
  | createAccount (accountId : String) (market : MarketType) (gateway : String)
      (accountName : Option String)
  | upsertGateway (accountId : String) (market : MarketType) (gateway : String)
  | upsertByPositionEvent (e : PositionEvent)
  | linkTelegram (token : RowId) (u : BotUser)
  | adminLinkTelegram (account : RowId) (u : BotUser)
  | setActiveAccount (u : BotUser) (account : RowId)
  | getActiveAccount (u : BotUser)
  | unlinkTelegram (u : BotUser)
  | rotateLinkToken (accountId : String)

/-- The tables a method of one transaction hands to Postgres. -/
def Op.writes (x : Draw) (t : Tables) : Op → Option Tables
  | .createAccount accountId market gateway accountName =>
      t.createAccount accountId market gateway accountName x
  | .upsertGateway accountId market gateway => t.upsertGateway accountId market gateway x
  | .upsertByPositionEvent e => t.upsertByPositionEvent e x
  | .linkTelegram token u => (t.linkTelegram token u x).map Prod.snd
  | .adminLinkTelegram account u => (t.adminLinkTelegram account u x).map Prod.snd
  | .setActiveAccount u account => (t.setActiveAccount u account x).map Prod.snd
  | .rotateLinkToken accountId => (t.rotateLinkToken accountId x).map Prod.snd
  | .getActiveAccount _ => none
  | .unlinkTelegram _ => none

/-- The database after a call. -/
def Op.apply (x : Draw) (db : Db) : Op → Db
  | .getActiveAccount u => (db.getActiveAccount u x).2
  | .unlinkTelegram u => (db.unlinkTelegram u x).2
  | op => ((op.writes x db.toTables).bind Db.commit).getD db

/-- Postgres promises no order of the rows of a query that asks for none. -/
structure Db.Rearranged (db db' : Db) : Prop where
  accounts : db.accounts.Perm db'.accounts
  trades : db.trades.Perm db'.trades
  rest : db'.toTables = { db.toTables with accounts := db'.accounts, trades := db'.trades }

/-- A call that `C` admits, or the last transaction of one that was overtaken after its reads. -/
inductive Step (C : Db → Op → Prop) : Db → Db → Prop
  | call {db : Db} (op : Op) (x : Draw) (h : C db op) : Step C db (op.apply x db)
  | repair {db db' : Db} (u : BotUser) (account : RowId) (x : Draw)
      (h : Db.commit (db.pointAt u (some account) x) = some db') : Step C db db'
  | drop {db db' : Db} (u : BotUser) (account : RowId) (x : Draw)
      (h : Db.commit (db.dropLink u account x) = some db') : Step C db db'
  | rearrange {db db' : Db} (h : db.Rearranged db') : Step C db db'

/-- Any number of them, in any order. -/
def Runs (C : Db → Op → Prop) : Db → Db → Prop := Relation.ReflTransGen (Step C)

def empty : Db := ⟨⟨[], fun _ => 0, fun _ => [], [], [], [], []⟩, rfl⟩

/-- What the call of that number draws. -/
def Sample.draw (n : Nat) : Draw := ⟨⟨n, n, n⟩, n, n, n, n⟩

/-! ## What a call leaves alone -/

theorem commit_eq {t : Tables} {db : Db} (h : Db.commit t = some db) : db.toTables = t := by
  unfold Db.commit at h
  split at h
  · cases h
    rfl
  · cases h

section
variable {t : Tables} {u : BotUser} {account : Option RowId} {a : RowId} {x : Draw}

theorem pointAt_frame : t.pointAt u account x =
    { t with sessions := (t.pointAt u account x).sessions } := by
  unfold Tables.pointAt
  split <;> rfl

theorem addLink_frame : t.addLink u a x = { t with links := (t.addLink u a x).links } := by
  unfold Tables.addLink
  split <;> rfl

theorem link_frame : t.link u a x =
    { t with links := (t.addLink u a x).links, sessions := (t.link u a x).sessions } := by
  unfold Tables.link
  split
  · rw [pointAt_frame, addLink_frame]
  · rw [addLink_frame]

theorem dropLink_frame : t.dropLink u a x =
    { t with
      links := t.links.filter fun l => !(l.accountId == a && l.isOf u)
      sessions := (t.dropLink u a x).sessions } := by
  unfold Tables.dropLink
  split
  · rw [pointAt_frame]
  · rfl

end

/-! ## Reports -/

theorem Db.accounts_trades_ok (db : Db) :
    accountsOk db.accounts = true ∧ tradesOk db.trades = true := by
  have hok := db.ok
  simp only [Tables.ok, Bool.and_eq_true] at hok
  exact ⟨hok.1.1.1.1, hok.1.1.1.2⟩

/-- The tables a report is written to. -/
def Db.store (db : Db) : Trades.Store :=
  ⟨db.accounts, db.trades, db.accounts_trades_ok.1, db.accounts_trades_ok.2⟩

theorem upsertAccount_accounts (t : Tables) (e : PositionEvent) (x : Draw) :
    (t.upsertAccount e x).accounts = Trades.upsertAccount e x.accountRow x.now t.accounts := by
  unfold Tables.upsertAccount
  split
  · rfl
  · next hnone =>
      unfold Trades.upsertAccount
      rw [hnone]
      rfl

/-- A report that is committed is written as `Trades.upsertByPositionEvent` has it. So what is
proved there of any sequence of reports is true of the reports among the calls here, where the
columns a report does not touch are told as well. -/
theorem report_committed {db db' : Db} {e : PositionEvent} {x : Draw}
    (h : (db.upsertByPositionEvent e x).bind Db.commit = some db') :
    ∃ answer s, Trades.upsertByPositionEvent e x.toDraw db.store = some (answer, s) ∧
      s.accounts = db'.accounts ∧ s.trades = db'.trades := by
  obtain ⟨t, ht, hcommit⟩ := Option.bind_eq_some_iff.1 h
  obtain ⟨status, hstatus, ht⟩ := Option.bind_eq_some_iff.1 ht
  obtain ⟨trades, htrades, rfl⟩ := Option.map_eq_some_iff.1 ht
  have heq := commit_eq hcommit
  have haccounts : db'.accounts = Trades.upsertAccount e x.accountRow x.now db.accounts := by
    rw [heq]
    exact upsertAccount_accounts db.toTables e x
  have hdbTrades : db'.trades = trades := by rw [heq]
  have hstore : Trades.Store.commit (Trades.upsertAccount e x.accountRow x.now db.accounts) trades =
      some db'.store := by
    unfold Trades.Store.commit
    rw [← haccounts, ← hdbTrades, dif_pos db'.accounts_trades_ok]
    rfl
  unfold Tables.upsertTrade at htrades
  unfold Trades.upsertByPositionEvent
  rw [hstatus]
  dsimp only [Db.store]
  cases hfind : db.trades.find? (Trade.isOf (Trades.position e)) with
  | some row =>
    rw [hfind] at htrades
    dsimp only at htrades ⊢
    split at htrades
    · next hdown =>
        cases htrades
        rw [if_pos hdown]
        exact ⟨_, _, congrArg (Option.map _) hstore, rfl, rfl⟩
    · next hup =>
        cases htrades
        rw [if_neg hup]
        exact ⟨_, _, congrArg (Option.map _) hstore, rfl, rfl⟩
  | none =>
    rw [hfind] at htrades
    obtain ⟨row, hrow, rfl⟩ := Option.map_eq_some_iff.1 htrades
    dsimp only
    rw [hrow]
    exact ⟨_, _, congrArg (Option.map _) hstore, rfl, rfl⟩

/-! ## Runs -/

/-- What every transaction keeps holds after any run. -/
theorem Runs.keeps {C : Db → Op → Prop} {P : Tables → Prop} {db db' : Db} (h : Runs C db db')
    (hstart : P db.toTables)
    (hcall : ∀ (db : Db) (op : Op) (x : Draw) (t : Tables), P db.toTables → C db op →
      op.writes x db.toTables = some t → P t)
    (hpoint : ∀ (t : Tables) (u : BotUser) (a : RowId) (x : Draw), P t →
      P (t.pointAt u (some a) x))
    (hdrop : ∀ (t : Tables) (u : BotUser) (a : RowId) (x : Draw), P t → P (t.dropLink u a x))
    (hmoved : ∀ db db' : Db, db.Rearranged db' → P db.toTables → P db'.toTables) :
    P db'.toTables := by
  have hget : ∀ (db : Db) (u : BotUser) (x : Draw), P db.toTables →
      P (db.getActiveAccount u x).2.toTables := by
    intro db u x hP
    unfold Db.getActiveAccount
    split
    · exact hP
    · split
      · next fallback _ =>
          cases hcommit : Db.commit (db.pointAt u (some fallback.id) x) with
          | none => exact hP
          | some db' =>
            have heq := commit_eq hcommit
            show P db'.toTables
            rw [heq]
            exact hpoint _ _ _ _ hP
      · exact hP
  have hunlink : ∀ (db : Db) (u : BotUser) (x : Draw), P db.toTables →
      P (db.unlinkTelegram u x).2.toTables := by
    intro db u x hP
    have hactive := hget db u x hP
    unfold Db.unlinkTelegram
    split
    · next active db₁ hdb₁ =>
        rw [hdb₁] at hactive
        split
        · next db₂ hdb₂ =>
            rw [commit_eq hdb₂]
            exact hdrop _ _ _ _ hactive
        · exact hactive
    · next db₁ hdb₁ =>
        rw [hdb₁] at hactive
        exact hactive
  have hwrite : ∀ (db : Db) (op : Op) (x : Draw), P db.toTables → C db op →
      P (((op.writes x db.toTables).bind Db.commit).getD db).toTables := by
    intro db op x hP hC
    cases hw : op.writes x db.toTables with
    | none => exact hP
    | some t =>
      cases hcommit : Db.commit t with
      | none =>
        rw [Option.bind_some, hcommit]
        exact hP
      | some db₁ =>
        rw [Option.bind_some, hcommit]
        show P db₁.toTables
        rw [commit_eq hcommit]
        exact hcall db op x t hP hC hw
  induction h with
  | refl => exact hstart
  | tail _ hstep ih =>
    cases hstep with
    | call op x hC =>
      cases op with
      | getActiveAccount u => exact hget _ _ _ ih
      | unlinkTelegram u => exact hunlink _ _ _ ih
      | createAccount accountId market gateway accountName => exact hwrite _ _ _ ih hC
      | upsertGateway accountId market gateway => exact hwrite _ _ _ ih hC
      | upsertByPositionEvent e => exact hwrite _ _ _ ih hC
      | linkTelegram token u => exact hwrite _ _ _ ih hC
      | adminLinkTelegram account u => exact hwrite _ _ _ ih hC
      | setActiveAccount u account => exact hwrite _ _ _ ih hC
      | rotateLinkToken accountId => exact hwrite _ _ _ ih hC
    | repair u account x hcommit =>
      rw [commit_eq hcommit]
      exact hpoint _ _ _ _ ih
    | drop u account x hcommit =>
      rw [commit_eq hcommit]
      exact hdrop _ _ _ _ ih
    | rearrange hmove => exact hmoved _ _ hmove ih

end TradingBroker.Accounts
