import TradingBroker.Accounts.Table
import TradingBroker.Lib.Tagged
import TradingBroker.Trades.Lifecycle

/-!
# One row per identity

Accounts and trades are looked up by their gateway or by none, so that a row which was
written before the gateway was known is filled in. Two things break this. A row may be
put next to one it should have filled in: an account that is registered next to a row
without a gateway, a report that names none for an account whose row has one. And a
row may be stored under another text than it is looked up by: Postgres cuts blanks
that do not fit the column, so that the next call finds nothing and inserts again, or
meets the unique constraint. In every run in which neither happens (`KeepsApart`) a
lookup finds at most one row, and no write of a text that is not cut meets a unique
constraint (`one_per_identity`).

`Alone` is the shape of both tables: of the rows with one key there is at most one on
a gateway, and one without a gateway has no other beside it. From it a lookup by any
gateway finds at most one row. Each method is first reduced to what it does to the
rows, which is to leave them, to fill one in, or to append one that its lookup did not
find; `Alone` is then a matter of these three. A trade needs one fact of the other
table besides: if it is on a gateway, its account has one (`Sound.known`). That is how
a condition on the accounts excludes a trade whose two rows would stand side by side.
-/

namespace TradingBroker.Accounts

open TradingBroker.Lib
open TradingBroker.Trades (Account Trade Position)

/-! ## What is promised -/

/-- What a trade is told apart by, but for its gateway. -/
def tradeKey (r : Trade) : String × Option String × Option MarketType :=
  (r.accountId, r.refId, r.market)

def accountKey (r : Account) : String × MarketType := (r.accountId, r.market)

/-- The methods that insert accounts and trades. -/
def Op.creates : Op → Bool
  | .createAccount _ _ _ _ => true
  | .upsertGateway _ _ _ => true
  | .upsertByPositionEvent _ => true
  | _ => false

/-- The UUIDs a method draws are new. -/
structure Draw.Fresh (x : Draw) (t : Tables) : Prop where
  account : x.accountRow ∉ t.accounts.map Account.id
  trade : x.tradeRow ∉ t.trades.map Trade.id
  tokenRow : x.tokenRow ∉ t.tokens.map AccountLinkToken.id
  token : x.token ∉ t.tokens.map AccountLinkToken.token

/-- No two rows of these tables share what a unique constraint or a primary key is on. -/
structure Tables.Unique (t : Tables) : Prop where
  accounts : (t.accounts.filterMap Account.key).Nodup
  trades : (t.trades.filterMap Trade.key).Nodup
  accountIds : (t.accounts.map Account.id).Nodup
  tradeIds : (t.trades.map Trade.id).Nodup
  tokenIds : (t.tokens.map AccountLinkToken.id).Nodup
  tokens : (t.tokens.map AccountLinkToken.token).Nodup

/-- The texts rows are looked up by are stored as they are: `varchar` takes a text that
is too long only if the excess is blank, and cuts it. -/
def Op.Uncut : Op → Prop
  | .createAccount accountId _ gateway _ =>
      varchar 50 accountId = accountId ∧ varchar 50 gateway = gateway
  | .upsertGateway accountId _ gateway =>
      varchar 50 accountId = accountId ∧ varchar 50 gateway = gateway
  | .upsertByPositionEvent e => (Trades.position e).stored = Trades.position e
  | _ => True

/-- What is promised of a database: a lookup finds at most one row, no write of the
calls in `C` meets a unique constraint (so that Postgres refuses it for other reasons
only), and what is read for a worker are the settings that are written to its row. -/
structure OnePerIdentity (C : Op → Prop) (db : Db) : Prop where
  accounts : ∀ accountId market gateway,
    (db.accounts.filter (isAt accountId market gateway)).length ≤ 1
  trades : ∀ p : Position, (db.trades.filter (Trade.isOf p)).length ≤ 1
  unique : ∀ (op : Op) (x : Draw) (t : Tables), op.creates = true → C op → x.Fresh db.toTables →
    op.writes x db.toTables = some t → t.Unique
  settings : ∀ row ∈ db.accounts, ∀ gateway, isAt row.accountId row.market gateway row = true →
    ∀ patch, (db.updateSettings row.id patch).getSettings row.accountId row.market gateway =
      Tables.merge (db.settings row.id) patch

/-- The call does not put a row without a gateway and another of its account side by side. -/
def Op.Apart (db : Db) : Op → Prop
  | .createAccount accountId market _ _ =>
      ∀ r ∈ db.accounts, accountKey r = (accountId, market) → r.gateway ≠ none
  | .upsertByPositionEvent e =>
      e.gateway = none → (TradeStatusPolicy.toTradeStatus e.status).isSome = true →
        ∀ r ∈ db.accounts, accountKey r = (e.accountId, e.market) → r.gateway = none
  | _ => True

/-- The call stores what it is looked up by and does not put rows side by side. Both are
conditions on the call and the tables it finds. -/
def KeepsApart (db : Db) (op : Op) : Prop := op.Uncut ∧ op.Apart db

/-! ## The lookups -/

theorem isAt_eq (accountId : String) (market : MarketType) (gateway : String) :
    isAt accountId market gateway =
      matchesTag accountKey Account.gateway (accountId, market) (some gateway) := by
  funext r
  rw [Bool.eq_iff_iff, matchesTag_iff]
  simp only [isAt, accountKey, Bool.and_eq_true, Bool.or_eq_true, beq_iff_eq,
    Option.isNone_iff_eq_none, Prod.mk.injEq]

theorem account_isOf_eq (p : Position) :
    Account.isOf p = matchesTag accountKey Account.gateway (p.accountId, p.market) p.gateway := by
  funext r
  rw [Bool.eq_iff_iff, matchesTag_iff]
  simp only [Account.isOf, accountKey, Bool.and_eq_true, Bool.or_eq_true, beq_iff_eq,
    Option.isNone_iff_eq_none, Prod.mk.injEq]

theorem trade_isOf_eq (p : Position) :
    Trade.isOf p = matchesTag tradeKey Trade.gateway
      (p.accountId, some p.refSourceId, some p.market) p.gateway := by
  funext r
  rw [Bool.eq_iff_iff, matchesTag_iff]
  simp only [Trade.isOf, tradeKey, Bool.and_eq_true, Bool.or_eq_true, beq_iff_eq,
    Option.isNone_iff_eq_none, Prod.mk.injEq, and_assoc]

/-! ## The invariant -/

/-- The invariant of the runs: rows are apart in both tables, and a trade on a gateway
is of an account with one. -/
structure Sound (t : Tables) : Prop where
  accounts : Alone accountKey Account.gateway t.accounts
  trades : Alone tradeKey Trade.gateway t.trades
  known : ∀ r ∈ t.trades, r.gateway.isSome = true → ∀ market, r.market = some market →
    ∃ a ∈ t.accounts, accountKey a = (r.accountId, market) ∧ a.gateway.isSome = true

/-- Accounts that have a gateway still have one. -/
def Extends (rows rows' : List Account) : Prop :=
  ∀ a ∈ rows, a.gateway.isSome = true →
    ∃ a' ∈ rows', accountKey a' = accountKey a ∧ a'.gateway.isSome = true

theorem Sound.extend {t t' : Tables} (h : Sound t)
    (haccounts : Alone accountKey Account.gateway t'.accounts) (htrades : t'.trades = t.trades)
    (hext : Extends t.accounts t'.accounts) : Sound t' := by
  refine ⟨haccounts, ?_, ?_⟩
  · rw [htrades]
    exact h.trades
  · rw [htrades]
    intro r hr hsome market hmarket
    obtain ⟨a, ha, hkey, hgateway⟩ := h.known r hr hsome market hmarket
    obtain ⟨a', ha', hkey', hgateway'⟩ := hext a ha hgateway
    exact ⟨a', ha', hkey'.trans hkey, hgateway'⟩

theorem extends_append (rows later : List Account) : Extends rows (rows ++ later) :=
  fun a ha hsome => ⟨a, List.mem_append_left _ ha, rfl, hsome⟩

theorem extends_replaceFirst {p : Account → Bool} {old new : Account} {rows : List Account}
    (hfind : rows.find? p = some old) (hkey : accountKey new = accountKey old)
    (hsome : old.gateway.isSome = true → new.gateway.isSome = true) :
    Extends rows (replaceFirst p new rows) := by
  induction rows with
  | nil => cases hfind
  | cons a rows ih =>
    rw [replaceFirst]
    split
    · next hp =>
        rw [List.find?_cons_of_pos hp] at hfind
        cases hfind
        intro c hc hgateway
        rcases List.mem_cons.1 hc with rfl | hc
        · exact ⟨new, List.mem_cons_self, hkey, hsome hgateway⟩
        · exact ⟨c, List.mem_cons_of_mem _ hc, rfl, hgateway⟩
    · next hp =>
        rw [List.find?_cons_of_neg hp] at hfind
        intro c hc hgateway
        rcases List.mem_cons.1 hc with rfl | hc
        · exact ⟨c, List.mem_cons_self, rfl, hgateway⟩
        · obtain ⟨c', hc', hrest⟩ := ih hfind c hc hgateway
          exact ⟨c', List.mem_cons_of_mem _ hc', hrest⟩

/-! ## What each method does to the rows -/

section
variable {t t' : Tables} {x : Draw} {e : PositionEvent} {status : TradeStatus}
  {accountId gateway : String} {market : MarketType} {accountName : Option String}

/-- A method that inserts an account gives it what its columns keep of the key and the gateway it
was looked up for. -/
theorem createAccount_rows (h : t.createAccount accountId market gateway accountName x = some t') :
    ∃ r : Account, r.id = x.accountRow ∧ accountKey r = (varchar 50 accountId, market) ∧
      r.gateway = some (varchar 50 gateway) ∧ t'.accounts = t.accounts ++ [r] ∧
      t'.trades = t.trades ∧ t'.tokens = t.tokens ++ [newLinkToken r.id x] ∧
      ∀ a ∈ t.accounts, accountKey a = (accountId, market) → a.gateway ≠ some gateway := by
  unfold Tables.createAccount at h
  split at h
  · cases h
  · next hnone =>
      cases h
      refine ⟨_, rfl, ?_, ?_, rfl, rfl, rfl, fun a ha hkey hgateway => ?_⟩
      · rfl
      · rfl
      · obtain ⟨hid, hmarket⟩ := Prod.mk.inj hkey
        have hmiss := List.find?_eq_none.1 hnone a ha
        simp [hid, hmarket, hgateway] at hmiss

theorem upsertGateway_rows (h : t.upsertGateway accountId market gateway x = some t') :
    t'.trades = t.trades ∧
      ((∃ old new : Account, t.accounts.find? (isAt accountId market gateway) = some old ∧
          new.id = old.id ∧ accountKey new = (varchar 50 accountId, market) ∧
          new.gateway = some (varchar 50 gateway) ∧ t'.tokens = t.tokens ∧
          t'.accounts = replaceFirst (isAt accountId market gateway) new t.accounts) ∨
        (∃ r : Account, t.accounts.find? (isAt accountId market gateway) = none ∧
          r.id = x.accountRow ∧ accountKey r = (varchar 50 accountId, market) ∧
          r.gateway = some (varchar 50 gateway) ∧
          t'.tokens = t.tokens ++ [newLinkToken r.id x] ∧
          t'.accounts = t.accounts ++ [r])) := by
  unfold Tables.upsertGateway at h
  split at h
  · next row hrow =>
      split at h
      · cases h
      · cases h
        have hfound := List.find?_some hrow
        simp only [isAt, Bool.and_eq_true, beq_iff_eq] at hfound
        refine ⟨rfl, .inl ⟨row, _, hrow, ?_, ?_, ?_, rfl, rfl⟩⟩
        · rfl
        · show (varchar 50 row.accountId, market) = _
          rw [hfound.1.1]
        · rfl
  · next hnone =>
      cases h
      refine ⟨rfl, .inr ⟨_, hnone, ?_, ?_, ?_, ?_, rfl⟩⟩
      · rfl
      · rfl
      · rfl
      · rfl

/-- The account of a report. -/
theorem upsertAccount_rows (t : Tables) (e : PositionEvent) (x : Draw) :
    (∃ old new : Account, t.accounts.find? (Account.isOf (Trades.position e)) = some old ∧
        new.id = old.id ∧ accountKey new = (varchar 50 e.accountId, e.market) ∧
        new.gateway = (e.gateway.or old.gateway).map (varchar 50) ∧
        (t.upsertAccount e x).accounts =
          replaceFirst (Account.isOf (Trades.position e)) new t.accounts) ∨
      (∃ r : Account, t.accounts.find? (Account.isOf (Trades.position e)) = none ∧
        r.id = x.accountRow ∧ accountKey r = (varchar 50 e.accountId, e.market) ∧
        r.gateway = e.gateway.map (varchar 50) ∧
        (t.upsertAccount e x).accounts = t.accounts ++ [r]) := by
  cases hfind : t.accounts.find? (Account.isOf (Trades.position e)) with
  | some old =>
    have hfound := List.find?_some hfind
    rw [account_isOf_eq, matchesTag_iff] at hfound
    have hold : old.accountId = e.accountId := (Prod.mk.inj hfound.1).1
    refine .inl ⟨old, (old.update e x.now).stored, rfl, rfl, ?_, rfl, ?_⟩
    · show (varchar 50 old.accountId, e.market) = _
      rw [hold]
    · simp only [Tables.upsertAccount, hfind, Trades.upsertAccount]
  | none =>
    refine .inr ⟨(Account.ofEvent e x.accountRow x.now).stored, rfl, rfl, rfl, rfl, ?_⟩
    simp only [Tables.upsertAccount, hfind, Tables.insertAccount]

theorem upsertAccount_tokens : (t.upsertAccount e x).tokens = t.tokens := by
  unfold Tables.upsertAccount
  split <;> rfl

/-- The trade of a report. -/
theorem upsertTrade_rows {trades : List Trade} (h : t.upsertTrade e status x = some trades) :
    trades = t.trades ∨
      (∃ old new : Trade, t.trades.find? (Trade.isOf (Trades.position e)) = some old ∧
        new.id = old.id ∧
        tradeKey new = (varchar 50 e.accountId, some (varchar 255 e.refSourceId), some e.market) ∧
        new.gateway = (e.gateway.or old.gateway).map (varchar 50) ∧
        trades = replaceFirst (Trade.isOf (Trades.position e)) new t.trades) ∨
      (∃ r : Trade, t.trades.find? (Trade.isOf (Trades.position e)) = none ∧
        r.id = x.tradeRow ∧
        tradeKey r = (varchar 50 e.accountId, some (varchar 255 e.refSourceId), some e.market) ∧
        r.gateway = e.gateway.map (varchar 50) ∧ trades = t.trades ++ [r]) := by
  unfold Tables.upsertTrade at h
  split at h
  · next old hold =>
      split at h
      · cases h
        exact .inl rfl
      · cases h
        have hfound := List.find?_some hold
        rw [trade_isOf_eq, matchesTag_iff] at hfound
        have hid : old.accountId = e.accountId := (Prod.mk.inj hfound.1).1
        have href : old.refId = some e.refSourceId := (Prod.mk.inj (Prod.mk.inj hfound.1).2).1
        refine .inr (.inl ⟨old, (old.update e status).stored, hold, rfl, ?_, rfl, rfl⟩)
        show (varchar 50 old.accountId, old.refId.map (varchar 255), some e.market) = _
        rw [hid, href]
        rfl
  · next hnone =>
      obtain ⟨row, hrow, rfl⟩ := Option.map_eq_some_iff.1 h
      obtain ⟨action, -, rfl⟩ := Option.map_eq_some_iff.1 hrow
      exact .inr (.inr ⟨_, hnone, rfl, rfl, rfl, rfl⟩)

/-! ## Reports that are stored as they are -/

theorem uncut_report (h : (Trades.position e).stored = Trades.position e) :
    varchar 50 e.accountId = e.accountId ∧ varchar 255 e.refSourceId = e.refSourceId ∧
      e.gateway.map (varchar 50) = e.gateway := by
  simp only [Trades.Position.stored, Trades.position, Trades.Position.mk.injEq, true_and] at h
  exact ⟨h.2.1, h.2.2, h.1⟩

/-- A row that has the gateway of the report, or is given it, has it as it is. -/
theorem uncut_gateway {g old : Option String} (hg : g.map (varchar 50) = g)
    (hold : old = g ∨ old = none) : (g.or old).map (varchar 50) = g.or old := by
  rcases hold with rfl | rfl
  · rw [Option.or_self, hg]
  · rw [Option.or_none, hg]

theorem upsertAccount_uncut (t : Tables) (x : Draw)
    (huncut : (Trades.position e).stored = Trades.position e) :
    (∃ old new : Account, t.accounts.find? (Account.isOf (Trades.position e)) = some old ∧
        new.id = old.id ∧ accountKey new = (e.accountId, e.market) ∧
        new.gateway = e.gateway.or old.gateway ∧
        (t.upsertAccount e x).accounts =
          replaceFirst (Account.isOf (Trades.position e)) new t.accounts) ∨
      (∃ r : Account, t.accounts.find? (Account.isOf (Trades.position e)) = none ∧
        r.id = x.accountRow ∧ accountKey r = (e.accountId, e.market) ∧ r.gateway = e.gateway ∧
        (t.upsertAccount e x).accounts = t.accounts ++ [r]) := by
  obtain ⟨hid, -, hgw⟩ := uncut_report huncut
  have hrows := upsertAccount_rows t e x
  rw [hid, hgw] at hrows
  refine hrows.imp_left ?_
  rintro ⟨old, new, hfind, hnew, hkey, hgateway, haccounts⟩
  have hfound := List.find?_some hfind
  rw [account_isOf_eq, matchesTag_iff] at hfound
  exact ⟨old, new, hfind, hnew, hkey, hgateway.trans (uncut_gateway hgw hfound.2), haccounts⟩

theorem upsertTrade_uncut {trades : List Trade}
    (huncut : (Trades.position e).stored = Trades.position e)
    (h : t.upsertTrade e status x = some trades) :
    trades = t.trades ∨
      (∃ old new : Trade, t.trades.find? (Trade.isOf (Trades.position e)) = some old ∧
        new.id = old.id ∧ tradeKey new = (e.accountId, some e.refSourceId, some e.market) ∧
        new.gateway = e.gateway.or old.gateway ∧
        trades = replaceFirst (Trade.isOf (Trades.position e)) new t.trades) ∨
      (∃ r : Trade, t.trades.find? (Trade.isOf (Trades.position e)) = none ∧
        r.id = x.tradeRow ∧ tradeKey r = (e.accountId, some e.refSourceId, some e.market) ∧
        r.gateway = e.gateway ∧ trades = t.trades ++ [r]) := by
  obtain ⟨hid, href, hgw⟩ := uncut_report huncut
  have hrows := upsertTrade_rows h
  rw [hid, href, hgw] at hrows
  refine hrows.imp_right (Or.imp_left ?_)
  rintro ⟨old, new, hfind, hnew, hkey, hgateway, htrades⟩
  have hfound := List.find?_some hfind
  rw [trade_isOf_eq, matchesTag_iff] at hfound
  exact ⟨old, new, hfind, hnew, hkey, hgateway.trans (uncut_gateway hgw hfound.2), htrades⟩

/-! ## The invariant is kept -/

theorem sound_createAccount (h : Sound t) (hid : varchar 50 accountId = accountId)
    (hgw : varchar 50 gateway = gateway)
    (hC : ∀ r ∈ t.accounts, accountKey r = (accountId, market) → r.gateway ≠ none)
    (hw : t.createAccount accountId market gateway accountName x = some t') : Sound t' := by
  obtain ⟨r, -, hkey, hgateway, haccounts, htrades, -, hmiss⟩ := createAccount_rows hw
  rw [hid] at hkey
  rw [hgw] at hgateway
  refine h.extend ?_ htrades (haccounts ▸ extends_append _ _)
  rw [haccounts]
  refine alone_concat.2 ⟨h.accounts, fun a ha hsame => ?_⟩
  have hka : accountKey a = (accountId, market) := hsame.trans hkey
  refine ⟨Option.isSome_iff_ne_none.2 (hC a ha hka), ?_, ?_⟩
  · rw [hgateway]
    rfl
  · rw [hgateway]
    exact hmiss a ha hka

theorem sound_upsertGateway (h : Sound t) (hid : varchar 50 accountId = accountId)
    (hgw : varchar 50 gateway = gateway)
    (hw : t.upsertGateway accountId market gateway x = some t') : Sound t' := by
  obtain ⟨htrades, ⟨old, new, hfind, -, hkey, hgateway, -, haccounts⟩ |
    ⟨r, hfind, -, hkey, hgateway, -, haccounts⟩⟩ := upsertGateway_rows hw
  all_goals
    rw [hid] at hkey
    rw [hgw] at hgateway
  · rw [isAt_eq] at hfind haccounts
    have hfound := (matchesTag_iff.1 (List.find?_some hfind)).1
    refine h.extend ?_ htrades ?_
    · rw [haccounts]
      refine h.accounts.update hfind hkey ?_
      rw [hgateway]
      rfl
    · rw [haccounts]
      refine extends_replaceFirst hfind (hkey.trans hfound.symm) fun _ => ?_
      rw [hgateway]
      rfl
  · rw [isAt_eq] at hfind
    refine h.extend ?_ htrades (haccounts ▸ extends_append _ _)
    rw [haccounts]
    exact h.accounts.insert hfind hkey hgateway nofun

theorem sound_upsertAccount (h : Sound t)
    (huncut : (Trades.position e).stored = Trades.position e)
    (hC : e.gateway = none → ∀ r ∈ t.accounts, accountKey r = (e.accountId, e.market) →
      r.gateway = none) :
    Alone accountKey Account.gateway (t.upsertAccount e x).accounts ∧
      Extends t.accounts (t.upsertAccount e x).accounts ∧
      (e.gateway.isSome = true → ∃ a ∈ (t.upsertAccount e x).accounts,
        accountKey a = (e.accountId, e.market) ∧ a.gateway.isSome = true) := by
  rcases upsertAccount_uncut t x huncut with ⟨old, new, hfind, -, hkey, hgateway, haccounts⟩ |
    ⟨r, hfind, -, hkey, hgateway, haccounts⟩
  · rw [haccounts]
    refine ⟨?_, ?_, fun hsome => ⟨new, mem_replaceFirst hfind, hkey, ?_⟩⟩
    · rw [account_isOf_eq] at hfind ⊢
      exact h.accounts.update hfind hkey hgateway
    · have hfound := List.find?_some hfind
      rw [account_isOf_eq, matchesTag_iff] at hfound
      refine extends_replaceFirst hfind (hkey.trans hfound.1.symm) fun hsome => ?_
      rw [hgateway, Option.isSome_or, hsome, Bool.or_true]
    · rw [hgateway, Option.isSome_or, hsome, Bool.true_or]
  · rw [haccounts]
    refine ⟨?_, extends_append _ _, fun hsome => ⟨r, ?_, hkey, hgateway ▸ hsome⟩⟩
    · rw [account_isOf_eq] at hfind
      exact h.accounts.insert hfind hkey hgateway hC
    · exact List.mem_append_right _ (List.mem_singleton.2 rfl)

theorem sound_upsertTrade {trades : List Trade} (h : Sound t)
    (huncut : (Trades.position e).stored = Trades.position e)
    (hC : e.gateway = none → ∀ r ∈ t.accounts, accountKey r = (e.accountId, e.market) →
      r.gateway = none)
    (hw : t.upsertTrade e status x = some trades) :
    Sound { t.upsertAccount e x with trades } := by
  obtain ⟨haccounts, hext, hsome⟩ := sound_upsertAccount (x := x) h huncut hC
  have hbase : Sound { t.upsertAccount e x with trades := t.trades } := h.extend haccounts rfl hext
  -- the trade's own account has a gateway if the trade has
  have hown : ∀ r : Trade, tradeKey r = (e.accountId, some e.refSourceId, some e.market) →
      (e.gateway.isSome = true ∨ ∃ a ∈ (t.upsertAccount e x).accounts,
        accountKey a = (e.accountId, e.market) ∧ a.gateway.isSome = true) →
      ∀ market, r.market = some market → ∃ a ∈ (t.upsertAccount e x).accounts,
        accountKey a = (r.accountId, market) ∧ a.gateway.isSome = true := by
    intro r hkey hor market hmarket
    obtain ⟨hid, hrest⟩ := Prod.mk.inj hkey
    have hm := (Prod.mk.inj hrest).2
    rw [hmarket] at hm
    cases hm
    rw [hid]
    exact hor.elim hsome id
  rcases upsertTrade_uncut huncut hw with rfl | ⟨old, new, hfind, -, hkey, hgateway, rfl⟩ |
    ⟨r, hfind, -, hkey, hgateway, rfl⟩
  · exact hbase
  · rw [trade_isOf_eq] at hfind ⊢
    refine ⟨haccounts, h.trades.update hfind hkey hgateway, fun r hr hrsome market hmarket => ?_⟩
    rcases mem_of_mem_replaceFirst hr with rfl | hr
    · rw [hgateway, Option.isSome_or, Bool.or_eq_true] at hrsome
      refine hown r hkey (hrsome.imp_right fun hold => ?_) market hmarket
      have hmem := List.mem_of_find?_eq_some hfind
      obtain ⟨hid, hrest⟩ := Prod.mk.inj (matchesTag_iff.1 (List.find?_some hfind)).1
      obtain ⟨a, ha, hka, hga⟩ := hbase.known old hmem hold e.market (Prod.mk.inj hrest).2
      exact ⟨a, ha, hka.trans (by rw [hid]; rfl), hga⟩
    · exact hbase.known r hr hrsome market hmarket
  · rw [trade_isOf_eq] at hfind
    refine ⟨haccounts, h.trades.insert hfind hkey hgateway fun hnone r' hr' hkr' => ?_,
      fun r' hr' hrsome market hmarket => ?_⟩
    · -- a trade with a gateway would have an account with one
      by_contra hne
      obtain ⟨hid, hrest⟩ := Prod.mk.inj hkr'
      obtain ⟨a, ha, hka, hga⟩ := h.known r' hr' (Option.isSome_iff_ne_none.2 hne) e.market
        (Prod.mk.inj hrest).2
      have hnone' := hC hnone a ha (hka.trans (by rw [hid]; rfl))
      rw [hnone'] at hga
      cases hga
    · rcases List.mem_append.1 hr' with hr' | hr'
      · exact hbase.known r' hr' hrsome market hmarket
      · rw [List.mem_singleton.1 hr'] at hrsome hmarket ⊢
        rw [hgateway] at hrsome
        exact hown r hkey (.inl hrsome) market hmarket

theorem Sound.writes {db : Db} {op : Op} (h : Sound db.toTables) (hC : KeepsApart db op)
    (hw : op.writes x db.toTables = some t') : Sound t' := by
  have hframe : ∀ {links tokens sessions},
      Sound { db.toTables with links, tokens, sessions } := ⟨h.accounts, h.trades, h.known⟩
  cases op with
  | createAccount accountId market gateway accountName =>
      exact sound_createAccount h hC.1.1 hC.1.2 hC.2 hw
  | upsertGateway accountId market gateway => exact sound_upsertGateway h hC.1.1 hC.1.2 hw
  | upsertByPositionEvent e =>
    obtain ⟨status, hstatus, hw⟩ := Option.bind_eq_some_iff.1 hw
    obtain ⟨trades, htrades, rfl⟩ := Option.map_eq_some_iff.1 hw
    exact sound_upsertTrade h hC.1 (fun hnone => hC.2 hnone (by rw [hstatus]; rfl)) htrades
  | linkTelegram token u =>
    obtain ⟨⟨a, t'⟩, hlink, rfl⟩ := Option.map_eq_some_iff.1 hw
    obtain ⟨k, -, hlink⟩ := Option.bind_eq_some_iff.1 hlink
    obtain ⟨a', -, heq⟩ := Option.map_eq_some_iff.1 hlink
    cases heq
    rw [link_frame]
    exact hframe
  | adminLinkTelegram account u =>
    obtain ⟨⟨a, t'⟩, hlink, rfl⟩ := Option.map_eq_some_iff.1 hw
    obtain ⟨a', -, heq⟩ := Option.map_eq_some_iff.1 hlink
    cases heq
    rw [link_frame]
    exact hframe
  | setActiveAccount u account =>
    obtain ⟨⟨a, t'⟩, hset, rfl⟩ := Option.map_eq_some_iff.1 hw
    obtain ⟨a', -, heq⟩ := Option.map_eq_some_iff.1 hset
    cases heq
    rw [pointAt_frame]
    exact hframe
  | rotateLinkToken accountId =>
    obtain ⟨⟨a, t'⟩, hrotate, rfl⟩ := Option.map_eq_some_iff.1 hw
    obtain ⟨a', -, heq⟩ := Option.map_eq_some_iff.1 hrotate
    cases heq
    exact hframe
  | getActiveAccount u => cases hw
  | unlinkTelegram u => cases hw

theorem Sound.run {db db' : Db} (hrun : Runs KeepsApart db db') (h : Sound db.toTables) :
    Sound db'.toTables := by
  refine hrun.keeps h (fun db op x t h hC hw => h.writes hC hw) ?_ ?_ ?_
  · intro t u a x h
    rw [pointAt_frame]
    exact ⟨h.accounts, h.trades, h.known⟩
  · intro t u a x h
    rw [dropLink_frame]
    exact ⟨h.accounts, h.trades, h.known⟩
  · intro db db' hmoved h
    refine ⟨h.accounts.perm hmoved.accounts, h.trades.perm hmoved.trades, ?_⟩
    intro r hr hsome market hmarket
    obtain ⟨a, ha, hrest⟩ := h.known r (hmoved.trades.mem_iff.2 hr) hsome market hmarket
    exact ⟨a, hmoved.accounts.mem_iff.1 ha, hrest⟩

/-! ## Unique constraints -/

theorem account_key_some {a b : Account} (key : MarketType × String × String)
    (ha : a.key = some key) (hb : b.key = some key) :
    accountKey a = accountKey b ∧ a.gateway = b.gateway := by
  obtain ⟨g, hg, rfl⟩ := Option.map_eq_some_iff.1 ha
  obtain ⟨g', hg', heq⟩ := Option.map_eq_some_iff.1 hb
  simp only [Prod.mk.injEq] at heq
  obtain ⟨hmarket, hgateway, hid⟩ := heq
  rw [accountKey, accountKey, hmarket, hid, hg, hg', hgateway]
  exact ⟨rfl, rfl⟩

theorem trade_key_some {a b : Trade} (key : MarketType × String × String × String)
    (ha : a.key = some key) (hb : b.key = some key) :
    tradeKey a = tradeKey b ∧ a.gateway = b.gateway := by
  obtain ⟨m, hm, ha⟩ := Option.bind_eq_some_iff.1 ha
  obtain ⟨g, hg, ha⟩ := Option.bind_eq_some_iff.1 ha
  obtain ⟨f, hf, rfl⟩ := Option.map_eq_some_iff.1 ha
  obtain ⟨m', hm', hb⟩ := Option.bind_eq_some_iff.1 hb
  obtain ⟨g', hg', hb⟩ := Option.bind_eq_some_iff.1 hb
  obtain ⟨f', hf', heq⟩ := Option.map_eq_some_iff.1 hb
  simp only [Prod.mk.injEq] at heq
  obtain ⟨hmarket, hgateway, hid, href⟩ := heq
  rw [tradeKey, tradeKey, hid, hf, hf', hm, hm', hg, hg', href, hmarket, hgateway]
  exact ⟨rfl, rfl⟩

/-- The constraints hold of every database. -/
theorem Db.unique (db : Db) : db.toTables.Unique := by
  have hok := db.ok
  simp only [Tables.ok, Trades.accountsOk, Trades.tradesOk, Tables.tokensOk, Bool.and_eq_true,
    decide_eq_true_eq] at hok
  obtain ⟨⟨⟨⟨⟨⟨-, hids⟩, hkeys⟩, ⟨-, htradeIds⟩, htrades⟩, -⟩, ⟨-, htokenIds⟩, htokens⟩, -⟩ := hok
  exact ⟨hkeys, htrades, hids, htradeIds, htokenIds, htokens⟩

theorem nodup_concat_of_fresh {α : Type} {f : α → RowId} {rows : List α} {b : α}
    (h : (rows.map f).Nodup) (hb : f b ∉ rows.map f) : ((rows ++ [b]).map f).Nodup :=
  nodup_map_concat h fun _ ha heq => hb (heq ▸ List.mem_map_of_mem ha)

/-- A new version of a row found, or a row that is not there. -/
theorem accounts_unique {db : Db} (h : Sound db.toTables) (hx : x.Fresh db.toTables)
    {rows : List Account}
    (hrows : (∃ (k : String × MarketType) (g : Option String) (old new : Account),
        db.accounts.find? (matchesTag accountKey Account.gateway k g) = some old ∧
        new.id = old.id ∧ accountKey new = k ∧ new.gateway = g.or old.gateway ∧
        rows = replaceFirst (matchesTag accountKey Account.gateway k g) new db.accounts) ∨
      (∃ r : Account, r.id = x.accountRow ∧ rows = db.accounts ++ [r] ∧
        ∀ a ∈ db.accounts, accountKey a = accountKey r → a.gateway ≠ r.gateway)) :
    (rows.filterMap Account.key).Nodup ∧ (rows.map Account.id).Nodup := by
  rcases hrows with ⟨k, g, old, new, hfind, hid, hkey, htag, rfl⟩ | ⟨r, hid, rfl, hmiss⟩
  · refine ⟨(h.accounts.update hfind hkey htag).nodup_filterMap fun a b u => account_key_some u, ?_⟩
    rw [map_replaceFirst hfind hid]
    exact db.unique.accountIds
  · refine ⟨nodup_filterMap_concat db.unique.accounts hmiss fun a b u => account_key_some u, ?_⟩
    exact nodup_concat_of_fresh db.unique.accountIds (hid ▸ hx.account)

theorem not_matched {α κ τ : Type} [DecidableEq κ] [DecidableEq τ] {key : α → κ}
    {tag : α → Option τ} {rows : List α} {b : α} {k : κ} {g : Option τ}
    (h : rows.find? (matchesTag key tag k g) = none) (hkey : key b = k) (htag : tag b = g) :
    ∀ a ∈ rows, key a = key b → tag a ≠ tag b := by
  intro a ha hsame heq
  exact List.find?_eq_none.1 h a ha (matchesTag_iff.2 ⟨hsame.trans hkey, .inl (heq.trans htag)⟩)

theorem trades_unique {db : Db} {trades : List Trade} (h : Sound db.toTables)
    (huncut : (Trades.position e).stored = Trades.position e) (hx : x.Fresh db.toTables)
    (hw : db.upsertTrade e status x = some trades) :
    (trades.filterMap Trade.key).Nodup ∧ (trades.map Trade.id).Nodup := by
  rcases upsertTrade_uncut huncut hw with rfl | ⟨old, new, hfind, hid, hkey, htag, rfl⟩ |
    ⟨r, hfind, hid, hkey, htag, rfl⟩
  · exact ⟨db.unique.trades, db.unique.tradeIds⟩
  · rw [trade_isOf_eq] at hfind ⊢
    refine ⟨(h.trades.update hfind hkey htag).nodup_filterMap fun a b u => trade_key_some u, ?_⟩
    rw [map_replaceFirst hfind hid]
    exact db.unique.tradeIds
  · rw [trade_isOf_eq] at hfind
    refine ⟨nodup_filterMap_concat db.unique.trades (not_matched hfind hkey htag)
      fun a b u => trade_key_some u, ?_⟩
    exact nodup_concat_of_fresh db.unique.tradeIds (hid ▸ hx.trade)

/-- A token for a new account is one more, and a new one. -/
theorem tokens_unique {db : Db} {tokens : List AccountLinkToken} {a : RowId}
    (hx : x.Fresh db.toTables)
    (htokens : tokens = db.tokens ∨ tokens = db.tokens ++ [newLinkToken a x]) :
    (tokens.map AccountLinkToken.id).Nodup ∧ (tokens.map AccountLinkToken.token).Nodup := by
  rcases htokens with rfl | rfl
  · exact ⟨db.unique.tokenIds, db.unique.tokens⟩
  · exact ⟨nodup_concat_of_fresh db.unique.tokenIds hx.tokenRow,
      nodup_concat_of_fresh db.unique.tokens hx.token⟩

theorem writes_unique {db : Db} {op : Op} (h : Sound db.toTables) (hop : op.creates = true)
    (huncut : op.Uncut) (hx : x.Fresh db.toTables) (hw : op.writes x db.toTables = some t') :
      t'.Unique := by
  cases op with
  | createAccount accountId market gateway accountName =>
    obtain ⟨r, hid, hkey, hgateway, haccounts, htrades, htokens, hmiss⟩ := createAccount_rows hw
    rw [huncut.1] at hkey
    rw [huncut.2] at hgateway
    obtain ⟨hkeys, hids⟩ := accounts_unique h hx (.inr ⟨r, hid, haccounts, fun a ha hsame => by
      rw [hgateway]
      exact hmiss a ha (hsame.trans hkey)⟩)
    obtain ⟨htokenIds, htokens⟩ := tokens_unique hx (.inr htokens)
    exact ⟨hkeys, htrades ▸ db.unique.trades, hids, htrades ▸ db.unique.tradeIds, htokenIds,
      htokens⟩
  | upsertGateway accountId market gateway =>
    obtain ⟨htrades, hcases⟩ := upsertGateway_rows hw
    rw [huncut.1, huncut.2] at hcases
    rw [isAt_eq] at hcases
    have hrows : (t'.accounts.filterMap Account.key).Nodup ∧
      (t'.accounts.map Account.id).Nodup := by
      rcases hcases with ⟨old, new, hfind, hid, hkey, hgateway, -, haccounts⟩ |
        ⟨r, hfind, hid, hkey, hgateway, -, haccounts⟩
      · refine accounts_unique h hx (.inl ⟨_, _, old, new, hfind, hid, hkey, ?_, haccounts⟩)
        rw [hgateway]
        rfl
      · exact accounts_unique h hx (.inr ⟨r, hid, haccounts, not_matched hfind hkey hgateway⟩)
    have htokens : ∃ a, t'.tokens = db.tokens ∨ t'.tokens = db.tokens ++ [newLinkToken a x] := by
      rcases hcases with ⟨old, -, -, -, -, -, htokens, -⟩ | ⟨r, -, -, -, -, htokens, -⟩
      · exact ⟨old.id, .inl htokens⟩
      · exact ⟨r.id, .inr htokens⟩
    obtain ⟨a, htokens⟩ := htokens
    obtain ⟨htokenIds, htokens⟩ := tokens_unique hx htokens
    exact ⟨hrows.1, htrades ▸ db.unique.trades, hrows.2, htrades ▸ db.unique.tradeIds, htokenIds,
      htokens⟩
  | upsertByPositionEvent e =>
    obtain ⟨status, -, hw⟩ := Option.bind_eq_some_iff.1 hw
    obtain ⟨trades, htrades, rfl⟩ := Option.map_eq_some_iff.1 hw
    have hrows : ((db.upsertAccount e x).accounts.filterMap Account.key).Nodup ∧
        ((db.upsertAccount e x).accounts.map Account.id).Nodup := by
      have hcases := upsertAccount_uncut db.toTables x huncut
      rw [account_isOf_eq] at hcases
      rcases hcases with ⟨old, new, hfind, hid, hkey, hgateway, haccounts⟩ |
        ⟨r, hfind, hid, hkey, hgateway, haccounts⟩
      · exact accounts_unique h hx (.inl ⟨_, _, old, new, hfind, hid, hkey, hgateway, haccounts⟩)
      · exact accounts_unique h hx (.inr ⟨r, hid, haccounts, not_matched hfind hkey hgateway⟩)
    obtain ⟨htradeKeys, htradeIds⟩ := trades_unique h huncut hx htrades
    refine ⟨hrows.1, htradeKeys, hrows.2, htradeIds, ?_, ?_⟩
    · show ((db.upsertAccount e x).tokens.map _).Nodup
      rw [upsertAccount_tokens]
      exact db.unique.tokenIds
    · show ((db.upsertAccount e x).tokens.map _).Nodup
      rw [upsertAccount_tokens]
      exact db.unique.tokens
  | linkTelegram token u => cases hop
  | adminLinkTelegram account u => cases hop
  | setActiveAccount u account => cases hop
  | getActiveAccount u => cases hop
  | unlinkTelegram u => cases hop
  | rotateLinkToken accountId => cases hop

/-! ## Every run -/

theorem sound_empty : Sound empty.toTables :=
  ⟨.nil, .nil, fun _ hr => absurd hr List.not_mem_nil⟩

/-- In every run that keeps rows apart. -/
theorem one_per_identity {db : Db} (h : Runs KeepsApart empty db) :
    OnePerIdentity Op.Uncut db := by
  have hsound : Sound db.toTables := sound_empty.run h
  refine ⟨fun accountId market gateway => ?_, fun p => ?_,
    fun op x t hop huncut hx hw => writes_unique hsound hop huncut hx hw,
      fun row hrow gateway hat patch => ?_⟩
  · rw [isAt_eq]
    exact hsound.accounts.length_filter
  · rw [trade_isOf_eq]
    exact hsound.trades.length_filter
  · have hfind : db.accounts.find? (isAt row.accountId row.market gateway) = some row := by
      rw [isAt_eq] at hat ⊢
      exact hsound.accounts.find?_eq hrow hat
    have hsame : (db.updateSettings row.id patch).accounts = db.accounts := rfl
    rw [Tables.getSettings, hsame, hfind]
    exact Function.update_self ..

end

/-! ## Rows side by side -/

namespace Sample

/-- A report on an account that names no gateway. -/
def unnamed : PositionEvent := { Trades.Sample.report "OPENED" with gateway := none }

theorem uncut : (Op.upsertByPositionEvent (Trades.Sample.report "OPENED")).Uncut :=
  show (Trades.position (Trades.Sample.report "OPENED")).stored = _ by decide

def connected : Db := (Op.upsertGateway "1" .forex "MT5").apply (draw 1) empty

def traded : Db :=
    (Op.upsertByPositionEvent (Trades.Sample.report "OPENED")).apply (draw 2) connected

def unnamedTraded : Db := (Op.upsertByPositionEvent unnamed).apply (draw 2) connected

end Sample

theorem one_per_identity_traded : (Sample.traded.accounts.map Account.gateway = [some "MT5"]) ∧
    OnePerIdentity Op.Uncut Sample.traded := by
  have hconnected : Runs KeepsApart empty Sample.connected :=
    .tail .refl
      (.call (.upsertGateway "1" .forex "MT5") (Sample.draw 1) ⟨⟨by decide, by decide⟩, trivial⟩)
  exact ⟨by decide +kernel, one_per_identity (.tail hconnected
    (.call (.upsertByPositionEvent (Trades.Sample.report "OPENED")) (Sample.draw 2)
      ⟨Sample.uncut, nofun⟩))⟩

/-- A worker that has announced its gateway reports a trade without it: its account now has two
rows. -/
theorem not_onePerIdentity :
    ¬ ∀ db, Runs (fun _ op => op.creates = true) empty db →
      OnePerIdentity (fun _ => True) db := by
  intro h
  have hconnected : Runs (fun _ op => op.creates = true) empty Sample.connected :=
    .tail .refl (.call (.upsertGateway "1" .forex "MT5") (Sample.draw 1) rfl)
  have hone := (h Sample.unnamedTraded (.tail hconnected
    (.call (.upsertByPositionEvent Sample.unnamed) (Sample.draw 2) rfl))).accounts "1" .forex "MT5"
  have htwo : (Sample.unnamedTraded.accounts.filter (isAt "1" .forex "MT5")).length = 2 := by
    decide +kernel
  omega

end TradingBroker.Accounts
