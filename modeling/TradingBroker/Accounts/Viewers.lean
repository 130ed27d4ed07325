import TradingBroker.Accounts.Access
import TradingBroker.Lib.Sql
import TradingBroker.Trades.Lifecycle

/-!
# Who gets a trade's card and who may see the trade

`list_broadcast_targets` (`broker/db/repository/trade_broadcast.py`) leaves out of its
query what it is not given, `get_for_telegram_user` (`trade.py`) compares columns that
may be null. They agree on a trade whose market and gateway are known; one whose gateway
was never reported goes to the users of every gateway and can be seen on none of them
(`targets_are_viewers_iff`).

SQL's third truth value is what tells the queries apart. The first builds its `WHERE`
from the arguments that are not `None`, so a gateway that is missing restricts nothing;
in the second the missing gateway is a column that is compared, and a comparison with
`NULL` is never true. Both are given as the queries the source builds, over `Lib.Sql`,
and each is first turned into what it finds (`mem_targets`, `viewer_iff`). The rest is a
comparison of the two, case by case in what the trade's row says.
-/

namespace TradingBroker.Accounts

open TradingBroker.Lib
open TradingBroker.Trades (Account Trade)

/-! ## The two queries -/

namespace Tables

variable (t : Tables)

/-- `account_filters`. -/
def accountFilters (accountId : String) (market : Option MarketType) (gateway : Option String)
    (a : Account) : List Sql.Truth :=
  [Sql.eq (some a.accountId) (some accountId)] ++
    (market.map fun m => Sql.eq (some a.market) (some m)).toList ++
    (gateway.map fun g => Sql.or (Sql.eq a.gateway (some g)) (Sql.isNull a.gateway)).toList

/-- `list_broadcast_targets`. -/
def listBroadcastTargets (accountId : String) (market : Option MarketType)
    (gateway : Option String) (platform : BotPlatform) : List String :=
  (t.links.flatMap fun l =>
    (t.accounts.filter fun a => Sql.holds (Sql.all
      ([Sql.eq (some a.id) (some l.accountId), Sql.eq (some l.platform) (some platform),
        some l.tradeCardsEnabled] ++ accountFilters accountId market gateway a))).map
      fun _ => l.platformUserId).eraseDups

/-- The join of `get_for_telegram_user`. -/
def owns (r : Trade) (a : Account) : Sql.Truth :=
  Sql.and (Sql.and (Sql.eq (some a.accountId) (some r.accountId)) (Sql.eq (some a.market) r.market))
    (Sql.or (Sql.eq a.gateway r.gateway) (Sql.isNull a.gateway))

/-- `get_for_telegram_user`. -/
def getForTelegramUser (trade : RowId) (u : BotUser) : Option Trade :=
  (t.trades.flatMap fun r => t.accounts.flatMap fun a =>
    (t.links.filter fun l => Sql.holds (Sql.all
      [owns r a, Sql.eq (some l.accountId) (some a.id), Sql.eq (some r.id) (some trade),
        Sql.eq (some l.platform) (some u.platform),
        Sql.eq (some l.platformUserId) (some u.platformUserId)])).map fun _ => r).head?

end Tables

/-! ## What is promised -/

/-- A user gets the card of the trade exactly if one of their links with cards on lets them see
the trade. -/
def TargetsAreViewers (db : Db) (r : Trade) : Prop :=
  ∀ u : BotUser, u.platformUserId ∈
      db.listBroadcastTargets r.accountId r.market r.gateway u.platform ↔
    ∃ l ∈ db.links, l.tradeCardsEnabled = true ∧
      { db.toTables with links := [l] }.getForTelegramUser r.id u = some r

/-- The user has cards on for an account of the kind. -/
def CardsOn (db : Db) (u : BotUser) (p : Account → Prop) : Prop :=
  ∃ l ∈ db.links, l.isOf u = true ∧ l.tradeCardsEnabled = true ∧
    ∃ a ∈ db.accounts, a.id = l.accountId ∧ p a

/-- The trade says what it is on: its market and its gateway. Or else whoever has cards
on for an account it may be of, has them on for one without a gateway; and nobody has,
if not even the market is known. It speaks of the tables only and of neither query. -/
def Addressed (db : Db) (r : Trade) : Prop :=
  ∀ u : BotUser,
    match r.market, r.gateway with
    | some _, some _ => True
    | some market, none =>
        CardsOn db u (fun a => a.accountId = r.accountId ∧ a.market = market) →
          CardsOn db u fun a => a.accountId = r.accountId ∧ a.market = market ∧ a.gateway = none
    | none, gateway => ¬ CardsOn db u fun a =>
        a.accountId = r.accountId ∧ (gateway = none ∨ a.gateway = gateway ∨ a.gateway = none)

/-! ## What the queries find -/

variable {db : Db} {t : Tables} {r : Trade} {u : BotUser} {l : AccountBotLink}

theorem isOf_iff : l.isOf u = true ↔ l.platform = u.platform ∧
    l.platformUserId = u.platformUserId := by
  rw [AccountBotLink.isOf, Bool.and_eq_true, beq_iff_eq, beq_iff_eq]

theorem mem_targets : u.platformUserId ∈
      db.listBroadcastTargets r.accountId r.market r.gateway u.platform ↔
    CardsOn db u fun a => a.accountId = r.accountId ∧ (∀ m, r.market = some m → a.market = m) ∧
      ∀ g, r.gateway = some g → a.gateway = some g ∨ a.gateway = none := by
  have hfilters : ∀ (l : AccountBotLink) (a : Account), Sql.holds (Sql.all
      ([Sql.eq (some a.id) (some l.accountId), Sql.eq (some l.platform) (some u.platform),
        some l.tradeCardsEnabled] ++
        Tables.accountFilters r.accountId r.market r.gateway a)) = true ↔
      a.id = l.accountId ∧ l.platform = u.platform ∧ l.tradeCardsEnabled = true ∧
        a.accountId = r.accountId ∧ (∀ m, r.market = some m → a.market = m) ∧
          ∀ g, r.gateway = some g → a.gateway = some g ∨ a.gateway = none := by
    intro l a
    have hflag : Sql.holds (some l.tradeCardsEnabled) = true ↔ l.tradeCardsEnabled = true := by
      cases l.tradeCardsEnabled <;> decide
    rw [Sql.holds_all]
    cases r.market <;> cases r.gateway <;>
      simp [Tables.accountFilters, hflag]
  rw [Tables.listBroadcastTargets, List.mem_eraseDups, List.mem_flatMap]
  constructor
  · rintro ⟨l, hl, hmem⟩
    obtain ⟨a, ha, huser⟩ := List.mem_map.1 hmem
    obtain ⟨ha, hholds⟩ := List.mem_filter.1 ha
    obtain ⟨hid, hplatform, hon, hrest⟩ := (hfilters l a).1 hholds
    exact ⟨l, hl, isOf_iff.2 ⟨hplatform, huser⟩, hon, a, ha, hid, hrest⟩
  · rintro ⟨l, hl, hof, hon, a, ha, hid, hrest⟩
    obtain ⟨hplatform, huser⟩ := isOf_iff.1 hof
    refine ⟨l, hl, List.mem_map.2 ⟨a, List.mem_filter.2 ⟨ha, ?_⟩, huser⟩⟩
    exact (hfilters l a).2 ⟨hid, hplatform, hon, hrest⟩

theorem holds_owns {a : Account} : Sql.holds (Tables.owns r a) = true ↔
    a.accountId = r.accountId ∧ r.market = some a.market ∧
      (a.gateway = none ∨ ∃ g, a.gateway = some g ∧ r.gateway = some g) := by
  rw [Tables.owns, Sql.holds_and, Sql.holds_and, Sql.holds_or, Sql.holds_eq_some, Sql.holds_eq,
    Sql.holds_eq, Sql.holds_isNull, Option.some.injEq]
  constructor
  · rintro ⟨⟨hid, m, hm, hmarket⟩, hor⟩
    cases hm
    exact ⟨hid, hmarket, hor.symm⟩
  · rintro ⟨hid, hmarket, hor⟩
    exact ⟨⟨hid, _, rfl, hmarket⟩, hor.symm⟩

/-- The query through one link finds the trade or nothing. -/
theorem getForTelegramUser_link (hr : r ∈ db.trades) :
    { db.toTables with links := [l] }.getForTelegramUser r.id u = some r ↔
      l.isOf u = true ∧ ∃ a ∈ db.accounts, a.id = l.accountId ∧
        Sql.holds (Tables.owns r a) = true := by
  have hids : (db.trades.map Trade.id).Nodup := by
    have hok := db.accounts_trades_ok.2
    simp only [Trades.tradesOk, Bool.and_eq_true, decide_eq_true_eq] at hok
    exact hok.1.2
  have hmem : ∀ r', r' ∈ (db.trades.flatMap fun r' => db.accounts.flatMap fun a =>
      ([l].filter fun l => Sql.holds (Sql.all
        [Tables.owns r' a, Sql.eq (some l.accountId) (some a.id), Sql.eq (some r'.id) (some r.id),
          Sql.eq (some l.platform) (some u.platform),
          Sql.eq (some l.platformUserId) (some u.platformUserId)])).map fun _ => r') ↔
      r' = r ∧ l.isOf u = true ∧ ∃ a ∈ db.accounts, a.id = l.accountId ∧
        Sql.holds (Tables.owns r a) = true := by
    intro r'
    simp only [List.mem_flatMap, List.mem_map, List.mem_filter, List.mem_singleton, Sql.holds_all,
      List.forall_mem_cons, forall_eq, Sql.holds_eq_some, Option.some.injEq, isOf_iff]
    constructor
    · rintro ⟨r₁, hr₁, a, ha, l', ⟨rfl, howns, hid, hsame, hplatform, huser⟩, rfl⟩
      cases List.inj_on_of_nodup_map hids hr₁ hr hsame
      exact ⟨rfl, ⟨hplatform, huser⟩, a, ha, hid.symm, howns⟩
    · rintro ⟨rfl, ⟨hplatform, huser⟩, a, ha, hid, howns⟩
      exact ⟨r', hr, a, ha, l, ⟨rfl, howns, hid.symm, rfl, hplatform, huser⟩, rfl⟩
  rw [Tables.getForTelegramUser]
  constructor
  · intro h
    exact ((hmem r).1 (List.mem_of_mem_head? h)).2
  · intro h
    have hin := (hmem r).2 ⟨rfl, h⟩
    cases hhead : (db.trades.flatMap fun r' => _).head? with
    | none =>
      rw [List.head?_eq_none_iff.1 hhead] at hin
      cases hin
    | some r' =>
      exact congrArg some ((hmem r').1 (List.mem_of_mem_head? hhead)).1

theorem viewer_iff (hr : r ∈ db.trades) : (∃ l ∈ db.links, l.tradeCardsEnabled = true ∧
      { db.toTables with links := [l] }.getForTelegramUser r.id u = some r) ↔
    CardsOn db u fun a => a.accountId = r.accountId ∧ r.market = some a.market ∧
      (a.gateway = none ∨ ∃ g, a.gateway = some g ∧ r.gateway = some g) := by
  refine exists_congr fun l => and_congr_right fun _ => ?_
  rw [getForTelegramUser_link hr]
  simp only [holds_owns, and_left_comm]

/-! ## Where they agree -/

theorem CardsOn.imp {p q : Account → Prop} (h : CardsOn db u p) (hpq : ∀ a, p a → q a) :
    CardsOn db u q := by
  obtain ⟨l, hl, hof, hon, a, ha, hid, hp⟩ := h
  exact ⟨l, hl, hof, hon, a, ha, hid, hpq a hp⟩

/-- The card of a trade goes to those who may see it exactly if the trade is addressed. -/
theorem targets_are_viewers_iff (hr : r ∈ db.trades) :
    TargetsAreViewers db r ↔ Addressed db r := by
  refine forall_congr' fun u => ?_
  rw [mem_targets, viewer_iff hr]
  cases hmarket : r.market with
  | none =>
    -- nobody can see a trade without a market
    dsimp only
    constructor
    · intro h hon
      obtain ⟨l, -, -, -, a, -, -, -, hnone, -⟩ :=
        h.1 (hon.imp fun a ha => ⟨ha.1, nofun, fun g hg => by
        rw [hg] at ha
        simpa using ha.2⟩)
      cases hnone
    · intro hoff
      constructor
      · intro h
        refine absurd (h.imp fun a ha => ⟨ha.1, ?_⟩) hoff
        cases hgateway : r.gateway with
        | none => exact .inl rfl
        | some g => exact .inr (ha.2.2 g hgateway)
      · intro h
        obtain ⟨l, -, -, -, a, -, -, -, hnone, -⟩ := h
        cases hnone
  | some market =>
    cases hgateway : r.gateway with
    | some gateway =>
      refine iff_of_true ⟨fun h => h.imp fun a ha => ?_, fun h => h.imp fun a ha => ?_⟩ trivial
      · have hm := ha.2.1 market rfl
        refine ⟨ha.1, by rw [hm], ?_⟩
        exact (ha.2.2 gateway rfl).symm.imp_right fun hg => ⟨gateway, hg, rfl⟩
      · obtain ⟨hid, hm, hor⟩ := ha
        cases hm
        refine ⟨hid, fun _ hm => (Option.some.inj hm), fun g hg => ?_⟩
        cases hg
        refine hor.symm.imp_left fun ⟨g, hg, heq⟩ => ?_
        rw [hg, heq]
    | none =>
      dsimp only
      constructor
      · intro h hon
        refine (h.1 (hon.imp fun a ha => ⟨ha.1, fun m hm => ?_, nofun⟩)).imp fun a ha => ?_
        · cases hm
          exact ha.2
        · obtain ⟨hid, hm, hor⟩ := ha
          cases hm
          refine ⟨hid, rfl, hor.resolve_right fun ⟨g, _, hg⟩ => ?_⟩
          cases hg
      · intro h
        refine ⟨fun hon => ?_, fun hon => hon.imp fun a ha => ?_⟩
        · refine (h (hon.imp fun a ha => ⟨ha.1, ha.2.1 market rfl⟩)).imp fun a ha => ?_
          exact ⟨ha.1, by rw [ha.2.1], .inl ha.2.2⟩
        · refine ⟨ha.1, fun m hm => ?_, nofun⟩
          rw [ha.2.1] at hm
          exact Option.some.inj hm

/-! ## A trade without a gateway -/

namespace Sample

/-- An account on a gateway, its user, and a trade that was reported with or without one. -/
def owned (gateway : Option String) : Tables where
  accounts := [{ id := 1, accountId := "1", accountName := none, accountBalance := none
                 market := .forex, gateway := some "MT5", lastActivityAt := none }]
  createdAt := fun _ => 0
  settings := fun _ => []
  trades := (Trades.Trade.ofEvent { Trades.Sample.report "OPENED" with gateway } .opened 1).toList
  links := [⟨1, 1, .telegram, "7", true⟩]
  tokens := []
  sessions := []

def ownedDb (gateway : Option String) (h : (owned gateway).ok = true) : Db := ⟨owned gateway, h⟩

end Sample

/-- A trade reported without a gateway, of an account that has one: its card goes to a user who
may not see it. -/
theorem not_targetsAreViewers :
    ¬ ∀ (db : Db) (r : Trade), r ∈ db.trades → TargetsAreViewers db r := by
  intro h
  let db := Sample.ownedDb none (by decide +kernel)
  have hlen : db.trades.length = 1 := by decide +kernel
  have hr : db.trades[0] ∈ db.trades := List.getElem_mem _
  have hiff := h db db.trades[0] hr ⟨.telegram, 7⟩
  have hcard : (⟨.telegram, 7⟩ : BotUser).platformUserId ∈ db.listBroadcastTargets
      db.trades[0].accountId db.trades[0].market db.trades[0].gateway .telegram := by
    decide +kernel
  obtain ⟨l, hl, -, hsees⟩ := hiff.1 hcard
  have hnobody : (db.links.all fun l => ({ db.toTables with links := [l] }.getForTelegramUser
      db.trades[0].id ⟨.telegram, 7⟩).isNone) = true := by decide +kernel
  have hnone := List.all_eq_true.1 hnobody l hl
  rw [hsees] at hnone
  cases hnone

theorem targets_are_viewers_named : ∃ r, r ∈ (Sample.owned (some "MT5")).trades ∧
    TargetsAreViewers (Sample.ownedDb (some "MT5") (by decide +kernel)) r := by
  let db := Sample.ownedDb (some "MT5") (by decide +kernel)
  have hlen : db.trades.length = 1 := by decide +kernel
  have hr : db.trades[0] ∈ db.trades := List.getElem_mem _
  refine ⟨db.trades[0], hr, (targets_are_viewers_iff hr).2 fun u => ?_⟩
  have hmarket : db.trades[0].market = some .forex := by decide +kernel
  have hgateway : db.trades[0].gateway = some "MT5" := by decide +kernel
  rw [hmarket, hgateway]
  trivial

end TradingBroker.Accounts
