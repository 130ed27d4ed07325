import Mathlib.Data.String.Basic
import TradingBroker.Lib.Pages
import TradingBroker.Bot.Pagination
import TradingBroker.Cards.Render

/-!
# The pages of a user's trades

`list_by_account` and `count_by_account` of `broker/db/repository/trade.py`, the endpoint that
answers with a page of one and the total of the other (`broker/api/telegram.py`), and the
bot's Next buttons over its answers. Every page is a query of its own, sorted by one column.
Nothing sorts ties, so Postgres may arrange them anew for every page: `trades_shown_once_iff`
says that a walk over the pages shows every trade once exactly if no ties lie across the
boundary of two pages.

What a query returns is a permutation of the account's trades that is sorted by the
column, cut to a page, and each page may be cut from another such permutation. For a walk
to show every trade once it is enough that the set of the first `m` rows is the same in
all of them for every boundary `m`, which is so exactly if the rows on either side of the
boundary differ in the column (`Lib.Pages.Clean`). If they do not, two arrangements that
swap the tie make one trade appear twice and the other not at all. Which offsets are asked
for does not depend on any of this: the endpoint answers with the total.
-/

namespace TradingBroker.Trades

open TradingBroker.Lib TradingBroker.Lib.Pages TradingBroker.Lib.Datetime
open TradingBroker.Lib.Numerals (tenPow)
open TradingBroker.Bot (Page nextPage nextPage_eq)
open TradingBroker.Cards (TradeRow TradeResponse)

/-! ## The columns a listing is sorted by -/

theorem int_trans (a b c : Int) (hab : decide (a ≤ b)) (hbc : decide (b ≤ c)) :
    decide (a ≤ c) := by
  simp only [decide_eq_true_eq] at hab hbc ⊢
  omega

theorem int_total (a b : Int) : decide (a ≤ b) || decide (b ≤ a) := by
  simp only [Bool.or_eq_true, decide_eq_true_eq]
  omega

def intKey : SortKey Int := ⟨fun a b => decide (a ≤ b), int_trans, int_total⟩

/-- Where a label of `tradestatusenum` is declared. -/
def enumsortorder : TradeStatus → Int
  | .opened => 0
  | .rejected => 1
  | .partiallyClosed => 2
  | .closed => 3
  | .flat => 4

/-- `_sortable`. The texts are sorted the way of the database's collation. -/
def sortable (collation : SortKey String) : List (String × SortKey TradeRow) :=
  [("updatedAt", intKey.comap fun r => r.updatedAt.microseconds),
   ("createdAt", intKey.comap fun r => r.createdAt.microseconds),
   ("status", intKey.comap fun r => enumsortorder r.status),
   ("symbol", collation.comap TradeRow.symbol)]

/-- `sort_expr`. -/
def sortExpr (collation : SortKey String) (order orderBy : String) : SortKey TradeRow :=
  let col := ((sortable collation).lookup orderBy).getD
    (intKey.comap fun r => r.updatedAt.microseconds)
  if order = "desc" then col.desc else col.asc

/-! ## The queries and the endpoint -/

/-- `trades`; the id is its primary key. -/
structure TradesTable where
  rows : List TradeRow
  primaryKey : (rows.map TradeRow.id).Nodup

def TradesTable.ofAccount (table : TradesTable) (accountId : String) : List TradeRow :=
  table.rows.filter fun r => r.accountId == accountId

/-- `PageMeta`. -/
structure PageMeta extends Page where
  order : String
  orderBy : String

section
variable (collation : SortKey String) (table : TradesTable) (accountId : String)

/-- `list_by_account`, as Postgres arranges the account's rows for this query. A negative limit
or offset is an error of the query, and that is an empty list. -/
def listByAccount (limit offset : Int) (order orderBy : String)
    (arranged : Arrangement (sortExpr collation order orderBy) (table.ofAccount accountId)) :
    List TradeRow :=
  if limit < 0 ∨ offset < 0 then [] else (arranged.list.drop offset.toNat).take limit.toNat

/-- `count_by_account`. -/
def countByAccount : Int := (table.ofAccount accountId).length

def pageMeta (limit offset : Int) (order orderBy : String) : PageMeta :=
  ⟨⟨countByAccount table accountId, limit, offset⟩, order, orderBy⟩

/-- `list_trades`; `none` is a 422. -/
def listTrades (limit offset : Int) (order orderBy : String)
    (arranged : Arrangement (sortExpr collation order orderBy) (table.ofAccount accountId)) :
    Option (List TradeResponse × PageMeta) :=
  if 1 ≤ limit ∧ limit ≤ 100 ∧ 0 ≤ offset ∧ order ∈ ["asc", "desc"] ∧
      orderBy ∈ ["updatedAt", "createdAt", "status", "symbol"] then
    some ((listByAccount collation table accountId limit offset order orderBy arranged).map
      TradeRow.response, pageMeta table accountId limit offset order orderBy)
  else none

/-- The Next button under the page at an offset. -/
def nextTrades (limit : Int) (order orderBy : String) (offset : Int) : Option Int :=
  nextPage (pageMeta table accountId limit offset order orderBy).toPage

/-- The pages at these offsets together are the account's trades, each once, however
Postgres arranges ties for each of the queries. -/
def ShownOnce (limit : Int) (order orderBy : String) (offsets : List Int) : Prop :=
  ∀ arranged : Int → Arrangement (sortExpr collation order orderBy) (table.ofAccount accountId),
    (offsets.flatMap fun o =>
      listByAccount collation table accountId limit o order orderBy (arranged o)).Perm
        (table.ofAccount accountId)

/-- No ties lie across the boundary of two pages. It is a condition on the column's
values, the order and the limit. -/
def BoundariesClean (limit : Int) (order orderBy : String) : Prop :=
  ∀ m, limit.toNat ∣ m →
    Lib.Pages.Clean (sortExpr collation order orderBy) (table.ofAccount accountId) m

end

/-! ## The walk over the pages -/

section
variable {collation : SortKey String} {table : TradesTable} {accountId : String} {limit : Int}
  {order orderBy : String}

theorem nextTrades_eq (hlimit : 1 ≤ limit) (o : Nat) :
    nextTrades table accountId limit order orderBy o =
      (nextOffset limit.toNat (table.ofAccount accountId).length o).map Int.ofNat := by
  have hlimit' : (limit.toNat : Int) = limit := by omega
  have hpage : (pageMeta table accountId limit o order orderBy).toPage =
      ⟨(table.ofAccount accountId).length, limit, o⟩ := rfl
  rw [nextTrades, hpage, nextPage_eq (by simp only; omega), nextOffset]
  simp only
  by_cases h : o + limit.toNat < (table.ofAccount accountId).length
  · rw [if_pos h, if_pos (by omega), Option.map_some, Option.some.injEq, Int.ofNat_eq_natCast]
    omega
  · rw [if_neg h, if_neg (by omega), Option.map_none]

theorem walk_nextTrades {os : List Nat} (hlimit : 1 ≤ limit)
    (hos : Walk (nextOffset limit.toNat (table.ofAccount accountId).length) 0 os) :
    Walk (nextTrades table accountId limit order orderBy) 0 (os.map Int.ofNat) :=
  hos.map fun o _ => nextTrades_eq hlimit o

theorem listByAccount_eq (hlimit : 1 ≤ limit) (o : Nat)
    (arranged : Arrangement (sortExpr collation order orderBy) (table.ofAccount accountId)) :
    listByAccount collation table accountId limit o order orderBy arranged =
      (arranged.list.drop o).take limit.toNat := by
  rw [listByAccount, if_neg (by omega), Int.toNat_natCast]

/-- The endpoint answers at every offset of the walk. -/
theorem listTrades_isSome (hlimit : 1 ≤ limit) (hlimit' : limit ≤ 100) (o : Nat)
    (horder : order ∈ ["asc", "desc"])
    (horderBy : orderBy ∈ ["updatedAt", "createdAt", "status", "symbol"])
    (arranged : Arrangement (sortExpr collation order orderBy) (table.ofAccount accountId)) :
    (listTrades collation table accountId limit o order orderBy arranged).isSome := by
  rw [listTrades, if_pos ⟨hlimit, hlimit', by omega, horder, horderBy⟩, Option.isSome_some]

theorem ofAccount_nodup : (table.ofAccount accountId).Nodup :=
  table.primaryKey.of_map.filter _

/-- The pages of the listing are the pages of the library. -/
theorem shownOnce_iff (hlimit : 1 ≤ limit) (os : List Nat) :
    ShownOnce collation table accountId limit order orderBy (os.map Int.ofNat) ↔
      ∀ arranged : Nat → Arrangement (sortExpr collation order orderBy)
        (table.ofAccount accountId),
          (shown arranged limit.toNat os).Perm (table.ofAccount accountId) := by
  constructor
  · intro h arranged
    have hperm := h fun o => arranged o.toNat
    rw [List.flatMap_map] at hperm
    have hpages : (os.flatMap fun o => listByAccount collation table accountId limit (Int.ofNat o)
        order orderBy (arranged (Int.ofNat o).toNat)) = shown arranged limit.toNat os :=
      List.flatMap_congr fun o _ => listByAccount_eq hlimit o (arranged o)
    rwa [hpages] at hperm
  · intro h arranged
    rw [List.flatMap_map]
    have hpages : (os.flatMap fun o => listByAccount collation table accountId limit (Int.ofNat o)
        order orderBy (arranged (Int.ofNat o))) =
          shown (fun o => arranged (Int.ofNat o)) limit.toNat os :=
      List.flatMap_congr fun o _ => listByAccount_eq hlimit o (arranged (Int.ofNat o))
    rw [hpages]
    exact h _

end

/-- For every table, account, sort key, direction and limit. -/
theorem trades_shown_once_iff (collation : SortKey String) (table : TradesTable)
    (accountId : String) (limit : Int) (order orderBy : String) (hlimit : 1 ≤ limit) :
    ∃ os : List Int, Walk (nextTrades table accountId limit order orderBy) 0 os ∧
      (∀ os', Walk (nextTrades table accountId limit order orderBy) 0 os' → os' = os) ∧
      (ShownOnce collation table accountId limit order orderBy os ↔
        BoundariesClean collation table accountId limit order orderBy) := by
  obtain ⟨os, hos⟩ := exists_walk (by omega : 0 < limit.toNat) (table.ofAccount accountId).length 0
  refine ⟨os.map Int.ofNat, walk_nextTrades hlimit hos, ?_, ?_⟩
  · intro os' hos'
    exact hos'.unique (walk_nextTrades hlimit hos)
  · rw [shownOnce_iff hlimit, shown_perm_iff ofAccount_nodup hos]
    rfl

/-! ## Two trades of one symbol -/

namespace Tied

def trade (id : RowId) : TradeRow := { Cards.Sample.row with id, accountId := "12345678" }

def table : TradesTable := ⟨[trade 1, trade 2], by decide⟩

theorem text_trans (a b c : String) (hab : decide (a ≤ b)) (hbc : decide (b ≤ c)) :
    decide (a ≤ c) := by
  simp only [decide_eq_true_eq] at hab hbc ⊢
  exact le_trans hab hbc

theorem text_total (a b : String) : decide (a ≤ b) || decide (b ≤ a) := by
  simp only [Bool.or_eq_true, decide_eq_true_eq]
  exact le_total a b

/-- Texts by code points. -/
def codePoints : SortKey String := ⟨fun a b => decide (a ≤ b), text_trans, text_total⟩

theorem sorted (i j : RowId) :
    [trade i, trade j].Pairwise fun a b => (sortExpr codePoints "asc" "symbol").le a b :=
  List.pairwise_pair.2 (decide_eq_true (le_refl "BTCUSDT"))

/-- The ties one way for the first page, the other way for all others. -/
def arranged (o : Int) :
    Arrangement (sortExpr codePoints "asc" "symbol") (table.ofAccount "12345678") :=
  if o = 0 then ⟨[trade 1, trade 2], .refl _, sorted 1 2⟩
  else ⟨[trade 2, trade 1], .swap _ _ _, sorted 2 1⟩

end Tied

/-- In pages of two. -/
theorem trades_shown_once_two :
    ∃ os : List Int, Walk (nextTrades Tied.table "12345678" 2 "asc" "symbol") 0 os ∧
      (∀ os', Walk (nextTrades Tied.table "12345678" 2 "asc" "symbol") 0 os' → os' = os) ∧
      (ShownOnce Tied.codePoints Tied.table "12345678" 2 "asc" "symbol" os ↔
        BoundariesClean Tied.codePoints Tied.table "12345678" 2 "asc" "symbol") :=
  trades_shown_once_iff Tied.codePoints Tied.table "12345678" 2 "asc" "symbol" (by decide)

/-- In pages of one, the first trade may be on both and the second on none. -/
theorem not_trades_shown_once :
    Walk (nextTrades Tied.table "12345678" 1 "asc" "symbol") 0 [0, 1] ∧
      ¬ ShownOnce Tied.codePoints Tied.table "12345678" 1 "asc" "symbol" [0, 1] := by
  refine ⟨.step (by decide +kernel) (.last (by decide +kernel)), fun h => ?_⟩
  have hperm : [Tied.trade 1, Tied.trade 1].Perm [Tied.trade 1, Tied.trade 2] := h Tied.arranged
  have hids : [1, 1].Perm [1, 2] := hperm.map TradeRow.id
  revert hids
  decide

end TradingBroker.Trades
