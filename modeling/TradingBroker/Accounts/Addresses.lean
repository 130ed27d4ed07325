import TradingBroker.Accounts.Table
import TradingBroker.Handshake.Consumer

/-!
# The addresses of a worker

A worker is addressed by the market, the gateway and the id of its account, joined by hyphens
on the shared subject (`compose_worker_id`) and by full stops in a subject of its own
(`compose_admin_subject`). The gateway and the id are any texts that fit their columns, so
they may hold a separator, and then two accounts may have one address: `addresses_apart_iff`
says which do, and which bare ids `decompose_worker_id` takes for worker ids.

Each address is a text with two separators, and two such texts are equal in two ways only:
part by part, or with the cut in another place, so that what follows the gateway of one
account is the beginning of the id of the other (`joined_eq_iff`). A market holds neither
separator, so there is no third way. A worker id is taken apart by the prefix its own
account would give it, which always works; a bare id is mistaken for a worker id if it
begins with that prefix.
-/

namespace TradingBroker.Accounts

open TradingBroker.Settings (composeAdminSubject)
open TradingBroker.Handshake (decomposeWorkerId)

/-- The account of a worker, as `accounts` can hold it. -/
@[ext] structure WorkerAccount where
  market : MarketType
  gateway : String
  accountId : String
  gatewayFits : Trades.textFits 50 gateway = true
  accountIdFits : Trades.textFits 50 accountId = true

def WorkerAccount.workerId (w : WorkerAccount) : String :=
  composeWorkerId w.market w.gateway w.accountId

def WorkerAccount.adminSubject (w : WorkerAccount) : String :=
  composeAdminSubject w.market w.gateway w.accountId

def WorkerAccount.decompose (w : WorkerAccount) (workerId : String) : String :=
  decomposeWorkerId workerId w.market w.gateway

/-- The gateway of `w'` is that of `w` with something more behind a separator, and with
that the id of `w` begins, the id of `w'` behind it: the two joined texts are the same,
cut in different places. -/
def Continues (sep : Char) (w w' : WorkerAccount) : Prop :=
  ∃ more, w'.gateway.toList = w.gateway.toList ++ sep :: more ∧
    w.accountId.toList = more ++ sep :: w'.accountId.toList

/-- Two accounts of one market, one of which continues the other. They have one address.
-/
def Overlap (sep : Char) (w w' : WorkerAccount) : Prop :=
  w.market = w'.market ∧ (Continues sep w w' ∨ Continues sep w' w)

/-- The id begins with what a worker id of its account does. -/
def LooksComposed (w : WorkerAccount) : Prop :=
  (w.market.value ++ "-" ++ w.gateway ++ "-").toList <+: w.accountId.toList

/-! ## Joined texts -/

theorem join_eq_iff {sep : Char} {u u' v v' : List Char} :
    u ++ sep :: v = u' ++ sep :: v' ↔ (u = u' ∧ v = v') ∨
      (∃ more, u' = u ++ sep :: more ∧ v = more ++ sep :: v') ∨
      ∃ more, u = u' ++ sep :: more ∧ v' = more ++ sep :: v := by
  constructor
  · intro h
    rcases List.append_eq_append_iff.1 h with ⟨as, rfl, hv⟩ | ⟨as, rfl, hv⟩
    · cases as with
      | nil =>
          cases hv
          exact .inl ⟨(List.append_nil u).symm, rfl⟩
      | cons c as =>
          cases hv
          exact .inr (.inl ⟨as, rfl, rfl⟩)
    · cases as with
      | nil =>
          cases hv
          exact .inl ⟨List.append_nil u', rfl⟩
      | cons c as =>
          cases hv
          exact .inr (.inr ⟨as, rfl, rfl⟩)
  · intro h
    rcases h with ⟨rfl, rfl⟩ | ⟨more, rfl, rfl⟩ | ⟨more, rfl, rfl⟩
    · rfl
    · rw [List.append_assoc, List.cons_append]
    · rw [List.append_assoc, List.cons_append]

theorem market_eq_iff {sep : Char} {m m' : MarketType} {u u' : List Char} :
    m.value.toList ++ sep :: u = m'.value.toList ++ sep :: u' ↔ m = m' ∧ u = u' := by
  cases m <;> cases m' <;> simp [MarketType.value]

/-- Two accounts joined alike. -/
theorem joined_eq_iff {sep : Char} {w w' : WorkerAccount} :
    w.market.value.toList ++ sep :: (w.gateway.toList ++ sep :: w.accountId.toList) =
        w'.market.value.toList ++ sep :: (w'.gateway.toList ++ sep :: w'.accountId.toList) ↔
      w = w' ∨ Overlap sep w w' := by
  rw [market_eq_iff, join_eq_iff, String.toList_inj, String.toList_inj]
  constructor
  · intro h
    obtain ⟨hmarket, ⟨hgateway, hid⟩ | hover⟩ := h
    · exact .inl (WorkerAccount.ext hmarket hgateway hid)
    · exact .inr ⟨hmarket, hover⟩
  · intro h
    rcases h with rfl | ⟨hmarket, hover⟩
    · exact ⟨rfl, .inl ⟨rfl, rfl⟩⟩
    · exact ⟨hmarket, .inr hover⟩

/-- Accounts that overlap are two. -/
theorem Overlap.ne {sep : Char} {w w' : WorkerAccount} (h : Overlap sep w w') : w ≠ w' := by
  intro heq
  subst heq
  have hgateway : ∃ more, w.gateway.toList = w.gateway.toList ++ sep :: more := by
    rcases h.2 with ⟨more, hg, -⟩ | ⟨more, hg, -⟩
    · exact ⟨more, hg⟩
    · exact ⟨more, hg⟩
  obtain ⟨more, hg⟩ := hgateway
  have hlen := congrArg List.length hg
  rw [List.length_append, List.length_cons] at hlen
  omega

theorem apart_iff {sep : Char} {w w' : WorkerAccount} :
    (w = w' ∨ Overlap sep w w' → w = w') ↔ ¬ Overlap sep w w' := by
  constructor
  · intro h hover
    exact hover.ne (h (.inr hover))
  · intro h heq
    exact heq.resolve_right h

/-! ## The two addresses -/

theorem workerId_eq_iff {w w' : WorkerAccount} :
    w.workerId = w'.workerId ↔ w = w' ∨ Overlap '-' w w' := by
  rw [← joined_eq_iff, ← String.toList_inj]
  have hid : ∀ w : WorkerAccount, w.workerId.toList =
      w.market.value.toList ++ '-' :: (w.gateway.toList ++ '-' :: w.accountId.toList) := by
    intro w
    simp only [WorkerAccount.workerId, composeWorkerId, String.toList_append, List.append_assoc]
    rfl
  rw [hid, hid]

theorem adminSubject_eq_iff {w w' : WorkerAccount} :
    w.adminSubject = w'.adminSubject ↔ w = w' ∨ Overlap '.' w w' := by
  rw [← joined_eq_iff, ← String.toList_inj]
  have hsubject : ∀ w : WorkerAccount, w.adminSubject.toList = "ADMIN.".toList ++
      (w.market.value.toList ++ '.' :: (w.gateway.toList ++ '.' :: w.accountId.toList)) := by
    intro w
    simp only [WorkerAccount.adminSubject, composeAdminSubject, String.toList_append,
      List.append_assoc]
    rfl
  rw [hsubject, hsubject, List.append_cancel_left_eq]

/-! ## And back -/

theorem decompose_workerId (w : WorkerAccount) : w.decompose w.workerId = w.accountId := by
  have hid : w.workerId.toList =
      (w.market.value ++ "-" ++ w.gateway ++ "-").toList ++ w.accountId.toList := by
    simp only [WorkerAccount.workerId, composeWorkerId, String.toList_append]
  rw [WorkerAccount.decompose, decomposeWorkerId, hid,
    if_pos (List.isPrefixOf_iff_prefix.2 (List.prefix_append _ _)), List.drop_left,
    String.ofList_toList]

theorem decompose_accountId_iff (w : WorkerAccount) :
    w.decompose w.accountId = w.accountId ↔ ¬ LooksComposed w := by
  rw [WorkerAccount.decompose, decomposeWorkerId]
  by_cases h : LooksComposed w
  · rw [if_pos (List.isPrefixOf_iff_prefix.2 h), ← String.toList_inj, String.toList_ofList]
    refine iff_of_false (fun heq => ?_) (fun hnot => hnot h)
    have hlen := congrArg List.length heq
    have hle := h.length_le
    rw [List.length_drop] at hlen
    simp only [String.toList_append, List.length_append] at hlen hle
    have hsep : "-".toList.length = 1 := rfl
    omega
  · rw [if_neg fun hpre => h (List.isPrefixOf_iff_prefix.1 hpre)]
    exact iff_of_true rfl h

/-- For every two accounts. -/
theorem addresses_apart_iff (w w' : WorkerAccount) :
    ((w.workerId = w'.workerId → w = w') ∧ (w.adminSubject = w'.adminSubject → w = w') ∧
        w.decompose w.workerId = w.accountId ∧ w.decompose w.accountId = w.accountId) ↔
      ¬ Overlap '-' w w' ∧ ¬ Overlap '.' w w' ∧ ¬ LooksComposed w := by
  rw [workerId_eq_iff, adminSubject_eq_iff, apart_iff, apart_iff, decompose_accountId_iff,
    and_iff_right (decompose_workerId w)]

/-! ## Two accounts at one address -/

namespace Colliding

/-- Of a gateway with a hyphen. -/
def first : WorkerAccount := ⟨.forex, "MT5-DEMO", "7654321", by decide, by decide⟩

/-- Of an id with one. -/
def second : WorkerAccount := ⟨.forex, "MT5", "DEMO-7654321", by decide, by decide⟩

end Colliding

theorem not_addresses_apart :
    Colliding.first.workerId = Colliding.second.workerId ∧ Colliding.first ≠ Colliding.second := by
  refine ⟨by decide, fun h => ?_⟩
  have hgateway := congrArg WorkerAccount.gateway h
  revert hgateway
  decide

end TradingBroker.Accounts
