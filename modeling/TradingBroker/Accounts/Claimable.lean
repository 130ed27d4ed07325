import TradingBroker.Accounts.Identity

/-!
# Accounts that can be claimed

An account that is registered, or announced by its worker, comes with a token, and a
rotation replaces what it revokes. An account that is first heard of in a report has
none: every account can be claimed exactly as long as reports come for accounts on file
(`every_account_claimable`).

The invariant is stronger than what is promised: every account has a token that was
never revoked and has no date of expiry (`HasTokens`), so that time does not enter.
Every method that inserts an account inserts a token with it, the rotation issues a new
one in the transaction that revokes the others, and a link stamps `last_used_at` and
nothing else. The one exception is `_upsert_account` (`broker/db/repository/trade.py`),
which a report of an unknown account goes through. That is what `OnFile` excludes, and
nothing besides.
-/

namespace TradingBroker.Accounts

open TradingBroker.Lib
open TradingBroker.Trades (Account)

/-- Every account has a token that is neither revoked nor expired. -/
def Claimable (db : Db) : Prop :=
  ∀ now, ∀ a ∈ db.accounts, ∃ k ∈ db.tokens, k.accountId = a.id ∧ k.isValid now = true

/-- A report that is applied is on an account that is there. Of no other call is
anything asked. -/
def OnFile (db : Db) : Op → Prop
  | .upsertByPositionEvent e => (TradeStatusPolicy.toTradeStatus e.status).isSome = true →
      (db.accounts.find? (Account.isOf (Trades.position e))).isSome = true
  | _ => True

/-- A token that was never revoked and never expires. -/
def AccountLinkToken.Open (account : RowId) (k : AccountLinkToken) : Prop :=
  k.accountId = account ∧ k.revokedAt = none ∧ k.expiresAt = none

/-- The invariant. It asks for an open token, since one that expires would not do for
every `now`. -/
def HasTokens (t : Tables) : Prop := ∀ id ∈ t.accountIds, ∃ k ∈ t.tokens, k.Open id

section
variable {t t' : Tables} {x : Draw} {id : RowId}

theorem HasTokens.of_eq (h : HasTokens t) (hids : t'.accountIds = t.accountIds)
    (htokens : t'.tokens = t.tokens) : HasTokens t' := by
  intro id hid
  rw [hids] at hid
  rw [htokens]
  exact h id hid

/-- A new account comes with its token. -/
theorem HasTokens.insert (h : HasTokens t) (hids : t'.accountIds = t.accountIds ++ [id])
    (htokens : t'.tokens = t.tokens ++ [newLinkToken id x]) : HasTokens t' := by
  intro id' hid'
  rw [hids] at hid'
  rw [htokens]
  rcases List.mem_append.1 hid' with hid' | hid'
  · obtain ⟨k, hk, hopen⟩ := h id' hid'
    exact ⟨k, List.mem_append_left _ hk, hopen⟩
  · rw [List.mem_singleton.1 hid']
    exact ⟨_, List.mem_append_right _ (List.mem_singleton.2 rfl), rfl, rfl, rfl⟩

theorem accountIds_concat {rows : List Account} {r : Account} (h : t'.accounts = rows ++ [r]) :
    t'.accountIds = rows.map Account.id ++ [r.id] := by
  rw [Tables.accountIds, h, List.map_append]
  rfl

theorem hasTokens_rotate {accountId : String} {a : Account} (h : HasTokens t)
    (hw : t.rotateLinkToken accountId x = some (a, t')) : HasTokens t' := by
  obtain ⟨a', -, heq⟩ := Option.map_eq_some_iff.1 hw
  cases heq
  intro id hid
  by_cases ha : id = a.id
  · subst ha
    exact ⟨_, List.mem_append_right _ (List.mem_singleton.2 rfl), rfl, rfl, rfl⟩
  · obtain ⟨k, hk, hopen⟩ := h id hid
    refine ⟨k, List.mem_append_left _ (List.mem_map.2 ⟨k, hk, ?_⟩), hopen⟩
    have hne : (k.accountId == a.id) = false := by
      rw [hopen.1]
      exact beq_eq_false_iff_ne.2 ha
    rw [hne, Bool.false_and]
    rfl

theorem hasTokens_linkTelegram {token : RowId} {u : BotUser} {a : Account} (h : HasTokens t)
    (hw : t.linkTelegram token u x = some (a, t')) : HasTokens t' := by
  obtain ⟨k₀, hk₀, hw⟩ := Option.bind_eq_some_iff.1 hw
  obtain ⟨a', -, heq⟩ := Option.map_eq_some_iff.1 hw
  cases heq
  rw [link_frame]
  intro id hid
  obtain ⟨k, hk, hopen⟩ := h id hid
  -- the token that was used is only stamped
  have hkept : ∀ {rows : List AccountLinkToken} {p : AccountLinkToken → Bool},
      rows.find? p = some k₀ → k ∈ rows →
        ∃ k' ∈ replaceFirst p { k₀ with lastUsedAt := some x.now } rows, k'.Open id := by
    intro rows p hfind hk
    induction rows with
    | nil => cases hk
    | cons k₁ rows ih =>
      rw [replaceFirst]
      split
      · next hp =>
          rw [List.find?_cons_of_pos hp] at hfind
          cases hfind
          rcases List.mem_cons.1 hk with rfl | hk
          · exact ⟨_, List.mem_cons_self, hopen⟩
          · exact ⟨k, List.mem_cons_of_mem _ hk, hopen⟩
      · next hp =>
          rw [List.find?_cons_of_neg hp] at hfind
          rcases List.mem_cons.1 hk with rfl | hk
          · exact ⟨k, List.mem_cons_self, hopen⟩
          · obtain ⟨k', hk', hopen'⟩ := ih hfind hk
            exact ⟨k', List.mem_cons_of_mem _ hk', hopen'⟩
  exact hkept hk₀ hk

theorem HasTokens.writes {db : Db} {op : Op} (h : HasTokens db.toTables) (hC : OnFile db op)
    (hw : op.writes x db.toTables = some t') : HasTokens t' := by
  cases op with
  | createAccount accountId market gateway accountName =>
    obtain ⟨r, -, -, -, haccounts, -, htokens, -⟩ := createAccount_rows hw
    exact h.insert (accountIds_concat haccounts) htokens
  | upsertGateway accountId market gateway =>
    obtain ⟨-, ⟨old, new, hfind, hid, -, -, htokens, haccounts⟩ |
      ⟨r, -, -, -, -, htokens, haccounts⟩⟩ := upsertGateway_rows hw
    · refine h.of_eq ?_ htokens
      rw [Tables.accountIds, haccounts, map_replaceFirst hfind hid]
      rfl
    · exact h.insert (accountIds_concat haccounts) htokens
  | upsertByPositionEvent e =>
    obtain ⟨status, hstatus, hw⟩ := Option.bind_eq_some_iff.1 hw
    obtain ⟨trades, -, rfl⟩ := Option.map_eq_some_iff.1 hw
    have hfile := hC (by rw [hstatus]; rfl)
    refine h.of_eq ?_ upsertAccount_tokens
    rcases upsertAccount_rows db.toTables e x with ⟨old, new, hfind, hid, -, -, haccounts⟩ |
      ⟨r, hfind, -⟩
    · show (db.upsertAccount e x).accounts.map Account.id = _
      rw [haccounts, map_replaceFirst hfind hid]
      rfl
    · rw [hfind] at hfile
      cases hfile
  | linkTelegram token u =>
    obtain ⟨⟨a, t'⟩, hlink, rfl⟩ := Option.map_eq_some_iff.1 hw
    exact hasTokens_linkTelegram h hlink
  | adminLinkTelegram account u =>
    obtain ⟨⟨a, t'⟩, hlink, rfl⟩ := Option.map_eq_some_iff.1 hw
    obtain ⟨a', -, heq⟩ := Option.map_eq_some_iff.1 hlink
    cases heq
    rw [link_frame]
    exact h
  | setActiveAccount u account =>
    obtain ⟨⟨a, t'⟩, hset, rfl⟩ := Option.map_eq_some_iff.1 hw
    obtain ⟨a', -, heq⟩ := Option.map_eq_some_iff.1 hset
    cases heq
    rw [pointAt_frame]
    exact h
  | rotateLinkToken accountId =>
    obtain ⟨⟨a, t'⟩, hrotate, rfl⟩ := Option.map_eq_some_iff.1 hw
    exact hasTokens_rotate h hrotate
  | getActiveAccount u => cases hw
  | unlinkTelegram u => cases hw

end

/-- In every run in which reports come for accounts on file. -/
theorem every_account_claimable {db : Db} (h : Runs OnFile empty db) : Claimable db := by
  have htokens : HasTokens db.toTables := by
    refine h.keeps (P := HasTokens) (fun id hid => absurd hid List.not_mem_nil)
      (fun db op x t h hC hw => h.writes hC hw) ?_ ?_ ?_
    · intro t u a x h
      rw [pointAt_frame]
      exact h
    · intro t u a x h
      rw [dropLink_frame]
      exact h
    · intro db db' hmoved h id hid
      rw [hmoved.rest]
      exact h id ((hmoved.accounts.map Account.id).mem_iff.2 hid)
  intro now a ha
  obtain ⟨k, hk, hid, hrevoked, hexpires⟩ := htokens a.id (List.mem_map_of_mem ha)
  refine ⟨k, hk, hid, ?_⟩
  rw [AccountLinkToken.isValid, hrevoked, hexpires]
  rfl

theorem every_account_claimable_traded :
    Sample.traded.accounts.map Account.id = [1] ∧ Claimable Sample.traded := by
  have hconnected : Runs OnFile empty Sample.connected :=
    .tail .refl (.call (.upsertGateway "1" .forex "MT5") (Sample.draw 1) trivial)
  exact ⟨by decide +kernel, every_account_claimable (.tail hconnected
    (.call (.upsertByPositionEvent (Trades.Sample.report "OPENED")) (Sample.draw 2)
      fun _ => by decide +kernel))⟩

/-- The account of a worker that reports before its handshake. -/
theorem not_everyAccountClaimable : ¬ ∀ db, Runs (fun _ _ => True) empty db → Claimable db := by
  intro h
  let db := (Op.upsertByPositionEvent (Trades.Sample.report "OPENED")).apply (Sample.draw 1) empty
  have hrun : Runs (fun _ _ => True) empty db :=
    .tail .refl (.call (.upsertByPositionEvent (Trades.Sample.report "OPENED")) (Sample.draw 1)
      trivial)
  have hids : db.accounts.map Account.id = [1] := by decide +kernel
  have htokens : db.tokens.map AccountLinkToken.id = [] := by decide +kernel
  obtain ⟨a, ha, -⟩ := List.mem_map.1 (hids ▸ List.mem_singleton.2 rfl : 1 ∈ db.accounts.map _)
  obtain ⟨k, hk, -⟩ := h db hrun 0 a ha
  rw [List.map_eq_nil_iff.1 htokens] at hk
  cases hk

end TradingBroker.Accounts
