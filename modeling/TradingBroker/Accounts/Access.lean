import TradingBroker.Accounts.Table

/-!
# Who may drive an account

The account a user has selected is a pointer that other calls leave behind, and it is
checked against the links whenever it is read: what it selects is linked, and nothing
is selected only if nothing is linked. Dropping a link drops just that one, and a
rotation leaves an account without users, sessions and tokens of before, for good. This
holds of every database that meets its constraints, hence of every one that any calls
lead to (`access_controlled`).

Most of it is read off the constraints: a link has its account, no two links of a user
are of one account, and the account that is read as active is looked up among the
linked ones first. That a method is not refused is shown the other way round, by giving
the tables it ends with and checking them (`commit_of_ok`). Only the tokens need a run.
A rotation revokes every token of its account, no method ever clears `revoked_at` or
deletes a token, and so a token that is spent stays spent whatever is called afterwards
(`Spent.writes`, `Spent.run`).
-/

namespace TradingBroker.Accounts

open TradingBroker.Lib
open TradingBroker.Trades (Account accountsOk tradesOk)

/-! ## What is promised -/

/-- Nobody has access to the account any more: no link and no session is left of it, and
no token of it grants one in any database that later calls lead to. -/
structure Rotated (db db' : Db) (account : RowId) : Prop where
  links : ∀ l ∈ db'.links, l.accountId ≠ account
  sessions : ∀ s ∈ db'.sessions, s.activeAccountId ≠ some account
  tokens : ∀ later, Runs (fun _ _ => True) db' later → ∀ k ∈ db.tokens, k.accountId = account →
    ∀ u x, later.linkTelegram k.token u x = none

/-- What is promised of a database. The account that is read as active is one of the
user's (`held`), and none is only where the user has none (`none_iff`). `unlinked` and
`rotated` say what the two methods that take access away leave behind; `answers` and
`rotates` say that they are not refused, so that this is never promised of nothing. -/
structure AccessControlled (db : Db) : Prop where
  held : ∀ u x a, (db.getActiveAccount u x).1 = some a →
    a ∈ db.accounts ∧ db.isLinked u a.id = true
  none_iff : ∀ u x, (db.getActiveAccount u x).1 = none ↔ ∀ l ∈ db.links, l.isOf u = false
  unlinked : ∀ u x db', db.unlinkTelegram u x = (true, db') →
    ∃ a l, (db.getActiveAccount u x).1 = some a ∧ l ∈ db.links ∧ l.isOf u = true ∧
      l.accountId = a.id ∧ db'.links = db.links.filter (· ≠ l) ∧ db'.accounts = db.accounts
  answers : ∀ u x, (∃ l ∈ db.links, l.isOf u = true) → (db.unlinkTelegram u x).1 = true
  kept : ∀ u x, (db.getActiveAccount u x).1 = none → db.unlinkTelegram u x = (false, db)
  rotated : ∀ accountId x a t db', db.rotateLinkToken accountId x = some (a, t) →
    Db.commit t = some db' → a ∈ db.accounts ∧ a.accountId = accountId ∧ Rotated db db' a.id
  rotates : ∀ accountId x, (∃ a ∈ db.accounts, a.accountId = accountId) →
    (∀ k ∈ db.tokens, k.id ≠ x.tokenRow ∧ k.token ≠ x.token) →
    ∃ a t db', db.rotateLinkToken accountId x = some (a, t) ∧ Db.commit t = some db'

/-! ## What the constraints give -/

variable {db db' : Db} {t t' : Tables} {u : BotUser} {x : Draw} {a : Account}

theorem Db.link_account (db : Db) {l : AccountBotLink} (h : l ∈ db.links) :
    ∃ a ∈ db.accounts, a.id = l.accountId := by
  have hok := db.ok
  simp only [Tables.ok, Tables.linksOk, Bool.and_eq_true, List.all_eq_true] at hok
  have hfk := (hok.1.1.2.1.1 l h).2
  exact List.mem_map.1 (List.contains_iff_mem.1 hfk)

theorem Db.links_nodup (db : Db) :
    (db.links.map fun l => (l.platform, l.platformUserId, l.accountId)).Nodup := by
  have hok := db.ok
  simp only [Tables.ok, Tables.linksOk, Bool.and_eq_true, decide_eq_true_eq] at hok
  exact hok.1.1.2.2

theorem Db.tokens_nodup (db : Db) : (db.tokens.map AccountLinkToken.token).Nodup := by
  have hok := db.ok
  simp only [Tables.ok, Tables.tokensOk, Bool.and_eq_true, decide_eq_true_eq] at hok
  exact hok.1.2.2

theorem Db.accountIds_nodup (db : Db) : db.accountIds.Nodup := by
  have hok := db.ok
  simp only [Tables.ok, Trades.accountsOk, Bool.and_eq_true, decide_eq_true_eq] at hok
  exact hok.1.1.1.1.1.2

theorem isLinked_iff {account : RowId} : t.isLinked u account = true ↔
    ∃ l ∈ t.links, l.accountId = account ∧ l.isOf u = true := by
  simp only [Tables.isLinked, List.any_eq_true, Bool.and_eq_true, beq_iff_eq]

theorem mem_listed {p : Account → Bool} : a ∈ t.listed p ↔ a ∈ t.accounts ∧ p a = true := by
  rw [Tables.listed, List.mem_insertionSort, List.mem_filter]

/-! ## The active account -/

theorem linkedAccount_some {account : RowId} (h : t.linkedAccount u account = some a) :
    a ∈ t.accounts ∧ a.id = account ∧ t.isLinked u a.id = true := by
  have hfound := List.find?_some h
  rw [Bool.and_eq_true, beq_iff_eq] at hfound
  exact ⟨List.mem_of_find?_eq_some h, hfound.1, hfound.2⟩

theorem getActiveAccount_held (h : (db.getActiveAccount u x).1 = some a) :
    a ∈ db.accounts ∧ db.isLinked u a.id = true := by
  unfold Db.getActiveAccount at h
  split at h
  · next a' ha' =>
      cases h
      obtain ⟨account, -, hlinked⟩ := Option.bind_eq_some_iff.1 ha'
      obtain ⟨hmem, -, hheld⟩ := linkedAccount_some hlinked
      exact ⟨hmem, hheld⟩
  · split at h
    · next fallback hfallback =>
        cases h
        exact mem_listed.1 (List.mem_of_mem_head? hfallback)
    · cases h

theorem getActiveAccount_none :
    (db.getActiveAccount u x).1 = none ↔ ∀ l ∈ db.links, l.isOf u = false := by
  constructor
  · intro h l hl
    by_contra hof
    rw [Bool.not_eq_false] at hof
    obtain ⟨a, ha, hid⟩ := db.link_account hl
    have hmem : a ∈ db.listByTelegramUserId u :=
      mem_listed.2 ⟨ha, isLinked_iff.2 ⟨l, hl, hid.symm, hof⟩⟩
    unfold Db.getActiveAccount at h
    split at h
    · cases h
    · split at h
      · cases h
      · next hnone =>
          rw [List.head?_eq_none_iff.1 hnone] at hmem
          cases hmem
  · intro h
    cases hactive : (db.getActiveAccount u x).1 with
    | none => rfl
    | some a =>
      obtain ⟨l, hl, -, hof⟩ := isLinked_iff.1 (getActiveAccount_held hactive).2
      rw [h l hl] at hof
      cases hof

/-- Reading the active account writes nothing but the session. -/
theorem getActiveAccount_frame : (db.getActiveAccount u x).2.toTables =
    { db.toTables with sessions := (db.getActiveAccount u x).2.sessions } := by
  unfold Db.getActiveAccount
  split
  · rfl
  · split
    · next fallback _ =>
        cases hcommit : Db.commit (db.pointAt u (some fallback.id) x) with
        | none => rfl
        | some db' =>
          dsimp only [Option.getD_some]
          rw [commit_eq hcommit, pointAt_frame]
    · rfl

theorem unlinkTelegram_true (h : db.unlinkTelegram u x = (true, db')) :
    ∃ a l, (db.getActiveAccount u x).1 = some a ∧ l ∈ db.links ∧ l.isOf u = true ∧
      l.accountId = a.id ∧ db'.links = db.links.filter (· ≠ l) ∧ db'.accounts = db.accounts := by
  unfold Db.unlinkTelegram at h
  split at h
  · next active db₁ hactive =>
      split at h
      · next db₂ hcommit =>
          cases h
          have hsome : (db.getActiveAccount u x).1 = some active := by rw [hactive]
          have hframe := @getActiveAccount_frame db u x
          rw [hactive] at hframe
          obtain ⟨l, hl, hid, hof⟩ := isLinked_iff.1 (getActiveAccount_held hsome).2
          refine ⟨active, l, hsome, hl, hof, hid, ?_, ?_⟩
          · rw [commit_eq hcommit, dropLink_frame]
            dsimp only
            rw [hframe]
            refine List.filter_congr fun l' hl' => ?_
            -- the unique constraint: this user has one link to this account
            rw [Bool.eq_iff_iff, Bool.not_eq_true', ← Bool.not_eq_true, decide_eq_true_eq,
              Bool.and_eq_true, beq_iff_eq]
            refine not_congr ⟨fun hsame => ?_, fun heq => heq ▸ ⟨hid, hof⟩⟩
            refine List.inj_on_of_nodup_map db.links_nodup hl' hl ?_
            obtain ⟨hplatform, huser⟩ := Bool.and_eq_true_iff.1 hof
            obtain ⟨hplatform', huser'⟩ := Bool.and_eq_true_iff.1 hsame.2
            exact Prod.ext ((eq_of_beq hplatform').trans (eq_of_beq hplatform).symm) (Prod.ext
              ((eq_of_beq huser').trans (eq_of_beq huser).symm) (hsame.1.trans hid.symm))
          · rw [commit_eq hcommit, dropLink_frame, hframe]
      · cases h
  · cases h

/-! ## What Postgres takes -/

/-- Fewer links of the same accounts. -/
theorem linksOk_sublist (h : t.linksOk = true) (haccounts : t'.accounts = t.accounts)
    (hsub : List.Sublist t'.links t.links) : t'.linksOk = true := by
  simp only [Tables.linksOk, Tables.accountIds, haccounts, Bool.and_eq_true, List.all_eq_true,
    decide_eq_true_eq] at h ⊢
  exact ⟨⟨fun l hl => h.1.1 l (hsub.subset hl), h.1.2.sublist (hsub.map _)⟩,
    h.2.sublist (hsub.map _)⟩

/-- Sessions of the same users that name accounts on file. -/
theorem sessionsOk_pointed (h : t.sessionsOk = true) (haccounts : t'.accounts = t.accounts)
    (hids : t'.sessions.map BotSession.id = t.sessions.map BotSession.id)
    (husers : (t'.sessions.map fun s => (s.platform, s.platformUserId)) =
      t.sessions.map fun s => (s.platform, s.platformUserId))
    (hactive : ∀ s ∈ t'.sessions, s.activeAccountId.all t.accountIds.contains = true) :
    t'.sessionsOk = true := by
  simp only [Tables.sessionsOk, Tables.accountIds, haccounts, Bool.and_eq_true, List.all_eq_true,
    decide_eq_true_eq, hids, husers] at h ⊢
  refine ⟨⟨fun s hs => ⟨?_, hactive s hs⟩, h.1.2⟩, h.2⟩
  have hmem : (s.platform, s.platformUserId) ∈
      t.sessions.map fun s => (s.platform, s.platformUserId) := by
    rw [← husers]
    exact List.mem_map_of_mem hs
  obtain ⟨s', hs', heq⟩ := List.mem_map.1 hmem
  have huser := (h.1.1 s' hs').1
  rwa [(Prod.mk.inj heq).2] at huser

theorem pointAt_sessionsOk {account : Option RowId} {s : BotSession} (h : t.sessionsOk = true)
    (hs : t.sessions.find? (BotSession.isOf u) = some s)
    (haccount : account.all t.accountIds.contains = true) :
    (t.pointAt u account x).sessionsOk = true := by
  have hpointed : t.pointAt u account x = { t with
      sessions := replaceFirst (BotSession.isOf u) { s with activeAccountId := account }
        t.sessions } := by
    rw [Tables.pointAt, hs]
  rw [hpointed]
  refine sessionsOk_pointed h rfl (map_replaceFirst hs rfl) (map_replaceFirst hs rfl) ?_
  intro s' hs'
  rcases mem_of_mem_replaceFirst hs' with rfl | hs'
  · exact haccount
  · simp only [Tables.sessionsOk, Bool.and_eq_true, List.all_eq_true] at h
    exact (h.1.1 s' hs').2

theorem commit_of_ok (h : t.ok = true) : ∃ db', Db.commit t = some db' := ⟨⟨t, h⟩, dif_pos h⟩

theorem Db.links_tokens_sessions_ok (db : Db) :
    db.linksOk = true ∧ db.tokensOk = true ∧ db.sessionsOk = true := by
  have hok := db.ok
  simp only [Tables.ok, Bool.and_eq_true] at hok
  exact ⟨hok.1.1.2, hok.1.2, hok.2⟩

/-- Dropping a link breaks no constraint: there are fewer links, and a session is pointed at an
account that is there. -/
theorem dropLink_ok (db : Db) (u : BotUser) (account : RowId) (x : Draw) :
    (db.dropLink u account x).ok = true := by
  obtain ⟨haccounts, htrades⟩ := db.accounts_trades_ok
  obtain ⟨hlinks, htokens, hsessions⟩ := db.links_tokens_sessions_ok
  have hlinks' : (db.dropLink u account x).linksOk = true := by
    rw [dropLink_frame]
    exact linksOk_sublist hlinks rfl List.filter_sublist
  have hsessions' : (db.dropLink u account x).sessionsOk = true := by
    unfold Tables.dropLink
    cases hs : db.sessions.find? (BotSession.isOf u) with
    | none => exact hsessions
    | some s =>
        refine pointAt_sessionsOk hsessions hs ?_
        rw [Option.all_map, Option.all_eq_true]
        intro a ha
        exact List.contains_iff_mem.2
          (List.mem_map_of_mem (mem_listed.1 (List.mem_of_mem_head? ha)).1)
  rw [dropLink_frame] at hlinks' hsessions' ⊢
  simp only [Tables.ok, Bool.and_eq_true]
  exact ⟨⟨⟨⟨haccounts, htrades⟩, hlinks'⟩, htokens⟩, hsessions'⟩

/-- So whoever has a link loses one. -/
theorem unlinkTelegram_answers (h : ∃ l ∈ db.links, l.isOf u = true) :
    (db.unlinkTelegram u x).1 = true := by
  obtain ⟨l, hl, hof⟩ := h
  cases hactive : db.getActiveAccount u x with
  | mk active db₁ =>
      cases active with
      | none =>
          have hnone := getActiveAccount_none.1 (congrArg Prod.fst hactive) l hl
          rw [hof] at hnone
          cases hnone
      | some a =>
          obtain ⟨db₂, hcommit⟩ := commit_of_ok (dropLink_ok db₁ u a.id x)
          rw [Db.unlinkTelegram, hactive]
          dsimp only
          rw [hcommit]

/-- Tokens that are stamped, and a new one of an account on file. -/
theorem tokensOk_issued {stamp : AccountLinkToken → AccountLinkToken} {k : AccountLinkToken}
    (h : t.tokensOk = true) (haccounts : t'.accounts = t.accounts)
    (htokens : t'.tokens = t.tokens.map stamp ++ [k])
    (hstamp : ∀ k, (stamp k).id = k.id ∧ (stamp k).token = k.token ∧
      (stamp k).accountId = k.accountId)
    (haccount : t.accountIds.contains k.accountId = true)
    (hnew : ∀ k' ∈ t.tokens, k'.id ≠ k.id ∧ k'.token ≠ k.token) : t'.tokensOk = true := by
  have hids : t'.tokens.map AccountLinkToken.id = t.tokens.map AccountLinkToken.id ++ [k.id] := by
    simp [htokens, hstamp]
  have hsecrets : t'.tokens.map AccountLinkToken.token =
      t.tokens.map AccountLinkToken.token ++ [k.token] := by
    simp [htokens, hstamp]
  simp only [Tables.tokensOk, Tables.accountIds, haccounts, Bool.and_eq_true, List.all_eq_true,
    decide_eq_true_eq, hids, hsecrets] at h haccount ⊢
  refine ⟨⟨?_, ?_⟩, ?_⟩
  · intro k' hk'
    rw [htokens] at hk'
    rcases List.mem_append.1 hk' with hk' | hk'
    · obtain ⟨k₀, hk₀, rfl⟩ := List.mem_map.1 hk'
      rw [(hstamp k₀).2.2]
      exact h.1.1 k₀ hk₀
    · rw [List.mem_singleton.1 hk']
      exact haccount
  · rw [← List.concat_eq_append]
    refine List.Nodup.concat (fun hmem => ?_) h.1.2
    obtain ⟨k', hk', heq⟩ := List.mem_map.1 hmem
    exact (hnew k' hk').1 heq
  · rw [← List.concat_eq_append]
    refine List.Nodup.concat (fun hmem => ?_) h.2
    obtain ⟨k', hk', heq⟩ := List.mem_map.1 hmem
    exact (hnew k' hk').2 heq

theorem rotateLinkToken_ok {accountId : String} (h : db.rotateLinkToken accountId x = some (a, t))
    (hnew : ∀ k ∈ db.tokens, k.id ≠ x.tokenRow ∧ k.token ≠ x.token) : t.ok = true := by
  obtain ⟨a', hfind, heq⟩ := Option.map_eq_some_iff.1 h
  cases heq
  obtain ⟨haccounts, htrades⟩ := db.accounts_trades_ok
  obtain ⟨hlinks, htokens, hsessions⟩ := db.links_tokens_sessions_ok
  have haccount : db.accountIds.contains a.id = true :=
    List.contains_iff_mem.2 (List.mem_map_of_mem (List.mem_of_find?_eq_some hfind))
  simp only [Tables.ok, Bool.and_eq_true]
  refine ⟨⟨⟨⟨haccounts, htrades⟩, linksOk_sublist hlinks rfl List.filter_sublist⟩, ?_⟩, ?_⟩
  · refine tokensOk_issued htokens rfl rfl (fun k => ?_) haccount hnew
    split
    all_goals exact ⟨rfl, rfl, rfl⟩
  · refine sessionsOk_pointed hsessions rfl ?_ ?_ ?_
    · rw [List.map_map]
      refine List.map_congr_left fun s _ => ?_
      rw [Function.comp_apply]
      split <;> rfl
    · rw [List.map_map]
      refine List.map_congr_left fun s _ => ?_
      rw [Function.comp_apply]
      split <;> rfl
    · intro s hs
      obtain ⟨s', hs', rfl⟩ := List.mem_map.1 hs
      simp only [Tables.sessionsOk, Bool.and_eq_true, List.all_eq_true] at hsessions
      split
      · rfl
      · exact (hsessions.1.1 s' hs').2

/-- A rotation is taken if its token is a new one. -/
theorem rotateLinkToken_taken {accountId : String} (h : ∃ a ∈ db.accounts, a.accountId = accountId)
    (hnew : ∀ k ∈ db.tokens, k.id ≠ x.tokenRow ∧ k.token ≠ x.token) :
    ∃ a t db', db.rotateLinkToken accountId x = some (a, t) ∧ Db.commit t = some db' := by
  obtain ⟨a, ha, hid⟩ := h
  have hfind : (db.accounts.find? fun a => a.accountId == accountId).isSome = true :=
    List.find?_isSome.2 ⟨a, ha, beq_iff_eq.2 hid⟩
  cases hrotate : db.rotateLinkToken accountId x with
  | none =>
      rw [Tables.rotateLinkToken, Option.map_eq_none_iff] at hrotate
      rw [hrotate] at hfind
      cases hfind
  | some r =>
      obtain ⟨a', t⟩ := r
      obtain ⟨db', hcommit⟩ := commit_of_ok (rotateLinkToken_ok hrotate hnew)
      exact ⟨a', t, db', rfl, hcommit⟩

/-! ## Rotation -/

/-- The token has been revoked. No method undoes this, which is what makes a rotation
final. -/
def Spent (token : RowId) (t : Tables) : Prop :=
  ∃ k ∈ t.tokens, k.token = token ∧ k.revokedAt.isSome = true

theorem Spent.not_linked {token : RowId} (h : Spent token db.toTables) :
    db.linkTelegram token u x = none := by
  obtain ⟨k, hk, htoken, hrevoked⟩ := h
  have hnone : db.tokens.find? (fun k => k.token == token && k.isValid x.now) = none := by
    refine List.find?_eq_none.2 fun k' hk' hvalid => ?_
    rw [Bool.and_eq_true, beq_iff_eq] at hvalid
    have hsame : k' = k :=
      List.inj_on_of_nodup_map db.tokens_nodup hk' hk (hvalid.1.trans htoken.symm)
    have hopen := (Bool.and_eq_true_iff.1 hvalid.2).1
    rw [hsame, ← Option.not_isSome, hrevoked] at hopen
    cases hopen
  show (db.tokens.find? _).bind _ = none
  rw [hnone]
  rfl

theorem Spent.of_subset {token : RowId} (h : Spent token t) (hsub : ∀ k ∈ t.tokens, k ∈ t'.tokens) :
    Spent token t' := by
  obtain ⟨k, hk, hrest⟩ := h
  exact ⟨k, hsub k hk, hrest⟩

/-- No transaction brings a token back. -/
theorem Spent.writes {token : RowId} {op : Op} (h : Spent token t)
    (hw : op.writes x t = some t') : Spent token t' := by
  cases op with
  | createAccount accountId market gateway accountName =>
    simp only [Op.writes, Tables.createAccount] at hw
    split at hw
    · cases hw
    · cases hw
      exact h.of_subset fun k hk => List.mem_append_left _ hk
  | upsertGateway accountId market gateway =>
    simp only [Op.writes, Tables.upsertGateway] at hw
    split at hw
    · split at hw
      · cases hw
      · cases hw
        exact h
    · cases hw
      exact h.of_subset fun k hk => List.mem_append_left _ hk
  | upsertByPositionEvent e =>
    obtain ⟨status, -, hw⟩ := Option.bind_eq_some_iff.1 hw
    obtain ⟨trades, -, rfl⟩ := Option.map_eq_some_iff.1 hw
    have htokens : (t.upsertAccount e x).tokens = t.tokens := by
      unfold Tables.upsertAccount
      split <;> rfl
    refine h.of_subset fun k hk => ?_
    show k ∈ (t.upsertAccount e x).tokens
    rwa [htokens]
  | linkTelegram token' u =>
    obtain ⟨⟨a, t'⟩, hlink, rfl⟩ := Option.map_eq_some_iff.1 hw
    obtain ⟨k₀, hk₀, hlink⟩ := Option.bind_eq_some_iff.1 hlink
    obtain ⟨a', -, heq⟩ := Option.map_eq_some_iff.1 hlink
    cases heq
    rw [link_frame]
    obtain ⟨k, hk, htoken, hrevoked⟩ := h
    -- the row that is stamped was valid
    refine ⟨k, mem_replaceFirst_of_not hk fun hknown => ?_, htoken, hrevoked⟩
    have hopen := (Bool.and_eq_true_iff.1 (Bool.and_eq_true_iff.1 hknown).2).1
    rw [← Option.not_isSome, hrevoked] at hopen
    cases hopen
  | adminLinkTelegram account u =>
    obtain ⟨⟨a, t'⟩, hlink, rfl⟩ := Option.map_eq_some_iff.1 hw
    obtain ⟨a', -, heq⟩ := Option.map_eq_some_iff.1 hlink
    cases heq
    rw [link_frame]
    exact h
  | setActiveAccount u account =>
    obtain ⟨⟨a, t'⟩, hset, rfl⟩ := Option.map_eq_some_iff.1 hw
    obtain ⟨a', -, heq⟩ := Option.map_eq_some_iff.1 hset
    cases heq
    rw [pointAt_frame]
    exact h
  | rotateLinkToken accountId =>
    obtain ⟨⟨a, t'⟩, hrotate, rfl⟩ := Option.map_eq_some_iff.1 hw
    obtain ⟨a', -, heq⟩ := Option.map_eq_some_iff.1 hrotate
    cases heq
    obtain ⟨k, hk, htoken, hrevoked⟩ := h
    refine ⟨k, List.mem_append_left _ (List.mem_map.2 ⟨k, hk, ?_⟩), htoken, hrevoked⟩
    rw [← Option.not_isSome, hrevoked, Bool.not_true, Bool.and_false]
    rfl
  | getActiveAccount u => cases hw
  | unlinkTelegram u => cases hw

theorem Spent.run {token : RowId} (hrun : Runs (fun _ _ => True) db db')
    (h : Spent token db.toTables) : Spent token db'.toTables := by
  refine hrun.keeps (P := Spent token) h (fun db op x t h _ hw => h.writes hw) ?_ ?_ ?_
  · intro t u a x h
    rw [pointAt_frame]
    exact h
  · intro t u a x h
    rw [dropLink_frame]
    exact h
  · intro db db' hmoved h
    rw [hmoved.rest]
    exact h

theorem rotated_of_commit {accountId : String}
    (h : db.rotateLinkToken accountId x = some (a, t)) (hcommit : Db.commit t = some db') :
    a ∈ db.accounts ∧ a.accountId = accountId ∧ Rotated db db' a.id := by
  obtain ⟨a', ha', heq⟩ := Option.map_eq_some_iff.1 h
  cases heq
  have hdb' := commit_eq hcommit
  have hfound := List.find?_some ha'
  refine ⟨List.mem_of_find?_eq_some ha', eq_of_beq hfound, ?_, ?_, ?_⟩
  · intro l hl
    rw [hdb'] at hl
    have hkept := (List.mem_filter.1 hl).2
    simpa using hkept
  · intro s hs
    rw [hdb'] at hs
    obtain ⟨s', -, rfl⟩ := List.mem_map.1 hs
    split
    · exact nofun
    · next hne => exact hne
  · intro later hrun k hk hid u x'
    have hspent : Spent k.token db'.toTables := by
      rw [hdb']
      refine ⟨_, List.mem_append_left _ (List.mem_map.2 ⟨k, hk, rfl⟩), ?_⟩
      split
      · exact ⟨rfl, rfl⟩
      · next hno =>
          refine ⟨rfl, ?_⟩
          rw [hid, beq_self_eq_true, Bool.true_and, ← Option.not_isSome, Bool.not_eq_true',
            Bool.not_eq_false] at hno
          exact hno
    exact (hspent.run hrun).not_linked

/-! ## The verdict -/

/-- In every database, whatever calls led to it. -/
theorem access_controlled (db : Db) : AccessControlled db where
  held := fun _ _ _ h => getActiveAccount_held h
  none_iff := fun _ _ => getActiveAccount_none
  unlinked := fun _ _ _ h => unlinkTelegram_true h
  answers := fun _ _ => unlinkTelegram_answers
  rotates := fun _ _ => rotateLinkToken_taken
  kept := by
    intro u x h
    have hsame : db.getActiveAccount u x = (none, db) := by
      unfold Db.getActiveAccount at h ⊢
      split at h
      · cases h
      · split at h
        · cases h
        · rfl
    unfold Db.unlinkTelegram
    rw [hsame]
  rotated := fun _ _ _ _ _ h hcommit => rotated_of_commit h hcommit

namespace Sample

def user : BotUser := ⟨.telegram, 7⟩

/-- An account whose first token has brought it a user. -/
def handed : Db :=
  (Op.linkTelegram 1 user).apply (draw 2) ((Op.upsertGateway "1" .forex "MT5").apply (draw 1) empty)

def rotated : Db := (Op.rotateLinkToken "1").apply (draw 3) handed

end Sample

/-- The user may leave, and after a rotation is out: only the new token lets anybody in. -/
example : (Sample.handed.unlinkTelegram Sample.user (Sample.draw 3)).1 = true ∧
    (Sample.rotated.getActiveAccount Sample.user (Sample.draw 4)).1 = none ∧
    Sample.rotated.linkTelegram 1 Sample.user (Sample.draw 4) = none ∧
    (Sample.rotated.linkTelegram 3 Sample.user (Sample.draw 4)).isSome = true := by
  refine ⟨by decide +kernel, by decide +kernel, ?_, by decide +kernel⟩
  exact Option.isNone_iff_eq_none.1 (by decide +kernel)

end TradingBroker.Accounts
