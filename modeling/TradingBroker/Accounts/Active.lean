import TradingBroker.Accounts.Access
import TradingBroker.Accounts.Identity

/-!
# Linking and the active account

A user who links a further account keeps the account they have active, as long as their
session names it. A rotation leaves the session of its former users without a name, and
then the account that is linked next becomes the active one, whatever other accounts
the user still holds. `linking_keeps_active_iff` says of every database which links
leave the active account alone.

What is active is the account the session selects, if it is linked, and otherwise the
first that is listed (`getActiveAccount_eq`). A link adds one account to the list and
writes the session only if that selects nothing (`Joined`). Three cases remain. A
session without a name now names the further account, and the active one has moved. A
session that names an account the user holds is not touched. And one whose account was
lost meanwhile falls back to the list before and after, so that everything depends on
whether the further account comes first there.
-/

namespace TradingBroker.Accounts

open TradingBroker.Lib
open TradingBroker.Trades (Account)

/-! ## What is promised -/

/-- `link_telegram` or `admin_link_telegram` links the account to the user. -/
def Links (db : Db) (u : BotUser) (account : RowId) (x : Draw) (db' : Db) : Prop :=
  ∃ a t, a.id = account ∧ Db.commit t = some db' ∧
    ((∃ token, db.linkTelegram token u x = some (a, t)) ∨
      db.adminLinkTelegram account u x = some (a, t))

/-- The database after these calls. -/
def calls (ops : List (Op × Draw)) : Db := ops.foldl (fun db c => c.1.apply c.2 db) empty

/-- No link of a further account changes which one is active, whatever was called
before. -/
def LinkingNeverMoves : Prop :=
  ∀ (ops : List (Op × Draw)) (u : BotUser) (account : RowId) (x : Draw) (db' : Db),
    (∃ held, (calls ops).isLinked u held = true) → (calls ops).isLinked u account = false →
    Links (calls ops) u account x db' →
    ∀ y, (db'.getActiveAccount u y).1 = ((calls ops).getActiveAccount u y).1

/-- The user's session names an account: one they hold or, if not, neither the further
account nor a lost one in whose place the list, with the further account in it, would
begin with that. It is a condition on the tables as they are before the link. -/
def SessionHolds (db : Db) (u : BotUser) (account : RowId) : Prop :=
  ∃ selected, db.selected u = some selected ∧ (db.isLinked u selected = true ∨
    (selected ≠ account ∧
      (db.listed fun a => db.isLinked u a.id || a.id == account).head?.map Account.id ≠
        some account))

/-! ## The order of the list -/

variable {db db' : Db} {t : Tables} {u : BotUser} {x : Draw} {account : RowId}

instance listedBefore_total (t : Tables) :
    Std.Total fun a b : Account => t.listedBefore a b = true := by
  refine ⟨fun a b => ?_⟩
  unfold Tables.listedBefore
  cases a.lastActivityAt with
  | none =>
    cases b.lastActivityAt with
    | none => simp only [decide_eq_true_eq]; omega
    | some n => exact .inl rfl
  | some m =>
    cases b.lastActivityAt with
    | none => exact .inr rfl
    | some n => simp only [Bool.or_eq_true, Bool.and_eq_true, decide_eq_true_eq, beq_iff_eq]; omega

instance listedBefore_trans (t : Tables) :
    IsTrans Account fun a b => t.listedBefore a b = true := by
  refine ⟨fun a b c => ?_⟩
  unfold Tables.listedBefore
  cases a.lastActivityAt with
  | none =>
    cases b.lastActivityAt with
    | none =>
      cases c.lastActivityAt with
      | none => simp only [decide_eq_true_eq]; omega
      | some k => exact fun _ _ => rfl
    | some n =>
      cases c.lastActivityAt with
      | none => exact fun _ h => absurd h Bool.false_ne_true
      | some k => exact fun _ _ => rfl
  | some m =>
    cases b.lastActivityAt with
    | none => exact fun h _ => absurd h Bool.false_ne_true
    | some n =>
      cases c.lastActivityAt with
      | none => exact fun _ h => h
      | some k =>
        simp only [Bool.or_eq_true, Bool.and_eq_true, decide_eq_true_eq, beq_iff_eq]
        omega

/-- The first of the accounts listed with one more is that one, or the first without it. -/
theorem head?_listed {p : Account → Bool} {a : Account}
    (hhead : (db.listed fun a => p a || a.id == account).head? = some a) (hne : a.id ≠ account) :
    (db.listed p).head? = some a := by
  have hnodup : db.accounts.Nodup := List.Nodup.of_map Account.id db.accountIds_nodup
  have hsub : (db.accounts.filter p).Sublist
      (db.accounts.filter fun a => p a || a.id == account) :=
    List.monotone_filter_right _ fun a ha => by rw [ha, Bool.true_or]
  refine head?_of_sublist (sublist_insertionSort hsub) ?_ hhead ?_
  · exact (List.perm_insertionSort _ _).nodup_iff.2 (hnodup.filter _)
  · obtain ⟨hmem, hor⟩ := mem_listed.1 (List.mem_of_mem_head? hhead)
    rw [Bool.or_eq_true, beq_iff_eq] at hor
    exact mem_listed.2 ⟨hmem, hor.resolve_right hne⟩

/-! ## What a link does -/

theorem selected_pointAt {a : Option RowId} : (t.pointAt u a x).selected u = a := by
  unfold Tables.pointAt Tables.selected
  cases hfind : t.sessions.find? (BotSession.isOf u) with
  | some s =>
    have hfound := List.find?_some hfind
    have hs : BotSession.isOf u { s with activeAccountId := a } = true := hfound
    dsimp only
    rw [find?_replaceFirst hfind hs]
    rfl
  | none =>
    dsimp only
    rw [List.find?_append, hfind, Option.none_or, List.find?_cons_of_pos]
    · rfl
    · rw [BotSession.isOf, beq_self_eq_true, beq_self_eq_true]
      rfl

/-- A link leaves the accounts alone, adds itself, and is selected if nothing is. -/
theorem links_effect (h : Links db u account x db') :
    db'.accounts = db.accounts ∧ db'.createdAt = db.createdAt ∧
      db'.links = (db.addLink u account x).links ∧
      db'.selected u = (db.selected u).or (some account) := by
  have hcore : ∀ tokens, ∃ t' : Tables, t' = { db.toTables with tokens }.link u account x ∧
      t'.accounts = db.accounts ∧ t'.createdAt = db.createdAt ∧
      t'.links = (db.addLink u account x).links ∧
      t'.selected u = (db.selected u).or (some account) := by
    intro tokens
    have hadd : ({ db.toTables with tokens }.addLink u account x).links =
        (db.addLink u account x).links := by
      unfold Tables.addLink
      split
      · next h => rw [if_pos (by exact h)]
      · next h => rw [if_neg (by exact h)]
    refine ⟨_, rfl, by rw [link_frame], by rw [link_frame], by rw [link_frame]; exact hadd, ?_⟩
    unfold Tables.link
    dsimp only
    cases hselected : db.selected u with
    | none =>
      have hnone : { db.toTables with tokens }.selected u = none := hselected
      rw [hnone]
      exact selected_pointAt
    | some s =>
      have hsome : { db.toTables with tokens }.selected u = some s := hselected
      rw [hsome, addLink_frame]
      exact hselected
  obtain ⟨a, t, rfl, hcommit, ⟨token, hlink⟩ | hlink⟩ := h
  · obtain ⟨k, -, hlink⟩ := Option.bind_eq_some_iff.1 hlink
    obtain ⟨a', -, heq⟩ := Option.map_eq_some_iff.1 hlink
    cases heq
    obtain ⟨t', rfl, hrest⟩ := hcore (replaceFirst _ { k with lastUsedAt := some x.now } db.tokens)
    rw [← commit_eq hcommit] at hrest
    exact hrest
  · obtain ⟨a', -, heq⟩ := Option.map_eq_some_iff.1 hlink
    cases heq
    obtain ⟨t', rfl, hrest⟩ := hcore db.tokens
    rw [← commit_eq hcommit] at hrest
    exact hrest

theorem isLinked_addLink {s : RowId} (hfurther : t.isLinked u account = false) :
    (t.addLink u account x).isLinked u s = (t.isLinked u s || s == account) := by
  unfold Tables.addLink
  rw [hfurther, if_neg Bool.false_ne_true]
  show List.any (_ ++ [_]) _ = _
  rw [List.any_append, List.any_cons, List.any_nil, Bool.or_false]
  congr 1
  rw [AccountBotLink.isOf, beq_self_eq_true, beq_self_eq_true, Bool.and_self, Bool.and_true]
  exact Bool.beq_comm

/-! ## Which links leave the active account alone -/

theorem getActiveAccount_eq (db : Db) (u : BotUser) (x : Draw) : (db.getActiveAccount u x).1 =
    ((db.selected u).bind (db.linkedAccount u)).or (db.listByTelegramUserId u).head? := by
  unfold Db.getActiveAccount
  split
  · next a ha =>
      rw [ha]
      rfl
  · next hnone =>
      rw [hnone, Option.none_or]
      split
      · next fallback hfallback => rw [hfallback]
      · next hlist => rw [hlist]

theorem linkedAccount_isSome {s : RowId} (h : db.isLinked u s = true) :
    (db.linkedAccount u s).isSome = true := by
  obtain ⟨l, hl, hid, -⟩ := isLinked_iff.1 h
  obtain ⟨a, ha, haid⟩ := db.link_account hl
  have hsame : a.id = s := haid.trans hid
  rw [Tables.linkedAccount, List.find?_isSome]
  exact ⟨a, ha, by rw [hsame, h, beq_self_eq_true]; rfl⟩

theorem linkedAccount_none {s : RowId} (h : t.isLinked u s = false) :
    t.linkedAccount u s = none := by
  refine List.find?_eq_none.2 fun a _ hfound => ?_
  rw [Bool.and_eq_true, beq_iff_eq] at hfound
  rw [hfound.1, h] at hfound
  exact Bool.false_ne_true hfound.2

/-- A user with a link has an active account. -/
theorem active_of_linked {s : RowId} (h : db.isLinked u s = true) (y : Draw) :
    ∃ a, (db.getActiveAccount u y).1 = some a := by
  cases hactive : (db.getActiveAccount u y).1 with
  | some a => exact ⟨a, rfl⟩
  | none =>
    obtain ⟨l, hl, -, hof⟩ := isLinked_iff.1 h
    rw [getActiveAccount_none.1 hactive l hl] at hof
    cases hof

/-- What is active is linked, so it is not an account that is not. -/
theorem active_ne_further (hfurther : db.isLinked u account = false) (y : Draw) {a : Account}
    (hactive : (db.getActiveAccount u y).1 = some a) : a.id ≠ account := by
  intro heq
  have hhas := (getActiveAccount_held hactive).2
  rw [heq, hfurther] at hhas
  cases hhas

/-- What a link of a further account changes: one more account is linked, and the
session selects it if it selected nothing. -/
structure Joined (db db' : Db) (u : BotUser) (account : RowId) : Prop where
  accounts : db'.accounts = db.accounts
  createdAt : db'.createdAt = db.createdAt
  linked : ∀ s, db'.isLinked u s = (db.isLinked u s || s == account)
  selected : db'.selected u = (db.selected u).or (some account)

theorem Links.joined (h : Links db u account x db') (hfurther : db.isLinked u account = false) :
    Joined db db' u account := by
  obtain ⟨haccounts, hcreated, hadd, hselected⟩ := links_effect h
  refine ⟨haccounts, hcreated, fun s => ?_, hselected⟩
  rw [← isLinked_addLink (x := x) hfurther, Tables.isLinked, Tables.isLinked, hadd]

namespace Joined

variable (h : Joined db db' u account)

include h

/-- The further account is listed with the others, in its place. -/
theorem list : db'.listByTelegramUserId u =
    db.listed fun a => db.isLinked u a.id || a.id == account := by
  have horder : db'.listedBefore = db.listedBefore := by
    funext a b
    simp only [Tables.listedBefore, h.createdAt]
  unfold Tables.listByTelegramUserId Tables.listed
  rw [horder, h.accounts]
  simp only [h.linked]

theorem linkedAccount_held {s : RowId} (hs : db.isLinked u s = true) :
    db'.linkedAccount u s = db.linkedAccount u s := by
  simp only [Tables.linkedAccount, h.accounts, h.linked]
  congr 1
  funext a
  by_cases ha : a.id = s
  · rw [ha, hs, Bool.true_or]
  · rw [beq_eq_false_iff_ne.2 ha, Bool.false_and, Bool.false_and]

/-- The further account is active if it is selected. -/
theorem moves (x : Draw) (hfurther : db.isLinked u account = false)
    (hsel : db'.selected u = some account) :
    ¬ ∀ y, (db'.getActiveAccount u y).1 = (db.getActiveAccount u y).1 := by
  intro hsame
  have hnow : db'.isLinked u account = true := by rw [h.linked, beq_self_eq_true, Bool.or_true]
  obtain ⟨a, ha⟩ := Option.isSome_iff_exists.1 (linkedAccount_isSome hnow)
  have hafter : (db'.getActiveAccount u x).1 = some a := by
    rw [getActiveAccount_eq, hsel, Option.bind_some, ha]
    rfl
  exact active_ne_further hfurther x ((hsame x).symm.trans hafter) (linkedAccount_some ha).2.1

/-- A session that selects an account that is held selects it still. -/
theorem keeps_held {s : RowId} (hsel : db.selected u = some s) (hs : db.isLinked u s = true)
    (y : Draw) : (db'.getActiveAccount u y).1 = (db.getActiveAccount u y).1 := by
  have hselected := h.selected
  rw [hsel, Option.some_or] at hselected
  obtain ⟨a, ha⟩ := Option.isSome_iff_exists.1 (linkedAccount_isSome hs)
  rw [getActiveAccount_eq, getActiveAccount_eq, hselected, hsel, Option.bind_some,
    Option.bind_some, h.linkedAccount_held hs, ha]
  rfl

/-- Where the session names an account that was lost, what is active is the first on the list,
before and after. -/
theorem keeps_stale_iff (x : Draw) {s : RowId} (hheld : ∃ held, db.isLinked u held = true)
    (hfurther : db.isLinked u account = false) (hsel : db.selected u = some s)
    (hs : db.isLinked u s = false) (hne : s ≠ account) :
    (∀ y, (db'.getActiveAccount u y).1 = (db.getActiveAccount u y).1) ↔
      (db.listed fun a => db.isLinked u a.id || a.id == account).head?.map Account.id ≠
        some account := by
  have hselected := h.selected
  rw [hsel, Option.some_or] at hselected
  have hstale : db'.isLinked u s = false := by
    rw [h.linked, hs, beq_eq_false_iff_ne.2 hne, Bool.or_self]
  have hbefore : ∀ y, (db.getActiveAccount u y).1 = (db.listByTelegramUserId u).head? := by
    intro y
    rw [getActiveAccount_eq, hsel, Option.bind_some, linkedAccount_none hs, Option.none_or]
  have hafter : ∀ y, (db'.getActiveAccount u y).1 =
      (db.listed fun a => db.isLinked u a.id || a.id == account).head? := by
    intro y
    rw [getActiveAccount_eq, hselected, Option.bind_some, linkedAccount_none hstale,
      Option.none_or, h.list]
  constructor
  · intro hsame hhead
    obtain ⟨a, ha, hid⟩ := Option.map_eq_some_iff.1 hhead
    have hactive : (db.getActiveAccount u x).1 = some a := by rw [← hsame, hafter, ha]
    exact active_ne_further hfurther x hactive hid
  · intro hhead y
    obtain ⟨held, hheld⟩ := hheld
    have hnow : db'.isLinked u held = true := by rw [h.linked, hheld, Bool.true_or]
    obtain ⟨a, ha⟩ := active_of_linked hnow y
    rw [ha]
    rw [hafter] at ha
    have hid : a.id ≠ account := fun heq => hhead (by rw [ha, ← heq]; rfl)
    rw [hbefore, Tables.listByTelegramUserId, head?_listed ha hid]

end Joined

/-- The link of a further account leaves the active one alone exactly if the user's session
holds. -/
theorem linking_keeps_active_iff (hheld : ∃ held, db.isLinked u held = true)
    (hfurther : db.isLinked u account = false) (hlinks : Links db u account x db') :
    (∀ y, (db'.getActiveAccount u y).1 = (db.getActiveAccount u y).1) ↔
      SessionHolds db u account := by
  have h := hlinks.joined hfurther
  have hselected := h.selected
  cases hsel : db.selected u with
  | none =>
    rw [hsel, Option.none_or] at hselected
    refine ⟨fun hsame => absurd hsame (h.moves x hfurther hselected), ?_⟩
    rintro ⟨s, hs, -⟩
    rw [hsel] at hs
    cases hs
  | some s =>
    rw [hsel, Option.some_or] at hselected
    have hholds : SessionHolds db u account ↔ (db.isLinked u s = true ∨ (s ≠ account ∧
        (db.listed fun a => db.isLinked u a.id || a.id == account).head?.map Account.id ≠
          some account)) := by
      simp only [SessionHolds, hsel, Option.some.injEq, exists_eq_left']
    rw [hholds]
    by_cases hs : db.isLinked u s = true
    · exact ⟨fun _ => .inl hs, fun _ => h.keeps_held hsel hs⟩
    · rw [Bool.not_eq_true] at hs
      rw [or_iff_right (by rw [hs]; exact Bool.false_ne_true)]
      by_cases hne : s = account
      · subst hne
        exact ⟨fun hsame => absurd hsame (h.moves x hfurther hselected),
          fun hor => absurd rfl hor.1⟩
      · rw [and_iff_right hne]
        exact h.keeps_stale_iff x hheld hfurther hsel hs hne

/-! ## After a rotation -/

namespace Sample

/-- Three accounts, the first two of them linked. -/
def linkedCalls : List (Op × Draw) :=
  [(.upsertGateway "1" .forex "MT5", draw 1), (.upsertGateway "2" .forex "MT5", draw 2),
    (.upsertGateway "3" .forex "MT5", draw 3), (.linkTelegram 1 user, draw 4),
    (.linkTelegram 2 user, draw 5)]

def rotatedCalls : List (Op × Draw) := linkedCalls ++ [(.rotateLinkToken "1", draw 6)]

def relinked (ops : List (Op × Draw)) : Db := (Op.linkTelegram 3 user).apply (draw 7) (calls ops)

theorem links_relinked (ops : List (Op × Draw))
    (h : ((calls ops).linkTelegram 3 user (draw 7)).any fun r => r.1.id == 3 && r.2.ok) :
    Links (calls ops) user 3 (draw 7) (relinked ops) := by
  obtain ⟨⟨a, t⟩, hlink, hok⟩ := (Option.any_eq_true _ _).1 h
  rw [Bool.and_eq_true, beq_iff_eq] at hok
  have hcommit : Db.commit t = some ⟨t, hok.2⟩ := dif_pos hok.2
  have happly : relinked ops = ⟨t, hok.2⟩ := by
    show (((Op.linkTelegram 3 user).writes _ _).bind Db.commit).getD _ = _
    rw [Op.writes, hlink, Option.map_some, Option.bind_some, hcommit]
    rfl
  rw [happly]
  exact ⟨a, t, hok.1, hcommit, .inl ⟨3, hlink⟩⟩

end Sample

/-- The account in use is rotated, and the user goes on with the other one, until a third is
linked. -/
theorem not_linkingNeverMoves : ¬ LinkingNeverMoves := by
  intro h
  have hsame := h Sample.rotatedCalls Sample.user 3 (Sample.draw 7) (Sample.relinked _)
    ⟨2, by decide +kernel⟩ (by decide +kernel) (Sample.links_relinked _ (by decide +kernel))
    (Sample.draw 8)
  have hids := congrArg (Option.map Account.id) hsame
  have hafter : ((Sample.relinked Sample.rotatedCalls).getActiveAccount Sample.user
      (Sample.draw 8)).1.map Account.id = some 3 := by decide +kernel
  have hbefore : ((calls Sample.rotatedCalls).getActiveAccount Sample.user
      (Sample.draw 8)).1.map Account.id = some 2 := by decide +kernel
  rw [hafter, hbefore] at hids
  cases hids

theorem linking_keeps_active_linked :
    ((Sample.relinked Sample.linkedCalls).getActiveAccount Sample.user (Sample.draw 8)).1.map
        Account.id = some 1 ∧
      ((∀ y, ((Sample.relinked Sample.linkedCalls).getActiveAccount Sample.user y).1 =
        ((calls Sample.linkedCalls).getActiveAccount Sample.user y).1) ↔
        SessionHolds (calls Sample.linkedCalls) Sample.user 3) :=
  ⟨by decide +kernel, linking_keeps_active_iff ⟨1, by decide +kernel⟩ (by decide +kernel)
    (Sample.links_relinked _ (by decide +kernel))⟩

end TradingBroker.Accounts
