import TradingBroker.Bot.Commands
import TradingBroker.Bot.Presenters
import TradingBroker.Broadcast.Escaping

/-!
# The bot's messages are markup

Telegram refuses a message that is not well-formed, and the values of a message are anything at
all: a worker names its account, an admin its strategies. Whatever they are, every message can
be read, and shows each value as it is. Each presenter is read once, part by part, and all of
it follows from that: what a message shows, and what of it does not depend on the secrets it
carries.

Two things are carried through a presenter at once: what the grammar reads of its parts,
from the middle of a message to the middle of a message (`goes_reply` and the lemmas
before it), and what of the text that is shown comes from which value. A value that is not
escaped has to be one of which this makes no difference, a number or a label of the
program's own. For the secrets the same message is read twice, with either secret, and
what is outside the spoiler is compared.
-/

namespace TradingBroker.Bot

open TradingBroker.Lib TradingBroker.Lib.Markup TradingBroker.Lib.Display
open TradingBroker.Lib.Numerals TradingBroker.Bot.Table

/-! ## What a message shows -/

def bold : Tag := codesOf "b"
def italic : Tag := codesOf "i"
def code : Tag := codesOf "code"
def pre : Tag := codesOf "pre"
def spoiler : Tag := codesOf "tg-spoiler"

/-- The tags the messages are written with. Within `code` and `pre` there are no others. -/
def botGrammar : Grammar := ⟨[bold, italic, code, pre, spoiler], [code, pre]⟩

theorem bare_of_tame {s : String} (h : Tame s) : Bare (pyStr s) := by
  intro c hc
  obtain ⟨x, hx, rfl⟩ := List.mem_map.1 hc
  exact h x hx

theorem bare_append {t u : PyStr} (ht : Bare t) (hu : Bare u) : Bare (t ++ u) := by
  intro c hc
  rcases List.mem_append.1 hc with h | h
  · exact ht c h
  · exact hu c h

theorem bare_number (n : Int) : Bare (number n) := bare_of_tame (Broadcast.tame_toString_int n)

theorem bare_pageRange (page : PageDict) (shown : Nat) : Bare (pageRange page shown) :=
  bare_append (bare_number _) (bare_append (by decide) (bare_append (bare_number _)
    (bare_append (by decide) (bare_append (bare_number _) (by decide)))))

theorem bare_utcLabel (hours : Helpers.Hours) : Bare (pyStr (Helpers.formatUtcLabel hours)) :=
  bare_of_tame (Broadcast.tame_utcLabel hours)

section
variable {sp : Spelling} {opened : List Tag}

theorem read_esc (v : Json) : Reader.read botGrammar ⟨opened, .text⟩ (esc sp v) =
    some (⟨opened, .text⟩, (seen sp v).map fun c => (opened, c)) := by
  cases v with
  | null => exact read_allBare rfl (show Bare (pyStr "—") by decide)
  | _ => exact read_escapeQuoted rfl _

theorem goes_esc (v : Json) : Goes botGrammar opened (esc sp v) opened [(opened, seen sp v)] :=
  .of_read (read_esc v)

theorem goes_fmtNum (v : Json) :
    Goes botGrammar opened (fmtNum sp v) opened [(opened, seenNum sp v)] := by
  have hnumber : ∀ v, Goes botGrammar opened ((sp.amount v).getD (esc sp v)) opened
      [(opened, (sp.amount v).getD (seen sp v))] := by
    intro v
    cases hamount : sp.amount v with
    | none => exact goes_esc v
    | some t => exact .bare (sp.amount_bare v t hamount)
  cases v with
  | null => exact .bare (show Bare (pyStr "—") by decide)
  | _ => exact hnumber _

/-- A table shows its lines. -/
theorem goes_table {t : TextTable} (hcaps : CapsGiven t.headers t.maxWidths) :
    ∃ table, t.render = some table ∧ Goes botGrammar [] table [] [([pre], t.text)] := by
  refine ⟨_, renderTable_eq t.rows t.aligns hcaps, ?_⟩
  exact Goes.append (Goes.lit [pre] (by decide)) (Goes.append (.unquoted _)
    (Goes.lit [] (by decide)))

end

/-! ## The messages -/

/-- A message of the presenters, with what it is made from. -/
inductive Reply where
  | help
  | adminHelp
  | maxOpenOrders (state : JsonObject) (accountId : Json)
  | maxOpenOrdersUpdated (state : JsonObject)
  | broadcastSubscription (subscribed : Bool) (account : JsonObject)
  | broadcastSubscriptionAll (subscribed : Bool) (count : Int)
  | ownAccount (account : JsonObject)
  | accountsList (accounts : List JsonObject) (page : PageDict) (withSwitchHint : Bool)
  | trades (data : List JsonObject) (page : PageDict) (tzOffsetHours : Helpers.Hours)
  | status (account : JsonObject) (positions : Option UserMessages.Positions)
    (tzOffsetHours : Helpers.Hours)
  | accountsAdmin (accounts : List JsonObject) (page : PageDict)
  | adminTrades (accountId : Json) (data : List JsonObject) (page : PageDict)
      (tzOffsetHours : Helpers.Hours)
  | settings (states : List JsonObject)
  | accountCreated (account : JsonObject) (invite : Json)
  | rotateResult (result : JsonObject)
  | inviteUrl (url : Json) (account : Option JsonObject)
  | magicMapPrompt (currentValue : Json)
  | magicMapUpdated (value : Json)
  | linkedAccount (account : JsonObject) (telegramUserId : Int)
  | exitPrompt (trade : JsonObject)
  | commandAnswer (result : JsonObject)

/-- The message as it is sent; `none` is an exception. -/
def Reply.render (sp : Spelling) : Reply → Option PyStr
  | help => some UserMessages.helpText
  | adminHelp => some AdminMessages.adminHelp
  | maxOpenOrders state accountId => some (UserMessages.formatMaxOpenOrders sp state accountId)
  | maxOpenOrdersUpdated state => some (UserMessages.formatMaxOpenOrdersUpdated sp state)
  | broadcastSubscription subscribed account =>
      some (UserMessages.formatBroadcastSubscription sp subscribed account)
  | broadcastSubscriptionAll subscribed count =>
      some (UserMessages.formatBroadcastSubscriptionAll subscribed count)
  | ownAccount account => some (UserMessages.formatAccount sp account)
  | accountsList accounts page withSwitchHint =>
      UserMessages.formatAccountsList sp accounts page withSwitchHint
  | trades data page tzOffsetHours => UserMessages.formatTrades sp data page tzOffsetHours
  | status account positions tzOffsetHours =>
      UserMessages.formatStatus sp account positions tzOffsetHours
  | accountsAdmin accounts page => AdminMessages.formatAccountsAdmin sp accounts page
  | adminTrades accountId data page tzOffsetHours =>
      AdminMessages.formatAdminTrades sp accountId data page tzOffsetHours
  | settings states => AdminMessages.formatSettings sp states
  | accountCreated account invite => some (AdminMessages.formatAccountCreated sp account invite)
  | rotateResult result => some (AdminMessages.formatRotateResult sp result)
  | inviteUrl url account => some (AdminMessages.formatInviteUrl sp url account)
  | magicMapPrompt currentValue => some (AdminMessages.formatMagicMapPrompt sp currentValue)
  | magicMapUpdated value => some (AdminMessages.formatMagicMapUpdated sp value)
  | linkedAccount account telegramUserId =>
      some (AdminMessages.formatLinkedAccount sp account telegramUserId)
  | exitPrompt trade => some (formatExitPrompt sp trade)
  | commandAnswer result => some (formatCommandAnswer sp result)

section
variable (sp : Spelling)

/-- The account of a message, as it is named in brackets. -/
def accountSeen (account : JsonObject) : List Seen :=
  [([code], seen sp (field account "account_id")), ([], seen sp (field account "market")),
    ([], seen sp (field account "gateway"))]

/-- What a block about an account shows. -/
def accountShown (account : JsonObject) : List Seen :=
  [([code], seen sp (field account "account_id")), ([], seen sp (field account "account_name")),
    ([bold], seenNum sp (field account "account_balance")),
    ([], seen sp (field account "market"))]

/-- What a page of trades shows. -/
def tradesShown (data : List JsonObject) (page : PageDict) (tzOffsetHours : Helpers.Hours) :
    List Seen :=
  if data.isEmpty then []
  else [([], pageRange page data.length), ([], pyStr (Helpers.formatUtcLabel tzOffsetHours)),
    ([pre], (UserMessages.tradesTable sp data tzOffsetHours).text)]

/-- What the count of open positions shows, and their table. -/
def positionsShown (positions : Option UserMessages.Positions) (tzOffsetHours : Helpers.Hours) :
    List Seen :=
  match positions with
  | none => []
  | some p =>
      ([bold], number (p.count.getD p.data.length)) ::
        if p.data.isEmpty then []
        else [([], pyStr (Helpers.formatUtcLabel tzOffsetHours)),
          ([pre], (UserMessages.tradesTable sp p.data tzOffsetHours).text)]

/-- What of a cap is to be seen. -/
def seenLimit (limit : Json) : PyStr :=
  if isZero limit then pyStr "no limit" else seen sp limit

/-- What of an action is to be seen. -/
def seenAction (action : Json) : PyStr :=
  if sp.str action = pyStr "FLAT" then pyStr "Flat"
  else if sp.str action = pyStr "BLOCK_SIGNAL" then pyStr "Prevent"
  else if sp.str action = pyStr "ALLOW_SIGNAL" then pyStr "Allow"
  else seen sp action

/-- What a message is to show, and where: each value as it was given, a list as its table. -/
def Reply.shown : Reply → List Seen
  | help => []
  | adminHelp => []
  | maxOpenOrders state accountId =>
      (match accountId with | .null => [] | id => [([code], seen sp id)]) ++
        ([bold], seenLimit sp (field state "max_open_orders")) ::
          if UserMessages.inherited state then []
          else [([bold], seen sp (field state "global_max_open_orders"))]
  | maxOpenOrdersUpdated state => [([bold], seenLimit sp (field state "max_open_orders"))]
  | broadcastSubscription _ account =>
      let kind := (pyStr "/").intercalate
        (([field account "market", field account "gateway"].filter truthy).map sp.str)
      [([code], seen sp (field account "account_id")), ([], kind)]
  | broadcastSubscriptionAll _ count => [([], number count)]
  | ownAccount account => accountShown sp account
  | accountsList accounts page _ =>
      if accounts.isEmpty then []
      else [([], pageRange page accounts.length),
        ([pre], (UserMessages.accountsTable sp accounts).text)]
  | trades data page tzOffsetHours => tradesShown sp data page tzOffsetHours
  | status account positions tzOffsetHours =>
      accountShown sp account ++ positionsShown sp positions tzOffsetHours
  | accountsAdmin accounts page =>
      if accounts.isEmpty then []
      else [([], pageRange page accounts.length),
        ([pre], (AdminMessages.accountsTable sp accounts).text)]
  | adminTrades accountId data page tzOffsetHours =>
      ([code], seen sp accountId) :: tradesShown sp data page tzOffsetHours
  | settings states =>
      if states.isEmpty then [] else [([pre], (AdminMessages.settingsTable sp states).text)]
  | accountCreated account invite =>
      [([code], seen sp (field account "account_id")), ([], seen sp (field account "market")),
        ([], seen sp (field account "gateway")),
        ([spoiler], seen sp (field account "link_token"))] ++
        if truthy invite then [([spoiler], seen sp invite)] else []
  | rotateResult result =>
      [([code], seen sp (field result "account_id")),
        ([code, spoiler], seen sp (field result "link_token"))]
  | inviteUrl url account =>
      ((account.map (accountSeen sp)).getD []) ++ [([spoiler], seen sp url)]
  | magicMapPrompt currentValue =>
      if truthy currentValue then [([code], seen sp currentValue)] else []
  | magicMapUpdated value => [([code], seen sp value)]
  | linkedAccount account telegramUserId =>
      accountSeen sp account ++ [([code], number telegramUserId),
        ([], number (AdminMessages.linkedUsers account))]
  | exitPrompt trade =>
      [([bold], seen sp (field trade "symbol")), ([bold], seen sp (field trade "action")),
        ([code, italic], seen sp (field trade "strategy")),
        ([code, italic], seen sp (field trade "symbol"))]
  | commandAnswer result =>
      [([bold], seenAction sp (field result "action")), ([code], seen sp (field result "scope"))]

end

section
variable {sp : Spelling}

theorem goes_commandsHint : Goes botGrammar [] UserMessages.commandsHint [] [] := by
  iterate 15 refine Goes.parts_lit [] (by decide) ?_
  exact .parts_nil

theorem goes_help : Goes botGrammar [] UserMessages.helpText [] [] := by
  iterate 3 refine Goes.parts_lit [] (by decide) ?_
  exact .parts_own goes_commandsHint .parts_nil

theorem goes_adminHelp : Goes botGrammar [] AdminMessages.adminHelp [] [] := by
  iterate 16 refine Goes.parts_lit [] (by decide) ?_
  exact .parts_nil

/-- A cap is shown in bold. -/
theorem goes_shownLimit (limit : Json) :
    Goes botGrammar [] (UserMessages.shownLimit sp limit) [] [([bold], seenLimit sp limit)] := by
  have hlimit : Goes botGrammar [bold] (if isZero limit then pyStr "no limit" else esc sp limit)
      [bold] [([bold], seenLimit sp limit)] := by
    unfold seenLimit
    split
    · exact .bare (by decide)
    · exact goes_esc _
  exact Goes.parts_lit [bold] (by decide) (.parts_shows hlimit
    (.parts_lit [] (by decide) .parts_nil))

theorem goes_maxOpenOrders (state : JsonObject) (accountId : Json) :
    Goes botGrammar [] (UserMessages.formatMaxOpenOrders sp state accountId) []
      (Reply.shown sp (.maxOpenOrders state accountId)) := by
  have haccount : Goes botGrammar [] (UserMessages.accountLine sp accountId) []
      (match accountId with | .null => [] | id => [([code], seen sp id)]) := by
    have hnamed : ∀ id : Json, Goes botGrammar []
        (fstring [pyStr "Account: <code>", esc sp id, pyStr "</code>\n"]) []
        [([code], seen sp id)] := fun id =>
      Goes.parts_lit [code] (by decide) (.parts_shows (goes_esc _)
        (.parts_lit [] (by decide) .parts_nil))
    cases accountId with
    | null => exact .nil
    | _ => exact hnamed _
  have horigin : Goes botGrammar [] (if UserMessages.inherited state then
      pyStr "the broker-wide default" else pyStr "your own setting for this account") [] [] := by
    split
    all_goals exact Goes.lit [] (by decide)
  have hdefault : Goes botGrammar [] (if UserMessages.inherited state then []
      else fstring [pyStr "Default if you clear it: <b>",
        esc sp (field state "global_max_open_orders"), pyStr "</b>\n"]) []
      (if UserMessages.inherited state then []
        else [([bold], seen sp (field state "global_max_open_orders"))]) := by
    split
    · exact .nil
    · exact Goes.parts_lit [bold] (by decide) (.parts_shows (goes_esc _)
        (.parts_lit [] (by decide) .parts_nil))
  refine Goes.parts_lit [] (by decide) (.parts_all haccount ?_)
  refine Goes.parts_lit [] (by decide) (.parts_all (goes_shownLimit _) ?_)
  refine Goes.parts_lit [] (by decide) (.parts_own horigin ?_)
  refine Goes.parts_lit [] (by decide) (.parts_first hdefault ?_)
  iterate 4 refine Goes.parts_lit [] (by decide) ?_
  exact .parts_nil

theorem goes_maxOpenOrdersUpdated (state : JsonObject) :
    Goes botGrammar [] (UserMessages.formatMaxOpenOrdersUpdated sp state) []
      [([bold], seenLimit sp (field state "max_open_orders"))] := by
  have horigin : Goes botGrammar [] (if UserMessages.inherited state then
      pyStr " (the broker-wide default)" else []) [] [] := by
    split
    · exact Goes.lit [] (by decide)
    · exact .nil
  refine Goes.parts_lit [] (by decide) (.parts_lit [] (by decide) ?_)
  refine Goes.parts_all (goes_shownLimit _) ?_
  refine Goes.parts_own horigin (.parts_lit [italic] (by decide) ?_)
  exact Goes.parts_lit [] (by decide) .parts_nil

theorem goes_broadcastSubscription (subscribed : Bool) (account : JsonObject) :
    Goes botGrammar [] (UserMessages.formatBroadcastSubscription sp subscribed account) []
      (Reply.shown sp (.broadcastSubscription subscribed account)) := by
  have hkind : ∀ kind : PyStr, Goes botGrammar []
      (if kind.isEmpty then [] else fstring [pyStr " (", escapeQuoted kind, pyStr ")"]) []
      [([], kind)] := by
    intro kind
    split
    · next hempty =>
        rw [List.isEmpty_iff.1 hempty]
        exact .bare (List.forall_mem_nil _)
    · exact Goes.parts_lit [] (by decide) (.parts_shows (.escaped _)
        (.parts_lit [] (by decide) .parts_nil))
  have hlabel : ∀ kind : PyStr, Goes botGrammar [] (fstring
      [pyStr "<code>", esc sp (field account "account_id"), pyStr "</code>",
        if kind.isEmpty then [] else fstring [pyStr " (", escapeQuoted kind, pyStr ")"]]) []
      [([code], seen sp (field account "account_id")), ([], kind)] := fun kind =>
    Goes.parts_lit [code] (by decide) (.parts_shows (goes_esc _)
      (.parts_lit [] (by decide) (.parts_shows (hkind kind) .parts_nil)))
  cases subscribed with
  | true =>
      simp only [UserMessages.formatBroadcastSubscription, if_true]
      refine Goes.parts_lit [] (by decide) (.parts_all (hlabel _) ?_)
      iterate 5 refine Goes.parts_lit [] (by decide) ?_
      exact .parts_nil
  | false =>
      simp only [UserMessages.formatBroadcastSubscription, Bool.false_eq_true, if_false]
      refine Goes.parts_lit [] (by decide) (.parts_all (hlabel _) ?_)
      iterate 3 refine Goes.parts_lit [] (by decide) ?_
      exact .parts_nil

theorem goes_broadcastSubscriptionAll (subscribed : Bool) (count : Int) :
    Goes botGrammar [] (UserMessages.formatBroadcastSubscriptionAll subscribed count) []
      [([], number count)] := by
  have haccounts : Bare (fstring [number count, pyStr " linked account",
      if count = 1 then [] else pyStr "s"]) := by
    refine bare_append (bare_number _) (bare_append (by decide) (bare_append ?_ (by decide)))
    split <;> decide
  have hown : Goes botGrammar [] (fstring [number count, pyStr " linked account",
      if count = 1 then [] else pyStr "s"]) [] [] :=
    (Goes.bare haccounts).only (List.forall_mem_nil _)
  cases subscribed with
  | true =>
      simp only [UserMessages.formatBroadcastSubscriptionAll, if_true]
      refine Goes.parts_lit [] (by decide) (.parts_shows (.bare (bare_number count)) ?_)
      refine Goes.parts_lit [] (by decide) (.parts_own hown ?_)
      iterate 3 refine Goes.parts_lit [] (by decide) ?_
      exact .parts_nil
  | false =>
      simp only [UserMessages.formatBroadcastSubscriptionAll, Bool.false_eq_true, if_false]
      refine Goes.parts_lit [] (by decide) (.parts_shows (.bare (bare_number count)) ?_)
      refine Goes.parts_lit [] (by decide) (.parts_own hown ?_)
      iterate 2 refine Goes.parts_lit [] (by decide) ?_
      exact .parts_nil

theorem goes_account (account : JsonObject) :
    Goes botGrammar [] (UserMessages.formatAccount sp account) [] (accountShown sp account) := by
  refine Goes.parts_lit [code] (by decide) (.parts_shows (goes_esc _) ?_)
  refine Goes.parts_lit [] (by decide) (.parts_shows (goes_esc _) ?_)
  refine Goes.parts_lit [bold] (by decide) (.parts_shows (goes_fmtNum _) ?_)
  exact Goes.parts_lit [] (by decide) (.parts_shows (goes_esc _) .parts_nil)

theorem goes_accountsList (accounts : List JsonObject) (page : PageDict) (hint : Bool) :
    ∃ t, UserMessages.formatAccountsList sp accounts page hint = some t ∧
      Goes botGrammar [] t [] (Reply.shown sp (.accountsList accounts page hint)) := by
  simp only [UserMessages.formatAccountsList, Reply.shown]
  split
  · refine ⟨_, rfl, ?_⟩
    exact Goes.lit [] (by decide)
  · obtain ⟨table, htable, hgoes⟩ :=
      goes_table (t := UserMessages.accountsTable sp accounts) (.inr (Nat.le_refl 4))
    rw [htable]
    refine ⟨_, rfl, ?_⟩
    refine Goes.parts_lit [] (by decide) (.parts_shows (.bare (bare_pageRange _ _))
      (.parts_lit [] (by decide) (.parts_all hgoes (.parts_own ?_ .parts_nil))))
    cases hint with
    | true => exact Goes.lit [] (by decide)
    | false => exact .nil

variable (sp) in
theorem goes_tradesTable (data : List JsonObject) (tzOffsetHours : Helpers.Hours) :
    ∃ table, (UserMessages.tradesTable sp data tzOffsetHours).render = some table ∧
      Goes botGrammar [] table [] [([pre],
        (UserMessages.tradesTable sp data tzOffsetHours).text)] :=
  goes_table (.inr (Nat.le_refl 8))

variable (sp) in
theorem goes_trades (data : List JsonObject) (page : PageDict) (tzOffsetHours : Helpers.Hours) :
    ∃ t, UserMessages.formatTrades sp data page tzOffsetHours = some t ∧
      Goes botGrammar [] t [] (tradesShown sp data page tzOffsetHours) := by
  unfold UserMessages.formatTrades tradesShown
  split
  · refine ⟨_, rfl, ?_⟩
    exact Goes.lit [] (by decide)
  · obtain ⟨table, htable, hgoes⟩ := goes_tradesTable sp data tzOffsetHours
    rw [htable]
    refine ⟨_, rfl, ?_⟩
    exact Goes.parts_lit [] (by decide) (.parts_shows (.bare (bare_pageRange _ _))
      (.parts_lit [] (by decide) (.parts_shows (.bare (bare_utcLabel _))
        (.parts_lit [] (by decide) (.parts_all hgoes .parts_nil)))))

theorem goes_status (account : JsonObject) (positions : Option UserMessages.Positions)
    (tzOffsetHours : Helpers.Hours) :
    ∃ t, UserMessages.formatStatus sp account positions tzOffsetHours = some t ∧
      Goes botGrammar [] t [] (accountShown sp account ++
        positionsShown sp positions tzOffsetHours) := by
  cases positions with
  | none =>
      exact ⟨_, rfl, Goes.parts_all (goes_account account)
        (.parts_lit [] (by decide) (.parts_lit [] (by decide) .parts_nil))⟩
  | some p =>
      have hcount : Goes botGrammar [] (fstring [pyStr "• Open positions: <b>",
          number (p.count.getD p.data.length), pyStr "</b>"]) []
          [([bold], number (p.count.getD p.data.length))] :=
        Goes.parts_lit [bold] (by decide) (.parts_shows (.bare (bare_number _))
          (.parts_lit [] (by decide) .parts_nil))
      have hhead : Goes botGrammar [] (fstring [UserMessages.formatAccount sp account, pyStr "\n",
          fstring [pyStr "• Open positions: <b>", number (p.count.getD p.data.length),
            pyStr "</b>"]]) [] (accountShown sp account ++
              [([bold], number (p.count.getD p.data.length))]) :=
        Goes.parts_all (goes_account account)
          (.parts_lit [] (by decide) (.parts_all hcount .parts_nil))
      simp only [UserMessages.formatStatus, positionsShown, Option.map_some, Option.getD_some]
      split
      · exact ⟨_, rfl, hhead⟩
      · obtain ⟨table, htable, hgoes⟩ := goes_tradesTable sp p.data tzOffsetHours
        rw [htable]
        refine ⟨_, rfl, ?_⟩
        rw [List.append_cons (accountShown sp account)]
        exact Goes.parts_all hhead (.parts_lit [] (by decide) (.parts_shows
          (.bare (bare_utcLabel _)) (.parts_lit [] (by decide) (.parts_first hgoes .parts_nil))))

theorem goes_accountsAdmin (accounts : List JsonObject) (page : PageDict) :
    ∃ t, AdminMessages.formatAccountsAdmin sp accounts page = some t ∧
      Goes botGrammar [] t [] (Reply.shown sp (.accountsAdmin accounts page)) := by
  simp only [AdminMessages.formatAccountsAdmin, Reply.shown]
  split
  · refine ⟨_, rfl, ?_⟩
    exact Goes.lit [] (by decide)
  · obtain ⟨table, htable, hgoes⟩ :=
      goes_table (t := AdminMessages.accountsTable sp accounts) (.inr (Nat.le_refl 6))
    rw [htable]
    refine ⟨_, rfl, ?_⟩
    exact Goes.parts_lit [] (by decide) (.parts_shows (.bare (bare_pageRange _ _))
      (.parts_lit [] (by decide) (.parts_all hgoes .parts_nil)))

theorem goes_adminTrades (accountId : Json) (data : List JsonObject) (page : PageDict)
    (tzOffsetHours : Helpers.Hours) :
    ∃ t, AdminMessages.formatAdminTrades sp accountId data page tzOffsetHours = some t ∧
      Goes botGrammar [] t [] (([code], seen sp accountId) ::
        tradesShown sp data page tzOffsetHours) := by
  obtain ⟨trades, htrades, hgoes⟩ := goes_trades sp data page tzOffsetHours
  refine ⟨_, by rw [AdminMessages.formatAdminTrades, htrades, Option.map_some], ?_⟩
  exact Goes.parts_lit [code] (by decide) (.parts_shows (goes_esc _)
    (.parts_lit [] (by decide) (.parts_first hgoes .parts_nil)))

theorem goes_settings (states : List JsonObject) :
    ∃ t, AdminMessages.formatSettings sp states = some t ∧
      Goes botGrammar [] t [] (Reply.shown sp (.settings states)) := by
  simp only [AdminMessages.formatSettings, Reply.shown]
  split
  · refine ⟨_, rfl, ?_⟩
    exact Goes.lit [] (by decide)
  · obtain ⟨table, htable, hgoes⟩ :=
      goes_table (t := AdminMessages.settingsTable sp states) (.inl rfl)
    rw [htable]
    refine ⟨_, rfl, ?_⟩
    exact Goes.parts_lit [] (by decide) (.parts_all hgoes (.parts_lit [] (by decide) .parts_nil))

theorem goes_accountCreated (account : JsonObject) (invite : Json) :
    Goes botGrammar [] (AdminMessages.formatAccountCreated sp account invite) []
      (Reply.shown sp (.accountCreated account invite)) := by
  have hinvite : Goes botGrammar []
      (if truthy invite then
        fstring [pyStr "🔗 Invite link:\n<tg-spoiler>", esc sp invite, pyStr "</tg-spoiler>\n\n"]
      else []) [] (if truthy invite then [([spoiler], seen sp invite)] else []) := by
    split
    · exact Goes.parts_lit [spoiler] (by decide) (.parts_shows (goes_esc _)
        (.parts_lit [] (by decide) .parts_nil))
    · exact .nil
  refine Goes.parts_lit [code] (by decide) (.parts_shows (goes_esc _) ?_)
  refine Goes.parts_lit [] (by decide) (.parts_shows (goes_esc _) ?_)
  refine Goes.parts_lit [] (by decide) (.parts_shows (goes_esc _) ?_)
  refine Goes.parts_lit [spoiler] (by decide) (.parts_shows (goes_esc _) ?_)
  exact Goes.parts_lit [] (by decide) (.parts_first hinvite .parts_nil)

variable (sp) in
theorem goes_rotateResult (result : JsonObject) :
    Goes botGrammar [] (AdminMessages.formatRotateResult sp result) []
      (Reply.shown sp (.rotateResult result)) := by
  refine Goes.parts_lit [code] (by decide) (.parts_shows (goes_esc _) ?_)
  refine Goes.parts_lit [code, spoiler] (by decide) (.parts_shows (goes_esc _) ?_)
  iterate 2 refine Goes.parts_lit [italic] (by decide) ?_
  exact Goes.parts_lit [] (by decide) .parts_nil

/-- An account in brackets. -/
theorem goes_accountSeen {account : JsonObject} {ps : List PyStr} {texts : List Seen}
    (h : Goes botGrammar [] ps.flatten [] texts) :
    Goes botGrammar [code] (List.flatten (esc sp (field account "account_id") ::
      pyStr "</code> (" :: esc sp (field account "market") :: pyStr "/" ::
        esc sp (field account "gateway") :: ps)) []
      (([code], seen sp (field account "account_id")) ::
        ([], seen sp (field account "market")) ::
          ([], seen sp (field account "gateway")) :: texts) := by
  refine .parts_shows (goes_esc _) (.parts_lit [] (by decide) ?_)
  exact .parts_shows (goes_esc _) (.parts_lit [] (by decide) (.parts_shows (goes_esc _) h))

theorem goes_inviteWho (account : Option JsonObject) :
    Goes botGrammar [] (AdminMessages.inviteWho sp account) []
      ((account.map (accountSeen sp)).getD []) := by
  cases account with
  | none => exact .nil
  | some account =>
      exact Goes.parts_lit [code] (by decide)
        (goes_accountSeen (.parts_lit [] (by decide) .parts_nil))

theorem goes_inviteUrl (url : Json) (account : Option JsonObject) :
    Goes botGrammar [] (AdminMessages.formatInviteUrl sp url account) []
      (Reply.shown sp (.inviteUrl url account)) := by
  refine Goes.parts_lit [] (by decide) (.parts_all (goes_inviteWho account) ?_)
  refine Goes.parts_lit [spoiler] (by decide) (.parts_shows (goes_esc _) ?_)
  iterate 2 refine Goes.parts_lit [italic] (by decide) ?_
  exact Goes.parts_lit [] (by decide) .parts_nil

theorem goes_magicMapPrompt (currentValue : Json) :
    Goes botGrammar [] (AdminMessages.formatMagicMapPrompt sp currentValue) []
      (Reply.shown sp (.magicMapPrompt currentValue)) := by
  have hbody : Goes botGrammar [code]
      (if truthy currentValue then esc sp currentValue else pyStr "—") [code]
      (if truthy currentValue then [([code], seen sp currentValue)] else []) := by
    split
    · exact goes_esc _
    · exact Goes.lit [code] (by decide)
  refine Goes.parts_lit [code] (by decide) (.parts_first hbody ?_)
  refine Goes.parts_lit [] (by decide) (.parts_lit [code] (by decide) ?_)
  exact Goes.parts_lit [] (by decide) .parts_nil

theorem goes_magicMapUpdated (value : Json) :
    Goes botGrammar [] (AdminMessages.formatMagicMapUpdated sp value) []
      [([code], seen sp value)] :=
  Goes.parts_lit [code] (by decide) (.parts_shows (goes_esc _)
    (.parts_lit [] (by decide) .parts_nil))

theorem goes_linkedAccount (account : JsonObject) (telegramUserId : Int) :
    Goes botGrammar [] (AdminMessages.formatLinkedAccount sp account telegramUserId) []
      (Reply.shown sp (.linkedAccount account telegramUserId)) := by
  refine Goes.parts_lit [code] (by decide) (goes_accountSeen ?_)
  refine Goes.parts_lit [code] (by decide) (.parts_shows (.escaped _) ?_)
  exact Goes.parts_lit [] (by decide) (.parts_shows (.escaped _) .parts_nil)

theorem goes_exitPrompt (trade : JsonObject) :
    Goes botGrammar [] (formatExitPrompt sp trade) [] (Reply.shown sp (.exitPrompt trade)) := by
  refine Goes.parts_lit [bold] (by decide) (.parts_shows (goes_esc _) ?_)
  refine Goes.parts_lit [bold] (by decide) (.parts_shows (goes_esc _) ?_)
  refine Goes.parts_lit [italic] (by decide) ?_
  refine Goes.parts_lit [code, italic] (by decide) (.parts_shows (goes_esc _) ?_)
  refine Goes.parts_lit [code, italic] (by decide) (.parts_shows (goes_esc _) ?_)
  exact Goes.parts_lit [] (by decide) .parts_nil

theorem goes_commandAnswer (result : JsonObject) :
    Goes botGrammar [] (formatCommandAnswer sp result) []
      (Reply.shown sp (.commandAnswer result)) := by
  have haction : Goes botGrammar [bold] (actionText sp (field result "action")) [bold]
      [([bold], seenAction sp (field result "action"))] := by
    unfold actionText seenAction
    split
    · exact .bare (by decide)
    · split
      · exact .bare (by decide)
      · split
        · exact .bare (by decide)
        · exact goes_esc _
  refine Goes.parts_lit [] (by decide) (.parts_lit [bold] (by decide) ?_)
  refine Goes.parts_shows haction (.parts_lit [code] (by decide) (.parts_shows (goes_esc _) ?_))
  iterate 2 refine Goes.parts_lit [] (by decide) ?_
  exact .parts_nil

variable (sp) in
theorem goes_reply (r : Reply) :
    ∃ t, r.render sp = some t ∧ Goes botGrammar [] t [] (r.shown sp) := by
  cases r with
  | help => exact ⟨_, rfl, goes_help⟩
  | adminHelp => exact ⟨_, rfl, goes_adminHelp⟩
  | maxOpenOrders state accountId => exact ⟨_, rfl, goes_maxOpenOrders state accountId⟩
  | maxOpenOrdersUpdated state => exact ⟨_, rfl, goes_maxOpenOrdersUpdated state⟩
  | broadcastSubscription subscribed account =>
      exact ⟨_, rfl, goes_broadcastSubscription subscribed account⟩
  | broadcastSubscriptionAll subscribed count =>
      exact ⟨_, rfl, goes_broadcastSubscriptionAll subscribed count⟩
  | ownAccount account => exact ⟨_, rfl, goes_account account⟩
  | accountsList accounts page hint => exact goes_accountsList accounts page hint
  | trades data page tzOffsetHours => exact goes_trades sp data page tzOffsetHours
  | status account positions tzOffsetHours => exact goes_status account positions tzOffsetHours
  | accountsAdmin accounts page => exact goes_accountsAdmin accounts page
  | adminTrades accountId data page tzOffsetHours =>
      exact goes_adminTrades accountId data page tzOffsetHours
  | settings states => exact goes_settings states
  | accountCreated account invite => exact ⟨_, rfl, goes_accountCreated account invite⟩
  | rotateResult result => exact ⟨_, rfl, goes_rotateResult sp result⟩
  | inviteUrl url account => exact ⟨_, rfl, goes_inviteUrl url account⟩
  | magicMapPrompt currentValue => exact ⟨_, rfl, goes_magicMapPrompt currentValue⟩
  | magicMapUpdated value => exact ⟨_, rfl, goes_magicMapUpdated value⟩
  | linkedAccount account telegramUserId =>
      exact ⟨_, rfl, goes_linkedAccount account telegramUserId⟩
  | exitPrompt trade => exact ⟨_, rfl, goes_exitPrompt trade⟩
  | commandAnswer result => exact ⟨_, rfl, goes_commandAnswer result⟩

end

/-- Every message is rendered and is markup, and shows each of the values it was made from as
it was given, in the tags it is to be seen in. -/
theorem replies_shown (sp : Spelling) (r : Reply) :
    ∃ t out, r.render sp = some t ∧ display botGrammar t = some out ∧
      ∀ v ∈ r.shown sp, v.shown <:+: out := by
  obtain ⟨t, hrender, hgoes⟩ := goes_reply sp r
  obtain ⟨out, hout, hshown⟩ := hgoes.display
  exact ⟨t, out, hrender, hout, hshown⟩

/-! ## The answers to commands

The commands have their answers from the records the broker's answers are read into. As texts
they are the messages above, of the fields as they were sent.
-/

/-- The record as the broker sends it. -/
def openOrdersJson (state : Settings.MaxOpenOrdersResponse) : JsonObject :=
  [(pyStr "max_open_orders", .int state.maxOpenOrders), (pyStr "source", .str (pyStr state.source)),
    (pyStr "global_max_open_orders", .int state.globalMaxOpenOrders)]

def resultJson (result : CommandResult) : JsonObject :=
  [(pyStr "action", .str (pyStr result.action)), (pyStr "scope", .str (pyStr result.scope))]

/-- A number needs no escaping. -/
theorem escapeQuoted_numeral {cs : List Char} (h : Numeral cs) :
    escapeQuoted (cs.map Char.toNat) = cs.map Char.toNat := by
  have hone : ∀ c ∈ cs, escapeQuotedCode c.toNat = [c.toNat] := by
    intro c hc
    have hnum := h c hc
    rw [isNumeral, Bool.or_eq_true] at hnum
    rcases hnum with hdigit | hmark
    · simp only [Char.isDigit, Bool.and_eq_true, decide_eq_true_eq] at hdigit
      have h1 : 48 ≤ c.toNat := hdigit.1
      have h2 : c.toNat ≤ 57 := hdigit.2
      rw [escapeQuotedCode, if_neg (by omega), if_neg (by omega), if_neg (by omega),
        if_neg (by omega), if_neg (by omega)]
    · simp only [List.contains_eq_mem, List.mem_cons, List.not_mem_nil, or_false,
        decide_eq_true_eq] at hmark
      rcases hmark with rfl | rfl | rfl | rfl <;> rfl
  rw [escapeQuoted, List.flatMap_map, List.flatMap_congr hone, ← List.map_eq_flatMap]

section
variable {sp : Spelling} (hstr : ∀ t, sp.str (.str t) = t) (hint : ∀ n, sp.str (.int n) = number n)

include hstr in
theorem esc_pyStr (s : String) : esc sp (.str (pyStr s)) = pyStr (Html.escape s) := by
  show escapeQuoted (sp.str (.str (pyStr s))) = _
  rw [hstr]
  exact (codesOf_escape s).symm

include hint in
theorem esc_nat (n : Nat) : esc sp (.int n) = pyStr (toString n) := by
  have heq : toString n = String.ofList (digits n) := Nat.toString_eq_ofList_toDigits
  show escapeQuoted (sp.str (.int n)) = _
  rw [hint, number]
  show escapeQuoted (pyStr (toString n)) = _
  rw [heq, pyStr, String.toList_ofList]
  exact escapeQuoted_numeral (.ofDigits n)

include hstr in
theorem actionText_pyStr (action : String) :
    actionText sp (.str (pyStr action)) = pyStr (actionLabel action) := by
  have hiff : ∀ label : String, sp.str (.str (pyStr action)) = pyStr label ↔ action = label :=
    fun label => by rw [hstr]; exact ⟨pyStr_inj, congrArg pyStr⟩
  simp only [actionText, actionLabel, hiff, esc_pyStr hstr]
  split
  · rfl
  · split
    · rfl
    · split <;> rfl

include hint in
theorem shownLimit_nat (n : Nat) : UserMessages.shownLimit sp (.int n) = pyStr (shownCap n) := by
  have hlimit : "<b>no limit</b>" = "<b>" ++ "no limit" ++ "</b>" := by simp
  rw [UserMessages.shownLimit, shownCap, hlimit, esc_nat hint]
  by_cases hn : n = 0
  · subst hn
    rw [if_pos rfl, pyStr_append, pyStr_append, List.append_assoc]
    rfl
  · have hzero : isZero (.int n) = false := beq_eq_false_iff_ne.2 (Int.natCast_ne_zero.2 hn)
    rw [hzero, if_neg hn, if_neg Bool.false_ne_true, pyStr_append, pyStr_append,
      List.append_assoc]
    rfl

theorem inherited_openOrdersJson (state : Settings.MaxOpenOrdersResponse) :
    UserMessages.inherited (openOrdersJson state) = decide (state.source ≠ "account") := by
  show (pyStr state.source != pyStr "account") = _
  by_cases hsource : state.source = "account"
  · rw [hsource]
    rfl
  · rw [decide_eq_true hsource, bne_iff_ne]
    exact fun heq => hsource (pyStr_inj heq)

include hstr hint in
theorem pyStr_formatMaxOpenOrders (state : Settings.MaxOpenOrdersResponse) (accountId : String) :
    pyStr (formatMaxOpenOrders state accountId) =
      UserMessages.formatMaxOpenOrders sp (openOrdersJson state) (.str (pyStr accountId)) := by
  have hcap : field (openOrdersJson state) "max_open_orders" = .int state.maxOpenOrders := rfl
  have hglobal : field (openOrdersJson state) "global_max_open_orders" =
    .int state.globalMaxOpenOrders := rfl
  have haccount : UserMessages.accountLine sp (.str (pyStr accountId)) =
      fstring [pyStr "Account: <code>", pyStr (Html.escape accountId), pyStr "</code>\n"] := by
    rw [← esc_pyStr hstr]
    rfl
  have hempty : pyStr "" = [] := rfl
  delta formatMaxOpenOrders UserMessages.formatMaxOpenOrders
  rw [hcap, hglobal, haccount, inherited_openOrdersJson, shownLimit_nat hint, esc_nat hint]
  by_cases hsource : state.source = "account"
  · simp only [hsource, pyStr_append, fstring, List.flatten_cons, List.flatten_nil,
      List.append_nil, List.append_assoc, ne_eq, not_true_eq_false, decide_false,
      Bool.false_eq_true, if_true, if_false]
  · simp only [hsource, hempty, pyStr_append, fstring, List.flatten_cons, List.flatten_nil,
      List.append_nil, List.nil_append, List.append_assoc, ne_eq, not_false_eq_true, decide_true,
      if_true,
      if_false]

include hint in
theorem pyStr_formatMaxOpenOrdersUpdated (state : Settings.MaxOpenOrdersResponse) :
    pyStr (formatMaxOpenOrdersUpdated state) =
      UserMessages.formatMaxOpenOrdersUpdated sp (openOrdersJson state) := by
  have hcap : field (openOrdersJson state) "max_open_orders" = .int state.maxOpenOrders := rfl
  rw [UserMessages.formatMaxOpenOrdersUpdated, hcap, inherited_openOrdersJson,
    shownLimit_nat hint, formatMaxOpenOrdersUpdated]
  by_cases hsource : state.source = "account"
  · simp only [hsource, check, pyStr_append, fstring, List.flatten_cons, List.flatten_nil,
      List.append_nil, List.append_assoc, ne_eq, not_true_eq_false, decide_false,
      Bool.false_eq_true, if_true, if_false]
    rfl
  · simp only [hsource, check, pyStr_append, fstring, List.flatten_cons, List.flatten_nil,
      List.append_nil, List.append_assoc, ne_eq, not_false_eq_true, decide_true, if_true,
      if_false]

include hstr in
theorem pyStr_formatCommandResult (result : CommandResult) :
    pyStr (formatCommandResult result) = formatCommandAnswer sp (resultJson result) := by
  have haction : field (resultJson result) "action" = .str (pyStr result.action) := rfl
  have hscope : field (resultJson result) "scope" = .str (pyStr result.scope) := rfl
  rw [formatCommandAnswer, haction, hscope, actionText_pyStr hstr, esc_pyStr hstr]
  simp only [formatCommandResult, check, fstring, pyStr_append, List.flatten_cons,
    List.flatten_nil, List.append_nil, List.append_assoc]

end

/-- Texts and whole numbers as they are. -/
def plainStr : Json → PyStr
  | .str s => s
  | .int n => number n
  | _ => pyStr "0"

def plainSpelling : Spelling where
  str := plainStr
  amount _ := none
  pnl _ _ := []
  shortTime _ _ := []
  amount_bare := by
    intro v t h
    cases h

theorem plainStr_text (t : PyStr) : plainSpelling.str (.str t) = t := rfl

theorem plainStr_number (n : Int) : plainSpelling.str (.int n) = number n := rfl

/-- What a command answers can be read, and names the scope it was sent to. -/
theorem commandResult_shown (result : CommandResult) :
    ∃ out, display botGrammar (pyStr (formatCommandResult result)) = some out ∧
      Seen.shown ([code], pyStr result.scope) <:+: out := by
  obtain ⟨t, hrender, hgoes⟩ := goes_reply plainSpelling (.commandAnswer (resultJson result))
  cases hrender
  obtain ⟨out, hout, hshown⟩ := hgoes.display
  rw [pyStr_formatCommandResult plainStr_text]
  exact ⟨out, hout, hshown _ (List.mem_cons_of_mem _ List.mem_cons_self)⟩

/-- The question about the cap can be read, and names the account it is asked for. -/
theorem maxOpenOrders_shown (state : Settings.MaxOpenOrdersResponse) (accountId : String) :
    ∃ out, display botGrammar (pyStr (formatMaxOpenOrders state accountId)) = some out ∧
      Seen.shown ([code], pyStr accountId) <:+: out := by
  obtain ⟨t, hrender, hgoes⟩ := goes_reply plainSpelling
    (.maxOpenOrders (openOrdersJson state) (.str (pyStr accountId)))
  cases hrender
  obtain ⟨out, hout, hshown⟩ := hgoes.display
  rw [pyStr_formatMaxOpenOrders plainStr_text plainStr_number]
  exact ⟨out, hout, hshown _ List.mem_cons_self⟩

/-- So can its answer, which shows the cap that is in force now. -/
theorem maxOpenOrdersUpdated_shown (state : Settings.MaxOpenOrdersResponse) :
    ∃ out, display botGrammar (pyStr (formatMaxOpenOrdersUpdated state)) = some out ∧
      Seen.shown ([bold], seenLimit plainSpelling (.int state.maxOpenOrders)) <:+: out := by
  obtain ⟨t, hrender, hgoes⟩ :=
    goes_reply plainSpelling (.maxOpenOrdersUpdated (openOrdersJson state))
  cases hrender
  obtain ⟨out, hout, hshown⟩ := hgoes.display
  rw [pyStr_formatMaxOpenOrdersUpdated plainStr_number]
  exact ⟨out, hout, hshown _ List.mem_cons_self⟩

/-! ## Secrets -/

/-- What can be read of a message before it is tapped: all that is not under a spoiler, and of
what is, code and boxes, which are drawn over it. -/
def readable (c : Printed) : Bool := ! c.1.contains spoiler || c.1.contains code || c.1.contains pre

/-- The same message with other secrets: a link token, and the address that carries one. -/
inductive SecretsChanged : Reply → Reply → Prop where
  | accountCreated {account account' : JsonObject} {invite invite' : Json}
      (hid : field account "account_id" = field account' "account_id")
      (hmarket : field account "market" = field account' "market")
      (hgateway : field account "gateway" = field account' "gateway")
      (hinvite : truthy invite = truthy invite') :
      SecretsChanged (.accountCreated account invite) (.accountCreated account' invite')
  | inviteUrl (url url' : Json) (account : Option JsonObject) :
      SecretsChanged (.inviteUrl url account) (.inviteUrl url' account)

section
variable {sp : Spelling}

/-- A secret and what stands behind it. -/
theorem alike_secret (v w : Json) {ps qs : List PyStr}
    (h : Alike botGrammar readable [spoiler] ps.flatten qs.flatten []) :
    Alike botGrammar readable [spoiler] (esc sp v :: ps).flatten (esc sp w :: qs).flatten [] :=
  .parts_hidden (read_esc v) (read_esc w) (fun _ => rfl) h

variable (sp) in
theorem alike_accountCreated {account account' : JsonObject} {invite invite' : Json}
    (hid : field account "account_id" = field account' "account_id")
    (hmarket : field account "market" = field account' "market")
    (hgateway : field account "gateway" = field account' "gateway")
    (hinvite : truthy invite = truthy invite') :
    Alike botGrammar readable [] (AdminMessages.formatAccountCreated sp account invite)
      (AdminMessages.formatAccountCreated sp account' invite') [] := by
  unfold AdminMessages.formatAccountCreated
  rw [hid, hmarket, hgateway, hinvite]
  refine .parts_same (.lit [code] (by decide)) (.parts_same (goes_esc _) ?_)
  refine .parts_same (.lit [] (by decide)) (.parts_same (goes_esc _) ?_)
  refine .parts_same (.lit [] (by decide)) (.parts_same (goes_esc _) ?_)
  refine .parts_same (.lit [spoiler] (by decide)) (alike_secret _ _ ?_)
  refine .parts_same (.lit [] (by decide)) (Alike.append ?_ (.refl .nil))
  split
  · exact .parts_same (.lit [spoiler] (by decide)) (alike_secret _ _
      (.parts_same (.lit [] (by decide)) (.refl .nil)))
  · exact .refl .nil

variable (sp) in
theorem alike_inviteUrl (url url' : Json) (account : Option JsonObject) :
    Alike botGrammar readable [] (AdminMessages.formatInviteUrl sp url account)
      (AdminMessages.formatInviteUrl sp url' account) [] := by
  refine .parts_same (.lit [] (by decide)) (.parts_same (goes_inviteWho account) ?_)
  refine .parts_same (.lit [spoiler] (by decide)) (alike_secret _ _ ?_)
  iterate 2 refine .parts_same (.lit [italic] (by decide)) ?_
  exact .parts_same (.lit [] (by decide)) (.refl .nil)

end

/-- With other secrets in it, a message can be read to say the same. -/
theorem secrets_covered (sp : Spelling) {r r' : Reply} (h : SecretsChanged r r') :
    ∃ t t' out out', r.render sp = some t ∧ r'.render sp = some t' ∧
      display botGrammar t = some out ∧ display botGrammar t' = some out' ∧
      out.filter readable = out'.filter readable := by
  cases h with
  | accountCreated hid hmarket hgateway hinvite =>
      obtain ⟨out, out', hout, hout', hsame⟩ :=
        (alike_accountCreated sp hid hmarket hgateway hinvite).display
      exact ⟨_, _, out, out', rfl, rfl, hout, hout', hsame⟩
  | inviteUrl url url' account =>
      obtain ⟨out, out', hout, hout', hsame⟩ :=
        (alike_inviteUrl sp url url' account).display
      exact ⟨_, _, out, out', rfl, rfl, hout, hout', hsame⟩

namespace Created

def account (token : String) : JsonObject :=
  [(pyStr "account_id", .str (pyStr "5042")), (pyStr "market", .str (pyStr "FOREX")),
    (pyStr "gateway", .str (pyStr "MT5")), (pyStr "link_token", .str (pyStr token))]

end Created

/-- Two accounts that have only their tokens to tell them apart. -/
theorem secrets_covered_sample : ∃ t t' out out',
    (Reply.accountCreated (Created.account "b1d0") .null).render plainSpelling = some t ∧
    (Reply.accountCreated (Created.account "77ae") .null).render plainSpelling = some t' ∧
    display botGrammar t = some out ∧ display botGrammar t' = some out' ∧
    out.filter readable = out'.filter readable :=
  secrets_covered plainSpelling (.accountCreated rfl rfl rfl rfl)

/-- Not so the token of a rotation, which is in code under its spoiler. -/
theorem rotated_token_readable (sp : Spelling) (result : JsonObject) :
    ∃ out, display botGrammar (AdminMessages.formatRotateResult sp result) = some out ∧
      Seen.shown ([code, spoiler], seen sp (field result "link_token")) <:+:
        out.filter readable := by
  obtain ⟨out, hout, hshown⟩ := (goes_rotateResult sp result).display
  have htoken := (hshown _ (List.mem_cons_of_mem _ List.mem_cons_self)).filter readable
  refine ⟨out, hout, ?_⟩
  rwa [List.filter_eq_self.2] at htoken
  intro c hc
  obtain ⟨d, -, rfl⟩ := List.mem_map.1 hc
  rfl

end TradingBroker.Bot
