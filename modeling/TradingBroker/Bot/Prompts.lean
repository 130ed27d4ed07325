import TradingBroker.Accounts.Active
import TradingBroker.Bot.Commands
import TradingBroker.Lib.Monitor
import TradingBroker.Lib.Noted

/-!
# Which account a confirmed command acts on

The handlers and endpoints of one bot user as parties over the broker's tables and
the bot's messages; between two calls of one, any other may move, and so may
everything else that changes who is active: `/switch`, `/link`, an unlink, a
rotation. A run is judged by what was changed in it: the row a command acted on,
next to the prompt it was confirmed or answered by.

A prompt names an account, but what confirms it resolves the caller anew, and
`not_asPrompted` is a `/switch` in between. Only the reply to `/maxorders` is
checked once more, by the account id alone, against the account the guard found.
So what has to stay away is different for the two: for a button, any change of
the active account from the read the prompt was made from to the endpoint's own;
for a reply, one between its guard's read and the endpoint's, and an account of
the same id on another gateway. Notes beside the run say when each of these reads
was made and how often the active account has changed (`Notes`), and a monitor
follows each handler (`prompting`): a prompt is only sent for the account the
guard found, and a reply only goes on if the id it was asked for is the one the
guard found. `acted_asPrompted` puts them together.
-/

namespace TradingBroker.Bot

open TradingBroker.Lib
open TradingBroker.Trades (Account)
open TradingBroker.Accounts (BotUser Db Op Draw)
open TradingBroker.Settings (Coercions MaxOpenOrdersResponse)

/-! ## What is shared -/

/-- Something was changed for `row`, by a command that `prompt` was confirmed or answered for. -/
structure Act where
  prompt : Option Text
  row : Account

/-- The broker's tables; the open question of `/maxorders`, of which the bot keeps the account
id; the bot's messages; what was changed so far. -/
structure Shared where
  db : Db
  waiting : Option (MaxOpenOrdersResponse × Account)
  chat : List Text
  acted : List Act

/-- How a call goes: what the repository draws, whether it succeeds, the answers of reads that
change nothing, and whether Telegram takes the message. -/
structure Input where
  draw : Draw
  outcome : Outcome
  current : Option MaxOpenOrdersResponse
  setting : Option String
  sent : Bool

/-- An update of the user, or something else that happens to the tables. -/
inductive Update where
  | command (command : Command)
  | maxOrders
  | tap (message : Nat) (confirmed : Bool)
  | reply (text : String)
  | forget
  | op (op : Op) (draw : Draw)

/-! ## Calls -/

/-- The account that is active for a user. -/
def active (db : Db) (u : BotUser) : Option Account :=
  ((db.selected u).bind (db.linkedAccount u)).or (db.listByTelegramUserId u).head?

namespace Shared

variable (s : Shared)

/-- `get_active_account`: the answer, and the tables it may have repaired. -/
def resolve (u : BotUser) (x : Input) : Option Account × Shared :=
  let r := s.db.getActiveAccount u x.draw
  (if x.outcome = .ok then r.1 else none,
    if x.outcome = .failed then s else { s with db := r.2 })

/-- A change that took effect is recorded. -/
def act (k : Option Text) (row : Account) (db : Db) : Shared :=
  { s with db, acted := s.acted ++ [⟨k, row⟩] }

/-- The row a transaction changes, unless it is refused or never gets there. -/
def change (k : Option Text) (row : Account) (x : Input) (t : Accounts.Tables) : Shared :=
  match Db.commit t with
  | some db => if x.outcome = .failed then s else s.act k row db
  | none => s

/-- The answer to a call. -/
def respond (u : BotUser) (x : Input) : (c : Call) → c.Result
  | .getAccount => (s.resolve u x).1
  | .linkedAccount => (s.resolve u x).1
  | .getMaxOpenOrders => x.current
  | .updateSettings account patch =>
      let t := s.db.updateSettings account.id patch
      if x.outcome = .ok ∧ (Db.commit t).isSome then some (t.settings account.id) else none
  | .publish _ _ => if x.outcome = .ok then .ok () else .error .unavailable
  | .dropLink account =>
      x.outcome == .ok && (Db.commit (s.db.dropLink u account.id x.draw)).isSome
  | .getSetting _ => x.setting
  | .getData => s.waiting.map fun w => w.2.accountId
  | .push _ _ => ()
  | .waitFor _ _ => ()
  | .clear => ()
  | .answer _ => ()
  | .edit _ _ => ()

/-- What a call changes. -/
def effect (u : BotUser) (k : Option Text) (x : Input) : Call → Shared
  | .getAccount => (s.resolve u x).2
  | .linkedAccount => (s.resolve u x).2
  | .updateSettings account patch =>
      s.change k account x (s.db.updateSettings account.id patch)
  | .dropLink account => s.change k account x (s.db.dropLink u account.id x.draw)
  | .publish _ account => if x.outcome = .failed then s else s.act k account s.db
  | .push account _ => if x.outcome = .failed then s else s.act k account s.db
  | .waitFor current account => { s with waiting := some (current, account) }
  | .clear => { s with waiting := none }
  | .answer text => if x.sent then { s with chat := s.chat ++ [text] } else s
  | .edit message text => if x.sent then { s with chat := s.chat.set message text } else s
  | .getMaxOpenOrders => s
  | .getSetting _ => s
  | .getData => s

/-- The handler an update goes to, with the prompt it answers. A prompt has its buttons as long
as it stands, and a reply is one while the bot waits for it. -/
def serve (co : Coercions) : Update → Option (Option Text × Prog Unit)
  | .command command => some (none, cmdConfirm command)
  | .maxOrders => some (none, cmdMaxOrders)
  | .tap message confirmed =>
      match s.chat[message]? with
      | some (.confirm command account) =>
          some (some (.confirm command account),
            if confirmed then cbConfirm command message else cbCancel message)
      | _ => none
  | .reply text =>
      s.waiting.map fun w => (some (.maxOpenOrders w.1 w.2), receiveMaxOrders co text)
  | .forget => none
  | .op _ _ => none

/-- What happens outside the user's updates; `/cancel` and other commands drop the question. -/
def outside : Update → Option Shared
  | .forget => some { s with waiting := none }
  | .op op draw => some { s with db := op.apply draw s.db }
  | _ => none

end Shared

/-- The user's updates, each handled by a party of its own. -/
def conversation (co : Coercions) (u : BotUser) :
    Machine Nat (Option Text) Shared Input Update Call Call.Result Settings.Fault where
  exec _ k c x s := some (s.respond u x c, s.effect u k x c)
  start _ e s := (s.serve co e).map fun r => (r.1, r.2, s)
  env e s := s.outside e
  crash _ _ s := some s

/-- Nothing is running and nothing was asked yet. -/
def quiet (db : Db) : Pool Nat (Option Text) Shared Call Call.Result Settings.Fault :=
  ⟨⟨db, none, [], []⟩, fun _ => (none, .pure ())⟩

/-! ## What is promised -/

/-- The message shows the account's id, as it is or escaped. -/
def Text.Names (t : Text) (account : Account) : Prop :=
  ∃ before id after, (id = account.accountId ∨ id = Html.escape account.accountId) ∧
    t.shown = before ++ "<code>" ++ id ++ ("</code>" ++ after)

theorem names_confirm (command : Command) (account : Account) :
    (Text.confirm command account).Names account := by
  cases command with
  | flat =>
      refine ⟨warning ++ " Confirm <b>FLAT</b> (close all positions) for account ", _, "?",
        .inl rfl, ?_⟩
      show warning ++ " Confirm <b>FLAT</b> (close all positions) for account <code>" ++
        account.accountId ++ "</code>?" = _
      simp [warning]
  | prevent =>
      refine ⟨warning ++ " Confirm <b>BLOCK</b> new orders for account ", _, "?", .inl rfl, ?_⟩
      show warning ++ " Confirm <b>BLOCK</b> new orders for account <code>" ++
        account.accountId ++ "</code>?" = _
      simp [warning]
  | allow =>
      refine ⟨"Confirm <b>ALLOW</b> new orders for account ", _, "?", .inl rfl, ?_⟩
      show "Confirm <b>ALLOW</b> new orders for account <code>" ++ account.accountId ++
        "</code>?" = _
      simp
  | unlink =>
      refine ⟨"Are you sure you want to <b>unlink</b> your active account (", _,
        ") from Telegram?", .inl rfl, ?_⟩
      show "Are you sure you want to <b>unlink</b> your active account (<code>" ++
        account.accountId ++ "</code>) from Telegram?" = _
      simp

theorem names_maxOpenOrders (current : Settings.MaxOpenOrdersResponse) (account : Account) :
    (Text.maxOpenOrders current account).Names account := by
  have hhead : "⚙️ <b>Max open positions</b>\n" ++ "Account: <code>" =
    "⚙️ <b>Max open positions</b>\nAccount: " ++ "<code>" := by simp
  have hclose : "</code>\n" = "</code>" ++ "\n" := by simp
  obtain ⟨rest, hrest⟩ : ∃ rest, formatMaxOpenOrders current account.accountId =
      "⚙️ <b>Max open positions</b>\n" ++ "Account: <code>" ++ Html.escape account.accountId ++
        ("</code>\n" ++ rest) := by
    delta formatMaxOpenOrders
    simp only [String.append_assoc]
    exact ⟨_, rfl⟩
  refine ⟨"⚙️ <b>Max open positions</b>\nAccount: ", Html.escape account.accountId,
    "\n" ++ rest, .inr rfl, hrest.trans ?_⟩
  rw [hhead, hclose]
  simp only [String.append_assoc]

/-- A prompt names the account it was made for. -/
theorem names_account {t : Text} {account : Account} (h : t.account = some account) :
    t.Names account := by
  cases t with
  | confirm command a =>
      cases h
      exact names_confirm command account
  | maxOpenOrders current a =>
      cases h
      exact names_maxOpenOrders current account
  | note text => cases h

/-- A command acted on the row its prompt was made for, and whose id the prompt shows. -/
def Act.AsPrompted (a : Act) : Prop :=
  ∃ prompt account, a.prompt = some prompt ∧ prompt.account = some account ∧
    account.id = a.row.id ∧ prompt.Names account

/-- Everything that was changed was changed for the row of its prompt. -/
def Shared.AsPrompted (s : Shared) : Prop := ∀ a ∈ s.acted, a.AsPrompted

/-! ## Notes -/

/-- What a party was started for: a prompt to confirm, with the number of moves at the read it
was made from; a question, with the number of questions by then; or none of them. -/
inductive Task where
  | asks
  | confirms (prompt : Text) (since : Nat)
  | replies (question : Text) (heard : Nat)

def Task.prompt : Task → Option Text
  | .asks => none
  | .confirms prompt _ => some prompt
  | .replies question _ => some question

/-- What a party has been told: by its guard, by the bot's data, by the endpoint's own read. -/
structure Phase where
  task : Task
  account : Option Account
  promptedFor : Option (Option String)
  row : Option Account

/-- The row a call changes something for. -/
def Call.row : Call → Option Account
  | .updateSettings account _ => some account
  | .publish _ account => some account
  | .dropLink account => some account
  | .push account _ => some account
  | _ => none

/-- A prompt is made for the account of the guard, an endpoint changes the row it resolved, and
a reply gets to the endpoint with the id the question was about. -/
def prompting : Monitor Call Call.Result Phase where
  answers _ _ := True
  may f
    | .answer text => ∀ account, text.account = some account → f.account = some account
    | .waitFor _ account => f.account = some account
    | .edit _ text => text.account = none
    | .linkedAccount =>
        match f.task with
        | .asks => False
        | .confirms _ _ => True
        | .replies _ _ => ∃ account, f.account = some account ∧
            f.promptedFor = some (some account.accountId)
    | c => ∀ row, c.row = some row → f.row = some row
  next f
    | .getAccount, r => { f with account := r }
    | .getData, r => { f with promptedFor := some r }
    | .linkedAccount, r => { f with row := r }
    | _, _ => f

/-- How often the active account has changed; the value of that at each party's last guard, and
for each message at the guard of the party that sent it; how many questions were put; and where
each party is. -/
structure Notes where
  moves : Nat
  readAt : Nat → Nat
  prompted : Nat → Nat
  questions : Nat
  phases : Nat → Phase

def Notes.start : Notes := ⟨0, fun _ => 0, fun _ => 0, 0, fun _ => ⟨.asks, none, none, none⟩⟩

abbrev Step := Label Nat (Option Text) Input Update Call

/-- What an update starts a party for. -/
def Notes.task (n : Notes) (s : Shared) : Update → Task
  | .tap message _ =>
      match s.chat[message]? with
      | some prompt => .confirms prompt (n.prompted message)
      | none => .asks
  | .reply _ =>
      match s.waiting with
      | some w => .replies (.maxOpenOrders w.1 w.2) n.questions
      | none => .asks
  | _ => .asks

/-- The id of the account that is active. -/
def activeId (u : BotUser) (s : Shared) : Option RowId := (active s.db u).map Account.id

/-- What a step adds. A step that leaves another account active is a move. -/
def Notes.take (u : BotUser) (s : Shared) (l : Step) (s' : Shared) (n : Notes) : Notes where
  moves := if activeId u s' = activeId u s then n.moves else n.moves + 1
  readAt :=
    match l with
    | .call i _ .getAccount _ => Function.update n.readAt i n.moves
    | _ => n.readAt
  prompted :=
    match l with
    | .call i _ (.answer _) _ => Function.update n.prompted s.chat.length (n.readAt i)
    | _ => n.prompted
  questions :=
    match l with
    | .call _ _ (.waitFor _ _) _ => n.questions + 1
    | _ => n.questions
  phases :=
    match l with
    | .call i _ c x =>
        Function.update n.phases i (prompting.next (n.phases i) c (s.respond u x c))
    | .start i e => Function.update n.phases i ⟨n.task s e, none, none, none⟩
    | _ => n.phases

abbrev Conversation :=
  Pool Nat (Option Text) (Noted Shared Notes) Call Call.Result Settings.Fault

/-- No other account of the user has this one's id. -/
def OwnId (u : BotUser) (db : Db) (account : Account) : Prop :=
  ∀ a ∈ db.accounts, db.isLinked u a.id = true → a.accountId = account.accountId →
    a.id = account.id

instance (u : BotUser) (db : Db) (account : Account) : Decidable (OwnId u db account) :=
  inferInstanceAs (Decidable (∀ a ∈ db.accounts, db.isLinked u a.id = true →
    a.accountId = account.accountId → a.id = account.id))

/-- What has to stay away. When an endpoint resolves its caller for a prompt to confirm, the
active account has not changed since the read the prompt was made from; for a reply, not since
its guard's read. At that read the account of the question has its id to itself, and no other
question is put before the reply has looked up whom it is for. -/
def Undisturbed (u : BotUser) (s : Noted Shared Notes) : Step → Prop
  | .call i _ .linkedAccount x =>
      match (s.notes.phases i).task with
      | .asks => True
      | .confirms _ since => x.outcome = .ok → since = s.notes.moves
      | .replies _ _ => x.outcome = .ok → s.notes.readAt i = s.notes.moves
  | .call i _ .getAccount _ =>
      match (s.notes.phases i).task with
      | .replies question _ => ∀ account ∈ question.account, OwnId u s.now.db account
      | _ => True
  | .call i _ .getData _ =>
      match (s.notes.phases i).task with
      | .replies _ heard => heard = s.notes.questions
      | _ => True
  | _ => True

/-! ## The handlers heed the monitor -/

abbrev Heeds {α : Type} (f : Phase) (p : Prog α) (Q : α → Phase → Prop) : Prop :=
  Coro.Heeds prompting f p Q

/-- A function that a caller's `row` is passed to keeps to it. -/
abbrev KeepsTo {α : Type} (account : Account) (p : Prog α) : Prop :=
  ∀ f : Phase, f.row = some account → Heeds f p fun _ f' => f'.row = some account

theorem publishAdminSignal_keepsTo (action : Settings.AdminAction) (account : Account) :
    KeepsTo account (publishAdminSignal action account) := by
  intro f hf
  unfold publishAdminSignal
  split
  · trivial
  · refine ⟨fun row hrow => by cases hrow; exact hf, fun r _ => ?_⟩
    cases r with
    | ok a => exact hf
    | error e => trivial

theorem persist_keepsTo (account : Account) (patch : JsonObject) :
    KeepsTo account (persist account patch) := by
  intro f hf
  refine ⟨fun row hrow => by cases hrow; exact hf, fun r _ => ?_⟩
  cases r with
  | none => trivial
  | some settings => exact hf

theorem pushWorkerSettingsUpdate_keepsTo (account : Account)
    (settings : Settings.AccountSettings) :
    KeepsTo account (pushWorkerSettingsUpdate account settings) := by
  intro f hf
  unfold pushWorkerSettingsUpdate
  split
  · exact hf
  · split
    · exact hf
    · exact ⟨fun row hrow => by cases hrow; exact hf, fun _ _ => hf⟩

/-- The party has got as far as its endpoint. -/
def Phase.Ready (f : Phase) : Prop := prompting.may f .linkedAccount

/-- An endpoint resolves its caller and goes on with the row. -/
theorem resolved_heeds {α : Type} {f : Phase} {g : Account → Prog α} (hf : f.Ready)
    (hg : ∀ account (f' : Phase), f'.row = some account → Heeds f' (g account) fun _ _ => True) :
    Heeds f (getLinkedAccount >>= g) fun _ _ => True := by
  refine ⟨hf, fun r _ => ?_⟩
  cases r with
  | none => trivial
  | some account => exact hg account _ rfl

theorem flat_heeds {f : Phase} (hf : f.Ready) : Heeds f flat fun _ _ => True :=
  resolved_heeds hf fun account _ hrow =>
    (publishAdminSignal_keepsTo .flat account _ hrow).andThen fun _ _ _ => trivial

theorem prevent_heeds {f : Phase} (hf : f.Ready) (enabled : Bool) :
    Heeds f (prevent enabled) fun _ _ => True :=
  resolved_heeds hf fun account _ hrow =>
    (persist_keepsTo account _ _ hrow).andThen fun _ _ hrow' =>
      (publishAdminSignal_keepsTo _ account _ hrow').andThen fun _ _ _ => trivial

theorem setMaxOpenOrders_heeds {f : Phase} (hf : f.Ready) (co : Coercions) (value : Option Nat) :
    Heeds f (setMaxOpenOrders co value) fun _ _ => True := by
  refine resolved_heeds hf fun account _ hrow => ?_
  refine (persist_keepsTo account _ _ hrow).andThen fun _ _ hrow' => ?_
  refine ⟨fun row h => (by cases h), fun raw _ => ?_⟩
  exact (pushWorkerSettingsUpdate_keepsTo account _ _ hrow').andThen fun _ _ _ => trivial

theorem unlinkAccount_heeds {f : Phase} (hf : f.Ready) :
    Heeds f unlinkAccount fun _ _ => True := by
  refine ⟨hf, fun r _ => ?_⟩
  cases r with
  | none => trivial
  | some account =>
      refine ⟨fun row hrow => by cases hrow; rfl, fun ok _ => ?_⟩
      cases ok <;> trivial

theorem request_heeds {f : Phase} (hf : f.Ready) (command : Command) :
    Heeds f command.request fun _ _ => True := by
  cases command with
  | flat => exact flat_heeds hf
  | prevent => exact prevent_heeds hf true
  | allow => exact prevent_heeds hf false
  | unlink => exact (unlinkAccount_heeds hf).andThen fun _ _ _ => trivial

theorem note_heeds {f : Phase} (text : String) : Heeds f (note text) fun _ _ => True :=
  ⟨fun _ h => (by cases h), fun _ _ => trivial⟩

theorem edit_heeds {f : Phase} (message : Nat) (text : String) :
    Heeds f (.call (.edit message (.note text)) fun _ => pure ()) fun _ _ => True :=
  ⟨rfl, fun _ _ => trivial⟩

/-- Behind its guard a handler goes on with the account that was found. -/
theorem withAccount_heeds {f : Phase} {handler : Account → Prog Unit}
    (hh : ∀ account (f' : Phase), f'.task = f.task → f'.account = some account →
      Heeds f' (handler account) fun _ _ => True) :
    Heeds f (withAccount handler) fun _ _ => True := by
  refine ⟨fun row h => (by cases h), fun r _ => ?_⟩
  cases r with
  | none => exact note_heeds _
  | some account => exact hh account _ rfl rfl

theorem cmdConfirm_heeds {f : Phase} (command : Command) :
    Heeds f (cmdConfirm command) fun _ _ => True :=
  withAccount_heeds fun _ _ _ hf =>
    ⟨fun _ h => (by cases h; exact hf), fun _ _ => trivial⟩

theorem cmdMaxOrders_heeds {f : Phase} : Heeds f cmdMaxOrders fun _ _ => True := by
  refine withAccount_heeds fun account f' _ hf => ?_
  refine ⟨fun row h => (by cases h), fun _ _ => ⟨fun row h => (by cases h), fun r _ => ?_⟩⟩
  cases r with
  | none => exact note_heeds _
  | some current =>
      exact ⟨hf, fun _ _ => ⟨fun _ h => (by cases h; exact hf), fun _ _ => trivial⟩⟩

theorem cbConfirm_heeds {f : Phase} {prompt : Text} {since : Nat}
    (hf : f.task = .confirms prompt since) (command : Command) (message : Nat) :
    Heeds f (cbConfirm command message) fun _ _ => True := by
  refine withAccount_heeds fun _ f' htask _ => ?_
  have hready : f'.Ready := by
    simp only [Phase.Ready, prompting, htask, hf]
  exact (request_heeds hready command).attempt.andThen fun _ _ _ => edit_heeds _ _

theorem cbCancel_heeds {f : Phase} (message : Nat) :
    Heeds f (cbCancel message) fun _ _ => True :=
  withAccount_heeds fun _ _ _ _ => edit_heeds _ _

/-- Only a reply that passes the check of the account id reaches the endpoint. -/
theorem receiveMaxOrders_heeds {f : Phase} {question : Text} {heard : Nat}
    (hf : f.task = .replies question heard) (co : Coercions) (text : String) :
    Heeds f (receiveMaxOrders co text) fun _ _ => True := by
  refine withAccount_heeds fun account f' htask haccount => ?_
  refine ⟨fun row h => (by cases h), fun promptedFor _ => ?_⟩
  dsimp only
  split
  · next hsame =>
      split
      · exact note_heeds _
      · have hready : ({ f' with promptedFor := some promptedFor } : Phase).Ready := by
          simp only [Phase.Ready, prompting, htask, hf]
          exact ⟨account, haccount, congrArg some hsame⟩
        refine (setMaxOpenOrders_heeds hready co _).attempt.andThen fun result _ _ => ?_
        refine ⟨fun row h => (by cases h), fun _ _ => ?_⟩
        cases result with
        | error e => exact note_heeds _
        | ok state => exact note_heeds _
  · exact ⟨fun row h => (by cases h), fun _ _ => note_heeds _⟩

/-- Whatever an update starts fits its task and heeds the monitor. -/
theorem serve_heeds {co : Coercions} {s : Shared} {n : Notes} {e : Update} {k : Option Text}
    {p : Prog Unit} (h : s.serve co e = some (k, p)) :
    k = (n.task s e).prompt ∧ Heeds ⟨n.task s e, none, none, none⟩ p fun _ _ => True := by
  cases e with
  | command command =>
      cases h
      exact ⟨rfl, cmdConfirm_heeds command⟩
  | maxOrders =>
      cases h
      exact ⟨rfl, cmdMaxOrders_heeds⟩
  | tap message confirmed =>
      simp only [Shared.serve] at h
      split at h
      · next command account hm =>
          cases h
          have htask : n.task s (.tap message confirmed) =
              .confirms (.confirm command account) (n.prompted message) := by
            simp only [Notes.task, hm]
          rw [htask]
          refine ⟨rfl, ?_⟩
          split
          · exact cbConfirm_heeds rfl command message
          · exact cbCancel_heeds message
      · cases h
  | reply text =>
      simp only [Shared.serve, Option.map_eq_some_iff] at h
      obtain ⟨w, hw, h⟩ := h
      cases h
      have htask : n.task s (.reply text) = .replies (.maxOpenOrders w.1 w.2) n.questions := by
        simp only [Notes.task, hw]
      rw [htask]
      exact ⟨rfl, receiveMaxOrders_heeds rfl co text⟩
  | forget => cases h
  | op op draw => cases h

/-! ## What the notes tell -/

/-- Unless the active account has changed since the read, it is this one. -/
def Since (u : BotUser) (s : Noted Shared Notes) (read : Nat) (id : RowId) : Prop :=
  read ≤ s.notes.moves ∧ (read = s.notes.moves → activeId u s.now = some id)

/-- A reply to the question about `account`: as long as no other question is put, it is this one
or none that is open; and what the reply has been told is about this account. -/
structure Replying (s : Noted Shared Notes) (f : Phase) (heard : Nat) (account : Account) :
    Prop where
  heard_le : heard ≤ s.notes.questions
  waiting : heard = s.notes.questions → ∀ w, s.now.waiting = some w → w.2 = account
  own : ∀ a, f.account = some a → a.accountId = account.accountId → a.id = account.id
  looked : ∀ id, f.promptedFor = some (some id) → id = account.accountId

structure Tracked (u : BotUser) (s : Noted Shared Notes) : Prop where
  guard : ∀ i a, (s.notes.phases i).account = some a → Since u s (s.notes.readAt i) a.id
  chat : ∀ n text, s.now.chat[n]? = some text → ∀ a, text.account = some a →
    Since u s (s.notes.prompted n) a.id
  confirms : ∀ i prompt since, (s.notes.phases i).task = .confirms prompt since →
    ∃ a, prompt.account = some a ∧ Since u s since a.id
  replies : ∀ i question heard, (s.notes.phases i).task = .replies question heard →
    ∃ account, question.account = some account ∧ Replying s (s.notes.phases i) heard account
  row : ∀ i row, (s.notes.phases i).row = some row →
    ∃ prompt account, (s.notes.phases i).task.prompt = some prompt ∧
      prompt.account = some account ∧ account.id = row.id
  acted : s.now.AsPrompted

/-- The state after a step, with its notes. -/
def after (u : BotUser) (s : Noted Shared Notes) (l : Step) (t : Shared) : Noted Shared Notes :=
  ⟨t, s.notes.take u s.now l t⟩

section
variable {u : BotUser} {s : Noted Shared Notes} {l : Step} {t : Shared} {i j : Nat}
  {k : Option Text} {x : Input} {c : Call} {f : Phase}

theorem Since.after {read : Nat} {id : RowId} (h : Since u s read id) :
    Since u (after u s l t) read id := by
  obtain ⟨hle, hid⟩ := h
  by_cases hmove : activeId u t = activeId u s.now
  · have hmoves : (Bot.after u s l t).notes.moves = s.notes.moves := if_pos hmove
    rw [Since, hmoves]
    exact ⟨hle, fun heq => hmove.trans (hid heq)⟩
  · have hmoves : (Bot.after u s l t).notes.moves = s.notes.moves + 1 := if_neg hmove
    rw [Since, hmoves]
    exact ⟨by omega, fun heq => by omega⟩

theorem next_task {r : c.Result} : (prompting.next f c r).task = f.task := by
  cases c <;> rfl

theorem account_next {a : Account}
    (h : (prompting.next f c (t.respond u x c)).account = some a) :
    (c = .getAccount ∧ (t.resolve u x).1 = some a) ∨ (c ≠ .getAccount ∧ f.account = some a) := by
  cases c with
  | getAccount => exact .inl ⟨rfl, h⟩
  | _ => exact .inr ⟨nofun, h⟩

theorem promptedFor_next {id : String}
    (h : (prompting.next f c (t.respond u x c)).promptedFor = some (some id)) :
    (c = .getData ∧ ∃ w, t.waiting = some w ∧ w.2.accountId = id) ∨
      f.promptedFor = some (some id) := by
  cases c with
  | getData => exact .inl ⟨rfl, Option.map_eq_some_iff.mp (Option.some.inj h)⟩
  | _ => exact .inr h

theorem row_next {row : Account} (h : (prompting.next f c (t.respond u x c)).row = some row) :
    (c = .linkedAccount ∧ (t.resolve u x).1 = some row) ∨ f.row = some row := by
  cases c with
  | linkedAccount => exact .inl ⟨rfl, h⟩
  | _ => exact .inr h

theorem resolve_some {a : Account} (h : (t.resolve u x).1 = some a) :
    x.outcome = .ok ∧ active t.db u = some a := by
  simp only [Shared.resolve] at h
  split at h
  · next hok => exact ⟨hok, (Accounts.getActiveAccount_eq t.db u x.draw).symm.trans h⟩
  · cases h

theorem phases_call : (after u s (.call i k c x) t).notes.phases =
    Function.update s.notes.phases i
      (prompting.next (s.notes.phases i) c (s.now.respond u x c)) := rfl

theorem readAt_call (hc : c ≠ .getAccount) :
    (after u s (.call i k c x) t).notes.readAt = s.notes.readAt := by
  cases c with
  | getAccount => exact absurd rfl hc
  | _ => rfl

theorem resolve_bot : (t.resolve u x).2.chat = t.chat ∧ (t.resolve u x).2.waiting = t.waiting := by
  simp only [Shared.resolve]
  split
  · exact ⟨rfl, rfl⟩
  · exact ⟨rfl, rfl⟩

theorem change_bot (row : Account) (tables : Accounts.Tables) :
    (t.change k row x tables).chat = t.chat ∧
      (t.change k row x tables).waiting = t.waiting := by
  unfold Shared.change
  split
  · split
    · exact ⟨rfl, rfl⟩
    · exact ⟨rfl, rfl⟩
  · exact ⟨rfl, rfl⟩

/-- What a call does to the messages and to the open question. -/
theorem effect_bot :
    ((t.effect u k x c).chat = t.chat ∨
      (∃ text, c = .answer text ∧ (t.effect u k x c).chat = t.chat ++ [text]) ∨
      ∃ m text, c = .edit m text ∧ (t.effect u k x c).chat = t.chat.set m text) ∧
    ((t.effect u k x c).waiting = t.waiting ∨ (t.effect u k x c).waiting = none ∨
      ∃ current account, c = .waitFor current account ∧
        (t.effect u k x c).waiting = some (current, account)) := by
  cases c with
  | getAccount => exact ⟨.inl resolve_bot.1, .inl resolve_bot.2⟩
  | linkedAccount => exact ⟨.inl resolve_bot.1, .inl resolve_bot.2⟩
  | updateSettings account patch => exact ⟨.inl (change_bot _ _).1, .inl (change_bot _ _).2⟩
  | dropLink account => exact ⟨.inl (change_bot _ _).1, .inl (change_bot _ _).2⟩
  | publish action account =>
      simp only [Shared.effect]
      split
      · exact ⟨.inl rfl, .inl rfl⟩
      · exact ⟨.inl rfl, .inl rfl⟩
  | push account settings =>
      simp only [Shared.effect]
      split
      · exact ⟨.inl rfl, .inl rfl⟩
      · exact ⟨.inl rfl, .inl rfl⟩
  | answer text =>
      simp only [Shared.effect]
      split
      · exact ⟨.inr (.inl ⟨text, rfl, rfl⟩), .inl rfl⟩
      · exact ⟨.inl rfl, .inl rfl⟩
  | edit m text =>
      simp only [Shared.effect]
      split
      · exact ⟨.inr (.inr ⟨m, text, rfl, rfl⟩), .inl rfl⟩
      · exact ⟨.inl rfl, .inl rfl⟩
  | waitFor current account => exact ⟨.inl rfl, .inr (.inr ⟨current, account, rfl, rfl⟩)⟩
  | clear => exact ⟨.inl rfl, .inr (.inl rfl)⟩
  | getMaxOpenOrders => exact ⟨.inl rfl, .inl rfl⟩
  | getSetting key => exact ⟨.inl rfl, .inl rfl⟩
  | getData => exact ⟨.inl rfl, .inl rfl⟩

/-! ## Runs -/

theorem asPrompted_act {row : Account} {db : Db} (h : t.AsPrompted)
    (hk : ∃ prompt account, k = some prompt ∧ prompt.account = some account ∧
      account.id = row.id) : (t.act k row db).AsPrompted := by
  intro a ha
  rcases List.mem_append.mp ha with ha | ha
  · exact h a ha
  · cases List.mem_singleton.mp ha
    obtain ⟨prompt, account, hp, haccount, hid⟩ := hk
    exact ⟨prompt, account, hp, haccount, hid, names_account haccount⟩

theorem asPrompted_change {row : Account} {tables : Accounts.Tables} (h : t.AsPrompted)
    (hk : ∃ prompt account, k = some prompt ∧ prompt.account = some account ∧
      account.id = row.id) : (t.change k row x tables).AsPrompted := by
  unfold Shared.change
  split
  · split
    · exact h
    · exact asPrompted_act h hk
  · exact h

/-- A call that acts on the row of the prompt, if on any, keeps what was changed as prompted. -/
theorem asPrompted_effect (h : t.AsPrompted)
    (hk : ∀ row, c.row = some row → ∃ prompt account, k = some prompt ∧
      prompt.account = some account ∧ account.id = row.id) :
    (t.effect u k x c).AsPrompted := by
  have hresolve : (t.resolve u x).2.AsPrompted := by
    simp only [Shared.resolve]
    split
    · exact h
    · exact h
  cases c with
  | getAccount => exact hresolve
  | linkedAccount => exact hresolve
  | updateSettings account patch => exact asPrompted_change h (hk account rfl)
  | dropLink account => exact asPrompted_change h (hk account rfl)
  | publish action account =>
      simp only [Shared.effect]
      split
      · exact h
      · exact asPrompted_act h (hk account rfl)
  | push account settings =>
      simp only [Shared.effect]
      split
      · exact h
      · exact asPrompted_act h (hk account rfl)
  | answer text =>
      simp only [Shared.effect]
      split <;> exact h
  | edit message text =>
      simp only [Shared.effect]
      split <;> exact h
  | waitFor current account => exact h
  | clear => exact h
  | getMaxOpenOrders => exact h
  | getSetting key => exact h
  | getData => exact h

/-- A reply goes on: what is told to its own party is said by `own` and `looked`. -/
theorem Replying.after {heard : Nat} {account : Account} {f' : Phase}
    (h : Replying s f heard account)
    (hquestions : (after u s l t).notes.questions = s.notes.questions ∧
        (t.waiting = s.now.waiting ∨ t.waiting = none) ∨
      (after u s l t).notes.questions = s.notes.questions + 1)
    (hown : ∀ a, f'.account = some a → a.accountId = account.accountId → a.id = account.id)
    (hlooked : ∀ id, f'.promptedFor = some (some id) → id = account.accountId) :
    Replying (after u s l t) f' heard account where
  heard_le := by
    rcases hquestions with ⟨hq, -⟩ | hq
    · exact hq ▸ h.heard_le
    · exact hq ▸ Nat.le_succ_of_le h.heard_le
  waiting := by
    intro heq w hw
    rcases hquestions with ⟨hq, hwaiting⟩ | hq
    · rcases hwaiting with hsame | hnone
      · exact h.waiting (heq.trans hq) w (hsame ▸ hw)
      · have hw' : t.waiting = some w := hw
        rw [hnone] at hw'
        cases hw'
    · have hle := h.heard_le
      omega
  own := hown
  looked := hlooked

theorem Tracked.guard_call (h : Tracked u s) {a : Account}
    (ha : ((after u s (.call i k c x) t).notes.phases j).account = some a) :
    Since u (after u s (.call i k c x) t) ((after u s (.call i k c x) t).notes.readAt j) a.id := by
  by_cases hj : j = i
  · subst hj
    rw [phases_call, Function.update_self] at ha
    rcases account_next ha with ⟨rfl, hread⟩ | ⟨hne, hold⟩
    · -- the guard reads the active account at this very step
      have hat : (after u s (.call j k .getAccount x) t).notes.readAt j = s.notes.moves :=
        Function.update_self _ _ _
      rw [hat]
      refine Since.after ⟨Nat.le_refl _, fun _ => ?_⟩
      rw [activeId, (resolve_some hread).2]
      rfl
    · rw [readAt_call hne]
      exact (h.guard j a hold).after
  · rw [phases_call, Function.update_of_ne hj] at ha
    have hat : (after u s (.call i k c x) t).notes.readAt j = s.notes.readAt j := by
      cases c with
      | getAccount => exact Function.update_of_ne hj _ _
      | _ => rfl
    rw [hat]
    exact (h.guard j a ha).after

theorem Tracked.chat_call (h : Tracked u s) (hmay : prompting.may (s.notes.phases i) c) {n : Nat}
    {text : Text} (htext : (s.now.effect u k x c).chat[n]? = some text) {a : Account}
    (ha : text.account = some a) :
    Since u (after u s (.call i k c x) t)
      ((after u s (.call i k c x) t).notes.prompted n) a.id := by
  have hkept : s.now.chat[n]? = some text → (∀ sent, c ≠ .answer sent) →
      Since u (after u s (.call i k c x) t)
        ((after u s (.call i k c x) t).notes.prompted n) a.id := by
    intro hold hc
    have hat : (after u s (.call i k c x) t).notes.prompted = s.notes.prompted := by
      cases c with
      | answer sent => exact absurd rfl (hc sent)
      | _ => rfl
    rw [hat]
    exact (h.chat n text hold a ha).after
  -- the number a message is sent under is noted with the read of its sender
  have hsent : ∀ sent, c = .answer sent → s.now.chat[n]? = some text →
      Since u (after u s (.call i k c x) t)
        ((after u s (.call i k c x) t).notes.prompted n) a.id := by
    rintro sent rfl hold
    have hn : n ≠ s.now.chat.length := Nat.ne_of_lt (List.getElem?_eq_some_iff.mp hold).1
    have hat : (after u s (.call i k (.answer sent) x) t).notes.prompted n =
        s.notes.prompted n := Function.update_of_ne hn _ _
    rw [hat]
    exact (h.chat n text hold a ha).after
  have hold : s.now.chat[n]? = some text → Since u (after u s (.call i k c x) t)
      ((after u s (.call i k c x) t).notes.prompted n) a.id := by
    intro hold
    by_cases hc : ∃ sent, c = .answer sent
    · obtain ⟨sent, hc⟩ := hc
      exact hsent sent hc hold
    · exact hkept hold fun sent he => hc ⟨sent, he⟩
  rcases (effect_bot (t := s.now) (u := u) (k := k) (x := x) (c := c)).1 with
    hsame | ⟨sent, rfl, happ⟩ | ⟨m, edited, rfl, hset⟩
  · exact hold (hsame ▸ htext)
  · rw [happ] at htext
    by_cases hn : n < s.now.chat.length
    · rw [List.getElem?_append_left hn] at htext
      exact hold htext
    · rw [List.getElem?_append_right (by omega)] at htext
      obtain ⟨hlt, heq⟩ := List.getElem?_eq_some_iff.mp htext
      rw [List.length_singleton] at hlt
      have hlast : n = s.now.chat.length := by omega
      have hat : (after u s (.call i k (.answer sent) x) t).notes.prompted n =
          s.notes.readAt i := by
        rw [hlast]
        exact Function.update_self _ _ _
      rw [hat]
      rw [List.getElem_singleton] at heq
      exact (h.guard i a (hmay a (heq ▸ ha))).after
  · rw [hset] at htext
    by_cases hm : m = n
    · subst hm
      by_cases hlt : m < s.now.chat.length
      · rw [List.getElem?_set_self hlt] at htext
        cases htext
        have hnone : text.account = none := hmay
        rw [hnone] at ha
        cases ha
      · rw [List.getElem?_eq_none (by rw [List.length_set]; omega)] at htext
        cases htext
    · rw [List.getElem?_set_ne hm] at htext
      exact hold htext

theorem Tracked.replies_call (h : Tracked u s) (hc : Undisturbed u s (.call i k c x))
    {question : Text} {heard : Nat}
    (htask : ((after u s (.call i k c x) t).notes.phases j).task = .replies question heard) :
    ∃ account, question.account = some account ∧
      Replying (after u s (.call i k c x) (s.now.effect u k x c))
        ((after u s (.call i k c x) t).notes.phases j) heard account := by
  have hquestions : (after u s (.call i k c x) (s.now.effect u k x c)).notes.questions =
        s.notes.questions ∧ ((s.now.effect u k x c).waiting = s.now.waiting ∨
          (s.now.effect u k x c).waiting = none) ∨
      (after u s (.call i k c x) (s.now.effect u k x c)).notes.questions =
        s.notes.questions + 1 := by
    rcases (effect_bot (t := s.now) (u := u) (k := k) (x := x) (c := c)).2 with
      hsame | hnone | ⟨current, account, rfl, -⟩
    · cases c with
      | waitFor _ _ => exact .inr rfl
      | _ => exact .inl ⟨rfl, .inl hsame⟩
    · cases c with
      | waitFor _ _ => exact .inr rfl
      | _ => exact .inl ⟨rfl, .inr hnone⟩
    · exact .inr rfl
  by_cases hj : j = i
  · subst hj
    rw [phases_call, Function.update_self] at htask ⊢
    rw [next_task] at htask
    obtain ⟨account, haccount, hr⟩ := h.replies j question heard htask
    refine ⟨account, haccount, hr.after hquestions ?_ ?_⟩
    · intro a ha hid
      rcases account_next ha with ⟨rfl, hread⟩ | ⟨-, hold⟩
      · -- the guard found an account the user holds, and no other has this id
        have hown := hc
        simp only [Undisturbed, htask] at hown
        have hactive : (s.now.db.getActiveAccount u x.draw).1 = some a :=
          (Accounts.getActiveAccount_eq _ _ _).trans (resolve_some hread).2
        obtain ⟨hmem, hheld⟩ := Accounts.getActiveAccount_held hactive
        exact hown account haccount a hmem hheld hid
      · exact hr.own a hold hid
    · intro id hid
      rcases promptedFor_next hid with ⟨rfl, w, hw, hwid⟩ | hold
      · have hheard := hc
        simp only [Undisturbed, htask] at hheard
        rw [← hwid, hr.waiting hheard w hw]
      · exact hr.looked id hold
  · rw [phases_call, Function.update_of_ne hj] at htask ⊢
    obtain ⟨account, haccount, hr⟩ := h.replies j question heard htask
    exact ⟨account, haccount, hr.after hquestions hr.own hr.looked⟩

/-- The row an endpoint resolves is the one of the prompt. -/
theorem Tracked.resolved (h : Tracked u s) (hc : Undisturbed u s (.call i k .linkedAccount x))
    (hmay : prompting.may (s.notes.phases i) .linkedAccount) {row : Account}
    (hrow : (s.now.resolve u x).1 = some row) :
    ∃ prompt account, (s.notes.phases i).task.prompt = some prompt ∧
      prompt.account = some account ∧ account.id = row.id := by
  obtain ⟨hok, hactive⟩ := resolve_some hrow
  have hid : activeId u s.now = some row.id := by
    rw [activeId, hactive]
    rfl
  cases htask : (s.notes.phases i).task with
  | asks =>
      simp only [prompting, htask] at hmay
  | confirms prompt since =>
      simp only [Undisturbed, htask] at hc
      obtain ⟨account, haccount, -, hsince⟩ := h.confirms i prompt since htask
      exact ⟨prompt, account, rfl, haccount, Option.some.inj ((hsince (hc hok)).symm.trans hid)⟩
  | replies question heard =>
      simp only [Undisturbed, htask] at hc
      simp only [prompting, htask] at hmay
      obtain ⟨found, hfound, hlooked⟩ := hmay
      obtain ⟨account, haccount, hr⟩ := h.replies i question heard htask
      refine ⟨question, account, rfl, haccount, ?_⟩
      rw [← hr.own found hfound (hr.looked _ hlooked)]
      exact Option.some.inj (((h.guard i found hfound).2 (hc hok)).symm.trans hid)

theorem Tracked.call (h : Tracked u s) (hc : Undisturbed u s (.call i k c x))
    (hk : k = (s.notes.phases i).task.prompt) (hmay : prompting.may (s.notes.phases i) c) :
    Tracked u (after u s (.call i k c x) (s.now.effect u k x c)) where
  guard _ _ ha := h.guard_call ha
  chat _ _ htext _ ha := h.chat_call hmay htext ha
  confirms := by
    intro j prompt since htask
    have hold : (s.notes.phases j).task = .confirms prompt since := by
      by_cases hj : j = i
      · subst hj
        rwa [phases_call, Function.update_self, next_task] at htask
      · rwa [phases_call, Function.update_of_ne hj] at htask
    obtain ⟨a, ha, hsince⟩ := h.confirms j prompt since hold
    exact ⟨a, ha, hsince.after⟩
  replies _ _ _ htask := h.replies_call hc htask
  row := by
    intro j row hrow
    by_cases hj : j = i
    · subst hj
      rw [phases_call, Function.update_self] at hrow ⊢
      rw [next_task]
      rcases row_next hrow with ⟨rfl, hres⟩ | hold
      · exact h.resolved hc hmay hres
      · exact h.row j row hold
    · rw [phases_call, Function.update_of_ne hj] at hrow ⊢
      exact h.row j row hrow
  acted := by
    refine asPrompted_effect h.acted fun row hrow => ?_
    have hheld : (s.notes.phases i).row = some row := by
      cases c with
      | updateSettings _ _ => exact hmay row hrow
      | publish _ _ => exact hmay row hrow
      | dropLink _ => exact hmay row hrow
      | push _ _ => exact hmay row hrow
      | _ => cases hrow
    rw [hk]
    exact h.row i row hheld

theorem Tracked.start {co : Coercions} {e : Update} {p : Prog Unit} (h : Tracked u s)
    (hserve : s.now.serve co e = some (k, p)) : Tracked u (after u s (.start i e) s.now) := by
  have hself : (after u s (.start i e) s.now).notes.phases i =
      ⟨s.notes.task s.now e, none, none, none⟩ := Function.update_self _ _ _
  have hother : ∀ {j}, j ≠ i → (after u s (.start i e) s.now).notes.phases j =
      s.notes.phases j := fun hj => Function.update_of_ne hj _ _
  refine ⟨?_, ?_, ?_, ?_, ?_, h.acted⟩
  · intro j a ha
    by_cases hj : j = i
    · subst hj
      rw [hself] at ha
      cases ha
    · rw [hother hj] at ha
      exact (h.guard j a ha).after
  · intro n text htext a ha
    exact (h.chat n text htext a ha).after
  · intro j prompt since htask
    by_cases hj : j = i
    · subst hj
      rw [hself] at htask
      cases e with
      | tap message confirmed =>
          simp only [Shared.serve] at hserve
          split at hserve
          · next command account hm =>
              simp only [Notes.task, hm, Task.confirms.injEq] at htask
              obtain ⟨rfl, rfl⟩ := htask
              exact ⟨account, rfl, (h.chat message _ hm account rfl).after⟩
          · cases hserve
      | reply text =>
          simp only [Notes.task] at htask
          split at htask <;> cases htask
      | _ => cases htask
    · rw [hother hj] at htask
      obtain ⟨a, ha, hsince⟩ := h.confirms j prompt since htask
      exact ⟨a, ha, hsince.after⟩
  · intro j question heard htask
    by_cases hj : j = i
    · subst hj
      rw [hself] at htask ⊢
      cases e with
      | reply text =>
          simp only [Notes.task] at htask
          split at htask
          · next w hw =>
              cases htask
              refine ⟨w.2, rfl, Nat.le_refl _, ?_, ?_, ?_⟩
              · intro _ w' hw'
                have heq : some w = some w' := hw.symm.trans hw'
                cases heq
                rfl
              · intro a ha
                cases ha
              · intro id hid
                cases hid
          · cases htask
      | tap message confirmed =>
          simp only [Notes.task] at htask
          split at htask <;> cases htask
      | _ => cases htask
    · rw [hother hj] at htask ⊢
      obtain ⟨account, haccount, hr⟩ := h.replies j question heard htask
      exact ⟨account, haccount, hr.after (.inl ⟨rfl, .inl rfl⟩) hr.own hr.looked⟩
  · intro j row hrow
    by_cases hj : j = i
    · subst hj
      rw [hself] at hrow
      cases hrow
    · rw [hother hj] at hrow ⊢
      exact h.row j row hrow

/-- What happens outside the updates, and a party that is killed, are told to nobody. -/
theorem Tracked.outside (h : Tracked u s)
    (hnotes : (after u s l t).notes.readAt = s.notes.readAt ∧
      (after u s l t).notes.prompted = s.notes.prompted ∧
      (after u s l t).notes.questions = s.notes.questions ∧
      (after u s l t).notes.phases = s.notes.phases)
    (hchat : t.chat = s.now.chat) (hacted : t.acted = s.now.acted)
    (hwaiting : t.waiting = s.now.waiting ∨ t.waiting = none) : Tracked u (after u s l t) := by
  obtain ⟨hread, hprompted, hquestions, hphases⟩ := hnotes
  refine ⟨?_, ?_, ?_, ?_, ?_, ?_⟩
  · intro i a ha
    rw [hphases] at ha
    rw [hread]
    exact (h.guard i a ha).after
  · intro n text htext a ha
    rw [hprompted]
    exact (h.chat n text (hchat ▸ htext) a ha).after
  · intro i prompt since htask
    rw [hphases] at htask
    obtain ⟨a, ha, hsince⟩ := h.confirms i prompt since htask
    exact ⟨a, ha, hsince.after⟩
  · intro i question heard htask
    rw [hphases] at htask ⊢
    obtain ⟨account, haccount, hr⟩ := h.replies i question heard htask
    exact ⟨account, haccount, hr.after (.inl ⟨hquestions, hwaiting⟩) hr.own hr.looked⟩
  · intro i row hrow
    rw [hphases] at hrow ⊢
    exact h.row i row hrow
  · intro a ha
    exact h.acted a (hacted ▸ ha)

theorem watches_conversation (co : Coercions) (u : BotUser) :
    Watches prompting ((conversation co u).noted (Notes.take u)) (fun i s => s.notes.phases i)
      (fun k f => k = f.task.prompt) (Undisturbed u) (Tracked u) where
  call := by
    intro i k c x s r h hc hex hk hmay
    cases hex
    refine ⟨trivial, h.call hc hk hmay, ?_, ?_⟩
    · exact congrFun phases_call i |>.trans (Function.update_self _ _ _)
    · show k = ((after u s (.call i k c x) (s.now.effect u k x c)).notes.phases i).task.prompt
      rw [phases_call, Function.update_self, next_task]
      exact hk
  start := by
    intro i e s r h _ hst
    simp only [Machine.noted, conversation, Option.map_map, Option.map_eq_some_iff] at hst
    obtain ⟨⟨k, p⟩, hserve, rfl⟩ := hst
    have hself : (after u s (.start i e) s.now).notes.phases i =
        ⟨s.notes.task s.now e, none, none, none⟩ := Function.update_self _ _ _
    obtain ⟨hk, hheeds⟩ := serve_heeds (n := s.notes) hserve
    refine ⟨h.start hserve, ?_, ?_⟩
    · show k = ((after u s (.start i e) s.now).notes.phases i).task.prompt
      rw [hself]
      exact hk
    · show Heeds ((after u s (.start i e) s.now).notes.phases i) p fun _ _ => True
      rw [hself]
      exact hheeds
  env := by
    intro e s s' h _ henv
    simp only [Machine.noted, conversation, Option.map_eq_some_iff] at henv
    obtain ⟨t, ht, rfl⟩ := henv
    cases e with
    | forget =>
        cases ht
        exact h.outside ⟨rfl, rfl, rfl, rfl⟩ rfl rfl (.inr rfl)
    | op op draw =>
        cases ht
        exact h.outside ⟨rfl, rfl, rfl, rfl⟩ rfl rfl (.inl rfl)
    | command _ => cases ht
    | maxOrders => cases ht
    | tap _ _ => cases ht
    | reply _ => cases ht
  crash := by
    intro i k s s' h _ hcr
    cases hcr
    exact h.outside ⟨rfl, rfl, rfl, rfl⟩ rfl rfl (.inl rfl)
  other := by
    intro l s s' i ha hl
    rw [Machine.act_noted, Option.map_eq_some_iff] at ha
    obtain ⟨t, -, rfl⟩ := ha
    cases l with
    | call j k c x =>
        have hj : i ≠ j := fun he => hl (congrArg some he.symm)
        exact Function.update_of_ne hj _ _
    | start j e =>
        have hj : i ≠ j := fun he => hl (congrArg some he.symm)
        exact Function.update_of_ne hj _ _
    | env e => rfl
    | crash j k => rfl

end

/-- In an undisturbed run everything that is changed is changed for the row of the prompt that
was confirmed or answered. -/
theorem acted_asPrompted {co : Coercions} {u : BotUser} {db : Db} {p : Conversation}
    (h : ((conversation co u).noted (Notes.take u)).Reaches (Undisturbed u)
      ((quiet db).noted .start) p) : p.shared.now.AsPrompted := by
  refine ((watches_conversation co u).run h ?_ ?_).1.acted
  · refine ⟨?_, ?_, ?_, ?_, ?_, ?_⟩
    · intro i a ha
      cases ha
    · intro n text htext
      cases htext
    · intro i prompt since htask
      cases htask
    · intro i question heard htask
      cases htask
    · intro i row hrow
      cases hrow
    · intro a ha
      cases ha
  · exact fun i => .inl trivial

/-! ## What moves the active account -/

/-- A read that repairs the session leaves the account active that it found. -/
theorem active_getActiveAccount (db : Db) (u : BotUser) (x : Draw) :
    (active (db.getActiveAccount u x).2 u).map Account.id = (active db u).map Account.id := by
  unfold Db.getActiveAccount
  split
  · rfl
  · next hnone =>
      split
      · next fallback hfallback =>
          have hbefore : active db u = some fallback := by
            rw [active, hnone, hfallback, Option.none_or]
          cases hcommit : Db.commit (db.pointAt u (some fallback.id) x) with
          | none => rfl
          | some db' =>
              have hheld : db.isLinked u fallback.id = true :=
                (Accounts.mem_listed.1 (List.mem_of_mem_head? hfallback)).2
              have hframe := (Accounts.commit_eq hcommit).trans Accounts.pointAt_frame
              have hselected : db'.selected u = some fallback.id := by
                rw [Accounts.commit_eq hcommit]
                exact Accounts.selected_pointAt
              have hlinked : db'.isLinked u fallback.id = true := by
                rw [hframe]
                exact hheld
              obtain ⟨a, ha⟩ := Option.isSome_iff_exists.1 (Accounts.linkedAccount_isSome hlinked)
              have hafter : active db' u = some a := by
                rw [active, hselected, Option.bind_some, ha, Option.some_or]
              rw [Option.getD_some, hafter, hbefore, Option.map_some, Option.map_some,
                (Accounts.linkedAccount_some ha).2.1]
      · rfl

/-- Of the calls of the bot and the endpoints only the last one of `/unlink` can move it. -/
theorem moves_call {u : BotUser} {s : Shared} {n : Notes} {i : Nat} {k : Option Text} {c : Call}
    {x : Input} (hc : ∀ account, c ≠ .dropLink account) :
    (n.take u s (.call i k c x) (s.effect u k x c)).moves = n.moves := by
  have hresolve : activeId u (s.resolve u x).2 = activeId u s := by
    simp only [Shared.resolve]
    split
    · rfl
    · exact active_getActiveAccount s.db u x.draw
  have hsame : activeId u (s.effect u k x c) = activeId u s := by
    cases c with
    | getAccount => exact hresolve
    | linkedAccount => exact hresolve
    | dropLink account => exact absurd rfl (hc account)
    | updateSettings account patch =>
        simp only [Shared.effect, Shared.change]
        cases hcommit : Db.commit (s.db.updateSettings account.id patch) with
        | none => rfl
        | some db' =>
            dsimp only
            split
            · rfl
            · have hdb := Accounts.commit_eq hcommit
              simp only [activeId, active, Shared.act, hdb]
              rfl
    | publish action account =>
        simp only [Shared.effect]
        split <;> rfl
    | push account settings =>
        simp only [Shared.effect]
        split <;> rfl
    | answer text =>
        simp only [Shared.effect]
        split <;> rfl
    | edit message text =>
        simp only [Shared.effect]
        split <;> rfl
    | _ => rfl
  exact if_pos hsame

namespace Sample

/-- Every call succeeds. -/
def fine (n : Nat) : Input :=
  ⟨Accounts.Sample.draw n, .ok, some ⟨5, "global", 5⟩, none, true⟩

/-- Two accounts are linked, and the first is active. -/
def linked : Db := Accounts.calls Accounts.Sample.linkedCalls

def coercions : Coercions := ⟨fun _ => none, fun _ => none⟩

/-- `/flat`. -/
def asked : List (Machine.Move Nat Input Update) :=
  [.start 0 (.command .flat), .call 0 (fine 8), .call 0 (fine 9)]

/-- Confirm. -/
def confirmed : List (Machine.Move Nat Input Update) :=
  [.start 0 (.tap 0 true), .call 0 (fine 10), .call 0 (fine 11), .call 0 (fine 12),
    .call 0 (fine 13)]

def switched (account : RowId) : Machine.Move Nat Input Update :=
  .env (.op (.setActiveAccount Accounts.Sample.user account) (Accounts.Sample.draw 14))

/-- `/maxorders`. -/
def questioned : List (Machine.Move Nat Input Update) :=
  .start 0 .maxOrders :: List.replicate 5 (.call 0 (fine 15))

/-- A reply to it, and the calls its handler makes. -/
def replied (calls : Nat) : List (Machine.Move Nat Input Update) :=
  .start 0 (.reply "5") :: List.replicate calls (.call 0 (fine 16))

/-- For which account, and on which, something was changed. -/
def Act.ids (a : Act) : Option RowId × RowId :=
  ((a.prompt.bind Text.account).map Account.id, a.row.id)

def undisturbed (s : Noted Shared Notes) : Step → Bool
  | .call i _ .linkedAccount _ =>
      match (s.notes.phases i).task with
      | .asks => true
      | .confirms _ since => since == s.notes.moves
      | .replies _ _ => s.notes.readAt i == s.notes.moves
  | .call i _ .getAccount _ =>
      match (s.notes.phases i).task with
      | .replies question _ =>
          question.account.all fun account => decide (OwnId Accounts.Sample.user s.now.db account)
      | _ => true
  | .call i _ .getData _ =>
      match (s.notes.phases i).task with
      | .replies _ heard => heard == s.notes.questions
      | _ => true
  | _ => true

theorem undisturbed_of {s : Noted Shared Notes} {l : Step} (h : undisturbed s l = true) :
    Undisturbed Accounts.Sample.user s l := by
  unfold Undisturbed
  split
  · next i k x =>
      simp only [undisturbed] at h
      split <;> simp_all
  · next i k x =>
      simp only [undisturbed] at h
      split
      · next question heard htask =>
          rw [htask] at h
          intro account haccount
          rw [Option.mem_def] at haccount
          simp only [haccount, Option.all_some] at h
          exact of_decide_eq_true h
      · trivial
  · next i k x =>
      simp only [undisturbed] at h
      split <;> simp_all
  · trivial

end Sample

/-- Between the prompt and the confirmation the user switches to the other account, and the
positions of that one are closed. -/
theorem not_asPrompted :
    ¬ ∀ (co : Coercions) (u : BotUser) (db : Db)
      (p : Pool Nat (Option Text) Shared Call Call.Result Settings.Fault),
      (conversation co u).Runs (quiet db) p → p.shared.AsPrompted := by
  intro h
  have hrun : (((conversation Sample.coercions Accounts.Sample.user).replay
      (Sample.asked ++ [Sample.switched 2] ++ Sample.confirmed) (quiet Sample.linked)).any
        fun p => p.shared.acted.map Sample.Act.ids == [(some 1, 2)]) = true := by
    decide +kernel
  rw [Option.any_eq_true] at hrun
  obtain ⟨p, hp, hids⟩ := hrun
  have hall := h _ _ _ p (Machine.runs_of_replay hp)
  rw [beq_iff_eq] at hids
  obtain ⟨a, ha, hid⟩ := List.mem_map.mp (hids ▸ List.mem_singleton_self (some 1, 2))
  obtain ⟨prompt, account, hprompt, haccount, hsame, -⟩ := hall a ha
  simp only [Sample.Act.ids, hprompt, Option.bind_some, haccount, Option.map_some,
    Prod.mk.injEq, Option.some.injEq] at hid
  rw [hid.1, hid.2] at hsame
  exact absurd hsame (by decide)

/-- A FLAT is confirmed; a question about the first account is answered with the other one
active, and nothing is changed; once it is put and answered again with the first one active, its
cap is stored and pushed. -/
theorem asPrompted_switching :
    ∃ p, ((conversation Sample.coercions Accounts.Sample.user).noted
        (Notes.take Accounts.Sample.user)).Reaches (Undisturbed Accounts.Sample.user)
        ((quiet Sample.linked).noted .start) p ∧
      p.shared.now.acted.map Sample.Act.ids = [(some 1, 1), (some 1, 1), (some 1, 1)] ∧
      p.shared.now.AsPrompted := by
  have hrun : ((((conversation Sample.coercions Accounts.Sample.user).noted
      (Notes.take Accounts.Sample.user)).replayIf Sample.undisturbed
      (Sample.asked ++ Sample.confirmed ++ Sample.questioned ++ [Sample.switched 2] ++
        Sample.replied 4 ++ [Sample.switched 1] ++ Sample.questioned ++ Sample.replied 8)
      ((quiet Sample.linked).noted .start)).any
        fun p => p.shared.now.acted.map Sample.Act.ids ==
          [(some 1, 1), (some 1, 1), (some 1, 1)]) = true := by
    decide +kernel
  rw [Option.any_eq_true] at hrun
  obtain ⟨p, hp, hids⟩ := hrun
  have hreach := (Machine.reaches_of_replayIf hp).mono fun _ _ => Sample.undisturbed_of
  exact ⟨p, hreach, by simpa using hids, acted_asPrompted hreach⟩

end TradingBroker.Bot
