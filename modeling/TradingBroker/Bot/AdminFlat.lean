import Mathlib.Logic.Function.Basic
import TradingBroker.Lib.Along
import TradingBroker.Lib.Html
import TradingBroker.Schemas.Core

/-!
# The admin's FLAT

`/aflat` of `bot/app/handlers/admin.py` and its keyboards: with an account id it
asks to confirm one account, without one it asks for a strategy, a market and a
gateway, and then to confirm the scope. What is to be flatted is kept in the
conversation's data, one record for each admin in each chat, and the buttons of
every prompt the bot has ever sent act on that record.

So a prompt is good for as long as nothing else has written the record or the
message. `Watched` notes, beside a run, the message each admin's latest `/aflat`
goes on at: a new command that starts the pickers or finds an account moves it, a
pick on another message ends it, and so does another admin's pick on this one. The
invariant `Watched.Kept` is that such a message fits its admin's record: a scope is
only being picked while no account is the target, and a prompt to confirm shows
what the record holds. A run in which Confirm is only tapped there, whenever there
is a target, sends what the tapped texts display (`flats_asShown_in_hand`).
-/

namespace TradingBroker.Bot

open TradingBroker.Lib

/-! ## What the broker answers -/

/-- An account as `GET /v1/accounts` lists it, as far as the prompts go. -/
structure ListedAccount where
  accountId : String
  market : MarketType
  gateway : Option String
  accountName : Option String
  deriving DecidableEq

/-- A name `list_distinct_strategies` returns; it leaves out the empty one. -/
structure StrategyName where
  name : String
  named : name ≠ ""
  deriving DecidableEq

/-- `CommandResultResponse`, as far as it is shown. -/
structure CommandResult where
  action : String
  scope : String
  deriving DecidableEq

/-- `MARKETS`. -/
def markets : List MarketType := [.forex, .crypto]

/-- `GATEWAYS_BY_MARKET`. -/
def gatewaysByMarket : MarketType → List String
  | .forex => ["MT5"]
  | .crypto => ["BINANCE"]

/-! ## What is kept, and what is sent -/

structure Scope where
  strategy : Option StrategyName
  market : Option MarketType
  gateway : Option String
  deriving DecidableEq

/-- `scope.get(..)` of a record that holds no scope. -/
def Scope.all : Scope := ⟨none, none, none⟩

/-- `aflat_target`: everything in the scope (`"*"`), or one account. -/
inductive Target where
  | everything
  | account (a : ListedAccount)
  deriving DecidableEq

/-- The conversation's data, as far as `/aflat` uses it. -/
structure Record where
  aflatTarget : Option Target
  aflatCandidates : Option (List ListedAccount)
  aflatStrategies : Option (List StrategyName)
  aflatScope : Option Scope
  deriving DecidableEq

def Record.empty : Record := ⟨none, none, none, none⟩

/-- The body of `admin_flat`; `symbol` is never given. -/
structure FlatRequest where
  strategy : Option String
  accountId : Option String
  market : Option MarketType
  gateway : Option String
  deriving DecidableEq

/-- The call for everything in a scope. -/
def FlatRequest.ofScope (s : Scope) : FlatRequest :=
  ⟨s.strategy.map StrategyName.name, none, s.market, s.gateway⟩

/-- The call for one account. -/
def FlatRequest.ofAccount (a : ListedAccount) : FlatRequest :=
  ⟨none, some a.accountId, some a.market, a.gateway⟩

/-! ## Texts -/

def warning : String := "⚠️"
def check : String := "✅"
def cross : String := "❌"
def cancel : String := "✖️"

/-- `str` of a field that may be null. -/
def strOrNone : Option String → String
  | some s => s
  | none => "None"

/-- One part of `_aflat_scope_text`. -/
def scopePart (name opening closing : String) : Option String → String
  | some v =>
      if v = "" then name ++ "=<b>ALL</b>" else name ++ "=" ++ opening ++ Html.escape v ++ closing
  | none => name ++ "=<b>ALL</b>"

/-- `_aflat_scope_text`. -/
def aflatScopeText (s : Scope) : String :=
  scopePart "strategy" "<code>" "</code>" (s.strategy.map StrategyName.name) ++ " · " ++
    scopePart "market" "<b>" "</b>" (s.market.map MarketType.value) ++ " · " ++
    scopePart "gateway" "<b>" "</b>" s.gateway

/-- `_aflat_target_confirm_text`. -/
def aflatTargetConfirmText (a : ListedAccount) : String :=
  warning ++ " Confirm <b>FLAT</b> (close positions) for account <code>" ++
    Html.escape a.accountId ++ "</code> (" ++ Html.escape a.market.value ++ "/" ++
    Html.escape (strOrNone a.gateway) ++ ")?"

/-- `_aflat_scope_confirm_text`. -/
def aflatScopeConfirmText (s : Scope) : String :=
  warning ++ " Confirm <b>FLAT</b> (close positions) with scope:\n" ++ aflatScopeText s

/-- What a message of `/aflat` shows. -/
inductive Shown where
  | pickStrategy
  | pickMarket (s : Scope)
  | pickGateway (s : Scope)
  | confirmScope (s : Scope)
  | noAccount (arg : String)
  | pickAccount (arg : String) (n : Nat)
  | confirmAccount (a : ListedAccount)
  | cancelled
  | failed
  | done (r : CommandResult)
  deriving DecidableEq

/-- `_ACTION_LABEL`; an action without a label is shown escaped. -/
def actionLabel (action : String) : String :=
  if action = "FLAT" then "Flat"
  else if action = "BLOCK_SIGNAL" then "Prevent"
  else if action = "ALLOW_SIGNAL" then "Allow"
  else Html.escape action

/-- `format_command_result`. -/
def formatCommandResult (r : CommandResult) : String :=
  check ++ " Command <b>" ++ actionLabel r.action ++ "</b> done\nScope: <code>" ++
    Html.escape r.scope ++ "</code>\n\n" ++
    "<i>The command has been dispatched to the worker via the broker.</i>"

def Shown.text : Shown → String
  | .pickStrategy => warning ++ " <b>FLAT</b> scope — pick a strategy (or All):"
  | .pickMarket s =>
      warning ++ " <b>FLAT</b> scope — pick a market (or All):\n" ++ aflatScopeText s
  | .pickGateway s =>
      warning ++ " <b>FLAT</b> scope — pick a gateway (or All):\n" ++ aflatScopeText s
  | .confirmScope s => aflatScopeConfirmText s
  | .noAccount arg =>
      warning ++ " No account found with id <code>" ++ Html.escape arg ++ "</code>."
  | .pickAccount arg n =>
      warning ++ " <code>" ++ Html.escape arg ++ "</code> matches " ++ toString n ++
        " accounts on different gateways — pick the one to flat:"
  | .confirmAccount a => aflatTargetConfirmText a
  | .cancelled => "Cancelled."
  | .failed => cross ++ " FLAT failed."
  | .done r => formatCommandResult r

/-! ## Keyboards -/

/-- The callback data of a button: what is picked, or an index into the record. -/
inductive Callback where
  | afls (index : Option Nat)
  | aflm (market : Option MarketType)
  | aflg (gateway : Option String)
  | aflatc (index : Nat)
  | confirm
  | cancel
  deriving DecidableEq

structure Button where
  text : String
  callback : Callback
  deriving DecidableEq

/-- `confirm_keyboard`. -/
def confirmKeyboard : List Button :=
  [⟨check ++ " Confirm", .confirm⟩, ⟨cancel ++ " Cancel", .cancel⟩]

/-- `account_name or account_id`. -/
def ListedAccount.title (a : ListedAccount) : String :=
  match a.accountName with
  | some name => if name = "" then a.accountId else name
  | none => a.accountId

/-- `aflat_candidates_picker`. -/
def aflatCandidatesPicker (accounts : List ListedAccount) : List Button :=
  accounts.mapIdx fun i a =>
    ⟨a.market.value ++ "/" ++ strOrNone a.gateway ++ " · " ++ a.title, .aflatc i⟩

/-- `aflat_strategy_picker`. -/
def aflatStrategyPicker (strategies : List StrategyName) : List Button :=
  ⟨"All strategies", .afls none⟩ ::
    strategies.mapIdx fun i s => ⟨s.name, .afls (some i)⟩

/-- `aflat_market_picker`. -/
def aflatMarketPicker : List Button :=
  ⟨"All markets", .aflm none⟩ :: markets.map fun m => ⟨m.value, .aflm (some m)⟩

/-- The gateways of a market, or of any. -/
def gatewaysOf : Option MarketType → List String
  | some m => gatewaysByMarket m
  | none => markets.flatMap gatewaysByMarket

/-- `aflat_gateway_picker`. -/
def aflatGatewayPicker (market : Option MarketType) : List Button :=
  ⟨"All gateways", .aflg none⟩ ::
    (gatewaysOf market).eraseDups.map fun g => ⟨g, .aflg (some g)⟩

structure Message where
  shown : Shown
  buttons : List Button
  deriving DecidableEq

/-! ## Handlers -/

/-- What handling an update does: the record it leaves, the message it sends or turns the
tapped one into, and the call it makes. -/
structure Handled where
  record : Record
  message : Option Message
  flat : Option FlatRequest

/-- `_aflat_start_scope_flow`; a failed fetch is an empty list. -/
def aflatStartScopeFlow (strategies : Option (List StrategyName)) : Handled :=
  let strategies := strategies.getD []
  { record := ⟨some .everything, none, some strategies, some .all⟩
    message := some ⟨.pickStrategy, aflatStrategyPicker strategies⟩
    flat := none }

/-- `cmd_aflat`, of the argument with the blanks around it gone. -/
def cmdAflat (arg : String) (accounts : Option (List ListedAccount))
    (strategies : Option (List StrategyName)) (r : Record) : Handled :=
  if arg = "" then aflatStartScopeFlow strategies
  else
    match (accounts.getD []).filter fun a => a.accountId == arg with
    | [] => { record := r, message := some ⟨.noAccount arg, []⟩, flat := none }
    | [account] =>
        { record := { r with aflatTarget := some (.account account), aflatCandidates := none }
          message := some ⟨.confirmAccount account, confirmKeyboard⟩
          flat := none }
    | candidates =>
        { record := { r with aflatTarget := none, aflatCandidates := some candidates }
          message := some ⟨.pickAccount arg candidates.length, aflatCandidatesPicker candidates⟩
          flat := none }

/-- Only an alert, or nothing, is shown. -/
def unchanged (r : Record) : Handled := { record := r, message := none, flat := none }

/-- `cb_aflat_pick`. -/
def cbAflatPick (index : Nat) (r : Record) : Handled :=
  match (r.aflatCandidates.getD [])[index]? with
  | none => unchanged r
  | some account =>
      { record := { r with aflatTarget := some (.account account), aflatCandidates := none }
        message := some ⟨.confirmAccount account, confirmKeyboard⟩
        flat := none }

/-- The scope the picker callbacks start from. -/
def Record.scope (r : Record) : Scope := r.aflatScope.getD .all

/-- What `cb_aflat_pick_strategy` ends with. -/
def pickedStrategy (s : Scope) (r : Record) : Handled :=
  { record := { r with aflatScope := some s }
    message := some ⟨.pickMarket s, aflatMarketPicker⟩
    flat := none }

/-- `cb_aflat_pick_strategy`. -/
def cbAflatPickStrategy (index : Option Nat) (r : Record) : Handled :=
  match index with
  | none => pickedStrategy { r.scope with strategy := none } r
  | some i =>
      match (r.aflatStrategies.getD [])[i]? with
      | none => unchanged r
      | some strategy => pickedStrategy { r.scope with strategy := some strategy } r

/-- `cb_aflat_pick_market`. -/
def cbAflatPickMarket (market : Option MarketType) (r : Record) : Handled :=
  let s := { r.scope with market }
  { record := { r with aflatScope := some s }
    message := some ⟨.pickGateway s, aflatGatewayPicker s.market⟩
    flat := none }

/-- What `cb_aflat_pick_gateway` ends with. -/
def pickedGateway (s : Scope) (r : Record) : Handled :=
  { record := { r with aflatScope := some s }
    message := some ⟨.confirmScope s, confirmKeyboard⟩
    flat := none }

/-- `cb_aflat_pick_gateway`. -/
def cbAflatPickGateway (gateway : Option String) (r : Record) : Handled :=
  match gateway with
  | none => pickedGateway { r.scope with gateway := none } r
  | some g =>
      if (gatewaysOf r.scope.market).contains g then
        pickedGateway { r.scope with gateway := some g } r
      else unchanged r

/-- The call `cb_aflat` makes for a target. -/
def Record.request (r : Record) : Target → FlatRequest
  | .everything => .ofScope r.scope
  | .account a => .ofAccount a

/-- `cb_aflat`; `result` is what the broker answers, if it is asked. -/
def cbAflat (confirmed : Bool) (result : Option CommandResult) (r : Record) : Handled :=
  match confirmed, r.aflatTarget with
  | true, some target =>
      { record := .empty
        message := some ⟨(result.map Shown.done).getD .failed, []⟩
        flat := some (r.request target) }
  | _, _ => { record := .empty, message := some ⟨.cancelled, []⟩, flat := none }

/-- The handler of a callback. -/
def Callback.handle (result : Option CommandResult) (r : Record) : Callback → Handled
  | .afls index => cbAflatPickStrategy index r
  | .aflm market => cbAflatPickMarket market r
  | .aflg gateway => cbAflatPickGateway gateway r
  | .aflatc index => cbAflatPick index r
  | .confirm => cbAflat true result r
  | .cancel => cbAflat false result r

/-! ## Runs -/

/-- Updates of an admin in a chat (`key`), with what the broker answers and whether Telegram
takes the message or the edit; a message it refuses leaves the record as the handler set it. -/
inductive Event (κ : Type) where
  | aflat (key : κ) (arg : String) (accounts : Option (List ListedAccount))
      (strategies : Option (List StrategyName)) (sent : Bool)
  | tap (key : κ) (message button : Nat) (result : Option CommandResult) (edited : Bool)
  deriving DecidableEq

/-- A call of `admin_flat`, and the message whose button was tapped, as it was then. -/
structure FlatCall where
  tapped : Message
  request : FlatRequest
  deriving DecidableEq

/-- The records, every message sent, and the calls made. -/
structure World (κ : Type) where
  records : κ → Record
  chat : List Message
  flats : List FlatCall

def World.start (κ : Type) : World κ := ⟨fun _ => .empty, [], []⟩

namespace World

variable {κ : Type} [DecidableEq κ] (w : World κ)

/-- A button a message carries. -/
def button (message i : Nat) : Option (Message × Button) :=
  w.chat[message]?.bind fun m => m.buttons[i]?.map fun b => (m, b)

/-- The tapped message turned into another one. -/
def edit (i : Nat) (message : Option Message) (edited : Bool) : List Message :=
  match message, edited with
  | some m, true => w.chat.set i m
  | _, _ => w.chat

/-- One update is handled. A tap on a button that is not there is none. -/
def handle : Event κ → World κ
  | .aflat key arg accounts strategies sent =>
      let h := cmdAflat arg accounts strategies (w.records key)
      { w with
        records := Function.update w.records key h.record
        chat := if sent then w.chat ++ h.message.toList else w.chat }
  | .tap key i b result edited =>
      match w.button i b with
      | none => w
      | some (tapped, button) =>
          let h := button.callback.handle result (w.records key)
          { records := Function.update w.records key h.record
            chat := w.edit i h.message edited
            flats := w.flats ++ (h.flat.map fun request => ⟨tapped, request⟩).toList }

/-- The updates are handled one after the other. -/
def run (events : List (Event κ)) : World κ := events.foldl World.handle w

end World

/-! ## What a prompt asks for -/

/-- The account or scope a prompt to confirm shows. -/
def Shown.names : Shown → Option FlatRequest
  | .confirmScope s => some (.ofScope s)
  | .confirmAccount a => some (.ofAccount a)
  | _ => none

/-- The prompt that asks to confirm a request. -/
def FlatRequest.confirmText (q : FlatRequest) : String :=
  match q.accountId with
  | some accountId =>
      warning ++ " Confirm <b>FLAT</b> (close positions) for account <code>" ++
        Html.escape accountId ++ "</code> (" ++
        Html.escape (strOrNone (q.market.map MarketType.value)) ++ "/" ++
        Html.escape (strOrNone q.gateway) ++ ")?"
  | none =>
      warning ++ " Confirm <b>FLAT</b> (close positions) with scope:\n" ++
        scopePart "strategy" "<code>" "</code>" q.strategy ++ " · " ++
        scopePart "market" "<b>" "</b>" (q.market.map MarketType.value) ++ " · " ++
        scopePart "gateway" "<b>" "</b>" q.gateway

/-- The prompt shows what the record holds: its scope, or its account. -/
def Shown.Holds (r : Record) : Target → Shown → Prop
  | .everything, .confirmScope s => s = r.scope
  | .account a, .confirmAccount b =>
      b.accountId = a.accountId ∧ b.market = a.market ∧ b.gateway = a.gateway
  | _, _ => False

/-- A prompt that shows what the record holds names what is sent for it. -/
theorem names_of_holds {r : Record} {target : Target} {shown : Shown}
    (h : shown.Holds r target) : shown.names = some (r.request target) := by
  cases target with
  | everything =>
      cases shown with
      | confirmScope s =>
          cases h
          rfl
      | _ => exact h.elim
  | account a =>
      cases shown with
      | confirmAccount b =>
          obtain ⟨hid, hmarket, hgateway⟩ := h
          simp only [Shown.names, Record.request, FlatRequest.ofAccount, hid, hmarket, hgateway]
      | _ => exact h.elim

/-! ## The calls of a run -/

/-- Only a tap on Confirm calls the broker, and only with a target. -/
theorem flat_eq_some_iff {result : Option CommandResult} {r : Record} {c : Callback}
    {request : FlatRequest} :
    (c.handle result r).flat = some request ↔
      c = .confirm ∧ ∃ target, r.aflatTarget = some target ∧ request = r.request target := by
  cases c with
  | confirm =>
      simp only [Callback.handle, cbAflat]
      cases r.aflatTarget with
      | none => simp
      | some target => simp [eq_comm]
  | cancel => simp [Callback.handle, cbAflat]
  | afls index =>
      simp only [Callback.handle, cbAflatPickStrategy, reduceCtorEq, false_and, iff_false]
      split
      · simp [pickedStrategy]
      · split <;> simp [pickedStrategy, unchanged]
  | aflm market => simp [Callback.handle, cbAflatPickMarket]
  | aflg gateway =>
      simp only [Callback.handle, cbAflatPickGateway, reduceCtorEq, false_and, iff_false]
      split
      · simp [pickedGateway]
      · split <;> simp [pickedGateway, unchanged]
  | aflatc index =>
      simp only [Callback.handle, cbAflatPick, reduceCtorEq, false_and, iff_false]
      split <;> simp [unchanged]

/-- A button that picks something; the others confirm or cancel. -/
def Callback.picks : Callback → Bool
  | .confirm | .cancel => false
  | _ => true

/-- The command starts the pickers, or finds an account. -/
def begins (arg : String) (accounts : Option (List ListedAccount)) : Bool :=
  arg == "" || (accounts.getD []).any fun a => a.accountId == arg

/-- A run with a note of who is asked what: the message each admin's latest `/aflat` goes on
at, if nothing came in between. -/
structure Watched (κ : Type) where
  world : World κ
  asking : κ → Option Nat

def Watched.start (κ : Type) : Watched κ := ⟨.start κ, fun _ => none⟩

section Runs

variable {κ : Type} [DecidableEq κ]

/-- A new `/aflat` goes on at the message it sends. It does no longer once its admin picks
something on another message, or another admin picks something on this one. -/
def Watched.handle (v : Watched κ) (e : Event κ) : Watched κ where
  world := v.world.handle e
  asking :=
    match e with
    | .aflat key arg accounts _ sent =>
        if begins arg accounts then
          Function.update v.asking key (if sent then some v.world.chat.length else none)
        else v.asking
    | .tap key i b _ _ =>
        if (v.world.button i b).any fun mb => mb.2.callback.picks then
          fun key' => (v.asking key').filter fun i' => decide (key' = key) == decide (i' = i)
        else v.asking

/-- Confirm is tapped, if the admin's record has a target, on the message their latest `/aflat`
goes on at. -/
def Watched.InHand (v : Watched κ) : Event κ → Prop
  | .aflat .. => True
  | .tap key i b _ _ =>
      ((v.world.button i b).any fun mb => mb.2.callback == .confirm) = true →
        (v.world.records key).aflatTarget ≠ none → v.asking key = some i

instance (v : Watched κ) : (e : Event κ) → Decidable (v.InHand e)
  | .aflat .. => inferInstanceAs (Decidable True)
  | .tap key i b _ _ =>
      inferInstanceAs (Decidable
        (((v.world.button i b).any fun mb => mb.2.callback == .confirm) = true →
          (v.world.records key).aflatTarget ≠ none → v.asking key = some i))

/-! ## What a message asks about -/

/-- The message and the record go together. The buttons of a message are all of one kind; a
scope is only picked with no account as the target, and a prompt to confirm shows what the record
holds, if it has a target at all. -/
inductive Record.Fits (r : Record) (m : Message) : Prop where
  | scope (buttons : ∀ b ∈ m.buttons, b.callback.picks = true ∧ ∀ n, b.callback ≠ .aflatc n)
      (target : ∀ a, r.aflatTarget ≠ some (.account a))
  | account (buttons : ∀ b ∈ m.buttons, ∃ n, b.callback = .aflatc n)
  | confirm (buttons : ∀ b ∈ m.buttons, b.callback.picks = false)
      (target : ∀ target, r.aflatTarget = some target → m.shown.Holds r target)

/-- A message without buttons fits any record. -/
theorem Record.fits_of_no_buttons {r : Record} {m : Message} (h : m.buttons = []) : r.Fits m :=
  .account fun _ hb => absurd (h ▸ hb) List.not_mem_nil

/-- The record that a tap on Confirm or Cancel leaves fits every message there was. -/
theorem Record.Fits.empty {r : Record} {m : Message} (h : r.Fits m) : Record.empty.Fits m := by
  cases h with
  | scope buttons => exact .scope buttons fun a ha => by cases ha
  | account buttons => exact .account buttons
  | confirm buttons => exact .confirm buttons fun target ht => by cases ht

theorem fits_confirmKeyboard {r : Record} {shown : Shown}
    (h : ∀ target, r.aflatTarget = some target → shown.Holds r target) :
    r.Fits ⟨shown, confirmKeyboard⟩ := by
  refine .confirm ?_ h
  intro b hb
  simp only [confirmKeyboard, List.mem_cons, List.not_mem_nil, or_false] at hb
  rcases hb with rfl | rfl
  · rfl
  · rfl

theorem mem_pickers {m : Message} {b : Button}
    (h : m.buttons = aflatMarketPicker ∨ ∃ market, m.buttons = aflatGatewayPicker market)
    (hb : b ∈ m.buttons) : b.callback.picks = true ∧ ∀ n, b.callback ≠ .aflatc n := by
  rcases h with h | ⟨market, h⟩
  · rw [h, aflatMarketPicker, List.mem_cons, List.mem_map] at hb
    rcases hb with rfl | ⟨m, -, rfl⟩
    · exact ⟨rfl, fun n h => by cases h⟩
    · exact ⟨rfl, fun n h => by cases h⟩
  · rw [h, aflatGatewayPicker, List.mem_cons, List.mem_map] at hb
    rcases hb with rfl | ⟨g, -, rfl⟩
    · exact ⟨rfl, fun n h => by cases h⟩
    · exact ⟨rfl, fun n h => by cases h⟩

/-- What a pick in a message that fits leaves fits that message, should it stay, and what it is
turned into. -/
theorem Record.Fits.pick {r : Record} {m : Message} {b : Button} {result : Option CommandResult}
    (h : r.Fits m) (hb : b ∈ m.buttons) (hpick : b.callback.picks = true) :
    (b.callback.handle result r).record.Fits m ∧
      ∀ next ∈ (b.callback.handle result r).message,
        (b.callback.handle result r).record.Fits next := by
  cases h with
  | scope buttons target =>
      cases hc : b.callback with
      | afls index =>
          simp only [Callback.handle, cbAflatPickStrategy]
          have hpicked : ∀ s : Scope, (pickedStrategy s r).record.Fits m ∧
              ∀ next ∈ (pickedStrategy s r).message, (pickedStrategy s r).record.Fits next := by
            intro s
            refine ⟨.scope buttons target, ?_⟩
            rintro next ⟨⟩
            exact .scope (fun _ => mem_pickers (.inl rfl)) target
          split
          · exact hpicked _
          · split
            · exact ⟨.scope buttons target, fun next hnext => by cases hnext⟩
            · exact hpicked _
      | aflm market =>
          refine ⟨.scope buttons target, ?_⟩
          rintro next ⟨⟩
          exact .scope (fun _ => mem_pickers (.inr ⟨_, rfl⟩)) target
      | aflg gateway =>
          simp only [Callback.handle, cbAflatPickGateway]
          have hpicked : ∀ s : Scope, (pickedGateway s r).record.Fits m ∧
              ∀ next ∈ (pickedGateway s r).message, (pickedGateway s r).record.Fits next := by
            intro s
            refine ⟨.scope buttons target, ?_⟩
            rintro next ⟨⟩
            -- the target is a scope, and the prompt shows it
            refine fits_confirmKeyboard fun t ht => ?_
            cases t with
            | everything => rfl
            | account a => exact absurd ht (target a)
          split
          · exact hpicked _
          · split
            · exact hpicked _
            · exact ⟨.scope buttons target, fun next hnext => by cases hnext⟩
      | aflatc n => exact absurd hc ((buttons b hb).2 n)
      | confirm | cancel =>
          rw [hc] at hpick
          cases hpick
  | account buttons =>
      obtain ⟨n, hc⟩ := buttons b hb
      rw [hc]
      simp only [Callback.handle, cbAflatPick]
      split
      · exact ⟨.account buttons, fun next hnext => by cases hnext⟩
      · refine ⟨.account buttons, ?_⟩
        rintro next ⟨⟩
        refine fits_confirmKeyboard fun t ht => ?_
        cases ht
        exact ⟨rfl, rfl, rfl⟩
  | confirm buttons =>
      rw [buttons b hb] at hpick
      cases hpick

/-- The message a command begins with fits the record it leaves. -/
theorem fits_cmdAflat {arg : String} {accounts : Option (List ListedAccount)}
    {strategies : Option (List StrategyName)} {r : Record} (h : begins arg accounts = true) :
    ∃ m, (cmdAflat arg accounts strategies r).message = some m ∧
      (cmdAflat arg accounts strategies r).record.Fits m := by
  unfold cmdAflat
  split
  · refine ⟨_, rfl, .scope ?_ fun a ha => by cases ha⟩
    intro b hb
    simp only [aflatStrategyPicker, List.mem_cons, List.mem_mapIdx] at hb
    rcases hb with rfl | ⟨i, hi, rfl⟩
    · exact ⟨rfl, fun n h => by cases h⟩
    · exact ⟨rfl, fun n h => by cases h⟩
  · next harg =>
      split
      · next hnone =>
          -- some account is found
          exfalso
          rw [begins, Bool.or_eq_true, beq_iff_eq, List.any_eq_true] at h
          obtain ⟨a, ha, hid⟩ := h.resolve_left harg
          exact List.filter_eq_nil_iff.mp hnone a ha hid
      · next account _ =>
          refine ⟨_, rfl, fits_confirmKeyboard fun t ht => ?_⟩
          cases ht
          exact ⟨rfl, rfl, rfl⟩
      · refine ⟨_, rfl, .account ?_⟩
        intro b hb
        simp only [aflatCandidatesPicker, List.mem_mapIdx] at hb
        obtain ⟨i, hi, rfl⟩ := hb
        exact ⟨i, rfl⟩

/-- A command that does not begin anything leaves the record as it is. -/
theorem cmdAflat_record {arg : String} {accounts : Option (List ListedAccount)}
    {strategies : Option (List StrategyName)} {r : Record} (h : begins arg accounts = false) :
    (cmdAflat arg accounts strategies r).record = r := by
  rw [begins, Bool.or_eq_false_iff, beq_eq_false_iff_ne, List.any_eq_false] at h
  have hnone : (accounts.getD []).filter (fun a => a.accountId == arg) = [] :=
    List.filter_eq_nil_iff.mpr h.2
  simp only [cmdAflat, if_neg h.1, hnone]

/-! ## Runs -/

/-- The messages that admins are asked on fit their records. -/
def Watched.Kept (v : Watched κ) : Prop :=
  ∀ key i, v.asking key = some i →
    ∃ m, v.world.chat[i]? = some m ∧ (v.world.records key).Fits m

omit [DecidableEq κ] in
theorem World.button_eq_some {w : World κ} {i n : Nat} {m : Message} {b : Button}
    (h : w.button i n = some (m, b)) : w.chat[i]? = some m ∧ b ∈ m.buttons := by
  obtain ⟨m', hm, hbutton⟩ := Option.bind_eq_some_iff.mp h
  obtain ⟨b', hb, heq⟩ := Option.map_eq_some_iff.mp hbutton
  cases heq
  exact ⟨hm, List.mem_of_getElem? hb⟩

theorem Watched.Kept.handle_aflat {v : Watched κ} {key : κ} {arg : String}
    {accounts : Option (List ListedAccount)} {strategies : Option (List StrategyName)}
    {sent : Bool} (h : v.Kept) : (v.handle (.aflat key arg accounts strategies sent)).Kept := by
  have hchat : ∀ (i : Nat) (m : Message), v.world.chat[i]? = some m →
      (v.world.handle (.aflat key arg accounts strategies sent)).chat[i]? = some m := by
    intro i m hm
    simp only [World.handle]
    split
    · rw [List.getElem?_append_left (List.getElem?_eq_some_iff.mp hm).1, hm]
    · exact hm
  intro key' i hi
  by_cases hkey : key' = key
  · subst hkey
    cases hbegins : begins arg accounts with
    | true =>
        obtain ⟨m, hmessage, hfits⟩ :=
          @fits_cmdAflat arg accounts strategies (v.world.records key') hbegins
        simp only [Watched.handle, hbegins, if_true, Function.update_self] at hi
        split at hi
        · next hsent =>
            cases hi
            refine ⟨m, ?_, ?_⟩
            · simp [Watched.handle, World.handle, hsent, hmessage]
            · simpa [Watched.handle, World.handle] using hfits
        · cases hi
    | false =>
        simp only [Watched.handle, hbegins, Bool.false_eq_true, if_false] at hi
        obtain ⟨m, hm, hfits⟩ := h key' i hi
        refine ⟨m, hchat i m hm, ?_⟩
        simpa [Watched.handle, World.handle, cmdAflat_record hbegins] using hfits
  · have hold : v.asking key' = some i := by
      simp only [Watched.handle] at hi
      split at hi
      · rwa [Function.update_of_ne hkey] at hi
      · exact hi
    obtain ⟨m, hm, hfits⟩ := h key' i hold
    refine ⟨m, hchat i m hm, ?_⟩
    simpa [Watched.handle, World.handle, Function.update_of_ne hkey] using hfits

/-- A tap on Confirm or Cancel closes the message and empties the record. -/
theorem handle_not_picks {r : Record} {c : Callback} {result : Option CommandResult}
    (h : c.picks = false) :
    (c.handle result r).record = .empty ∧
      ∀ next ∈ (c.handle result r).message, next.buttons = [] := by
  cases c with
  | confirm =>
      simp only [Callback.handle, cbAflat]
      cases r.aflatTarget with
      | none => simp
      | some target => simp
  | cancel => simp [Callback.handle, cbAflat]
  | _ => cases h

omit [DecidableEq κ] in
theorem World.getElem?_edit {w : World κ} {i j : Nat} {message : Option Message} {edited : Bool}
    {m : Message} (h : w.chat[j]? = some m) :
    (w.edit i message edited)[j]? = some m ∨
      i = j ∧ ∃ next ∈ message, (w.edit i message edited)[j]? = some next := by
  unfold World.edit
  split
  · next next =>
      by_cases hij : i = j
      · subst hij
        have hi := (List.getElem?_eq_some_iff.mp h).1
        exact .inr ⟨rfl, next, rfl, by rw [List.getElem?_set_self hi]⟩
      · exact .inl (by rw [List.getElem?_set_ne hij, h])
  · exact .inl h

theorem Watched.Kept.handle_tap {v : Watched κ} {key : κ} {i b : Nat}
    {result : Option CommandResult} {edited : Bool} (h : v.Kept) :
    (v.handle (.tap key i b result edited)).Kept := by
  intro key' j hj
  cases hbutton : v.world.button i b with
  | none =>
      simp only [Watched.handle, hbutton, Option.any_none, Bool.false_eq_true, if_false] at hj
      simp only [Watched.handle, World.handle, hbutton]
      exact h key' j hj
  | some mb =>
      obtain ⟨tapped, button⟩ := mb
      obtain ⟨htapped, hmem⟩ := World.button_eq_some hbutton
      simp only [Watched.handle, World.handle, hbutton, Option.any_some] at hj ⊢
      cases hpicks : button.callback.picks with
      | true =>
          rw [hpicks, if_pos rfl, Option.filter_eq_some_iff] at hj
          obtain ⟨hj, hsame⟩ := hj
          obtain ⟨m, hm, hfits⟩ := h key' j hj
          by_cases hkey : key' = key
          · subst hkey
            have hij : j = i := by simpa using hsame
            subst hij
            rw [htapped] at hm
            cases hm
            obtain ⟨hstays, hnext⟩ := @Record.Fits.pick _ _ _ result hfits hmem hpicks
            rw [Function.update_self]
            rcases World.getElem?_edit htapped with hm | ⟨-, next, hmessage, hm⟩
            · exact ⟨_, hm, hstays⟩
            · exact ⟨_, hm, hnext next hmessage⟩
          · have hij : i ≠ j := by
              rintro rfl
              simp [hkey] at hsame
            rw [Function.update_of_ne hkey]
            rcases World.getElem?_edit hm with hm | ⟨heq, -⟩
            · exact ⟨_, hm, hfits⟩
            · exact absurd heq hij
      | false =>
          rw [hpicks, if_neg Bool.false_ne_true] at hj
          obtain ⟨m, hm, hfits⟩ := h key' j hj
          obtain ⟨hrecord, hclosed⟩ :=
            @handle_not_picks (v.world.records key) _ result hpicks
          have hfits' : (Function.update v.world.records key
              (button.callback.handle result (v.world.records key)).record key').Fits m := by
            by_cases hkey : key' = key
            · subst hkey
              rw [Function.update_self, hrecord]
              exact hfits.empty
            · rwa [Function.update_of_ne hkey]
          rcases World.getElem?_edit hm with hm | ⟨-, next, hmessage, hm⟩
          · exact ⟨_, hm, hfits'⟩
          · exact ⟨_, hm, Record.fits_of_no_buttons (hclosed next hmessage)⟩

theorem Watched.Kept.handle {v : Watched κ} {e : Event κ} (h : v.Kept) : (v.handle e).Kept := by
  cases e with
  | aflat => exact h.handle_aflat
  | tap => exact h.handle_tap

/-- A call in hand names what its message names. -/
theorem Watched.Kept.names {v : Watched κ} {e : Event κ} (h : v.Kept) (he : v.InHand e)
    (hcalls : ∀ c ∈ v.world.flats, c.tapped.shown.names = some c.request) :
    ∀ c ∈ (v.world.handle e).flats, c.tapped.shown.names = some c.request := by
  cases e with
  | aflat => exact hcalls
  | tap key i b result edited =>
      intro c hc
      simp only [World.handle] at hc
      split at hc
      · exact hcalls c hc
      · next tapped button hbutton =>
          rw [List.mem_append, Option.mem_toList, Option.map_eq_some_iff] at hc
          rcases hc with hc | ⟨request, hflat, rfl⟩
          · exact hcalls c hc
          · obtain ⟨hconfirm, target, ht, rfl⟩ := flat_eq_some_iff.mp hflat
            have hasking : v.asking key = some i := by
              refine he ?_ (by simp [ht])
              rw [hbutton, Option.any_some, hconfirm]
              rfl
            obtain ⟨htapped, hmem⟩ := World.button_eq_some hbutton
            obtain ⟨m, hm, hfits⟩ := h key i hasking
            rw [htapped] at hm
            cases hm
            -- a message with a Confirm button is a prompt
            cases hfits with
            | scope buttons =>
                have := (buttons button hmem).1
                rw [hconfirm] at this
                cases this
            | account buttons =>
                obtain ⟨n, hn⟩ := buttons button hmem
                rw [hconfirm] at hn
                cases hn
            | confirm _ holds => exact names_of_holds (holds target ht)

end Runs

/-! ## Two runs -/

namespace Sample

def accounts : List ListedAccount :=
  [⟨"1", .crypto, some "BINANCE", none⟩, ⟨"2", .crypto, some "BINANCE", none⟩,
    ⟨"2", .forex, some "MT5", none⟩]

/-- `/aflat 1`, `/aflat 2` with one account of that id, then Confirm on the first prompt. -/
def crossed : List (Event Unit) :=
  [.aflat () "1" (some (accounts.take 2)) none true,
    .aflat () "2" (some (accounts.take 2)) none true, .tap () 0 0 none true]

/-- One admin picks a scope and confirms it while another picks one of two accounts. -/
def apart : List (Event Bool) :=
  [.aflat true "" none (some [⟨"trend", by decide⟩]) true,
    .aflat false "2" (some accounts) none true,
    .tap true 0 1 none true, .tap false 1 1 none true, .tap true 0 2 none true,
    .tap true 0 0 none true, .tap false 1 0 none true, .tap true 0 0 none true]

end Sample

end TradingBroker.Bot
