import TradingBroker.Lib.Debt
import TradingBroker.Settings.Service

/-!
# Any number of commands over one database

Every `/prevent`, `/allow`, `/maxorders` and every change of the global default
is a party of its own, run once or again and again, and between two repository
or publish calls of one any other may move. Messages reach a worker in the order
they are published; what a worker runs on is what its messages say.

The machine is `Lib.Machine` with a party for each command that is ever given,
so there is no bound on how many run at once. An answer may be a failure, and a
party may be killed between two calls; a run in which neither happens is a
special case (`Succeeds`). A worker without messages runs on the block it got at
its handshake.
-/

namespace TradingBroker.Settings

open TradingBroker.Lib

/-- The database, and everything published so far, oldest first. -/
structure Broker where
  accounts : List Account
  settings : String → Option String
  published : List Outgoing

inductive Request where
  | prevent (id : Nat) (enabled : Bool)
  | maxOpenOrders (id : Nat) (value : Option Nat)
  | globalMaxOpenOrders (value : Nat)

def byId (accounts : List Account) (id : Nat) : Option Account :=
  accounts.find? fun a => a.id == id

/-- `settings = settings || patch` on the row. -/
def Account.merge (id : Nat) (patch : PyStr × Json) (a : Account) : Account :=
  if a.id = id then { a with settings := concatJsonb a.settings (.obj [patch]) } else a

def Broker.updateSettings (s : Broker) (id : Nat) (patch : PyStr × Json) : Broker :=
  { s with accounts := s.accounts.map (Account.merge id patch) }

def respond (x : Outcome) (s : Broker) : (c : Call) → c.Result
  | .updateSettings id patch =>
      if x = .ok then (byId (s.updateSettings id patch).accounts id).map Account.settings
      else none
  | .getSetting key => if x = .ok then s.settings key else none
  | .setSetting _ _ => x == .ok
  | .getAll => if x = .ok then s.accounts else []
  | .sendMessage _ => x == .ok
  | .publish _ => if x = .ok then .ok () else .error .unavailable

def effect (x : Outcome) (s : Broker) (c : Call) : Broker :=
  if x = .failed then s
  else
    match c with
    | .updateSettings id patch => s.updateSettings id patch
    | .setSetting key value => { s with settings := Function.update s.settings key (some value) }
    | .publish m => { s with published := s.published ++ [m] }
    | _ => s

/-- The endpoint a request goes to; the account is the row the caller's link
leads to. -/
def serve (co : Coercions) (s : Broker) : Request → Option (Prog Unit)
  | .prevent id enabled =>
      (byId s.accounts id).map fun a => do
        let _ ← prevent a enabled
        pure ()
  | .maxOpenOrders id value =>
      (byId s.accounts id).map fun a => do
        let _ ← setMaxOpenOrders co a value
        pure ()
  | .globalMaxOpenOrders value => some do
      let _ ← setGlobalMaxOpenOrders co value
      pure ()

abbrev World := Pool Nat Unit Broker Call Call.Result Fault

abbrev Step := Label Nat Unit Outcome Request Call

def commands (co : Coercions) : Machine Nat Unit Broker Outcome Request Call Call.Result Fault where
  exec _ _ c x s := some (respond x s c, effect x s c)
  start _ e s := (serve co s e).map fun p => ((), p, s)
  env _ _ := none
  crash _ _ _ := none

/-- Nothing is running. -/
def idle (s : Broker) : World := ⟨s, fun _ => ((), .pure ())⟩

/-! ## The worker -/

/-- What the account's worker does with a message. -/
def AccountSettings.apply (account : Account) (w : AccountSettings) : Outgoing → AccountSettings
  | .admin subject action =>
      if some subject = account.gateway.map
          (composeAdminSubject account.market · account.accountId) then
        match action with
        | .blockSignal => { w with signalBlocked := true }
        | .allowSignal => { w with signalBlocked := false }
        | .flat => w
      else w
  | .settingsUpdate accountId settings =>
      if some accountId = account.gateway.map
          (composeWorkerId account.market · account.accountId) then settings
      else w

/-- What it runs on after the messages. -/
def workerSettings (account : Account) (w : AccountSettings) (messages : List Outgoing) :
    AccountSettings :=
  messages.foldl (AccountSettings.apply account) w

/-- What the stored row says. -/
def rowSettings (co : Coercions) (s : Broker) (id : Nat) : AccountSettings :=
  match byId s.accounts id with
  | some row => parseAccountSettings co row.settings
  | none => {}

/-- `resolve_account_settings` of the stored row and the stored default. -/
def storedSettings (co : Coercions) (s : Broker) (id : Nat) : AccountSettings :=
  resolveAccountSettings (rowSettings co s id)
    (parseGlobalMaxOpenOrders (s.settings maxOpenOrdersKey))

end TradingBroker.Settings
