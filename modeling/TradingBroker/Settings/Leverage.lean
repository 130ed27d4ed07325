import TradingBroker.Handshake.Caches
import TradingBroker.Settings.Service

/-!
# Pushing the crypto leverage

An admin who changes the allowed symbols or the leverage of crypto has both pushed to the crypto
workers that are connected. The request stores its own value, reads the two settings back in one
query, and then publishes to one account after the other, while other admins do the same.

A push is as the handshake would answer at some time after the request's own write, to an account
that was on file later still; and a request whose database calls all went well has told every
such account once, in the order of one query, or nobody where the handshake would refuse. Which
of two requests publishes last is not said: each may have read before the other wrote, and a
worker keeps what reaches it last.

The state keeps every change of the database, which calls failed and who serves which
request: nothing in the code reads these, and what is promised is a statement about them.
`Saw` and `Listed` are the two reads in the order in which the request makes them, so that
a push is true of one moment after the write for the values, and of a later one for the
accounts. As all this is about the past, nothing that others do can undo it
(`Office.Grows`), and the coroutine is verified with others at work between any two of its
awaits.
-/

namespace TradingBroker.Settings.Leverage

open TradingBroker.Lib
open TradingBroker.Handshake (CryptoLeverageConfig CryptoSettings cryptoAllowedSymbolKey
  cryptoMaxLeverageKey leverageOf splitSymbols)

/-! ## The endpoints -/

/-- A crypto account, as far as the push reads it. -/
structure CryptoAccount where
  accountId : String
  gateway : Option String

/-- A `CRYPTO_LEVERAGE_INIT`. -/
structure Push where
  workerId : String
  leverage : CryptoLeverageConfig

inductive Call where
  | setSetting (key value : String)
  | sendMessage (text : String)
  | getMany (keys : List String)
  | getByMarket (market : MarketType)
  | publishSystemSignal (p : Push)

abbrev Call.Result : Call → Type
  | .setSetting _ _ => Bool
  | .sendMessage _ => Bool
  | .getMany _ => List (String × String)
  | .getByMarket _ => List CryptoAccount
  | .publishSystemSignal _ => Except Fault Unit

abbrev Prog := Coro Call Call.Result Fault

/-- The address an account has on the bus, if its gateway is known. -/
def CryptoAccount.workerId (a : CryptoAccount) : Option String :=
  match a.gateway with
  | none => none
  | some gateway =>
      if gateway = "" then none else some (composeWorkerId .crypto gateway a.accountId)

/-- The loop of `_push_crypto_leverage_init`: a publish that fails is logged. -/
def pushToEach (leverage : CryptoLeverageConfig) : List CryptoAccount → Prog Unit
  | [] => .pure ()
  | a :: accounts =>
      match a.workerId with
      | none => pushToEach leverage accounts
      | some workerId =>
          .call (.publishSystemSignal ⟨workerId, leverage⟩) fun _ => pushToEach leverage accounts

/-- `_push_crypto_leverage_init` -/
def pushCryptoLeverageInit : Prog Unit :=
  .call (.getMany [cryptoAllowedSymbolKey, cryptoMaxLeverageKey]) fun values =>
    match values.lookup cryptoAllowedSymbolKey, values.lookup cryptoMaxLeverageKey with
    | some symbolsRaw, some leverageRaw =>
        let symbols := splitSymbols symbolsRaw
        match pyInt leverageRaw with
        | none => .pure ()
        | some defaultLeverage =>
            if defaultLeverage ≤ 0 then .pure ()
            else
              .call (.getByMarket .crypto) fun accounts =>
                pushToEach { symbols, defaultLeverage } accounts
    | _, _ => .pure ()

def changedText (key what value : String) : String :=
  "⚙️ <b>Broker setting changed</b>\nSetting: <code>" ++ key ++ "</code>\n" ++ what ++
    ": <b>" ++ value ++ "</b>\n"

/-- What both endpoints do with a value. -/
def store (key what value : String) : Prog SettingValueResponse :=
  .call (.setSetting key value) fun ok =>
    if ok then
      .call (.sendMessage (changedText key what value)) fun _ => do
        pushCryptoLeverageInit
        pure ⟨key, value⟩
    else .raise (.http 500 "Failed to update broker setting")

/-- `upper` is `str.upper`. The list is `dict.fromkeys` of what is left. -/
def allowedSymbols (upper : String → String) (symbols : List String) : List String :=
  ((symbols.filter fun s => stripped s ≠ "").map fun s => upper (stripped s)).eraseDups

def setCryptoAllowedSymbol (upper : String → String) (symbols : List String) :
    Prog SettingValueResponse :=
  if allowedSymbols upper symbols = [] then
    .raise (.http 422 "symbols must contain at least one non-empty value")
  else store cryptoAllowedSymbolKey "Symbols" (",".intercalate (allowedSymbols upper symbols))

/-- The request's model lets only a positive leverage in. -/
def setCryptoMaxLeverage (defaultLeverage : { n : Int // 0 < n }) : Prog SettingValueResponse :=
  store cryptoMaxLeverageKey "Default leverage" (toString defaultLeverage.val)

/-! ## Admins at once -/

inductive Request where
  | symbols (names : List String)
  | leverage (defaultLeverage : { n : Int // 0 < n })

def serve (upper : String → String) : Request → Prog SettingValueResponse
  | .symbols names => setCryptoAllowedSymbol upper names
  | .leverage defaultLeverage => setCryptoMaxLeverage defaultLeverage

/-- The setting the request stores, unless it is refused. -/
def Request.writes (upper : String → String) : Request → Option (String × String)
  | .symbols names =>
      if allowedSymbols upper names = [] then none
      else some (cryptoAllowedSymbolKey, ",".intercalate (allowedSymbols upper names))
  | .leverage defaultLeverage => some (cryptoMaxLeverageKey, toString defaultLeverage.val)

/-- The database at a time, the crypto accounts as the query orders them. -/
structure Moment where
  settings : String → Option String
  accounts : List CryptoAccount

/-- A request with its number, and how many changes of the database were before it. -/
structure Asked where
  serial : Nat
  began : Nat
  request : Request

/-- `past` is what the database has been, oldest first; `holder` is who serves which request;
`sent` are the publishes, with how they went; `failed` are the requests that had a database call
fail. -/
structure Office where
  past : List Moment
  now : Moment
  served : Nat
  holder : Nat → Nat
  sent : List (Asked × Push × Outcome)
  failed : List Nat

inductive Event where
  | request (r : Request)
  | set (key value : String)
  | accounts (accounts : List CryptoAccount)

namespace Office

variable (s : Office)

def changed (m : Moment) : Office := { s with past := s.past ++ [s.now], now := m }

def written (key value : String) : Office :=
  s.changed { s.now with settings := Function.update s.now.settings key (some value) }

/-- The database so far, the present last. -/
def history : List Moment := s.past ++ [s.now]

def respond (x : Outcome) : (c : Call) → c.Result
  | .setSetting _ _ => x == .ok
  | .sendMessage _ => x == .ok
  | .getMany keys =>
      if x = .ok then keys.filterMap fun key => (s.now.settings key).map fun v => (key, v) else []
  | .getByMarket _ => if x = .ok then s.now.accounts else []
  | .publishSystemSignal _ => if x = .ok then .ok () else .error .unavailable

/-- A database call that fails is remembered. -/
def noted (a : Asked) (x : Outcome) : Office :=
  if x = .ok then s else { s with failed := a.serial :: s.failed }

def effect (a : Asked) (x : Outcome) : Call → Office
  | .setSetting key value => (if x = .failed then s else s.written key value).noted a x
  | .sendMessage _ => s
  | .getMany _ => s.noted a x
  | .getByMarket _ => s.noted a x
  | .publishSystemSignal p => { s with sent := s.sent ++ [(a, p, x)] }

def change : Event → Option Office
  | .request _ => none
  | .set key value => some (s.written key value)
  | .accounts accounts => some (s.changed { s.now with accounts })

/-- Nobody has asked for anything. -/
def opened (m : Moment) : Office := ⟨[], m, 0, fun _ => 0, [], []⟩

end Office

/-- The requests, each with what it was asked; a server has none at first. -/
def admin (upper : String → String) :
    Machine Nat (Option Asked) Office Outcome Event Call Call.Result Fault where
  exec _ k c x s := k.map fun a => (s.respond x c, s.effect a x c)
  start i e s :=
    match e with
    | .request r =>
        some (some ⟨s.served, s.past.length, r⟩, serve upper r >>= fun _ => .pure (),
          { s with served := s.served + 1, holder := Function.update s.holder s.served i })
    | _ => none
  env e s := s.change e
  crash _ _ _ := none

def quiet (s : Office) : Pool Nat (Option Asked) Office Call Call.Result Fault :=
  ⟨s, fun _ => (none, .pure ())⟩

/-! ## What is promised -/

/-- The two settings as the handshake reads them. -/
def Moment.crypto (m : Moment) : CryptoSettings :=
  (m.settings cryptoAllowedSymbolKey, m.settings cryptoMaxLeverageKey)

/-- The crypto workers that have an address, in the order of the query. -/
def addresses (accounts : List CryptoAccount) : List String :=
  accounts.filterMap CryptoAccount.workerId

namespace Office

variable (upper : String → String) (s : Office) (a : Asked)

/-- The `n`-th change came after the request, and left the value it stores. -/
def Wrote (n : Nat) : Prop :=
  a.began < n ∧ ∃ m key value, s.history[n]? = some m ∧
    a.request.writes upper = some (key, value) ∧ m.settings key = some value

/-- At a time after its write the settings were these. -/
def Saw (values : CryptoSettings) (m : Nat) : Prop :=
  ∃ n x, s.Wrote upper a n ∧ n ≤ m ∧ s.history[m]? = some x ∧ x.crypto = values

/-- And at a later one the accounts were these. -/
def Listed (leverage : CryptoLeverageConfig) (accounts : List CryptoAccount) : Prop :=
  ∃ values m l y, s.Saw upper a values m ∧ leverageOf values = .ok leverage ∧ m ≤ l ∧
    s.history[l]? = some y ∧ y.accounts = accounts

/-- What is pushed to a worker was stored after the request's own write, and the worker
was on file later still. -/
def Truthful (p : Push) : Prop :=
  ∃ accounts, s.Listed upper a p.leverage accounts ∧ p.workerId ∈ addresses accounts

/-- What the request has published, or tried to. -/
def own : List Push :=
  s.sent.filterMap fun e => if e.1.serial = a.serial then some e.2.1 else none

/-- A request that is over: nothing was published, and a database call had failed or
there was nothing to store or the handshake would refuse; or each worker was told once,
in the order of the query. -/
def Finished : Prop :=
  (s.own a = [] ∧ (a.serial ∈ s.failed ∨ a.request.writes upper = none ∨
    ∃ values m e, s.Saw upper a values m ∧ leverageOf values = .error e)) ∨
  ∃ leverage accounts, s.Listed upper a leverage accounts ∧
    s.own a = (addresses accounts).map fun workerId => ⟨workerId, leverage⟩

/-- `i` serves the request. -/
def Holds (i : Nat) : Prop := a.serial < s.served ∧ s.holder a.serial = i

end Office

/-! ## What the others do -/

/-- The past is only added to. -/
structure Office.Grows (s s' : Office) : Prop where
  history : s.history <+: s'.history
  failed : s.failed ⊆ s'.failed
  served : s.served ≤ s'.served
  holder : ∀ n < s.served, s'.holder n = s.holder n

/-- And what a request of `i`'s has published stays as it is. -/
structure Office.Apart (i : Nat) (s s' : Office) : Prop where
  grows : s.Grows s'
  own : ∀ a, s.Holds a i → s'.own a = s.own a

section
variable {upper : String → String} {s s' : Office} {a : Asked} {i n : Nat}

theorem Office.Grows.refl (s : Office) : s.Grows s :=
  ⟨List.prefix_rfl, fun _ h => h, le_refl _, fun _ _ => rfl⟩

theorem Office.Grows.trans {s'' : Office} (h : s.Grows s') (h' : s'.Grows s'') : s.Grows s'' :=
  ⟨h.history.trans h'.history, fun _ hx => h'.failed (h.failed hx), h.served.trans h'.served,
    fun n hn => (h'.holder n (lt_of_lt_of_le hn h.served)).trans (h.holder n hn)⟩

theorem Office.Grows.at_ (h : s.Grows s') {m : Moment} (hm : s.history[n]? = some m) :
    s'.history[n]? = some m := by
  obtain ⟨rest, hrest⟩ := h.history
  obtain ⟨hlt, -⟩ := List.getElem?_eq_some_iff.1 hm
  rw [← hrest, List.getElem?_append_left hlt, hm]

theorem Office.Grows.past (h : s.Grows s') : s.past.length ≤ s'.past.length := by
  have hlength := h.history.length_le
  simp only [Office.history, List.length_append, List.length_singleton] at hlength
  omega

theorem Office.Holds.grows (h : s.Grows s') (hs : s.Holds a i) : s'.Holds a i :=
  ⟨lt_of_lt_of_le hs.1 h.served, (h.holder _ hs.1).trans hs.2⟩

theorem Office.Wrote.grows (h : s.Grows s') (hs : s.Wrote upper a n) : s'.Wrote upper a n := by
  obtain ⟨hn, m, key, value, hm, hrest⟩ := hs
  exact ⟨hn, m, key, value, h.at_ hm, hrest⟩

theorem Office.Saw.grows {values : CryptoSettings} {m : Nat} (h : s.Grows s')
    (hs : s.Saw upper a values m) : s'.Saw upper a values m := by
  obtain ⟨n, x, hn, hle, hx, hvalues⟩ := hs
  exact ⟨n, x, hn.grows h, hle, h.at_ hx, hvalues⟩

theorem Office.Listed.grows {leverage : CryptoLeverageConfig} {accounts : List CryptoAccount}
    (h : s.Grows s') (hs : s.Listed upper a leverage accounts) :
    s'.Listed upper a leverage accounts := by
  obtain ⟨values, m, l, y, hsaw, hok, hle, hy, haccounts⟩ := hs
  exact ⟨values, m, l, y, hsaw.grows h, hok, hle, h.at_ hy, haccounts⟩

theorem Office.Truthful.grows {p : Push} (h : s.Grows s') (hs : s.Truthful upper a p) :
    s'.Truthful upper a p := by
  obtain ⟨accounts, hlisted, hmem⟩ := hs
  exact ⟨accounts, hlisted.grows h, hmem⟩

theorem Office.Finished.apart (h : s.Apart i s') (hi : s.Holds a i)
    (hs : s.Finished upper a) : s'.Finished upper a := by
  rcases hs with ⟨hown, hwhy⟩ | ⟨leverage, accounts, hlisted, hown⟩
  · refine .inl ⟨(h.own a hi).trans hown, ?_⟩
    rcases hwhy with hfailed | hwrites | ⟨values, m, e, hsaw, he⟩
    · exact .inl (h.grows.failed hfailed)
    · exact .inr (.inl hwrites)
    · exact .inr (.inr ⟨values, m, e, hsaw.grows h.grows, he⟩)
  · exact .inr ⟨leverage, accounts, hlisted.grows h.grows, (h.own a hi).trans hown⟩

/-! ## One move -/

theorem grows_changed (s : Office) (m : Moment) : s.Grows (s.changed m) :=
  ⟨List.prefix_append _ _, fun _ h => h, le_refl _, fun _ _ => rfl⟩

theorem grows_noted (s : Office) (a : Asked) (x : Outcome) : s.Grows (s.noted a x) := by
  rw [Office.noted]
  split
  · exact .refl s
  · exact ⟨List.prefix_rfl, List.subset_cons_self _ _, le_refl _, fun _ _ => rfl⟩

theorem grows_effect (s : Office) (a : Asked) (x : Outcome) (c : Call) :
    s.Grows (s.effect a x c) := by
  cases c with
  | setSetting key value =>
      simp only [Office.effect]
      refine .trans ?_ (grows_noted _ a x)
      split
      · exact .refl s
      · exact grows_changed s _
  | sendMessage text => exact .refl s
  | getMany keys => exact grows_noted s a x
  | getByMarket market => exact grows_noted s a x
  | publishSystemSignal p =>
      exact ⟨List.prefix_rfl, fun _ h => h, le_refl _, fun _ _ => rfl⟩

theorem sent_noted (s : Office) (a : Asked) (x : Outcome) : (s.noted a x).sent = s.sent := by
  rw [Office.noted]
  split <;> rfl

/-- Only a publish adds to what was sent, and only to its own request's. -/
theorem sent_effect (s : Office) (b : Asked) (x : Outcome) (c : Call) :
    (s.effect b x c).sent = s.sent ∨
      ∃ p, c = .publishSystemSignal p ∧ (s.effect b x c).sent = s.sent ++ [(b, p, x)] := by
  cases c with
  | setSetting key value =>
      left
      rw [Office.effect, sent_noted]
      split <;> rfl
  | sendMessage text => exact .inl rfl
  | getMany keys => exact .inl (sent_noted s b x)
  | getByMarket market => exact .inl (sent_noted s b x)
  | publishSystemSignal p => exact .inr ⟨p, rfl, rfl⟩

theorem own_effect {b : Asked} (x : Outcome) (c : Call) (h : b.serial ≠ a.serial) :
    (s.effect b x c).own a = s.own a := by
  rcases sent_effect s b x c with hsent | ⟨p, -, hsent⟩
  · rw [Office.own, hsent, Office.own]
  · rw [Office.own, hsent, List.filterMap_append, Office.own]
    simp [h]

theorem change_cases {e : Event} (h : s.change e = some s') : ∃ m, s' = s.changed m := by
  cases e with
  | request r => cases h
  | set key value => exact ⟨_, (Option.some.inj h).symm⟩
  | accounts accounts => exact ⟨_, (Option.some.inj h).symm⟩

/-- A request that comes. -/
def Office.received (s : Office) (i : Nat) : Office :=
  { s with served := s.served + 1, holder := Function.update s.holder s.served i }

theorem grows_received (s : Office) (i : Nat) : s.Grows (s.received i) := by
  refine ⟨List.prefix_rfl, fun _ h => h, Nat.le_succ _, fun n hn => ?_⟩
  exact Function.update_of_ne (Nat.ne_of_lt hn) _ _

/-- What a move does to the office. -/
theorem admin_act {l : Label Nat (Option Asked) Outcome Event Call}
    (h : (admin upper).act l s = some s') :
    (∃ j b c x, l = .call j (some b) c x ∧ s' = s.effect b x c) ∨
      (∃ j, s' = s.received j) ∨ ∃ m, s' = s.changed m := by
  cases l with
  | call j k c x =>
      cases k with
      | none => cases h
      | some b =>
          cases h
          exact .inl ⟨j, b, c, x, rfl, rfl⟩
  | start j e =>
      cases e with
      | request r =>
          cases h
          exact .inr (.inl ⟨j, rfl⟩)
      | set key value => cases h
      | accounts accounts => cases h
  | env e => exact .inr (.inr (change_cases h))
  | crash j k => cases h

theorem grows_act {l : Label Nat (Option Asked) Outcome Event Call}
    (h : (admin upper).act l s = some s') : s.Grows s' := by
  rcases admin_act h with ⟨_, b, c, x, -, rfl⟩ | ⟨j, rfl⟩ | ⟨m, rfl⟩
  · exact grows_effect s b x c
  · exact grows_received s j
  · exact grows_changed s m

/-! ## The contract -/

/-- A call is made by who holds the request, and what is published is true. -/
def callAllowed (upper : String → String) (i : Nat) (k : Option Asked) (c : Call) (s : Office) :
    Prop :=
  ∃ a, k = some a ∧ s.Holds a i ∧ ∀ p, c = .publishSystemSignal p → s.Truthful upper a p

def Sound (upper : String → String) (s : Office) : Prop :=
  ∀ e ∈ s.sent, e.1.serial < s.served ∧ s.Truthful upper e.1 e.2.1

def adminContract (upper : String → String) : Contract (admin upper) where
  inv := Sound upper
  pre i k c s := callAllowed upper i k c s
  post i k s := ∀ a, k = some a → s.Holds a i ∧ s.Finished upper a
  keeps := by
    intro s l s' hs hl h
    have hgrows := grows_act h
    have hold : ∀ e ∈ s.sent, e.1.serial < s'.served ∧ s'.Truthful upper e.1 e.2.1 :=
      fun e he => ⟨lt_of_lt_of_le (hs e he).1 hgrows.served, (hs e he).2.grows hgrows⟩
    rcases admin_act h with ⟨j, b, c, x, rfl, rfl⟩ | ⟨j, rfl⟩ | ⟨m, rfl⟩
    · obtain ⟨a, ha, hholds, htrue⟩ := hl
      cases ha
      rcases sent_effect s b x c with hsent | ⟨p, hc, hsent⟩
      · intro e he
        exact hold e (hsent ▸ he)
      · intro e he
        rw [hsent, List.mem_append, List.mem_singleton] at he
        rcases he with he | rfl
        · exact hold e he
        · exact ⟨(hholds.grows hgrows).1, (htrue p hc).grows hgrows⟩
    · exact hold
    · exact hold

theorem apart_of_interferes (h : (adminContract upper).Interferes i s s') : s.Apart i s' := by
  obtain ⟨-, -, l, hl, hallowed, hact⟩ := h
  refine ⟨grows_act hact, fun a ha => ?_⟩
  rcases admin_act hact with ⟨j, b, c, x, rfl, rfl⟩ | ⟨j, rfl⟩ | ⟨m, rfl⟩
  · obtain ⟨b', hb, hholds, -⟩ := hallowed
    cases hb
    refine own_effect x c fun heq => hl ?_
    -- two requests of one number have one holder
    rw [Label.party, ← ha.2, ← heq, hholds.2]
  · rfl
  · rfl

theorem stable_of_apart {F : Office → Prop} (hF : ∀ s s', s.Apart i s' → F s → F s') :
    (adminContract upper).Stable i F :=
  fun s s' h hs => hF s s' (apart_of_interferes h) hs

/-! ## A request keeps it -/

abbrev Keeps (upper : String → String) (i : Nat) (a : Asked) {α : Type} (P : Office → Prop)
    (p : Prog α) : Prop :=
  (adminContract upper).Spec i (some a) P p (fun _ s => s.Holds a i ∧ s.Finished upper a)
    fun _ s => s.Holds a i ∧ s.Finished upper a

theorem stable_finished :
    (adminContract upper).Stable i fun s => s.Holds a i ∧ s.Finished upper a :=
  stable_of_apart fun _ _ h hs => ⟨hs.1.grows h.grows, hs.2.apart h hs.1⟩

section
variable {α : Type} {P : Office → Prop}

theorem keeps_pure (r : α) (hP : ∀ s, P s → s.Holds a i ∧ s.Finished upper a) :
    Keeps upper i a P (.pure r) :=
  .pure stable_finished fun s _ hs => hP s hs

theorem keeps_raise (e : Fault) (hP : ∀ s, P s → s.Holds a i ∧ s.Finished upper a) :
    Keeps upper i a P (.raise e : Prog α) :=
  .raise stable_finished fun s _ hs => hP s hs

/-- A call, with what is known once it is answered. -/
theorem keeps_call {c : Call} {f : c.Result → Prog α} (P' : c.Result → Office → Prop)
    (hP : ∀ s s', s.Apart i s' → P s → P s') (hholds : ∀ s, P s → s.Holds a i)
    (htrue : ∀ s p, P s → c = .publishSystemSignal p → s.Truthful upper a p)
    (hread : ∀ s x, P s → P' (s.respond x c) (s.effect a x c))
    (hf : ∀ r, Keeps upper i a (P' r) (f r)) : Keeps upper i a P (.call c f) := by
  refine Contract.Spec.call P' (stable_of_apart hP) ?_ ?_ hf
  · exact fun s _ hs => ⟨a, rfl, hholds s hs, fun p hc => htrue s p hs hc⟩
  · intro s x r s' _ hs hexec _
    cases hexec
    exact hread s x hs

end

theorem own_publish (p : Push) (x : Outcome) :
    (s.effect a x (.publishSystemSignal p)).own a = s.own a ++ [p] := by
  simp [Office.effect, Office.own, List.filterMap_append]

theorem own_noted (x : Outcome) : (s.noted a x).own a = s.own a := by
  rw [Office.own, sent_noted, Office.own]

theorem failed_noted {x : Outcome} (hx : x ≠ .ok) : a.serial ∈ (s.noted a x).failed := by
  rw [Office.noted, if_neg hx]
  exact List.mem_cons_self

/-- The accounts the loop has passed have been told. -/
def Telling (upper : String → String) (a : Asked) (i : Nat) (leverage : CryptoLeverageConfig)
    (told left : List CryptoAccount) (s : Office) : Prop :=
  s.Holds a i ∧ s.Listed upper a leverage (told ++ left) ∧
    s.own a = (addresses told).map fun workerId => ⟨workerId, leverage⟩

theorem Telling.apart {leverage : CryptoLeverageConfig} {told left : List CryptoAccount}
    (h : s.Apart i s') (hs : Telling upper a i leverage told left s) :
    Telling upper a i leverage told left s' :=
  ⟨hs.1.grows h.grows, hs.2.1.grows h.grows, (h.own a hs.1).trans hs.2.2⟩

theorem addresses_concat (told : List CryptoAccount) (b : CryptoAccount) :
    addresses (told ++ [b]) = addresses told ++ b.workerId.toList := by
  rw [addresses, addresses, List.filterMap_append]
  cases h : b.workerId <;> simp [h]

theorem keeps_pushToEach (leverage : CryptoLeverageConfig) (told left : List CryptoAccount) :
    Keeps upper i a (Telling upper a i leverage told left) (pushToEach leverage left) := by
  induction left generalizing told with
  | nil =>
      refine keeps_pure () fun s hs => ⟨hs.1, .inr ⟨leverage, told, ?_, hs.2.2⟩⟩
      have hlisted := hs.2.1
      rwa [List.append_nil] at hlisted
  | cons b left ih =>
      have hsplit : told ++ b :: left = (told ++ [b]) ++ left := by
        rw [List.append_assoc, List.singleton_append]
      rw [pushToEach]
      split
      · next hb =>
          refine Contract.Spec.pre (ih (told ++ [b])) fun s _ hs => ⟨hs.1, ?_, ?_⟩
          · exact hsplit ▸ hs.2.1
          · rw [addresses_concat, hb, Option.toList_none, List.append_nil]
            exact hs.2.2
      · next workerId hb =>
          refine keeps_call (fun _ => Telling upper a i leverage (told ++ [b]) left)
            (fun _ _ h hs => hs.apart h) (fun s hs => hs.1) ?_ ?_ fun _ => ih (told ++ [b])
          · intro s p hs hp
            cases hp
            refine ⟨told ++ b :: left, hs.2.1, ?_⟩
            rw [addresses, List.filterMap_append, List.filterMap_cons, hb]
            exact List.mem_append_right _ List.mem_cons_self
          · intro s x hs
            have hgrows := grows_effect s a x (.publishSystemSignal ⟨workerId, leverage⟩)
            refine ⟨hs.1.grows hgrows, hsplit ▸ hs.2.1.grows hgrows, ?_⟩
            rw [own_publish, hs.2.2, addresses_concat, hb, Option.toList_some, List.map_append,
              List.map_singleton]

/-- The push, once the settings are read: it goes by what the handshake goes by. -/
def pushOf (values : CryptoSettings) : Prog Unit :=
  match leverageOf values with
  | .error _ => .pure ()
  | .ok leverage =>
      .call (.getByMarket .crypto) fun accounts => pushToEach leverage accounts

theorem pushCryptoLeverageInit_eq : pushCryptoLeverageInit =
    .call (.getMany [cryptoAllowedSymbolKey, cryptoMaxLeverageKey]) fun values =>
      pushOf (values.lookup cryptoAllowedSymbolKey, values.lookup cryptoMaxLeverageKey) := by
  rw [pushCryptoLeverageInit]
  congr 1
  funext values
  rw [pushOf]
  rcases values.lookup cryptoAllowedSymbolKey with _ | symbolsRaw <;>
    rcases values.lookup cryptoMaxLeverageKey with _ | leverageRaw <;>
    simp only [leverageOf]
  cases pyInt leverageRaw with
  | none => rfl
  | some defaultLeverage =>
      simp only []
      split <;> rfl

/-- Nothing has been published yet. -/
def Silent (a : Asked) (i : Nat) (s : Office) : Prop := s.Holds a i ∧ s.own a = []

theorem Silent.apart (h : s.Apart i s') (hs : Silent a i s) : Silent a i s' :=
  ⟨hs.1.grows h.grows, (h.own a hs.1).trans hs.2⟩

theorem Silent.noted (hs : Silent a i s) (x : Outcome) : Silent a i (s.noted a x) :=
  ⟨hs.1.grows (grows_noted s a x), (own_noted x).trans hs.2⟩

theorem Silent.finished (hs : Silent a i s) (h : a.serial ∈ s.failed) :
    s.Holds a i ∧ s.Finished upper a := ⟨hs.1, .inl ⟨hs.2, .inl h⟩⟩

theorem history_now (s : Office) : s.history[s.past.length]? = some s.now := by
  simp [Office.history]

/-- Nothing is later than the present. -/
theorem le_now {m : Moment} (h : s.history[n]? = some m) : n ≤ s.past.length := by
  obtain ⟨hlt, -⟩ := List.getElem?_eq_some_iff.1 h
  simp only [Office.history, List.length_append, List.length_singleton] at hlt
  omega

theorem Office.Wrote.le_now (h : s.Wrote upper a n) : n ≤ s.past.length := by
  obtain ⟨-, m, key, value, hm, -⟩ := h
  exact Leverage.le_now hm

theorem Office.Saw.le_now {values : CryptoSettings} {m : Nat} (h : s.Saw upper a values m) :
    m ≤ s.past.length := by
  obtain ⟨n, x, -, -, hx, -⟩ := h
  exact Leverage.le_now hx

theorem keeps_pushOf (values : CryptoSettings) :
    Keeps upper i a (fun s => Silent a i s ∧
      (a.serial ∈ s.failed ∧ values = (none, none) ∨ ∃ m, s.Saw upper a values m))
      (pushOf values) := by
  rw [pushOf]
  split
  · next e he =>
      refine keeps_pure () fun s hs => ?_
      rcases hs.2 with ⟨hfailed, -⟩ | ⟨m, hsaw⟩
      · exact hs.1.finished hfailed
      · exact ⟨hs.1.1, .inl ⟨hs.1.2, .inr (.inr ⟨values, m, e, hsaw, he⟩)⟩⟩
  · next leverage hok =>
      have hvalues : values ≠ (none, none) := by
        intro heq
        rw [heq] at hok
        cases hok
      refine keeps_call (fun accounts s => Silent a i s ∧
          (a.serial ∈ s.failed ∧ accounts = [] ∨ s.Listed upper a leverage accounts))
        ?_ (fun s hs => hs.1.1) (fun _ _ _ hc => by cases hc) ?_ fun accounts => ?_
      · intro s s' h hs
        refine ⟨hs.1.apart h, ?_⟩
        rcases hs.2 with ⟨hfailed, heq⟩ | ⟨m, hsaw⟩
        · exact .inl ⟨h.grows.failed hfailed, heq⟩
        · exact .inr ⟨m, hsaw.grows h.grows⟩
      · intro s x hs
        refine ⟨hs.1.noted x, ?_⟩
        obtain ⟨m, hsaw⟩ := hs.2.resolve_left fun h => hvalues h.2
        by_cases hx : x = .ok
        · subst hx
          exact .inr ⟨values, m, s.past.length, s.now, hsaw, hok, hsaw.le_now, history_now s, rfl⟩
        · exact .inl ⟨failed_noted hx, if_neg hx⟩
      · by_cases hnone : accounts = []
        · subst hnone
          refine keeps_pure () fun s hs => ?_
          rcases hs.2 with ⟨hfailed, -⟩ | hlisted
          · exact hs.1.finished hfailed
          · exact ⟨hs.1.1, .inr ⟨leverage, [], hlisted, hs.1.2⟩⟩
        · refine Contract.Spec.pre (keeps_pushToEach leverage [] accounts) fun s _ hs => ?_
          exact ⟨hs.1.1, hs.2.resolve_left fun h => hnone h.2, hs.1.2⟩

theorem keeps_push : Keeps upper i a (fun s => Silent a i s ∧ ∃ n, s.Wrote upper a n)
    pushCryptoLeverageInit := by
  rw [pushCryptoLeverageInit_eq]
  refine keeps_call (fun values s => Silent a i s ∧
      (a.serial ∈ s.failed ∧ (values.lookup cryptoAllowedSymbolKey,
        values.lookup cryptoMaxLeverageKey) = (none, none) ∨
        ∃ m, s.Saw upper a (values.lookup cryptoAllowedSymbolKey,
          values.lookup cryptoMaxLeverageKey) m))
    ?_ (fun s hs => hs.1.1) (fun _ _ _ hc => by cases hc) ?_ fun values => keeps_pushOf _
  · intro s s' h hs
    obtain ⟨n, hn⟩ := hs.2
    exact ⟨hs.1.apart h, n, hn.grows h.grows⟩
  · intro s x hs
    obtain ⟨n, hn⟩ := hs.2
    refine ⟨hs.1.noted x, ?_⟩
    by_cases hx : x = .ok
    · subst hx
      refine .inr ⟨s.past.length, n, s.now, hn, hn.le_now, history_now s, ?_⟩
      exact (Handshake.lookup_rows s.now.settings).symm
    · refine .inl ⟨failed_noted hx, ?_⟩
      simp [Office.respond, hx]

/-- Nothing has been published, and no change was after this one. -/
def Fresh (a : Asked) (i : Nat) (s : Office) : Prop := Silent a i s ∧ a.began ≤ s.past.length

/-- What is known once the value is stored, or not. -/
def Stored (upper : String → String) (a : Asked) (i : Nat) (ok : Bool) (s : Office) : Prop :=
  Silent a i s ∧ if ok then ∃ n, s.Wrote upper a n else a.serial ∈ s.failed

theorem Fresh.apart (h : s.Apart i s') (hs : Fresh a i s) : Fresh a i s' :=
  ⟨hs.1.apart h, hs.2.trans h.grows.past⟩

theorem Stored.apart {ok : Bool} (h : s.Apart i s') (hs : Stored upper a i ok s) :
    Stored upper a i ok s' := by
  refine ⟨hs.1.apart h, ?_⟩
  cases ok with
  | true =>
      obtain ⟨n, hn⟩ := hs.2
      exact ⟨n, hn.grows h.grows⟩
  | false => exact h.grows.failed hs.2

theorem own_setSetting (key value : String) (x : Outcome) :
    (s.effect a x (.setSetting key value)).own a = s.own a := by
  rw [Office.effect, own_noted]
  split <;> rfl

/-- A value that is stored is the last of the settings then. -/
theorem wrote_written {key value : String} (hs : Fresh a i s)
    (hwrites : a.request.writes upper = some (key, value)) :
    (s.written key value).Wrote upper a (s.past.length + 1) := by
  refine ⟨Nat.lt_succ_of_le hs.2, (s.written key value).now, key, value, ?_, hwrites,
    Function.update_self _ _ _⟩
  have hlength : (s.written key value).past.length = s.past.length + 1 := by
    simp [Office.written, Office.changed]
  rw [← hlength]
  exact history_now _

theorem stored_setSetting {key value : String} (hs : Fresh a i s)
    (hwrites : a.request.writes upper = some (key, value)) (x : Outcome) :
    Stored upper a i (x == .ok) (s.effect a x (.setSetting key value)) := by
  have hgrows := grows_effect s a x (.setSetting key value)
  refine ⟨⟨hs.1.1.grows hgrows, (own_setSetting key value x).trans hs.1.2⟩, ?_⟩
  by_cases hx : x = .ok
  · subst hx
    exact ⟨_, wrote_written hs hwrites⟩
  · rw [beq_eq_false_iff_ne.2 hx]
    exact failed_noted hx

theorem keeps_store {key value : String} (what : String)
    (hwrites : a.request.writes upper = some (key, value)) :
    Keeps upper i a (Fresh a i) (store key what value) := by
  refine keeps_call (Stored upper a i) (fun _ _ h hs => hs.apart h) (fun s hs => hs.1.1)
    (fun _ _ _ hc => by cases hc) (fun s x hs => stored_setSetting hs hwrites x) fun ok => ?_
  cases ok with
  | false => exact keeps_raise _ fun s hs => hs.1.finished hs.2
  | true =>
      refine keeps_call (fun _ => Stored upper a i true) (fun _ _ h hs => hs.apart h)
        (fun s hs => hs.1.1) (fun _ _ _ hc => by cases hc) (fun _ _ hs => hs) fun _ => ?_
      exact Contract.Spec.bind _ keeps_push fun _ => keeps_pure _ fun _ hs => hs

theorem keeps_serve : Keeps upper i a (Fresh a i) (serve upper a.request) := by
  cases hr : a.request with
  | symbols names =>
      simp only [serve, setCryptoAllowedSymbol]
      split
      · next hnone =>
          refine keeps_raise _ fun s hs => ⟨hs.1.1, .inl ⟨hs.1.2, .inr (.inl ?_)⟩⟩
          rw [hr, Request.writes, if_pos hnone]
      · next hsome =>
          refine keeps_store _ ?_
          rw [hr, Request.writes, if_neg hsome]
  | leverage defaultLeverage =>
      refine keeps_store _ ?_
      rw [hr, Request.writes]

/-- The request as it is served, what it answers put aside. -/
theorem keeps_request (upper : String → String) (i : Nat) (a : Asked) :
    Keeps upper i a (Fresh a i) (serve upper a.request >>= fun _ => .pure ()) :=
  .bind _ keeps_serve fun _ => keeps_pure () fun _ hs => hs

theorem post_some (hs : s.Holds a i ∧ s.Finished upper a) :
    (adminContract upper).post i (some a) s := by
  intro b hb
  cases hb
  exact hs

/-- A number that was never given has published nothing. -/
theorem Sound.own_nil (hs : Sound upper s) (h : s.served ≤ a.serial) : s.own a = [] := by
  rw [Office.own, List.filterMap_eq_nil_iff]
  intro e he
  have hlt := (hs e he).1
  exact if_neg (by omega)

theorem fresh_received (hs : Sound upper s) (r : Request) :
    Fresh ⟨s.served, s.past.length, r⟩ i (s.received i) := by
  refine ⟨⟨⟨Nat.lt_succ_self _, Function.update_self _ _ _⟩, ?_⟩, le_refl _⟩
  exact hs.own_nil (le_refl _)

theorem admin_holds (upper : String → String) : (adminContract upper).Holds where
  start := by
    intro i e s k₀ k p s' hs _ hstart hs'
    cases e with
    | request r =>
        cases hstart
        have hrequest := keeps_request upper i ⟨s.served, s.past.length, r⟩
        refine hrequest.mono (fun _ _ h => h) ?_ ?_ _ hs' (fresh_received hs r)
        · exact fun _ _ _ hdone => post_some hdone
        · exact fun _ _ _ hdone => post_some hdone
    | set key value => cases hstart
    | accounts accounts => cases hstart
  crash := by
    intro i k s s' _ h
    cases h
  stable := by
    intro i k
    refine stable_of_apart fun s s' h hs a ha => ?_
    obtain ⟨hholds, hfinished⟩ := hs a ha
    exact ⟨hholds.grows h.grows, hfinished.apart h hholds⟩

end

theorem good_quiet (upper : String → String) (m : Moment) :
    (adminContract upper).Good (quiet (.opened m)) := by
  refine ⟨fun e he => (List.not_mem_nil he).elim, fun i s _ a ha => ?_⟩
  cases ha

/-- In every run of the requests of any number of admins: a worker is told what the handshake
would answer by the settings of one time, at which the request had stored its own value, and it
was on file at a later one. A request that is over has told every worker on file then, each once
and in order; or nobody, as a database call failed, or there was nothing to store, or the
handshake would refuse the settings. -/
theorem pushed_as_stored {upper : String → String} {m : Moment}
    {p : Pool Nat (Option Asked) Office Call Call.Result Fault}
    (hrun : (admin upper).Runs (quiet (.opened m)) p) :
    (∀ e ∈ p.shared.sent, p.shared.Truthful upper e.1 e.2.1) ∧
      ∀ i a, (p.threads i).1 = some a → (p.threads i).2.Done → p.shared.Finished upper a := by
  have hgood := ((admin_holds upper).refines (good_quiet upper m) hrun).1
  refine ⟨fun e he => (hgood.1 e he).2, fun i a ha hdone => ?_⟩
  exact (hgood.post hdone a ha).2

namespace Overtaken

def settings (key : String) : Option String :=
  if key = cryptoMaxLeverageKey then some "5" else none

def accounts : List CryptoAccount := [⟨"A-1", some "X"⟩, ⟨"B-1", none⟩]

def step : Machine.Move Nat Outcome Event := .call 0 .ok

/-- The leverage is changed when the symbols are stored. -/
def moves : List (Machine.Move Nat Outcome Event) :=
  [.start 0 (.request (.symbols [" BTC ", ""])), step, .env (.set cryptoMaxLeverageKey "9"),
    step, step, step, step]

def asked : Asked := ⟨0, 0, .symbols [" BTC ", ""]⟩

def told : Push := ⟨composeWorkerId .crypto "X" "A-1", ⟨["BTC"], 9⟩⟩

theorem pushes :
    ∃ p, (admin id).replay moves (quiet (.opened ⟨settings, accounts⟩)) = some p ∧
      p.shared.own asked = [told] ∧ (p.threads 0).1 = some asked ∧ (p.threads 0).2.Done :=
  ⟨_, rfl, rfl, rfl, trivial⟩

end Overtaken

theorem pushed_as_stored_overtaken :
    ∃ p, (admin id).Runs (quiet (.opened ⟨Overtaken.settings, Overtaken.accounts⟩)) p ∧
      p.shared.own Overtaken.asked = [Overtaken.told] ∧ p.shared.Finished id Overtaken.asked := by
  obtain ⟨p, hreplay, hown, hcontext, hdone⟩ := Overtaken.pushes
  have hrun := Machine.runs_of_replay hreplay
  exact ⟨p, hrun, hown, (pushed_as_stored hrun).2 0 Overtaken.asked hcontext hdone⟩

end TradingBroker.Settings.Leverage
