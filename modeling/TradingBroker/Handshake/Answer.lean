import TradingBroker.Handshake.Consumer
import TradingBroker.Schemas.RoundTrip

/-!
# One answer to a handshake

What a worker that asks with `request` gets back, whatever is in the tables and whichever
lookup fails. Everything between the announcement and the ACK is quiet: it publishes
nothing and comes back with a value, however its lookups go. Three things end otherwise. A
refused crypto setting is answered with its reason, in the ACK's place. A stored magic map
that `json.loads` gives up on with anything but a `JSONDecodeError` takes the callback with
it. And the error reply to an announcement that does not validate copies the worker's own
`account_id`, which may be what does not validate.

The quiet part composes: a coroutine all of whose parts return without publishing returns
without publishing. So one lemma for each lookup suffices, whatever it answers, and the
answer goes out at the one place where there is a publish. A refusal is an answer too.
What is left of the three is a condition on the message and on what is stored
(`World.answerable`), and it is met exactly by the announcements that are answered once
(`handshake_answered_once_iff`).
-/

namespace TradingBroker.Handshake

open TradingBroker.Lib

/-! ## Answering the calls -/

/-- What the calls are answered from: the tables, the clocks, the consumer's caches, and
what has been published so far. `draws` counts the readings of a clock and the uxids. -/
structure World where
  settings : String → Option String
  upsertGateway : String → MarketType → String → Except Fault Unit
  accountSettings : String → MarketType → String → Except Fault Json
  recent : List String → Int → Except Fault (List (RowId × Json))
  monotonic : Nat → Rat
  utcnow : Nat → Int
  uxid : Nat → Uxid
  draws : Nat
  cryptoCache : Option (CryptoSettings × Rat)
  magicMapCache : Option (MagicMap × Rat)
  published : List (String × Answer)

/-- Every publish succeeds. -/
def exec : (c : Call) → World → c.Result × World
  | .upsertGateway accountId market gateway, w => (w.upsertGateway accountId market gateway, w)
  | .getSettings accountId market gateway, w => (w.accountSettings accountId market gateway, w)
  | .get key, w => (w.settings key, w)
  | .getMany keys, w => (keys.filterMap fun key => (w.settings key).map fun v => (key, v), w)
  | .listRecentByStrategies strategies since, w => (w.recent strategies since, w)
  | .cryptoCache, w => (w.cryptoCache, w)
  | .cacheCrypto values at_, w => ((), { w with cryptoCache := some (values, at_) })
  | .magicMapCache, w => (w.magicMapCache, w)
  | .cacheMagicMap values at_, w => ((), { w with magicMapCache := some (values, at_) })
  | .monotonic, w => (w.monotonic w.draws, { w with draws := w.draws + 1 })
  | .utcnow, w => (w.utcnow w.draws, { w with draws := w.draws + 1 })
  | .newUxid, w => (w.uxid w.draws, { w with draws := w.draws + 1 })
  | .publish subject answer, w =>
      (.ok (), { w with published := w.published ++ [(subject, answer)] })

/-- The consumer's callback, run. -/
def World.handle (cfg : Config) (w : World) (msg : SystemMessage) : World :=
  ((handleSubjectSystem cfg msg).run exec w).2

/-! ## Which announcements are answered -/

/-- What `_get_crypto_settings` returns. -/
def World.cryptoSettings (w : World) : CryptoSettings :=
  (cached w.cryptoCache (w.monotonic w.draws)).getD
    (w.settings cryptoAllowedSymbolKey, w.settings cryptoMaxLeverageKey)

/-- The settings a crypto worker can be configured from. -/
def leverageOf : CryptoSettings → Except String CryptoLeverageConfig
  | (some symbolsRaw, some leverageRaw) =>
      match pyInt leverageRaw with
      | none => .error (cryptoMaxLeverageKey ++ " is not an integer")
      | some defaultLeverage =>
          if defaultLeverage ≤ 0 then
            .error (cryptoMaxLeverageKey ++ " must be a positive integer")
          else .ok { symbols := splitSymbols symbolsRaw, defaultLeverage }
  | _ => .error "crypto settings not configured"

/-- The magic map has to be read, and `json.loads` ends with an exception that is no
`JSONDecodeError`. `reading` is which reading of the clock the cache is held against. -/
def World.magicMapRaises (cfg : Config) (w : World) (reading : Nat) : Bool :=
  (cached w.magicMapCache (w.monotonic reading)).isNone &&
    !(parseStrategyMagicMap cfg.loads (w.settings strategyMagicMapKey)).toBool

/-- `None` or a string: what the error reply takes for an `account_id`. -/
def nameable : Json → Bool
  | .null => true
  | v => (readStr v).isSome

/-- The announcement validates, and unless a crypto setting is refused first the magic map
can be read if it is needed; or the error reply can name the worker. -/
def World.answerable (cfg : Config) (w : World) (data : JsonObject) : Bool :=
  match WorkerConnected.ofFields cfg.reads data with
  | none => nameable ((JsonObject.get? data "account_id").getD .null)
  | some event =>
      match event.market with
      | .forex => event.strategies.isEmpty || !w.magicMapRaises cfg w.draws
      | .crypto =>
          match leverageOf w.cryptoSettings with
          | .error _ => true
          | .ok _ => event.strategies.isEmpty || !w.magicMapRaises cfg (w.draws + 1)

/-! ## What is quiet -/

/-- The function returns, and nothing was published. -/
def Quiet {α : Type} (p : Prog α) : Prop :=
  ∀ w, ∃ a w', p.run exec w = (.ok a, w') ∧ w'.published = w.published

theorem quiet_pure {α : Type} (a : α) : Quiet (pure a) := fun w => ⟨a, w, rfl, rfl⟩

theorem quiet_bind {α β : Type} {p : Prog α} {f : α → Prog β} (hp : Quiet p)
    (hf : ∀ a, Quiet (f a)) : Quiet (p >>= f) := by
  intro w
  obtain ⟨a, w', hrun, hpub⟩ := hp w
  obtain ⟨b, w'', hrun', hpub'⟩ := hf a w'
  refine ⟨b, w'', ?_, hpub'.trans hpub⟩
  rw [Coro.run_bind, hrun]
  exact hrun'

/-- A call that is no publish. -/
theorem quiet_call {α : Type} {c : Call} {k : c.Result → Prog α}
    (hc : ∀ w, (exec c w).2.published = w.published) (hk : ∀ r, Quiet (k r)) :
    Quiet (.call c k) := by
  intro w
  obtain ⟨a, w', hrun, hpub⟩ := hk (exec c w).1 (exec c w).2
  exact ⟨a, w', hrun, hpub.trans (hc w)⟩

theorem quiet_replay (cfg : Config) (envelopes : List (RowId × Json)) :
    Quiet (replay cfg envelopes) := by
  induction envelopes with
  | nil => exact quiet_pure []
  | cons envelope envelopes ih =>
      obtain ⟨signalId, raw⟩ := envelope
      unfold replay
      split
      · exact quiet_pure []
      · next heq =>
          cases heq
          refine quiet_call (fun _ => rfl) fun minted => ?_
          split
          · exact ih
          · refine quiet_call (fun _ => rfl) fun now => ?_
            split
            · exact ih
            · exact quiet_bind ih fun signals => quiet_pure _
      · next heq =>
          cases heq
          exact ih

theorem quiet_buildRetrySignals (cfg : Config) (strategies : List String) :
    Quiet (buildRetrySignals cfg strategies) := by
  unfold buildRetrySignals
  split
  · exact quiet_pure []
  · refine quiet_bind (quiet_call (fun _ => rfl) fun raw => ?_) fun window =>
      quiet_call (fun _ => rfl) fun found => ?_
    · split
      · exact quiet_pure _
      · exact quiet_pure _
    · split
      · exact quiet_pure []
      · exact quiet_replay cfg _

theorem quiet_buildAccountSettings (cfg : Config) (event : WorkerConnected) :
    Quiet (buildAccountSettings cfg event) :=
  quiet_call (fun _ => rfl) fun _ => quiet_call (fun _ => rfl) fun _ => quiet_pure _

/-! ## The two lookups that decide -/

/-- What one query finds of the two crypto settings. -/
theorem lookup_rows (settings : String → Option String) :
    let rows := [cryptoAllowedSymbolKey, cryptoMaxLeverageKey].filterMap fun key =>
      (settings key).map fun v => (key, v)
    (rows.lookup cryptoAllowedSymbolKey, rows.lookup cryptoMaxLeverageKey) =
      (settings cryptoAllowedSymbolKey, settings cryptoMaxLeverageKey) := by
  have hne : (cryptoMaxLeverageKey == cryptoAllowedSymbolKey) = false := by decide
  have hne' : (cryptoAllowedSymbolKey == cryptoMaxLeverageKey) = false := by decide
  cases h1 : settings cryptoAllowedSymbolKey <;> cases h2 : settings cryptoMaxLeverageKey <;>
    simp [h1, h2, List.lookup_cons, hne, hne']

theorem run_getCryptoSettings (w : World) :
    ∃ w', getCryptoSettings.run exec w = (.ok w.cryptoSettings, w') ∧
      w'.draws = w.draws + 1 ∧ w'.settings = w.settings ∧ w'.monotonic = w.monotonic ∧
      w'.magicMapCache = w.magicMapCache ∧ w'.published = w.published := by
  rw [getCryptoSettings, Coro.run, Coro.run, World.cryptoSettings]
  simp only [exec]
  cases cached w.cryptoCache (w.monotonic w.draws) with
  | some values => exact ⟨{ w with draws := w.draws + 1 }, rfl, rfl, rfl, rfl, rfl, rfl⟩
  | none =>
      simp only [fetchCryptoSettings, Coro.run, exec, lookup_rows]
      exact ⟨{ w with
        draws := w.draws + 1
        cryptoCache := some ((w.settings cryptoAllowedSymbolKey, w.settings cryptoMaxLeverageKey),
          w.monotonic w.draws) }, rfl, rfl, rfl, rfl, rfl, rfl⟩

/-- Reading the magic map is quiet, or it is what takes the callback with it. -/
theorem run_getStrategyMagicMap (cfg : Config) (w : World) :
    ∃ r w', (getStrategyMagicMap cfg).run exec w = (r, w') ∧ w'.published = w.published ∧
      r.toBool = !w.magicMapRaises cfg w.draws := by
  rw [getStrategyMagicMap, Coro.run, Coro.run, World.magicMapRaises]
  simp only [exec]
  cases cached w.magicMapCache (w.monotonic w.draws) with
  | some values => exact ⟨_, _, rfl, rfl, rfl⟩
  | none =>
      simp only [fetchStrategyMagicMap, Coro.run, exec]
      cases parseStrategyMagicMap cfg.loads (w.settings strategyMagicMapKey) with
      | error e => exact ⟨_, _, rfl, rfl, rfl⟩
      | ok values => exact ⟨_, _, rfl, rfl, rfl⟩

theorem run_buildStrategyMagicMap (cfg : Config) (strategies : List String) (w : World) :
    ∃ r w', (buildStrategyMagicMap cfg strategies).run exec w = (r, w') ∧
      w'.published = w.published ∧
      r.toBool = (strategies.isEmpty || !w.magicMapRaises cfg w.draws) := by
  unfold buildStrategyMagicMap
  split
  · next h => exact ⟨_, _, rfl, rfl, by rw [h]; rfl⟩
  · next h =>
      obtain ⟨r, w', hrun, hpub, hr⟩ := run_getStrategyMagicMap cfg w
      rw [Coro.run_bind, hrun]
      rw [Bool.not_eq_true] at h
      rw [h, Bool.false_or, ← hr]
      cases r with
      | error e => exact ⟨_, _, rfl, hpub, rfl⟩
      | ok a => exact ⟨_, _, rfl, hpub, rfl⟩

/-! ## The reply -/

/-- An ACK with this leverage block goes out on the inbox, and nothing else. -/
theorem run_replyAck {inbox : String} (hinbox : inbox ≠ "") (accountId : String)
    (magicMap : List (String × Int)) (signals : List TradingSignal)
    (settings : Settings.AccountSettings) (leverage : Option CryptoLeverageConfig) (w : World) :
    ∃ a : WorkerConnectedAck, a.cryptoLeverageInit = leverage ∧
      ((replyAck inbox accountId magicMap signals settings leverage).run exec w).2.published =
        w.published ++ [(inbox, .ack a)] := by
  rw [replyAck, if_neg hinbox]
  exact ⟨_, rfl, rfl⟩

theorem isSome_optionalField (v : Json) :
    (optionalField readStr [(pyStr "account_id", v)] "account_id").isSome = nameable v := by
  rw [optionalField, Settings.get?_singleton, if_pos rfl]
  cases v with
  | null => rfl
  | _ => simp only [nameable, Option.isSome_map]

/-- The error goes out if its `account_id` validates, and nothing goes out otherwise. -/
theorem run_replyError {inbox : String} (hinbox : inbox ≠ "") (accountId : Json)
    (reason : String) (w : World) :
    ∃ w', (replyError inbox accountId reason).run exec w = (.ok (), w') ∧
      if nameable accountId then ∃ e, w'.published = w.published ++ [(inbox, .error e)]
      else w'.published = w.published := by
  rw [replyError, if_neg hinbox, ← isSome_optionalField]
  cases optionalField readStr [(pyStr "account_id", accountId)] "account_id" with
  | none => exact ⟨w, rfl, rfl⟩
  | some named => exact ⟨_, rfl, _, rfl⟩

theorem nameable_dumpStr (s : String) : nameable (dumpStr s) = true := by
  show (readStr (dumpStr s)).isSome = true
  rw [readStr_dumpStr]
  rfl

/-- The leverage block is built, or the worker is told why not. -/
theorem run_buildCryptoLeverage {inbox : String} (hinbox : inbox ≠ "") (cfg : Config)
    (accountId : String) (w : World) :
    ∃ r w', (buildCryptoLeverage accountId inbox).run exec w = (.ok r, w') ∧
      match leverageOf w.cryptoSettings with
      | .error _ => r = none ∧ ∃ e, w'.published = w.published ++ [(inbox, .error e)]
      | .ok leverage =>
          r = some leverage ∧ w'.published = w.published ∧
            w'.magicMapRaises cfg w'.draws = w.magicMapRaises cfg (w.draws + 1) := by
  obtain ⟨w₁, hrun, hdraws, hsettings, hmono, hcache, hpub⟩ := run_getCryptoSettings w
  have hrefused : ∀ reason, ∃ r w',
      ((replyError inbox (dumpStr accountId) reason >>= fun _ =>
        (pure none : Prog (Option CryptoLeverageConfig))).run exec w₁) = (.ok r, w') ∧
      r = none ∧ ∃ e, w'.published = w.published ++ [(inbox, .error e)] := by
    intro reason
    obtain ⟨w₂, hrun₂, hpub₂⟩ := run_replyError hinbox (dumpStr accountId) reason w₁
    rw [if_pos (nameable_dumpStr accountId), hpub] at hpub₂
    refine ⟨none, w₂, ?_, rfl, hpub₂⟩
    rw [Coro.run_bind, hrun₂]
    rfl
  rw [buildCryptoLeverage, Coro.run_bind, hrun]
  obtain ⟨symbolsRaw, leverageRaw⟩ := w.cryptoSettings
  cases symbolsRaw with
  | none => exact hrefused _
  | some symbolsRaw =>
      cases leverageRaw with
      | none => exact hrefused _
      | some leverageRaw =>
          simp only [leverageOf]
          cases pyInt leverageRaw with
          | none => exact hrefused _
          | some defaultLeverage =>
              by_cases hpos : defaultLeverage ≤ 0
              · simp only [if_pos hpos]
                exact hrefused _
              · simp only [if_neg hpos]
                refine ⟨_, w₁, rfl, rfl, hpub, ?_⟩
                rw [World.magicMapRaises, World.magicMapRaises, hcache, hmono, hsettings, hdraws]

/-- Past the leverage block: one ACK that carries it, or the callback ends in silence. -/
theorem run_acknowledge {inbox : String} (hinbox : inbox ≠ "") (cfg : Config)
    (event : WorkerConnected) (leverage : Option CryptoLeverageConfig) (w : World) :
    if event.strategies.isEmpty || !w.magicMapRaises cfg w.draws then
      ∃ a : WorkerConnectedAck, a.cryptoLeverageInit = leverage ∧
        ((acknowledge cfg inbox event leverage).run exec w).2.published =
          w.published ++ [(inbox, .ack a)]
    else ((acknowledge cfg inbox event leverage).run exec w).2.published = w.published := by
  obtain ⟨r, w₁, hrun, hpub, hr⟩ := run_buildStrategyMagicMap cfg event.strategies w
  rw [← hr, acknowledge, Coro.run_bind, hrun]
  cases r with
  | error e => exact hpub
  | ok magicMap =>
      obtain ⟨signals, w₂, hrun₂, hpub₂⟩ := quiet_buildRetrySignals cfg event.strategies w₁
      obtain ⟨settings, w₃, hrun₃, hpub₃⟩ := quiet_buildAccountSettings cfg event w₂
      obtain ⟨a, ha, hsent⟩ := run_replyAck hinbox event.accountId magicMap signals settings
        leverage w₃
      simp only [Coro.run_bind, hrun₂, hrun₃]
      exact ⟨a, ha, by rw [hsent, hpub₃, hpub₂, hpub]⟩

/-! ## What an announcement is promised -/

/-- `data["market"]` is the crypto market. -/
def isCrypto (data : JsonObject) : Bool :=
  match data.get? "market" with
  | some (.str s) => s == pyStr "CRYPTO"
  | _ => false

/-- Exactly one answer goes out, on the inbox, and an ACK to a crypto worker has a
leverage block. Without an announcement nothing goes out. `w` is any world: any tables,
any caches, and any lookups failing. -/
def AnsweredOnce (cfg : Config) (w : World) (inbox : String) (data : JsonObject) : Prop :=
  let w' := w.handle cfg { data := .json (.obj data), reply := inbox }
  if announces data then
    ∃ answer, w'.published = w.published ++ [(inbox, answer)] ∧
      ∀ a, answer = .ack a → isCrypto data = true → a.cryptoLeverageInit.isSome = true
  else w'.published = w.published

/-- A worker that says `CRYPTO` is a crypto worker. -/
theorem market_of_ofFields {co : LaxReads} {data : JsonObject} {event : WorkerConnected}
    (h : WorkerConnected.ofFields co data = some event) (hcrypto : isCrypto data = true) :
    event.market = .crypto := by
  rw [WorkerConnected.ofFields] at h
  obtain ⟨_, -, h⟩ := Option.bind_eq_some_iff.1 h
  obtain ⟨_, -, h⟩ := Option.bind_eq_some_iff.1 h
  obtain ⟨market, hmarket, h⟩ := Option.bind_eq_some_iff.1 h
  obtain ⟨_, -, h⟩ := Option.bind_eq_some_iff.1 h
  obtain ⟨_, -, h⟩ := Option.bind_eq_some_iff.1 h
  cases h
  unfold isCrypto at hcrypto
  split at hcrypto
  · next s hs =>
      rw [requiredField, hs, beq_iff_eq.1 hcrypto] at hmarket
      have hread : readMarket (.str (pyStr "CRYPTO")) = some .crypto := by decide
      exact (Option.some.inj (hread.symm.trans hmarket)).symm
  · cases hcrypto

/-- Nothing was sent, so no one answer was. -/
theorem not_sent {sent : List (String × Answer)} {inbox : String} {P : Answer → Prop} :
    ¬ ∃ answer, sent = sent ++ [(inbox, answer)] ∧ P answer := by
  rintro ⟨answer, h, -⟩
  have hlen := congrArg List.length h
  rw [List.length_append, List.length_singleton] at hlen
  omega

/-- What an ACK makes of the leverage block decides nothing but the block. -/
theorem acknowledged_iff {inbox : String} (hinbox : inbox ≠ "") (cfg : Config)
    (event : WorkerConnected) {crypto : Bool} {leverage : Option CryptoLeverageConfig}
    (hleverage : crypto = true → leverage.isSome = true) (w : World) :
    (∃ answer, ((acknowledge cfg inbox event leverage).run exec w).2.published =
        w.published ++ [(inbox, answer)] ∧
      ∀ a, answer = .ack a → crypto = true → a.cryptoLeverageInit.isSome = true) ↔
      (event.strategies.isEmpty || !w.magicMapRaises cfg w.draws) = true := by
  have hrun := run_acknowledge hinbox cfg event leverage w
  split at hrun
  · next hread =>
      obtain ⟨a, ha, hsent⟩ := hrun
      refine iff_of_true ⟨.ack a, hsent, fun b hb hc => ?_⟩ hread
      cases hb
      rw [ha]
      exact hleverage hc
  · next hread =>
      rw [hrun]
      exact iff_of_false not_sent hread

/-- The answer to a worker whose announcement validates. -/
theorem answered_iff_of_valid {inbox : String} (hinbox : inbox ≠ "") (cfg : Config)
    (event : WorkerConnected) (w : World) {crypto : Bool}
    (hcrypto : crypto = true → event.market = .crypto) :
    (∃ answer, ((answerWorker cfg inbox event).run exec w).2.published =
        w.published ++ [(inbox, answer)] ∧
      ∀ a, answer = .ack a → crypto = true → a.cryptoLeverageInit.isSome = true) ↔
      (match event.market with
        | .forex => event.strategies.isEmpty || !w.magicMapRaises cfg w.draws
        | .crypto =>
            match leverageOf w.cryptoSettings with
            | .error _ => true
            | .ok _ =>
                event.strategies.isEmpty || !w.magicMapRaises cfg (w.draws + 1)) = true := by
  have hremember : (rememberWorker event).run exec w = (.ok (), w) := rfl
  rw [answerWorker, Coro.run_bind, hremember]
  cases hmarket : event.market with
  | forex =>
      refine acknowledged_iff hinbox cfg event (fun hc => ?_) w
      rw [hcrypto hc] at hmarket
      cases hmarket
  | crypto =>
      obtain ⟨r, w', hrun, hrest⟩ := run_buildCryptoLeverage hinbox cfg event.accountId w
      simp only [Coro.run_bind, hrun]
      cases hleverage : leverageOf w.cryptoSettings with
      | error reason =>
          rw [hleverage] at hrest
          obtain ⟨rfl, e, hsent⟩ := hrest
          exact iff_of_true ⟨.error e, hsent, nofun⟩ rfl
      | ok leverage =>
          rw [hleverage] at hrest
          obtain ⟨rfl, hpub, hmap⟩ := hrest
          rw [← hpub, ← hmap]
          exact acknowledged_iff hinbox cfg event (fun _ => rfl) w'

theorem handleSubjectSystem_obj (cfg : Config) (data : JsonObject) (inbox : String) :
    handleSubjectSystem cfg { data := .json (.obj data), reply := inbox } =
      if announces data then
        match WorkerConnected.ofFields cfg.reads data with
        | none =>
            replyError inbox ((JsonObject.get? data "account_id").getD .null)
              "invalid WORKER_CONNECTED payload"
        | some event => answerWorker cfg inbox event
      else pure () := rfl

/-- Exactly the announcements that are answerable are answered, once; nothing else is. -/
theorem handshake_answered_once_iff (cfg : Config) (w : World) {inbox : String}
    (hinbox : inbox ≠ "") (data : JsonObject) :
    AnsweredOnce cfg w inbox data ↔ (announces data = true → w.answerable cfg data = true) := by
  rw [AnsweredOnce, World.handle, handleSubjectSystem_obj]
  cases announces data with
  | true =>
      simp only [↓reduceIte, forall_const]
      rw [World.answerable]
      cases hevent : WorkerConnected.ofFields cfg.reads data with
      | none =>
          obtain ⟨w', hrun, hpub⟩ := run_replyError hinbox
            ((JsonObject.get? data "account_id").getD .null)
            "invalid WORKER_CONNECTED payload" w
          simp only [hrun]
          split at hpub
          · next hname =>
              obtain ⟨e, he⟩ := hpub
              exact iff_of_true ⟨.error e, he, nofun⟩ hname
          · next hname =>
              rw [hpub]
              exact iff_of_false not_sent hname
      | some event =>
          exact answered_iff_of_valid hinbox cfg event w (market_of_ofFields hevent)
  | false => exact iff_of_true rfl nofun

namespace Sample

def cfg : Config where
  reads :=
    { bool := fun _ => none
      int := fun _ => none
      float := fun _ => none
      datetime := fun _ => none
      ofInt := fun n => some n }
  lib :=
    { coerce := fun _ => none
      upper := id
      accepts := fun _ => true
      maxNesting := 200 }
  loads := fun _ => .decodeError
  hasSignals := true

/-- Nothing is stored, and no lookup succeeds. -/
theorem uxid_valid : isValidUxid (pyStr "9F2C4B7E18A3D605") = true := by decide

def world : World where
  settings _ := none
  upsertGateway _ _ _ := .error .unavailable
  accountSettings _ _ _ := .error .unavailable
  recent _ _ := .error .unavailable
  monotonic _ := 100
  utcnow _ := 63915992100000000
  uxid _ := ⟨pyStr "9F2C4B7E18A3D605", uxid_valid⟩
  draws := 0
  cryptoCache := none
  magicMapCache := none
  published := []

def announcement : JsonObject :=
  [(pyStr "action", .str (pyStr "WORKER_CONNECTED")),
    (pyStr "account_id", .str (pyStr "FOREX-MT5-123")),
    (pyStr "market", .str (pyStr "FOREX")), (pyStr "gateway", .str (pyStr "MT5")),
    (pyStr "strategies", .arr [.str (pyStr "wt_bb_atr")])]

/-- The worker sends the bare number of its account. -/
def numbered : JsonObject :=
  [(pyStr "action", .str (pyStr "WORKER_CONNECTED")), (pyStr "account_id", .int 123)]

end Sample

/-- Every announcement is answered. -/
def AlwaysAnswered (cfg : Config) (w : World) : Prop :=
  ∀ inbox data, inbox ≠ "" → AnsweredOnce cfg w inbox data

theorem not_alwaysAnswered : ¬ AlwaysAnswered Sample.cfg Sample.world := by
  intro h
  have honce := h "_INBOX.1" Sample.numbered (by decide)
  have hsilent : (Sample.world.handle Sample.cfg
      { data := .json (.obj Sample.numbered), reply := "_INBOX.1" }).published = [] := rfl
  have hann : announces Sample.numbered = true := by decide
  rw [AnsweredOnce, if_pos hann] at honce
  obtain ⟨answer, hsent, -⟩ := honce
  rw [hsilent] at hsent
  cases hsent

theorem handshake_answered_once_forex :
    AnsweredOnce Sample.cfg Sample.world "_INBOX.1" Sample.announcement :=
  (handshake_answered_once_iff Sample.cfg Sample.world (by decide) Sample.announcement).2
    fun _ => by decide

end TradingBroker.Handshake
