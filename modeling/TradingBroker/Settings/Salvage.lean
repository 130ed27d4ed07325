import TradingBroker.Handshake.Consumer
import TradingBroker.Settings.Converge

/-!
# A setting at a time

`accounts.settings` is a blob that people edit by hand, and its fields are independent:
what stands under one key must not decide what a worker is told about another.
`parse_account_settings` validates every item by itself, keeps those that pass and builds
the block from them in one go. `construct` is that last call, which may raise by its type;
`construct_eq` says it does not.

A field of the block a worker is told is then a function of the blob's value under the
field's own key (`told_signalBlocked`, `told_maxOpenOrders`): what the schema makes of that
key alone, or the default. The last part follows the block to the three coroutines that hand
one on, the owner's command, the admin's and the handshake: they compute it of the stored
values only.

What makes the fields independent is that validating one item never looks at another, and
that the items that pass are of different keys. So the block built from all of them has,
field by field, what the block built from one of them has (`alone`), and a key that is
missing, `null` or refused leaves the default. This is proved once for a field with a
reader and a default (`Reads`), and the two fields are its instances.
-/

namespace TradingBroker.Settings

open TradingBroker.Lib TradingBroker.Lib.Coro

/-! ## Blobs -/

/-- A `dict` has a key once. -/
def DistinctKeys : Json → Prop
  | .obj items => (items.map Prod.fst).Nodup
  | _ => True

/-- What a blob has under a key. -/
def entry : Json → String → Option Json
  | .obj items, name => JsonObject.get? items name
  | _, _ => none

/-- The block the schema makes of one key alone, if the blob has a value there that is not
`null`. -/
def alone (co : Coercions) (raw : Json) (name : String) : Option AccountSettings :=
  match entry raw name with
  | none => none
  | some .null => none
  | some value => AccountSettings.ofFields co [(pyStr name, value)]

/-- `AccountSettings(**kept)`, the one call of `parse_account_settings` outside its `try`. -/
def construct (co : Coercions) : Json → Option AccountSettings
  | .obj items => AccountSettings.ofFields co (items.filter (kept co))
  | _ => AccountSettings.ofFields co []

/-- What a worker is told of an account's blob and the text of the global setting. -/
def told (co : Coercions) (raw : Json) (text : Option String) : AccountSettings :=
  resolveAccountSettings (parseAccountSettings co raw) (parseGlobalMaxOpenOrders text)

variable {co : Coercions}

theorem construct_eq (raw : Json) : construct co raw = some (parseAccountSettings co raw) := by
  cases raw with
  | obj items => exact (Option.some_get (ofFields_kept co items)).symm
  | null | bool | int | float | str | arr => rfl

/-! ## One key -/

theorem ofFields_signalBlocked (value : Json) :
    AccountSettings.ofFields co [(pyStr signalBlockedKey, value)] =
      (co.bool value).map fun b => ⟨b, none⟩ := by
  have hne : pyStr signalBlockedKey ≠ pyStr maxOpenOrdersKey := by decide
  simp only [AccountSettings.ofFields, field, get?_singleton, if_pos, if_neg hne]
  cases co.bool value with
  | none => rfl
  | some b => rfl

theorem ofFields_maxOpenOrders (value : Json) :
    AccountSettings.ofFields co [(pyStr maxOpenOrdersKey, value)] =
      (co.cap value).map fun cap => ⟨false, cap⟩ := by
  have hne : pyStr maxOpenOrdersKey ≠ pyStr signalBlockedKey := by decide
  simp only [AccountSettings.ofFields, field, get?_singleton, if_pos, if_neg hne]
  rfl

theorem alone_of_ne_null {raw : Json} {name : String} {value : Json}
    (h : entry raw name = some value) (hne : value ≠ .null) :
    alone co raw name = AccountSettings.ofFields co [(pyStr name, value)] := by
  unfold alone
  rw [h]
  cases value with
  | null => exact absurd rfl hne
  | bool | int | float | str | arr | obj => rfl

theorem alone_of_null {raw : Json} {name : String} (h : entry raw name = some .null) :
    alone co raw name = none := by
  rw [alone, h]

theorem alone_of_none {raw : Json} {name : String} (h : entry raw name = none) :
    alone co raw name = none := by
  rw [alone, h]

/-! ## What is kept -/

/-- Dropping items drops values and moves none. -/
theorem get?_filter (keep : PyStr × Json → Bool) {items : JsonObject}
    (h : (items.map Prod.fst).Nodup) (name : String) :
    JsonObject.get? (items.filter keep) name =
      (JsonObject.get? items name).filter fun value => keep (pyStr name, value) := by
  induction items with
  | nil => rfl
  | cons item items ih =>
      rw [List.map_cons, List.nodup_cons] at h
      have ih := ih h.2
      simp only [JsonObject.get?] at ih ⊢
      by_cases hname : item.1 = pyStr name
      · -- no later item has the name
        have hrest : items.find? (fun kv => kv.1 == pyStr name) = none := by
          rw [List.find?_eq_none]
          intro other hother heq
          exact h.1 (hname ▸ (beq_iff_eq.1 heq) ▸ List.mem_map_of_mem hother)
        rw [hrest] at ih
        have hitem : item = (pyStr name, item.2) := by rw [← hname]
        rw [List.find?_cons_of_pos (by simpa using hname), List.filter_cons]
        cases hkeep : keep item with
        | true =>
            rw [if_pos rfl, List.find?_cons_of_pos (by simpa using hname)]
            rw [hitem] at hkeep
            simp [Option.filter, hkeep]
        | false =>
            rw [if_neg Bool.false_ne_true, ih]
            rw [hitem] at hkeep
            simp [Option.filter, hkeep]
      · rw [List.find?_cons_of_neg (by simpa using hname), List.filter_cons]
        split
        · rw [List.find?_cons_of_neg (by simpa using hname), ih]
        · exact ih

/-- The field `proj` under its key: the schema reads it there with `read`, which makes
nothing else than the default of a `null`. -/
structure Reads {α : Type} (co : Coercions) (name : String) (read : Json → Option α)
    (default : α) (proj : AccountSettings → α) : Prop where
  named : name = signalBlockedKey ∨ name = maxOpenOrdersKey
  own : ∀ value, (AccountSettings.ofFields co [(pyStr name, value)]).map proj = read value
  null : (read .null).getD default = default

theorem reads_signalBlocked (hnull : co.bool .null = none) :
    Reads co signalBlockedKey co.bool false AccountSettings.signalBlocked where
  named := .inl rfl
  own value := by
    rw [ofFields_signalBlocked, Option.map_map]
    exact Option.map_id'
  null := by rw [hnull, Option.getD_none]

theorem reads_maxOpenOrders :
    Reads co maxOpenOrdersKey co.cap none AccountSettings.maxOpenOrders where
  named := .inr rfl
  own value := by
    rw [ofFields_maxOpenOrders, Option.map_map]
    exact Option.map_id'
  null := rfl

variable {α : Type} {name : String} {read : Json → Option α} {default : α}
  {proj : AccountSettings → α}

/-- A value is kept if its own field takes it, whatever else there is. -/
theorem kept_own (h : Reads co name read default proj) (value : Json) :
    kept co (pyStr name, value) = (read value).isSome := by
  have hname : (pyStr name == pyStr signalBlockedKey || pyStr name == pyStr maxOpenOrdersKey) =
      true := by
    rcases h.named with hname | hname
    · rw [hname, beq_self_eq_true, Bool.true_or]
    · rw [hname, beq_self_eq_true, Bool.or_true]
  rw [kept, hname, Bool.true_and, ← h.own value, Option.isSome_map]

/-- A field of the block has what the schema makes of its key alone. -/
theorem field_kept (h : Reads co name read default proj) {items : JsonObject}
    (hkeys : (items.map Prod.fst).Nodup) :
    field read default (items.filter (kept co)) name =
      some (((alone co (.obj items) name).map proj).getD default) := by
  cases hentry : JsonObject.get? items name with
  | none =>
      have halone : alone co (.obj items) name = none := alone_of_none hentry
      rw [halone, field, get?_filter _ hkeys, hentry]
      rfl
  | some value =>
      have hread : field read default (items.filter (kept co)) name =
          some ((read value).getD default) := by
        rw [field, get?_filter _ hkeys, hentry]
        cases hvalue : read value with
        | none =>
            have hdrop : (some value).filter (fun v => kept co (pyStr name, v)) = none := by
              simp [Option.filter, kept_own h, hvalue]
            rw [hdrop]
            rfl
        | some a =>
            have hkeep : (some value).filter (fun v => kept co (pyStr name, v)) = some value := by
              simp [Option.filter, kept_own h, hvalue]
            rw [hkeep]
            exact hvalue
      refine hread.trans (congrArg some ?_)
      by_cases hnull : value = .null
      · have halone : alone co (.obj items) name = none := alone_of_null (hnull ▸ hentry)
        rw [halone, hnull, h.null]
        rfl
      · have halone : alone co (.obj items) name = _ := alone_of_ne_null hentry hnull
        rw [halone, h.own]

/-! ## The block -/

theorem parse_signalBlocked (hnull : co.bool .null = none) {raw : Json}
    (hkeys : DistinctKeys raw) :
    (parseAccountSettings co raw).signalBlocked =
      ((alone co raw signalBlockedKey).map AccountSettings.signalBlocked).getD false := by
  cases raw with
  | obj items =>
      have hfield := (get_ofFields co _ (ofFields_kept co items)).1
      rw [field_kept (reads_signalBlocked hnull) hkeys] at hfield
      exact Option.some.inj hfield
  | null | bool | int | float | str | arr => rfl

theorem parse_maxOpenOrders {raw : Json} (hkeys : DistinctKeys raw) :
    (parseAccountSettings co raw).maxOpenOrders =
      ((alone co raw maxOpenOrdersKey).map AccountSettings.maxOpenOrders).getD none := by
  cases raw with
  | obj items =>
      have hfield := (get_ofFields co _ (ofFields_kept co items)).2
      rw [field_kept reads_maxOpenOrders hkeys] at hfield
      exact Option.some.inj hfield
  | null | bool | int | float | str | arr => rfl

theorem told_signalBlocked (hnull : co.bool .null = none) {raw : Json}
    (hkeys : DistinctKeys raw) (text : Option String) :
    (told co raw text).signalBlocked =
      ((alone co raw signalBlockedKey).map AccountSettings.signalBlocked).getD false := by
  rw [told, signalBlocked_resolve, parse_signalBlocked hnull hkeys]

theorem told_maxOpenOrders {raw : Json} (hkeys : DistinctKeys raw) (text : Option String) :
    (told co raw text).maxOpenOrders =
      some (((alone co raw maxOpenOrdersKey).bind AccountSettings.maxOpenOrders).getD
        (parseGlobalMaxOpenOrders text)) := by
  rw [told, maxOpenOrders_resolve, parse_maxOpenOrders hkeys]
  cases alone co raw maxOpenOrdersKey with
  | none => rfl
  | some w => rfl

/-- The number that is told, by `told_maxOpenOrders`, is one that stands in the column: the schema
takes what it reads there only if it is not negative, so no cap is told that nobody stored. -/
theorem alone_maxOpenOrders {raw : Json} {w : AccountSettings} {n : Nat}
    (h : alone co raw maxOpenOrdersKey = some w) (hn : w.maxOpenOrders = some n) :
    ∃ value, entry raw maxOpenOrdersKey = some value ∧ co.int value = some (n : Int) := by
  cases hentry : entry raw maxOpenOrdersKey with
  | none => rw [alone_of_none hentry] at h; cases h
  | some value =>
      by_cases hnull : value = .null
      · rw [alone_of_null (hnull ▸ hentry)] at h
        cases h
      · rw [alone_of_ne_null hentry hnull, ofFields_maxOpenOrders, Option.map_eq_some_iff] at h
        obtain ⟨cap, hcap, rfl⟩ := h
        refine ⟨value, rfl, ?_⟩
        subst hn
        cases value with
        | null => exact absurd rfl hnull
        | bool | int | float | str | arr | obj =>
            obtain ⟨m, hm, hcap⟩ := Option.bind_eq_some_iff.1 hcap
            rw [hm]
            split at hcap
            · next hpos =>
                cases hcap
                rw [Int.toNat_of_nonneg hpos]
            · cases hcap

/-! ## The three that hand one on -/

/-- The message that tells an account's worker its settings. An account without a gateway
has no worker that could be addressed. -/
def pushed (account : Account) (settings : AccountSettings) : List Call :=
  match account.gateway with
  | none => []
  | some gateway =>
      if gateway = "" then []
      else [.publish (.settingsUpdate (composeWorkerId account.market gateway account.accountId)
        settings)]

variable (answer : (c : Call) → c.Result)

theorem run_pushWorkerSettingsUpdate (account : Account) (settings : AccountSettings)
    (made : List Call) :
    (pushWorkerSettingsUpdate account.accountId account.market account.gateway settings).run
        (fun c made => (answer c, made ++ [c])) made =
      (.ok (), made ++ pushed account settings) := by
  unfold pushWorkerSettingsUpdate pushed
  cases account.gateway with
  | none => exact congrArg _ (List.append_nil made).symm
  | some gateway =>
      by_cases h : gateway = ""
      · simp only [if_pos h]
        exact congrArg _ (List.append_nil made).symm
      · simp only [if_neg h]
        rfl

theorem run_pushToEach (n : Nat) (accounts : List Account) (made : List Call) :
    (pushToEach co n accounts).run (fun c made => (answer c, made ++ [c])) made =
      (.ok (), made ++ accounts.flatMap fun account =>
        pushed account (resolveAccountSettings (parseAccountSettings co account.settings) n)) := by
  induction accounts generalizing made with
  | nil => exact congrArg _ (List.append_nil made).symm
  | cons account accounts ih =>
      rw [pushToEach, run_bind, run_pushWorkerSettingsUpdate]
      exact (ih _).trans (congrArg _ (List.append_assoc _ _ _))

/-- The owner's command pushes what it has just stored. -/
theorem trace_setMaxOpenOrders (account : Account) (value : Option Nat) {raw : Json}
    (h : answer (.updateSettings account.id (pyStr maxOpenOrdersKey, capJson value)) = some raw) :
    ((setMaxOpenOrders co account value).trace answer).2 =
      [.updateSettings account.id (pyStr maxOpenOrdersKey, capJson value),
        .getSetting maxOpenOrdersKey] ++
        pushed account (told co raw (answer (.getSetting maxOpenOrdersKey))) := by
  simp only [trace, setMaxOpenOrders, Coro.run, h]
  rw [run_bind, run_pushWorkerSettingsUpdate]
  rfl

theorem trace_pushMaxOpenOrders :
    ((pushMaxOpenOrders co).trace answer).2 =
      [.getSetting maxOpenOrdersKey, .getAll] ++ (answer .getAll).flatMap fun account =>
        pushed account (told co account.settings (answer (.getSetting maxOpenOrdersKey))) := by
  simp only [trace, pushMaxOpenOrders, Coro.run]
  rw [run_pushToEach]
  rfl

/-- The coercions of the handshake's consumer. -/
def coercions (reads : LaxReads) : Coercions := ⟨reads.readBool, reads.readInt⟩

theorem trace_buildAccountSettings (cfg : Handshake.Config) (event : Handshake.WorkerConnected)
    (reply : (c : Handshake.Call) → c.Result) {raw : Json}
    (h : reply (.getSettings
      (Handshake.decomposeWorkerId event.accountId event.market event.gateway) event.market
        event.gateway) = .ok raw) :
    ((Handshake.buildAccountSettings cfg event).trace reply).1 =
      .ok (told (coercions cfg.reads) raw (reply (.get maxOpenOrdersKey))) := by
  simp only [trace, Handshake.buildAccountSettings, Coro.run, h]
  rfl

/-- `block` is what the owner's command and the handshake hand on for the stored `raw`
and `text`, and what the admin's command pushes to the account among the others. The
calls of a command are all that is told of it: its answers are what they are. -/
structure HandedOn (cfg : Handshake.Config) (raw : Json) (text : Option String)
    (block : AccountSettings) : Prop where
  owner : ∀ (account : Account) (value : Option Nat) (answer : (c : Call) → c.Result),
    answer (.updateSettings account.id (pyStr maxOpenOrdersKey, capJson value)) = some raw →
      answer (.getSetting maxOpenOrdersKey) = text →
        ((setMaxOpenOrders (coercions cfg.reads) account value).trace answer).2 =
          [.updateSettings account.id (pyStr maxOpenOrdersKey, capJson value),
            .getSetting maxOpenOrdersKey] ++ pushed account block
  admin : ∀ (account : Account) (before after : List Account) (answer : (c : Call) → c.Result),
    answer .getAll = before ++ account :: after → account.settings = raw →
      answer (.getSetting maxOpenOrdersKey) = text →
        ∃ made made', ((pushMaxOpenOrders (coercions cfg.reads)).trace answer).2 =
          made ++ pushed account block ++ made'
  handshake : ∀ (event : Handshake.WorkerConnected) (reply : (c : Handshake.Call) → c.Result),
    reply (.getSettings
      (Handshake.decomposeWorkerId event.accountId event.market event.gateway) event.market
        event.gateway) = .ok raw →
      reply (.get maxOpenOrdersKey) = text →
        ((Handshake.buildAccountSettings cfg event).trace reply).1 = .ok block

theorem handedOn_told (cfg : Handshake.Config) (raw : Json) (text : Option String) :
    HandedOn cfg raw text (told (coercions cfg.reads) raw text) where
  owner account value answer hstored htext := by
    rw [trace_setMaxOpenOrders answer account value hstored, htext]
  admin account before after answer hall hraw htext := by
    rw [trace_pushMaxOpenOrders, hall, htext, List.flatMap_append, List.flatMap_cons, hraw]
    simp only [← List.append_assoc]
    exact ⟨_, _, rfl⟩
  handshake event reply hstored htext := by
    rw [trace_buildAccountSettings cfg event reply hstored, htext]

/-- The block is built whatever the stored values are, each field of it has what the schema
makes of its own key or the default, and the live pushes and the handshake hand the same one
on. -/
theorem settings_salvaged {cfg : Handshake.Config} (hnull : cfg.reads.bool .null = none)
    {raw : Json} (hkeys : DistinctKeys raw) (text : Option String) :
    construct (coercions cfg.reads) raw = some (parseAccountSettings (coercions cfg.reads) raw) ∧
    (told (coercions cfg.reads) raw text).signalBlocked =
      ((alone (coercions cfg.reads) raw signalBlockedKey).map
        AccountSettings.signalBlocked).getD false ∧
    (told (coercions cfg.reads) raw text).maxOpenOrders =
      some (((alone (coercions cfg.reads) raw maxOpenOrdersKey).bind
        AccountSettings.maxOpenOrders).getD (parseGlobalMaxOpenOrders text)) ∧
    HandedOn cfg raw text (told (coercions cfg.reads) raw text) :=
  ⟨construct_eq raw, told_signalBlocked hnull hkeys text, told_maxOpenOrders hkeys text,
    handedOn_told cfg raw text⟩

/-! ## A cap edited by hand -/

namespace Garbage

/-- The account is blocked, and its cap is no number. -/
def raw : Json :=
  .obj [(pyStr signalBlockedKey, .bool true), (pyStr maxOpenOrdersKey, .str (pyStr "garbage"))]

def cfg : Handshake.Config where
  reads := ⟨fun _ => none, fun _ => none, fun _ => none, fun _ => none, fun n => some n⟩
  lib := ⟨fun _ => none, id, fun _ => true, 200⟩
  loads _ := .decodeError
  hasSignals := true

theorem raw_keys : DistinctKeys raw := by
  show ([pyStr signalBlockedKey, pyStr maxOpenOrdersKey]).Nodup
  decide

end Garbage

/-- The account stays blocked, with the global cap. -/
theorem settings_salvaged_garbage :
    (told (coercions Garbage.cfg.reads) Garbage.raw (some "7")).signalBlocked = true ∧
    (told (coercions Garbage.cfg.reads) Garbage.raw (some "7")).maxOpenOrders = some 7 :=
  have h := @settings_salvaged Garbage.cfg rfl Garbage.raw Garbage.raw_keys (some "7")
  ⟨h.2.1.trans (by decide), h.2.2.1.trans (by decide)⟩

end TradingBroker.Settings
