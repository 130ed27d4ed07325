import TradingBroker.Handshake.Answer
import TradingBroker.Wire.Envelope

/-!
# The magic map

`POST /settings/strategy-magic-map` stores the text of the map, and the handshake reads the map of
the text and picks from it what the worker announced. The keys come back as they were, whatever is
in them, and so do the numbers.

The text is stored as a setting and the map is cached for a while, so what a worker is
given is stated of one that asks when the cache has run out. How old a cached answer may
be is said in `Handshake.Caches`.
-/

namespace TradingBroker.Wire

open Security Handshake Lib

/-- `json.loads` as the handshake calls it. -/
def settingLoads (readFloat : PyStr → PyFloat) (limit : Nat) (text : String) : Loaded :=
  match loads readFloat limit (pyStr text) with
  | .ok v _ => .value v
  | .error _ _ => .decodeError
  | _ => .raises

/-- `body.magic_map`, a `dict[str, int]`. -/
abbrev RequestMap := List (String × Int)

def RequestMap.json (magicMap : RequestMap) : Json :=
  .obj (magicMap.map fun item => (pyStr item.1, .int item.2))

/-- The value `set_strategy_magic_map` stores. -/
def setStrategyMagicMap (spell : Rat → PyStr) (limit : Nat) (magicMap : RequestMap) :
    Except DumpError String :=
  (dumps spell limit magicMap.json).map fun t => String.ofList (t.map Char.ofNat)

theorem pyStr_ofList {t : PyStr} (h : Ascii t) :
    pyStr (String.ofList (t.map Char.ofNat)) = t := by
  rw [pyStr, String.toList_ofList, List.map_map]
  refine (List.map_congr_left fun c hc => ?_).trans (List.map_id t)
  have hlt := h c hc
  show (Char.ofNat c).toNat = c
  have hvalid : c.isValidChar := .inl (by omega)
  rw [Char.ofNat, dif_pos hvalid]
  rfl

section
variable {readFloat : PyStr → PyFloat} {spell : Rat → PyStr} {limit limit' : Nat}
  {magicMap : RequestMap} {text : String}

theorem readable_requestMap (hkeys : (magicMap.map Prod.fst).Nodup) :
    Readable readFloat spell magicMap.json := by
  rw [RequestMap.json, readable_obj, List.map_map]
  refine ⟨?_, fun kv hkv => ?_⟩
  · have hcomp : (Prod.fst ∘ fun item : String × Int => (pyStr item.1, Json.int item.2)) =
        pyStr ∘ Prod.fst := rfl
    rw [hcomp, ← List.map_map]
    exact hkeys.map_on fun a _ b _ h => pyStr_inj h
  · obtain ⟨item, -, rfl⟩ := List.mem_map.1 hkv
    exact ⟨joined_pyStr item.1, trivial⟩

/-- The stored text is read as the map. -/
theorem parse_stored (hkeys : (magicMap.map Prod.fst).Nodup) (hlimit : limit ≤ limit')
    (h : setStrategyMagicMap spell limit magicMap = .ok text) :
    parseStrategyMagicMap (settingLoads readFloat limit') (some text) =
      .ok (magicMap.map fun item => (pyStr item.1, item.2)) := by
  have hmap : Readable readFloat spell magicMap.json := readable_requestMap hkeys
  obtain ⟨t, ht, rfl⟩ := map_ok h
  have hcodes := pyStr_ofList (ascii_dumps _ hmap ht)
  have hload := loads_dumps hmap ht hlimit
  have hne : String.ofList (t.map Char.ofNat) ≠ "" := by
    intro hempty
    rw [hempty] at hcodes
    obtain ⟨c, cs, hcons, -⟩ := begins_dumps hmap ht
    rw [hcons] at hcodes
    cases hcodes
  rw [parseStrategyMagicMap, if_neg hne, settingLoads, hcodes, hload]
  simp only [RequestMap.json, List.filterMap_map]
  congr 1
  rw [← List.filterMap_eq_map]
  rfl

theorem find_strategy (strategies : List String) (name : String) :
    (strategies.find? fun s => pyStr s == pyStr name) =
      if name ∈ strategies then some name else none := by
  induction strategies with
  | nil => rfl
  | cons s strategies ih =>
      rw [List.find?_cons]
      by_cases hs : s = name
      · rw [hs, beq_self_eq_true, if_pos List.mem_cons_self]
      · have hne : (pyStr s == pyStr name) = false := by
          rw [beq_eq_false_iff_ne]
          exact fun heq => hs (pyStr_inj heq)
        rw [hne]
        simp only [ih, List.mem_cons, Ne.symm hs, false_or]

/-- Past its cache, the map is the stored one, if that is a map. -/
theorem run_getStrategyMagicMap {cfg : Handshake.Config} {w : World} {values : MagicMap}
    (hstale : cached w.magicMapCache (w.monotonic w.draws) = none)
    (hparse : parseStrategyMagicMap cfg.loads (w.settings strategyMagicMapKey) = .ok values) :
    ((getStrategyMagicMap cfg).run Handshake.exec w).1 = .ok values := by
  have hfetch : ∀ now : Rat, ∀ w' : World, w'.settings = w.settings →
      ((fetchStrategyMagicMap cfg now).run Handshake.exec w').1 = .ok values := by
    intro now w' hsettings
    rw [fetchStrategyMagicMap, Coro.run]
    simp only [Handshake.exec, hsettings, hparse]
    rfl
  rw [getStrategyMagicMap, Coro.run, Coro.run]
  simp only [Handshake.exec, hstale]
  exact hfetch _ _ rfl

/-- A worker that announces itself past the cache's time is given, of the map that was stored,
the strategies it announced. -/
theorem magic_map_arrives {cfg : Handshake.Config}
    (hcfg : cfg.loads = settingLoads readFloat limit')
    (hkeys : (magicMap.map Prod.fst).Nodup) (hlimit : limit ≤ limit')
    (hset : setStrategyMagicMap spell limit magicMap = .ok text) {w : World}
    (hstored : w.settings strategyMagicMapKey = some text)
    (hstale : cached w.magicMapCache (w.monotonic w.draws) = none) (strategies : List String) :
    ((buildStrategyMagicMap cfg strategies).run Handshake.exec w).1 =
      .ok (magicMap.filter fun item => strategies.contains item.1) := by
  have hparse : parseStrategyMagicMap cfg.loads (w.settings strategyMagicMapKey) =
      .ok (magicMap.map fun item => (pyStr item.1, item.2)) := by
    rw [hcfg, hstored]
    exact parse_stored hkeys hlimit hset
  have hmap := run_getStrategyMagicMap hstale hparse
  rw [buildStrategyMagicMap]
  cases strategies with
  | nil =>
      have hnone : (magicMap.filter fun item => [].contains item.1) = [] := by simp
      rw [hnone]
      rfl
  | cons s strategies =>
      rw [if_neg (by simp), Coro.run_bind]
      cases hrun : (getStrategyMagicMap cfg).run Handshake.exec w with
      | mk result w' =>
          rw [hrun] at hmap
          simp only at hmap
          rw [hmap]
          show Except.ok _ = Except.ok _
          congr 1
          rw [List.filterMap_map, ← List.filterMap_eq_filter]
          refine List.filterMap_congr fun item _ => ?_
          simp only [Function.comp, find_strategy, List.contains_iff_mem, Option.guard]
          split <;> rfl

end

namespace Mapped

def magicMap : RequestMap := [("gold", 20260409), ("wt \"v2\"", -3), ("idle", 7)]

def cfg : Handshake.Config where
  reads := Arriving.co
  lib :=
    { coerce := fun _ => none, upper := fun s => s, accepts := fun _ => true, maxNesting := 1 }
  loads := settingLoads Sample.readFloat 1
  hasSignals := false

/-- A consumer that has not read the map before. -/
def world (text : String) : World where
  settings key := if key = strategyMagicMapKey then some text else none
  upsertGateway _ _ _ := .ok ()
  accountSettings _ _ _ := .ok .null
  recent _ _ := .ok []
  monotonic n := n
  utcnow n := n
  uxid _ := Arriving.uxid
  draws := 0
  cryptoCache := none
  magicMapCache := none
  published := []

theorem isOk_stored : (setStrategyMagicMap Sample.spell 1 magicMap).isOk = true := by decide

theorem stored : ∃ text, setStrategyMagicMap Sample.spell 1 magicMap = .ok text := by
  cases h : setStrategyMagicMap Sample.spell 1 magicMap with
  | ok text => exact ⟨text, rfl⟩
  | error e => exact absurd isOk_stored (by rw [h]; exact Bool.false_ne_true)

end Mapped

theorem magic_map_arrives_sample :
    ∃ text, setStrategyMagicMap Sample.spell 1 Mapped.magicMap = .ok text ∧
      ((buildStrategyMagicMap Mapped.cfg ["wt \"v2\"", "gold", "other"]).run Handshake.exec
        (Mapped.world text)).1 =
        .ok (Mapped.magicMap.filter fun item =>
          ["wt \"v2\"", "gold", "other"].contains item.1) := by
  obtain ⟨text, htext⟩ := Mapped.stored
  exact ⟨text, htext, magic_map_arrives rfl (by decide) (Nat.le_refl 1) htext rfl rfl _⟩

end TradingBroker.Wire
