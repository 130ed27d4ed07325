import Mathlib.Tactic.Linarith
import TradingBroker.Handshake.Answer
import TradingBroker.Lib.Contract

/-!
# How old an answer may be

Any number of announcements are answered, while the settings are written and time passes; between
two awaits of one callback any other may go on. What a worker is told of the broker's settings was
in the database less than the life of a cache before the worker asked, and the two crypto settings
at one and the same time. A read that fails is nothing found, and is kept as long: for that time
crypto workers are refused as if nothing was configured, and the others are given no magic numbers.

Two things are kept of the past for the statements alone: what was stored when, and when a read
failed and of what.

A cached value carries the clock reading that was taken before it was looked up, so it was
in the database then or later (`CachesTruthful`). An answer uses a value that is younger
than the life of a cache by the clock at the time it is used, which is not before the
worker asked; so the value was in the database less than that life before (`Recent`).
Nothing of this needs one callback to run alone: two that miss the cache both look up, and
whichever stores last stores something that was seen.
-/

namespace TradingBroker.Handshake

open TradingBroker.Lib

/-! ## The desk -/

/-- The consumer with its caches, and the database. -/
structure Desk where
  clock : Rat
  settings : String → Option String
  cryptoCache : Option (CryptoSettings × Rat)
  magicMapCache : Option (MagicMap × Rat)
  moments : List (Rat × (String → Option String))
  outages : List (Rat × List String)

inductive Desk.Event where
  | announce (msg : SystemMessage)
  | set (key value : String)
  | elapse (seconds : Rat)

/-- How a call goes: whether a read of the settings fails, and what is answered that does not
depend on them. -/
structure Reply where
  fails : Bool
  other : (c : Call) → c.Result

namespace Desk

def respond (x : Reply) (s : Desk) : (c : Call) → c.Result
  | .monotonic => s.clock
  | .get key => if x.fails then none else s.settings key
  | .getMany keys =>
      if x.fails then [] else keys.filterMap fun key => (s.settings key).map fun v => (key, v)
  | .cryptoCache => s.cryptoCache
  | .magicMapCache => s.magicMapCache
  | c => x.other c

def effect (x : Reply) (s : Desk) : Call → Desk
  | .get key => if x.fails then { s with outages := (s.clock, [key]) :: s.outages } else s
  | .getMany keys => if x.fails then { s with outages := (s.clock, keys) :: s.outages } else s
  | .cacheCrypto values at_ => { s with cryptoCache := some (values, at_) }
  | .cacheMagicMap values at_ => { s with magicMapCache := some (values, at_) }
  | _ => s

def change (s : Desk) : Event → Option Desk
  | .announce _ => none
  | .set key value =>
      let settings := Function.update s.settings key (some value)
      some { s with settings, moments := (s.clock, settings) :: s.moments }
  | .elapse seconds =>
      if 0 ≤ seconds then
        let clock := s.clock + seconds
        some { s with clock, moments := (clock, s.settings) :: s.moments }
      else none

/-- A consumer that has just been started. -/
def opened (clock : Rat) (settings : String → Option String) : Desk where
  clock
  settings
  cryptoCache := none
  magicMapCache := none
  moments := [(clock, settings)]
  outages := []

end Desk

/-- When a message came, and the message. -/
abbrev Asked := Rat × SystemMessage

/-- The callbacks, each begun for the message that came. -/
def desk (cfg : Config) :
    Machine Nat Asked Desk Reply Desk.Event Call Call.Result Fault where
  exec _ _ c x s := some (s.respond x c, s.effect x c)
  start _ e s :=
    match e with
    | .announce msg => some ((s.clock, msg), handleSubjectSystem cfg msg, s)
    | _ => none
  env e s := s.change e
  crash _ _ _ := none

/-- Nothing has been announced. -/
def quietDesk (s : Desk) : Pool Nat Asked Desk Call Call.Result Fault :=
  ⟨s, fun _ => ((0, ⟨.malformed, ""⟩), .pure ())⟩

/-! ## What an answer may say -/

/-- The crypto settings as they were then, or not found by a read that failed. -/
def Desk.SawCrypto (s : Desk) (t : Rat) (values : CryptoSettings) : Prop :=
  (∃ settings, (t, settings) ∈ s.moments ∧
    values = (settings cryptoAllowedSymbolKey, settings cryptoMaxLeverageKey)) ∨
    ((t, [cryptoAllowedSymbolKey, cryptoMaxLeverageKey]) ∈ s.outages ∧ values = (none, none))

def Desk.SawMagicMap (cfg : Config) (s : Desk) (t : Rat) (values : MagicMap) : Prop :=
  (∃ settings, (t, settings) ∈ s.moments ∧
    parseStrategyMagicMap cfg.loads (settings strategyMagicMapKey) = .ok values) ∨
    ((t, [strategyMagicMapKey]) ∈ s.outages ∧ values = [])

/-- `{k: v for k, v in magic_map.items() if k in announced}`. -/
def announcedPart (strategies : List String) (magicMap : MagicMap) : List (String × Int) :=
  magicMap.filterMap fun item =>
    (strategies.find? fun s => pyStr s == item.1).map fun s => (s, item.2)

/-- The announcement in a message. -/
def SystemMessage.announced (cfg : Config) (msg : SystemMessage) : Option WorkerConnected :=
  match msg.data with
  | .json (.obj data) =>
      if announces data then WorkerConnected.ofFields cfg.reads data else none
  | _ => none

/-- A time less than a cache's life before the worker asked, or later. -/
def Recent (asked : Asked) (t : Rat) : Prop := asked.1 - cryptoSettingsCacheTtlSeconds < t

/-- The leverage block of an ACK. -/
def Desk.LeverageRecent (s : Desk) (asked : Asked) (event : WorkerConnected) :
    Option CryptoLeverageConfig → Prop
  | none => event.market = .forex
  | some block => event.market = .crypto ∧
      ∃ t values, Recent asked t ∧ s.SawCrypto t values ∧ leverageOf values = .ok block

/-- Its magic map. -/
def Desk.MagicMapRecent (cfg : Config) (s : Desk) (asked : Asked) (event : WorkerConnected)
    (magicMap : List (String × Int)) : Prop :=
  if event.strategies = [] then magicMap = []
  else ∃ t values, Recent asked t ∧ s.SawMagicMap cfg t values ∧
    magicMap = announcedPart event.strategies values

/-- An answer says what the settings were recently. -/
def Desk.Truthful (cfg : Config) (s : Desk) (asked : Asked) : Answer → Prop
  | .ack a => ∃ event, asked.2.announced cfg = some event ∧ a.accountId = event.accountId ∧
      s.LeverageRecent asked event a.cryptoLeverageInit ∧
      s.MagicMapRecent cfg asked event a.strategyMagicMap
  | .error e => ∀ event, asked.2.announced cfg = some event →
      event.market = .crypto ∧
        ∃ t values, Recent asked t ∧ s.SawCrypto t values ∧ leverageOf values = .error e.reason

/-! ## The contract -/

/-- What a cache holds was seen when it says, or later. -/
def Desk.CachesTruthful (cfg : Config) (s : Desk) : Prop :=
  (∀ values at_, s.cryptoCache = some (values, at_) → ∃ t, at_ ≤ t ∧ s.SawCrypto t values) ∧
    ∀ values at_, s.magicMapCache = some (values, at_) → ∃ t, at_ ≤ t ∧ s.SawMagicMap cfg t values

/-- The invariant: the present is on record, and the caches hold what is on record. -/
structure Desk.Sound (cfg : Config) (s : Desk) : Prop where
  now : (s.clock, s.settings) ∈ s.moments
  caches : s.CachesTruthful cfg

def callAllowed (cfg : Config) (asked : Asked) (s : Desk) : Call → Prop
  | .publish _ answer => s.Truthful cfg asked answer
  | .cacheCrypto values at_ => ∃ t, at_ ≤ t ∧ s.SawCrypto t values
  | .cacheMagicMap values at_ => ∃ t, at_ ≤ t ∧ s.SawMagicMap cfg t values
  | _ => True

/-- The past is only added to. -/
structure Desk.Grows (s s' : Desk) : Prop where
  clock : s.clock ≤ s'.clock
  moments : s.moments ⊆ s'.moments
  outages : s.outages ⊆ s'.outages

theorem Desk.SawCrypto.grows {s s' : Desk} {t : Rat} {values : CryptoSettings}
    (h : s.SawCrypto t values) (hs : s.Grows s') : s'.SawCrypto t values := by
  rcases h with ⟨settings, hmem, hvalues⟩ | ⟨hmem, hvalues⟩
  · exact .inl ⟨settings, hs.moments hmem, hvalues⟩
  · exact .inr ⟨hs.outages hmem, hvalues⟩

theorem Desk.SawMagicMap.grows {cfg : Config} {s s' : Desk} {t : Rat} {values : MagicMap}
    (h : s.SawMagicMap cfg t values) (hs : s.Grows s') : s'.SawMagicMap cfg t values := by
  rcases h with ⟨settings, hmem, hvalues⟩ | ⟨hmem, hvalues⟩
  · exact .inl ⟨settings, hs.moments hmem, hvalues⟩
  · exact .inr ⟨hs.outages hmem, hvalues⟩

theorem Desk.grows_effect (x : Reply) (s : Desk) (c : Call) : s.Grows (s.effect x c) := by
  have hself : ∀ t, s.Grows { s with outages := t :: s.outages } := fun t =>
    ⟨le_refl _, fun _ h => h, List.subset_cons_self _ _⟩
  cases c with
  | get key =>
      simp only [Desk.effect]
      split
      · exact hself _
      · exact ⟨le_refl _, fun _ h => h, fun _ h => h⟩
  | getMany keys =>
      simp only [Desk.effect]
      split
      · exact hself _
      · exact ⟨le_refl _, fun _ h => h, fun _ h => h⟩
  | _ => exact ⟨le_refl _, fun _ h => h, fun _ h => h⟩

theorem Desk.change_cases {s s' : Desk} {e : Desk.Event} (h : s.change e = some s') :
    s.Grows s' ∧ (s'.clock, s'.settings) ∈ s'.moments ∧ s'.cryptoCache = s.cryptoCache ∧
      s'.magicMapCache = s.magicMapCache := by
  cases e with
  | announce msg => cases h
  | set key value =>
      cases h
      exact ⟨⟨le_refl _, List.subset_cons_self _ _, fun _ h => h⟩, List.mem_cons_self, rfl, rfl⟩
  | elapse seconds =>
      simp only [Desk.change] at h
      split at h
      · next hpos =>
          cases h
          refine ⟨⟨?_, List.subset_cons_self _ _, fun _ h => h⟩, List.mem_cons_self, rfl, rfl⟩
          show s.clock ≤ s.clock + seconds
          linarith
      · cases h

theorem Desk.Sound.effect {cfg : Config} {asked : Asked} {s : Desk} {c : Call} (x : Reply)
    (hs : s.Sound cfg) (hc : callAllowed cfg asked s c) : (s.effect x c).Sound cfg := by
  have hgrows := s.grows_effect x c
  have hsame : (s.effect x c).clock = s.clock ∧ (s.effect x c).settings = s.settings := by
    cases c with
    | get key => simp only [Desk.effect]; split <;> exact ⟨rfl, rfl⟩
    | getMany keys => simp only [Desk.effect]; split <;> exact ⟨rfl, rfl⟩
    | _ => exact ⟨rfl, rfl⟩
  refine ⟨by rw [hsame.1, hsame.2]; exact hgrows.moments hs.now, fun values at_ h => ?_,
    fun values at_ h => ?_⟩
  · have hsaw : ∃ t, at_ ≤ t ∧ s.SawCrypto t values := by
      cases c with
      | cacheCrypto values' at' =>
          cases h
          exact hc
      | get key => simp only [Desk.effect] at h; split at h <;> exact hs.caches.1 _ _ h
      | getMany keys => simp only [Desk.effect] at h; split at h <;> exact hs.caches.1 _ _ h
      | _ => exact hs.caches.1 _ _ h
    obtain ⟨t, ht, hsaw⟩ := hsaw
    exact ⟨t, ht, hsaw.grows hgrows⟩
  · have hsaw : ∃ t, at_ ≤ t ∧ s.SawMagicMap cfg t values := by
      cases c with
      | cacheMagicMap values' at' =>
          cases h
          exact hc
      | get key => simp only [Desk.effect] at h; split at h <;> exact hs.caches.2 _ _ h
      | getMany keys => simp only [Desk.effect] at h; split at h <;> exact hs.caches.2 _ _ h
      | _ => exact hs.caches.2 _ _ h
    obtain ⟨t, ht, hsaw⟩ := hsaw
    exact ⟨t, ht, hsaw.grows hgrows⟩

/-- What a move does to the desk. -/
theorem desk_act {cfg : Config} {l : Label Nat Asked Reply Desk.Event Call} {s s' : Desk}
    (h : (desk cfg).act l s = some s') :
    (∃ i asked c x, l = .call i asked c x ∧ s' = s.effect x c) ∨ s' = s ∨
      ∃ e, s.change e = some s' := by
  cases l with
  | call i asked c x =>
      cases h
      exact .inl ⟨i, asked, c, x, rfl, rfl⟩
  | start i e =>
      cases e with
      | announce msg =>
          cases h
          exact .inr (.inl rfl)
      | _ => cases h
  | env e => exact .inr (.inr ⟨e, h⟩)
  | crash i k => cases h

theorem desk_grows {cfg : Config} {l : Label Nat Asked Reply Desk.Event Call} {s s' : Desk}
    (h : (desk cfg).act l s = some s') : s.Grows s' := by
  rcases desk_act h with ⟨_, _, c, x, -, rfl⟩ | rfl | ⟨e, he⟩
  · exact s.grows_effect x c
  · exact ⟨le_refl _, fun _ h => h, fun _ h => h⟩
  · exact (Desk.change_cases he).1

def deskContract (cfg : Config) : Contract (desk cfg) where
  inv := Desk.Sound cfg
  pre _ asked c s := callAllowed cfg asked s c
  post _ _ _ := True
  keeps := by
    intro s l s' hs hl h
    rcases desk_act h with ⟨i, asked, c, x, rfl, rfl⟩ | rfl | ⟨e, he⟩
    · exact hs.effect x hl
    · exact hs
    · obtain ⟨hgrows, hnow, hcrypto, hmap⟩ := Desk.change_cases he
      refine ⟨hnow, fun values at_ h => ?_, fun values at_ h => ?_⟩
      · obtain ⟨t, ht, hsaw⟩ := hs.caches.1 values at_ (hcrypto ▸ h)
        exact ⟨t, ht, hsaw.grows hgrows⟩
      · obtain ⟨t, ht, hsaw⟩ := hs.caches.2 values at_ (hmap ▸ h)
        exact ⟨t, ht, hsaw.grows hgrows⟩

/-! ## The callback keeps it -/

section
variable {cfg : Config} {i : Nat} {asked : Asked} {α : Type}

/-- What the past once shows it shows from then on. -/
theorem persistent_of_grows {F : Desk → Prop} (hF : ∀ s s', s.Grows s' → F s → F s') :
    (deskContract cfg).Persistent F :=
  fun s _ s' _ _ _ h => hF s s' (desk_grows h)

/-- It is not before the worker asked. -/
def Since (asked : Asked) (s : Desk) : Prop := asked.1 ≤ s.clock

theorem persistent_since : (deskContract cfg).Persistent (Since asked) :=
  persistent_of_grows fun _ _ hs h => le_trans h hs.clock

abbrev KeepsDesk (cfg : Config) (i : Nat) (asked : Asked) {α : Type} (P : Desk → Prop)
    (p : Prog α) (Q : α → Desk → Prop) : Prop :=
  (deskContract cfg).Spec i asked P p Q fun _ _ => True

/-- A call nothing has to be known for, and nothing is asked of. -/
theorem keeps_call {P : Desk → Prop} {Q : α → Desk → Prop} {c : Call} {f : c.Result → Prog α}
    (hP : (deskContract cfg).Persistent P) (hc : ∀ s, callAllowed cfg asked s c)
    (hf : ∀ r, KeepsDesk cfg i asked P (f r) Q) : KeepsDesk cfg i asked P (.call c f) Q := by
  refine Contract.Spec.call (fun _ => P) hP.stable (fun s _ _ => hc s) ?_ hf
  intro s x r s' hs hPs hexec hs'
  have hact : (desk cfg).act (.call i asked c x) s = some s' := by
    simp only [Machine.act, hexec, Option.map_some]
  exact hP s (.call i asked c x) s' hs hs' (hc s) hact hPs

theorem keeps_pure {P : Desk → Prop} (hP : (deskContract cfg).Persistent P) (a : α) :
    KeepsDesk cfg i asked P (.pure a) fun _ => P :=
  .pure hP.stable fun _ _ h => h

theorem keeps_raise {P : Desk → Prop} {Q : α → Desk → Prop} (e : Fault) :
    KeepsDesk cfg i asked P (.raise e) Q :=
  .raise (fun _ _ _ _ => trivial) fun _ _ _ => trivial

/-- The values were in the database recently. -/
def CryptoRecent (asked : Asked) (values : CryptoSettings) (s : Desk) : Prop :=
  ∃ t, Recent asked t ∧ s.SawCrypto t values

def MapRecent (cfg : Config) (asked : Asked) (values : MagicMap) (s : Desk) : Prop :=
  ∃ t, Recent asked t ∧ s.SawMagicMap cfg t values

theorem persistent_cryptoRecent (values : CryptoSettings) :
    (deskContract cfg).Persistent (CryptoRecent asked values) :=
  persistent_of_grows fun _ _ hs ⟨t, ht, hsaw⟩ => ⟨t, ht, hsaw.grows hs⟩

theorem persistent_mapRecent (values : MagicMap) :
    (deskContract cfg).Persistent (MapRecent cfg asked values) :=
  persistent_of_grows fun _ _ hs ⟨t, ht, hsaw⟩ => ⟨t, ht, hsaw.grows hs⟩

theorem ttl_pos : (0 : Rat) < cryptoSettingsCacheTtlSeconds := by decide

/-- What a fresh cache holds was seen recently, the callback having read the clock since. -/
theorem recent_of_cached {γ : Type} {Saw : Rat → γ → Prop} {cache : Option (γ × Rat)}
    (hcache : ∀ values at_, cache = some (values, at_) → ∃ t, at_ ≤ t ∧ Saw t values)
    {now : Rat} (hnow : asked.1 ≤ now) {values : γ} (h : cached cache now = some values) :
    ∃ t, Recent asked t ∧ Saw t values := by
  unfold cached at h
  split at h
  · next values' at_ =>
      split at h
      · next hfresh =>
          cases h
          obtain ⟨t, ht, hsaw⟩ := hcache values at_ rfl
          refine ⟨t, ?_, hsaw⟩
          unfold Recent
          linarith
      · cases h
  · cases h

theorem recent_of_now {now t : Rat} (hnow : asked.1 ≤ now) (ht : now ≤ t) : Recent asked t := by
  have hpos := ttl_pos
  unfold Recent
  linarith

/-- The callback read the clock as `now`. -/
def Clocked (asked : Asked) (now : Rat) (s : Desk) : Prop := asked.1 ≤ now ∧ now ≤ s.clock

theorem persistent_clocked (now : Rat) : (deskContract cfg).Persistent (Clocked asked now) :=
  persistent_of_grows fun _ _ hs h => ⟨h.1, le_trans h.2 hs.clock⟩

/-- A call whose answer says something that stays true. -/
theorem keeps_read {P : Desk → Prop} {Q : α → Desk → Prop} {c : Call} {f : c.Result → Prog α}
    (P' : c.Result → Desk → Prop) (hP : (deskContract cfg).Persistent P)
    (hc : ∀ s, callAllowed cfg asked s c)
    (hread : ∀ s x, s.Sound cfg → P s → P' (s.respond x c) (s.effect x c))
    (hf : ∀ r, KeepsDesk cfg i asked (P' r) (f r) Q) : KeepsDesk cfg i asked P (.call c f) Q := by
  refine Contract.Spec.call P' hP.stable (fun s _ _ => hc s) ?_ hf
  intro s x r s' hs hPs hexec _
  cases hexec
  exact hread s x hs hPs

theorem keeps_fetchCrypto (now : Rat) :
    KeepsDesk cfg i asked (Clocked asked now) (fetchCryptoSettings now)
      (CryptoRecent asked) := by
  rw [fetchCryptoSettings]
  refine keeps_read (fun rows s => asked.1 ≤ now ∧ ∃ t, now ≤ t ∧
    s.SawCrypto t (rows.lookup cryptoAllowedSymbolKey, rows.lookup cryptoMaxLeverageKey))
    (persistent_clocked now) (fun _ => trivial) ?_ fun rows => ?_
  · intro s x hs hnow
    refine ⟨hnow.1, s.clock, hnow.2, ?_⟩
    simp only [Desk.respond, Desk.effect]
    split
    · exact .inr ⟨List.mem_cons_self, rfl⟩
    · exact .inl ⟨s.settings, hs.now, lookup_rows s.settings⟩
  · have hpersistent : (deskContract cfg).Persistent fun s => asked.1 ≤ now ∧ ∃ t, now ≤ t ∧
        s.SawCrypto t (rows.lookup cryptoAllowedSymbolKey, rows.lookup cryptoMaxLeverageKey) :=
      persistent_of_grows fun _ _ hs h => by
        obtain ⟨hnow, t, ht, hsaw⟩ := h
        exact ⟨hnow, t, ht, hsaw.grows hs⟩
    refine Contract.Spec.call (fun _ => CryptoRecent asked _) hpersistent.stable ?_ ?_
      fun _ => .pure (persistent_cryptoRecent _).stable fun _ _ h => h
    · exact fun s _ h => h.2
    · intro s x r s' _ h hexec _
      cases hexec
      obtain ⟨hnow, t, ht, hsaw⟩ := h
      exact ⟨t, recent_of_now hnow ht, hsaw.grows (s.grows_effect x _)⟩

theorem keeps_getCryptoSettings :
    KeepsDesk cfg i asked (Since asked) getCryptoSettings (CryptoRecent asked) := by
  rw [getCryptoSettings]
  refine keeps_read (fun now => Clocked asked now) persistent_since (fun _ => trivial)
    (fun s x _ h => ⟨h, le_refl _⟩) fun now => ?_
  refine keeps_read (fun cache s => Clocked asked now s ∧
    ∀ values at_, cache = some (values, at_) → ∃ t, at_ ≤ t ∧ s.SawCrypto t values)
    (persistent_clocked now) (fun _ => trivial) (fun s x hs h => ⟨h, hs.caches.1⟩) fun cache => ?_
  split
  · next values hcached =>
      refine .pure (persistent_cryptoRecent values).stable fun s _ h => ?_
      exact recent_of_cached h.2 h.1.1 hcached
  · exact (keeps_fetchCrypto now).pre fun _ _ h => h.1

theorem keeps_fetchMap (now : Rat) :
    KeepsDesk cfg i asked (Clocked asked now) (fetchStrategyMagicMap cfg now)
      (MapRecent cfg asked) := by
  rw [fetchStrategyMagicMap]
  refine keeps_read (fun raw s => asked.1 ≤ now ∧ ∀ values,
    parseStrategyMagicMap cfg.loads raw = .ok values → ∃ t, now ≤ t ∧ s.SawMagicMap cfg t values)
    (persistent_clocked now) (fun _ => trivial) ?_ fun raw => ?_
  · intro s x hs hnow
    refine ⟨hnow.1, fun values hvalues => ⟨s.clock, hnow.2, ?_⟩⟩
    simp only [Desk.respond, Desk.effect] at hvalues ⊢
    split at hvalues
    · next hfails =>
        rw [if_pos hfails]
        cases hvalues
        exact .inr ⟨List.mem_cons_self, rfl⟩
    · next hfails =>
        rw [if_neg hfails]
        exact .inl ⟨s.settings, hs.now, hvalues⟩
  · have hpersistent : (deskContract cfg).Persistent fun s => asked.1 ≤ now ∧ ∀ values,
        parseStrategyMagicMap cfg.loads raw = .ok values →
          ∃ t, now ≤ t ∧ s.SawMagicMap cfg t values :=
      persistent_of_grows fun _ _ hs h => ⟨h.1, fun values hvalues => by
        obtain ⟨t, ht, hsaw⟩ := h.2 values hvalues
        exact ⟨t, ht, hsaw.grows hs⟩⟩
    split
    · exact keeps_raise _
    · next values hvalues =>
        refine Contract.Spec.call (fun _ => MapRecent cfg asked values) hpersistent.stable
          ?_ ?_ fun _ => .pure (persistent_mapRecent values).stable fun _ _ h => h
        · exact fun s _ h => h.2 values hvalues
        · intro s x r s' _ h hexec _
          cases hexec
          obtain ⟨t, ht, hsaw⟩ := h.2 values hvalues
          exact ⟨t, recent_of_now h.1 ht, hsaw.grows (s.grows_effect x _)⟩

theorem keeps_getStrategyMagicMap :
    KeepsDesk cfg i asked (Since asked) (getStrategyMagicMap cfg) (MapRecent cfg asked) := by
  rw [getStrategyMagicMap]
  refine keeps_read (fun now => Clocked asked now) persistent_since (fun _ => trivial)
    (fun s x _ h => ⟨h, le_refl _⟩) fun now => ?_
  refine keeps_read (fun cache s => Clocked asked now s ∧
    ∀ values at_, cache = some (values, at_) → ∃ t, at_ ≤ t ∧ s.SawMagicMap cfg t values)
    (persistent_clocked now) (fun _ => trivial) (fun s x hs h => ⟨h, hs.caches.2⟩) fun cache => ?_
  split
  · next values hcached =>
      refine .pure (persistent_mapRecent values).stable fun s _ h => ?_
      exact recent_of_cached h.2 h.1.1 hcached
  · exact (keeps_fetchMap now).pre fun _ _ h => h.1

/-! Nothing else in the callback but the two replies says anything. -/

theorem keeps_replay {P : Desk → Prop} (hP : (deskContract cfg).Persistent P)
    (envelopes : List (RowId × Json)) :
    KeepsDesk cfg i asked P (replay cfg envelopes) fun _ => P := by
  induction envelopes with
  | nil => exact keeps_pure hP []
  | cons envelope envelopes ih =>
      obtain ⟨signalId, raw⟩ := envelope
      unfold replay
      split
      · exact keeps_pure hP []
      · next heq =>
          cases heq
          refine keeps_call hP (fun _ => trivial) fun minted => ?_
          split
          · exact ih
          · refine keeps_call hP (fun _ => trivial) fun now => ?_
            split
            · exact ih
            · exact .bind (fun _ => P) ih fun signals => keeps_pure hP _
      · next heq =>
          cases heq
          exact ih

theorem keeps_buildRetrySignals {P : Desk → Prop} (hP : (deskContract cfg).Persistent P)
    (strategies : List String) :
    KeepsDesk cfg i asked P (buildRetrySignals cfg strategies) fun _ => P := by
  have hwindow : KeepsDesk cfg i asked P getMaxRetryTimeoutSeconds fun _ => P := by
    refine keeps_call hP (fun _ => trivial) fun raw => ?_
    split
    · exact keeps_pure hP _
    · exact keeps_pure hP _
  rw [buildRetrySignals]
  split
  · exact keeps_pure hP []
  · refine .bind (fun _ => P) hwindow fun window => ?_
    refine keeps_call hP (fun _ => trivial) fun found => ?_
    split
    · exact keeps_pure hP []
    · exact keeps_replay hP _

theorem keeps_buildAccountSettings {P : Desk → Prop} (hP : (deskContract cfg).Persistent P)
    (event : WorkerConnected) :
    KeepsDesk cfg i asked P (buildAccountSettings cfg event) fun _ => P := by
  rw [buildAccountSettings]
  refine keeps_call hP (fun _ => trivial) fun found => ?_
  exact keeps_call hP (fun _ => trivial) fun text => keeps_pure hP _

theorem keeps_rememberWorker {P : Desk → Prop} (hP : (deskContract cfg).Persistent P)
    (event : WorkerConnected) :
    KeepsDesk cfg i asked P (rememberWorker event) fun _ => P :=
  keeps_call hP (fun _ => trivial) fun _ => keeps_pure hP ()

/-- A refusal with a reason that is true. -/
theorem keeps_replyError {P : Desk → Prop} (hP : (deskContract cfg).Persistent P)
    {reason : String}
    (htrue : ∀ s accountId timestamp, P s →
      s.Truthful cfg asked (.error { accountId, timestamp, reason }))
    (replyTo : String) (accountId : Json) :
    KeepsDesk cfg i asked P (replyError replyTo accountId reason) fun _ => P := by
  rw [replyError]
  split
  · exact keeps_pure hP ()
  · split
    · exact keeps_pure hP ()
    · next accountId _ =>
        refine keeps_call hP (fun _ => trivial) fun timestamp => ?_
        refine Contract.Spec.call (fun _ => P) hP.stable (fun s _ h => htrue s _ _ h) ?_
          fun _ => keeps_pure hP ()
        intro s x r s' _ h hexec _
        cases hexec
        exact h

/-- A worker is told why, or what it can be configured from was there recently. -/
theorem keeps_buildCryptoLeverage {event : WorkerConnected}
    (hevent : asked.2.announced cfg = some event) (hmarket : event.market = .crypto)
    (accountId replyTo : String) :
    KeepsDesk cfg i asked (Since asked) (buildCryptoLeverage accountId replyTo)
      fun found s => ∀ block, found = some block →
        ∃ t values, Recent asked t ∧ s.SawCrypto t values ∧ leverageOf values = .ok block := by
  have hrefused : ∀ {values : CryptoSettings} {reason : String},
      leverageOf values = .error reason → ∀ (s : Desk) accountId timestamp,
        CryptoRecent asked values s →
          s.Truthful cfg asked (.error { accountId, timestamp, reason }) := by
    intro values reason hreason s accountId timestamp hrecent event' hevent'
    rw [hevent] at hevent'
    cases hevent'
    obtain ⟨t, ht, hsaw⟩ := hrecent
    exact ⟨hmarket, t, values, ht, hsaw, hreason⟩
  have htold : ∀ {values : CryptoSettings} {reason : String},
      leverageOf values = .error reason →
        KeepsDesk cfg i asked (CryptoRecent asked values)
          (do replyError replyTo (dumpStr accountId) reason; return none)
          fun (found : Option CryptoLeverageConfig) s => ∀ block, found = some block →
            ∃ t values, Recent asked t ∧ s.SawCrypto t values ∧
              leverageOf values = .ok block := by
    intro values reason hreason
    refine .bind (fun _ => CryptoRecent asked values) (keeps_replyError
      (persistent_cryptoRecent values) (hrefused hreason) replyTo (dumpStr accountId)) fun _ => ?_
    exact .pure (fun _ _ _ _ _ h => by cases h) fun _ _ _ _ h => by cases h
  rw [buildCryptoLeverage]
  refine .bind (CryptoRecent asked) keeps_getCryptoSettings fun values => ?_
  obtain ⟨symbols, leverage⟩ := values
  cases symbols with
  | none => exact htold (by cases leverage <;> rfl)
  | some symbolsRaw =>
      cases leverage with
      | none => exact htold rfl
      | some leverageRaw =>
          simp only
          split
          · next hint => exact htold (by simp only [leverageOf, hint])
          · next defaultLeverage hint =>
              split
              · next hle => exact htold (by simp only [leverageOf, hint, if_pos hle])
              · next hle =>
                  have hblock : leverageOf (some symbolsRaw, some leverageRaw) =
                      .ok { symbols := splitSymbols symbolsRaw, defaultLeverage } := by
                    simp only [leverageOf, hint, if_neg hle]
                  have hpersistent : (deskContract cfg).Persistent fun s =>
                      ∀ block, some { symbols := splitSymbols symbolsRaw, defaultLeverage } =
                        some block → ∃ t values, Recent asked t ∧ s.SawCrypto t values ∧
                          leverageOf values = .ok block :=
                    persistent_of_grows fun _ _ hs h block hb => by
                      obtain ⟨t, values, ht, hsaw, hof⟩ := h block hb
                      exact ⟨t, values, ht, hsaw.grows hs, hof⟩
                  refine .pure hpersistent.stable fun s _ h block hb => ?_
                  cases hb
                  obtain ⟨t, ht, hsaw⟩ := h
                  exact ⟨t, _, ht, hsaw, hblock⟩

theorem persistent_leverageRecent (event : WorkerConnected) (block : Option CryptoLeverageConfig) :
    (deskContract cfg).Persistent fun s => s.LeverageRecent asked event block := by
  refine persistent_of_grows fun s s' hs h => ?_
  cases block with
  | none => exact h
  | some block =>
      obtain ⟨hmarket, t, values, ht, hsaw, hof⟩ := h
      exact ⟨hmarket, t, values, ht, hsaw.grows hs, hof⟩

theorem persistent_magicMapRecent (event : WorkerConnected) (magicMap : List (String × Int)) :
    (deskContract cfg).Persistent fun s => s.MagicMapRecent cfg asked event magicMap := by
  refine persistent_of_grows fun s s' hs h => ?_
  unfold Desk.MagicMapRecent at h ⊢
  split at h
  · next hnone => rw [if_pos hnone, h]
  · next hsome =>
      rw [if_neg hsome]
      obtain ⟨t, values, ht, hsaw, hmap⟩ := h
      exact ⟨t, values, ht, hsaw.grows hs, hmap⟩

theorem keeps_buildStrategyMagicMap (event : WorkerConnected) :
    KeepsDesk cfg i asked (Since asked) (buildStrategyMagicMap cfg event.strategies)
      fun magicMap s => s.MagicMapRecent cfg asked event magicMap := by
  rw [buildStrategyMagicMap]
  split
  · next hempty =>
      have hnone : event.strategies = [] := List.isEmpty_iff.1 hempty
      refine .pure (persistent_magicMapRecent event []).stable fun s _ _ => ?_
      rw [Desk.MagicMapRecent, if_pos hnone]
  · next hsome =>
      have hne : event.strategies ≠ [] := fun h => hsome (List.isEmpty_iff.2 h)
      refine .bind (MapRecent cfg asked) keeps_getStrategyMagicMap fun values => ?_
      refine .pure (persistent_magicMapRecent event _).stable fun s _ h => ?_
      obtain ⟨t, ht, hsaw⟩ := h
      rw [Desk.MagicMapRecent, if_neg hne]
      exact ⟨t, values, ht, hsaw, rfl⟩

/-- The ACK says what was read on the way to it. -/
theorem keeps_acknowledge {event : WorkerConnected}
    (hevent : asked.2.announced cfg = some event) (replyTo : String)
    (block : Option CryptoLeverageConfig) :
    KeepsDesk cfg i asked (fun s => Since asked s ∧ s.LeverageRecent asked event block)
      (acknowledge cfg replyTo event block) fun _ _ => True := by
  have hleverage : (deskContract cfg).Persistent fun s => s.LeverageRecent asked event block :=
    persistent_leverageRecent event block
  have hmap : ∀ magicMap, (deskContract cfg).Persistent fun s =>
      s.MagicMapRecent cfg asked event magicMap ∧ s.LeverageRecent asked event block := by
    intro magicMap
    exact fun s l s' hs hs' hl ha h =>
      ⟨persistent_magicMapRecent event magicMap s l s' hs hs' hl ha h.1,
        hleverage s l s' hs hs' hl ha h.2⟩
  have hsend : ∀ magicMap signals settings,
      KeepsDesk cfg i asked (fun s => s.MagicMapRecent cfg asked event magicMap ∧
        s.LeverageRecent asked event block)
        (replyAck replyTo event.accountId magicMap signals settings block) fun _ _ => True := by
    intro magicMap signals settings
    rw [replyAck]
    refine keeps_read (fun _ s => s.MagicMapRecent cfg asked event magicMap ∧
      s.LeverageRecent asked event block) (hmap magicMap) (fun _ => trivial)
      (fun s x _ h => h) fun timestamp => ?_
    refine Contract.Spec.call (fun _ _ => True) (hmap magicMap).stable ?_
      (fun _ _ _ _ _ _ _ _ => trivial) fun _ => .pure (fun _ _ _ _ => trivial) fun _ _ _ => trivial
    exact fun s _ h => ⟨event, hevent, rfl, h.2, h.1⟩
  rw [acknowledge]
  refine .bind (fun magicMap s => s.MagicMapRecent cfg asked event magicMap ∧
    s.LeverageRecent asked event block) ?_ fun magicMap => ?_
  · exact (Contract.Spec.frame hleverage (keeps_buildStrategyMagicMap event)).mono
      (fun _ _ h => h) (fun _ _ _ h => h) fun _ _ _ _ => trivial
  · refine .bind (fun _ => _) (keeps_buildRetrySignals (hmap magicMap) _) fun signals => ?_
    exact .bind (fun _ => _) (keeps_buildAccountSettings (hmap magicMap) event)
      fun settings => hsend magicMap signals settings

theorem keeps_answerWorker {event : WorkerConnected}
    (hevent : asked.2.announced cfg = some event) (replyTo : String) :
    KeepsDesk cfg i asked (Since asked) (answerWorker cfg replyTo event) fun _ _ => True := by
  have htrue : ∀ {γ : Type} (a : γ) (P : Desk → Prop),
      KeepsDesk cfg i asked P (pure a) fun _ _ => True :=
    fun a P => .pure (fun _ _ _ _ => trivial) fun _ _ _ => trivial
  rw [answerWorker]
  refine .bind (fun _ => Since asked) (keeps_rememberWorker persistent_since event) fun _ => ?_
  split
  · next hmarket =>
      have hsince : (deskContract cfg).Persistent (Since asked) := persistent_since
      have hbuild := Contract.Spec.frame hsince
        (keeps_buildCryptoLeverage (i := i) hevent hmarket event.accountId replyTo)
      refine .bind (fun found s => (∀ block, found = some block →
        ∃ t values, Recent asked t ∧ s.SawCrypto t values ∧ leverageOf values = .ok block) ∧
          Since asked s) (hbuild.mono (fun _ _ h => ⟨h, h⟩) (fun _ _ _ h => h)
            fun _ _ _ _ => trivial) fun found => ?_
      cases found with
      | none => exact htrue () _
      | some block =>
          exact (keeps_acknowledge hevent replyTo (some block)).pre fun s _ h =>
            ⟨h.2, hmarket, h.1 block rfl⟩
  · next hmarket =>
      exact (keeps_acknowledge hevent replyTo none).pre fun s _ h => ⟨h, hmarket⟩

theorem keeps_handleSubjectSystem :
    KeepsDesk cfg i asked (Since asked) (handleSubjectSystem cfg asked.2) fun _ _ => True := by
  have htrue : ∀ P : Desk → Prop, KeepsDesk cfg i asked P (pure ()) fun _ _ => True :=
    fun P => .pure (fun _ _ _ _ => trivial) fun _ _ _ => trivial
  -- A message with no announcement in it may be told anything.
  have htold : asked.2.announced cfg = none → ∀ accountId reason,
      KeepsDesk cfg i asked (Since asked) (replyError asked.2.reply accountId reason)
        fun _ _ => True := by
    intro hnone accountId reason
    refine (keeps_replyError persistent_since ?_ asked.2.reply accountId).mono (fun _ _ h => h)
      (fun _ _ _ _ => trivial) fun _ _ _ h => h
    intro s accountId timestamp _ event hevent
    rw [hnone] at hevent
    cases hevent
  rw [handleSubjectSystem]
  cases hdata : asked.2.data with
  | unreadable => exact keeps_raise _
  | malformed => exact htold (by rw [SystemMessage.announced, hdata]) _ _
  | json v =>
      cases v with
      | obj data =>
          simp only
          by_cases hann : announces data = true
          · rw [if_pos hann]
            have hof : asked.2.announced cfg = WorkerConnected.ofFields cfg.reads data := by
              simp only [SystemMessage.announced, hdata, if_pos hann]
            cases hevent : WorkerConnected.ofFields cfg.reads data with
            | none => exact htold (hof.trans hevent) _ _
            | some event => exact keeps_answerWorker (hof.trans hevent) asked.2.reply
          · rw [if_neg hann]
            exact htrue _
      | _ => exact htold (by rw [SystemMessage.announced, hdata]) _ _

theorem desk_holds (cfg : Config) : (deskContract cfg).Holds where
  start := by
    intro i e s k₀ k p s' hs _ hstart hs'
    cases e with
    | announce msg =>
        cases hstart
        have hsince : Since (s.clock, msg) s := le_refl _
        exact keeps_handleSubjectSystem s hs' hsince
    | _ => cases hstart
  crash := by
    intro i k s s' _ h
    cases h
  stable := fun _ _ _ _ _ _ => trivial

end

/-- Whatever is about to be published, in any run: an ACK is of settings that were stored, and
stored together, less than the life of a cache before its worker asked; and a worker that
announced itself is refused for such settings only. -/
theorem answers_recent {cfg : Config} {clock : Rat} {settings : String → Option String}
    {p : Pool Nat Asked Desk Call Call.Result Fault}
    (hrun : (desk cfg).Runs (quietDesk (.opened clock settings)) p) (i : Nat) (subject : String)
    (answer : Answer) (k : (Call.publish subject answer).Result → Prog Unit)
    (hnext : (p.threads i).2 = .call (.publish subject answer) k) :
    p.shared.Truthful cfg (p.threads i).1 answer := by
  have hgood : (deskContract cfg).Good (quietDesk (.opened clock settings)) := by
    refine ⟨⟨List.mem_cons_self, ?_, ?_⟩, fun j t _ => trivial⟩
    · exact fun _ _ h => by cases h
    · exact fun _ _ h => by cases h
  have hobeys := ((desk_holds cfg).refines hgood hrun).1.2 i
  rw [hnext] at hobeys
  exact (hobeys p.shared .refl).1

/-! A crypto worker that asks while an admin changes both settings. -/

namespace Changing

def cfg : Config where
  reads := Sample.cfg.reads
  lib := Sample.cfg.lib
  loads _ := .value (.obj [(pyStr "wt", .int 7)])
  hasSignals := false

def announcement : JsonObject :=
  [(pyStr "action", .str (pyStr "WORKER_CONNECTED")),
    (pyStr "account_id", .str (pyStr "CRYPTO-X-1")), (pyStr "market", .str (pyStr "CRYPTO")),
    (pyStr "gateway", .str (pyStr "X")), (pyStr "strategies", .arr [.str (pyStr "wt")])]

def message : SystemMessage := ⟨.json (.obj announcement), "inbox"⟩

def settings (key : String) : Option String :=
  if key = cryptoAllowedSymbolKey then some "BTC"
  else if key = cryptoMaxLeverageKey then some "5"
  else if key = strategyMagicMapKey then some "\x7b\x7d"
  else none

def reply (fails : Bool) : Reply where
  fails
  other c :=
    match c with
    | .upsertGateway _ _ _ => .ok ()
    | .getSettings _ _ _ => .ok .null
    | .listRecentByStrategies _ _ => .ok []
    | .utcnow => 0
    | .newUxid => ⟨pyStr "9F2C4B7E18A3D605", Sample.uxid_valid⟩
    | .publish _ _ => .ok ()
    | .get _ => none
    | .getMany _ => []
    | .cryptoCache => none
    | .magicMapCache => none
    | .monotonic => 0
    | .cacheCrypto _ _ => ()
    | .cacheMagicMap _ _ => ()

def step : Machine.Move Nat Reply Desk.Event := .call 0 (reply false)

/-- The settings change when they have been read, and there is an outage when the map is. -/
def moves : List (Machine.Move Nat Reply Desk.Event) :=
  [.start 0 (.announce message), step, step, step, step, .env (.set cryptoMaxLeverageKey "9"),
    .env (.elapse 4), step, step, step, .call 0 (reply true), step, step, step, step]

def ack : Answer :=
  .ack
    { accountId := "CRYPTO-X-1"
      timestamp := 0
      strategyMagicMap := []
      retrySignals := []
      settings := Settings.resolveAccountSettings {} (Settings.parseGlobalMaxOpenOrders none)
      cryptoLeverageInit := some { symbols := ["BTC"], defaultLeverage := 5 } }

theorem asks :
    ∃ p k, (desk cfg).replay moves (quietDesk (.opened 100 settings)) = some p ∧
      (p.threads 0).2 = .call (.publish "inbox" ack) k := ⟨_, _, rfl, rfl⟩

end Changing

theorem answers_recent_changing :
    ∃ p k, (desk Changing.cfg).Runs (quietDesk (.opened 100 Changing.settings)) p ∧
      (p.threads 0).2 = .call (.publish "inbox" Changing.ack) k ∧
        p.shared.Truthful Changing.cfg (p.threads 0).1 Changing.ack := by
  obtain ⟨p, k, hreplay, hnext⟩ := Changing.asks
  have hrun := Machine.runs_of_replay hreplay
  exact ⟨p, k, hrun, hnext, answers_recent hrun 0 "inbox" Changing.ack k hnext⟩

end TradingBroker.Handshake
