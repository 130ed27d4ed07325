import TradingBroker.Lib.Monitor
import TradingBroker.Lib.Noted
import TradingBroker.Settings.Converge

/-!
# What the messages say

What a block is computed from is read in other calls than the one that publishes
it, and in between another command may store something newer. A run is followed
with notes: what each command has been told of the account so far, and what others
have stored since (`Notes`). A monitor (`telling`) says of the code alone that a
message to the account's worker repeats what its sender was told. So a message
that was not overtaken says what is stored, and one that was is harmless as long
as another command still has to publish what it got wrong (`NotOvertaken`). With
the ledger of what the commands owe this gives `pushes_converge`.

Both halves of the condition are about the order of the calls, not about what the
messages say, and it is met by any commands that run one at a time
(`pushes_converge_alone`). It is not met by `not_pushesConverge`: a cap is
published in a block that was read before the account was stopped.

An item is stale to a command from when another command stores it until the
command is next told of it (`Notes.take`). That is why a read is no protection by
itself: `/maxorders` is told its row by the `UPDATE` that stores the cap, and
everything stored between that and its publish is stale to it. The invariant
(`Abreast`) says of each command no more than that what it was told and is not
stale is what is stored; whether it publishes that is what the monitor says.
-/

namespace TradingBroker.Settings

open TradingBroker.Lib TradingBroker.Lib.Coro

/-! ## What is read, and what is stored -/

/-- What an account's settings are made of: the two keys of its row and the broker-wide default. -/
inductive Item where
  | blocked
  | cap
  | default
  deriving DecidableEq

/-- After the call its caller knows what is stored of the item: it was read, returned or set. -/
def Call.learns (account : Account) : Call → Item → Bool
  | .updateSettings id _, item => id == account.id && item != .default
  | .getAll, item => item != .default
  | .getSetting key, item => key == maxOpenOrdersKey && item == .default
  | .setSetting key _, item => key == maxOpenOrdersKey && item == .default
  | _, _ => false

/-- The call stores the item. -/
def Call.stores (account : Account) : Call → Item → Bool
  | .updateSettings id patch, .blocked => id == account.id && patch.1 == pyStr signalBlockedKey
  | .updateSettings id patch, .cap => id == account.id && patch.1 == pyStr maxOpenOrdersKey
  | .setSetting key _, .default => key == maxOpenOrdersKey
  | _, _ => false

/-- What a command has been told: what the account's row says, and the default. -/
structure View where
  row : Option AccountSettings := none
  default : Option Nat := none

/-- The message repeats it, if it goes to the account's worker. -/
def View.Tells (account : Account) (v : View) : Outgoing → Prop
  | .admin subject action =>
      some subject = account.gateway.map
        (composeAdminSubject account.market · account.accountId) →
      ∃ w, v.row = some w ∧
        (action = .blockSignal → w.signalBlocked = true) ∧
        (action = .allowSignal → w.signalBlocked = false)
  | .settingsUpdate accountId settings =>
      some accountId = account.gateway.map
        (composeWorkerId account.market · account.accountId) →
      ∃ w d, v.row = some w ∧ v.default = some d ∧ settings = resolveAccountSettings w d

/-- A command publishes what it was told. -/
def telling (co : Coercions) (account : Account) : Monitor Call Call.Result View where
  answers := Answers co account
  may v
    | .publish m => v.Tells account m
    | _ => True
  next v
    | .updateSettings id _, stored =>
        if id = account.id then { v with row := stored.map (parseAccountSettings co) } else v
    | .getAll, rows =>
        { v with row := (byId rows account.id).map fun row =>
            parseAccountSettings co row.settings }
    | .getSetting key, raw =>
        if key = maxOpenOrdersKey then { v with default := some (parseGlobalMaxOpenOrders raw) }
        else v
    | .setSetting key value, _ =>
        if key = maxOpenOrdersKey then
          { v with default := some (parseGlobalMaxOpenOrders (some value)) }
        else v
    | .sendMessage _, _ => v
    | .publish _, _ => v

/-! ## The commands heed the monitor -/

section
variable {co : Coercions} {account row : Account}

abbrev Heeds (co : Coercions) (account : Account) (v : View) {α : Type} (p : Prog α) : Prop :=
  Coro.Heeds (telling co account) v p fun _ _ => True

theorem heeds_push {v : View} {settings : AccountSettings}
    (h : SharesAddress row account → ∃ w d, v.row = some w ∧ v.default = some d ∧
      settings = resolveAccountSettings w d) :
    Coro.Heeds (telling co account) v
      (pushWorkerSettingsUpdate row.accountId row.market row.gateway settings)
      fun _ v' => v' = v := by
  unfold pushWorkerSettingsUpdate
  split
  · rfl
  · next g hg =>
      split
      · rfl
      · exact ⟨fun hid => h (.inl ⟨g, hg, hid⟩), fun _ _ => rfl⟩

theorem heeds_prevent (hrow : SharesAddress row account → row.id = account.id) (v : View)
    (enabled : Bool) : Heeds co account v (prevent row enabled) := by
  refine ⟨trivial, fun stored hstored => ?_⟩
  cases stored with
  | none => trivial
  | some settings =>
      refine Coro.Heeds.bind ?_
      unfold publishAdminSignal
      split
      · trivial
      · next g hg =>
          refine ⟨fun hsubject => ?_, fun r _ => ?_⟩
          · have hid : row.id = account.id := hrow (.inr ⟨g, hg, hsubject⟩)
            obtain ⟨stored, hs, hflag⟩ := hstored hid
            cases hs
            have hblocked := hflag enabled rfl
            refine ⟨parseAccountSettings co settings, ?_, ?_, ?_⟩
            · simp only [telling, if_pos hid, Option.map_some]
            · rw [hblocked]
              cases enabled <;> simp
            · rw [hblocked]
              cases enabled <;> simp
          · cases r <;> trivial

theorem heeds_setMaxOpenOrders (hrow : SharesAddress row account → row.id = account.id) (v : View)
    (value : Option Nat) : Heeds co account v (setMaxOpenOrders co row value) := by
  refine ⟨trivial, fun stored hstored => ?_⟩
  cases stored with
  | none => trivial
  | some settings =>
      refine ⟨trivial, fun raw _ => ?_⟩
      refine (heeds_push fun hshares => ?_).andThen fun _ _ _ => trivial
      have hid : row.id = account.id := hrow hshares
      refine ⟨parseAccountSettings co settings, parseGlobalMaxOpenOrders raw, ?_, ?_, rfl⟩
      · simp only [telling, if_pos hid, if_true, Option.map_some]
      · simp only [telling, if_true]

/-- Every row is pushed as it was read, and only the account's own reaches its worker. -/
theorem heeds_pushToEach {v : View} {globalValue : Nat}
    (hv : v.row = some (parseAccountSettings co row.settings))
    (hd : v.default = some globalValue) {accounts : List Account}
    (hown : ∀ other ∈ accounts, SharesAddress other account → other = row) :
    Heeds co account v (pushToEach co globalValue accounts) := by
  induction accounts with
  | nil => trivial
  | cons a accounts ih =>
      have hpush : Coro.Heeds (telling co account) v
          (pushWorkerSettingsUpdate a.accountId a.market a.gateway
            (resolveAccountSettings (parseAccountSettings co a.settings) globalValue))
          fun _ v' => v' = v :=
        heeds_push fun hshares => by
          rw [hown a List.mem_cons_self hshares]
          exact ⟨_, _, hv, hd, rfl⟩
      refine hpush.andThen fun _ v' hv' => ?_
      rw [hv']
      exact ih fun other hmem => hown other (List.mem_cons_of_mem _ hmem)

theorem heeds_setGlobalMaxOpenOrders (v : View) (value : Nat) :
    Heeds co account v (setGlobalMaxOpenOrders co value) := by
  refine ⟨trivial, fun ok hok => ?_⟩
  have hok' : ok = true := hok
  subst hok'
  refine ⟨trivial, fun _ _ => Coro.Heeds.bind ?_⟩
  refine ⟨trivial, fun raw _ => ⟨trivial, fun rows hrows => ?_⟩⟩
  obtain ⟨row, hrow, -, hown⟩ := hrows
  refine (heeds_pushToEach ?_ ?_ hown).mono fun _ _ _ => trivial
  · simp only [telling, if_true, hrow, Option.map_some]
  · simp only [telling, if_true]

theorem heeds_serve {s : Broker} {e : Request} {p : Prog Unit} (hs : Known account s)
    (h : serve co s e = some p) (v : View) : Heeds co account v p := by
  have hrow : ∀ {id : Nat} {a : Account}, byId s.accounts id = some a →
      SharesAddress a account → a.id = account.id :=
    fun ha => hs.own _ (List.mem_of_find?_eq_some ha)
  cases e with
  | prevent id enabled =>
      simp only [serve, Option.map_eq_some_iff] at h
      obtain ⟨a, ha, rfl⟩ := h
      exact (heeds_prevent (hrow ha) v enabled).andThen fun _ _ _ => trivial
  | maxOpenOrders id value =>
      simp only [serve, Option.map_eq_some_iff] at h
      obtain ⟨a, ha, rfl⟩ := h
      exact (heeds_setMaxOpenOrders (hrow ha) v value).andThen fun _ _ _ => trivial
  | globalMaxOpenOrders value =>
      simp only [serve, Option.some.injEq] at h
      subst h
      exact (heeds_setGlobalMaxOpenOrders v value).andThen fun _ _ _ => trivial

end

/-! ## Notes -/

/-- What each command has been told, and which of it another command has stored anew since. -/
structure Notes where
  views : Nat → View
  stale : Nat → Item → Bool

def Notes.start : Notes := ⟨fun _ => {}, fun _ _ => false⟩

/-- A call tells its caller, and makes stale what others know of what it stores. -/
def Notes.take (co : Coercions) (account : Account) (s : Broker) (l : Step) (_ : Broker)
    (n : Notes) : Notes :=
  match l with
  | .call i _ c x =>
      { views := Function.update n.views i
          ((telling co account).next (n.views i) c (respond x s c))
        stale := fun j item =>
          if j = i then n.stale j item && !c.learns account item
          else n.stale j item || c.stores account item }
  | .start i _ =>
      { views := Function.update n.views i {}
        stale := Function.update n.stale i fun _ => false }
  | .env _ => n
  | .crash _ _ => n

abbrev NotedWorld := Pool Nat Unit (Noted Broker Notes) Call Call.Result Fault

/-- The commands, with notes on what concerns the account. -/
abbrev followed (co : Coercions) (account : Account) :
    Machine Nat Unit (Noted Broker Notes) Outcome Request Call Call.Result Fault :=
  (commands co).noted (Notes.take co account)

/-- A setting comes from these items. The default only counts for a row without a cap. -/
def Depends (co : Coercions) (account : Account) (s : Broker) : Field → Item → Prop
  | .signalBlocked, .blocked => True
  | .maxOpenOrders, .cap => True
  | .maxOpenOrders, .default => (rowSettings co s account.id).maxOpenOrders = none
  | _, _ => False

/-- The condition. When a message to the account's worker is published, for each setting
it sets: nothing the setting comes from was stored by another command since the
publisher last read it, or another command still has to publish that setting. It looks
at the notes and at which commands have something left to do, and not into the message.
-/
def NotOvertaken (co : Coercions) (account : Account) (p : NotedWorld) : Step → Prop
  | .call i _ (.publish m) _ => ∀ f, m.Carries account f →
      (∀ item, Depends co account p.shared.now f item → p.shared.notes.stale i item = false) ∨
        ∃ j, j ≠ i ∧ Due co account f (p.threads j).2
  | _ => True

/-! ## What is not stale is what is stored -/

/-- What a command was told is what is stored, as far as it is not stale. -/
structure Fresh (co : Coercions) (account : Account) (s : Broker) (v : View)
    (stale : Item → Bool) : Prop where
  blocked : ∀ w, v.row = some w → stale .blocked = false →
    w.Agree .signalBlocked (rowSettings co s account.id)
  cap : ∀ w, v.row = some w → stale .cap = false →
    w.Agree .maxOpenOrders (rowSettings co s account.id)
  default : ∀ d, v.default = some d → stale .default = false →
    d = parseGlobalMaxOpenOrders (s.settings maxOpenOrdersKey)

section
variable {co : Coercions} {account : Account} {s : Broker} {v : View} {stale : Item → Bool}

/-- A call that stores nothing of an item leaves it. -/
theorem effect_of_not_stores (c : Call) :
    (c.stores account .blocked = false → (rowSettings co s account.id).Agree .signalBlocked
      (rowSettings co (effect .ok s c) account.id)) ∧
    (c.stores account .cap = false → (rowSettings co s account.id).Agree .maxOpenOrders
      (rowSettings co (effect .ok s c) account.id)) ∧
    (c.stores account .default = false → (effect .ok s c).settings maxOpenOrdersKey =
      s.settings maxOpenOrdersKey) := by
  cases c with
  | updateSettings id patch =>
      refine ⟨fun h => ?_, fun h => ?_, fun _ => rfl⟩
      · refine (rowSettings_update ?_).symm
        show ¬ (id = account.id ∧ patch.1 = pyStr signalBlockedKey)
        simpa [Call.stores] using h
      · refine (rowSettings_update ?_).symm
        show ¬ (id = account.id ∧ patch.1 = pyStr maxOpenOrdersKey)
        simpa [Call.stores] using h
  | setSetting key value =>
      refine ⟨fun _ => rfl, fun _ => rfl, fun h => ?_⟩
      have hkey : maxOpenOrdersKey ≠ key := fun he => by simp [Call.stores, he] at h
      exact Function.update_of_ne hkey _ _
  | getSetting | getAll | sendMessage | publish => exact ⟨fun _ => rfl, fun _ => rfl, fun _ => rfl⟩

/-- A call of another command. -/
theorem Fresh.other (h : Fresh co account s v stale) (c : Call) :
    Fresh co account (effect .ok s c) v fun item => stale item || c.stores account item := by
  obtain ⟨hblocked, hcap, hdefault⟩ := @effect_of_not_stores co account s c
  refine ⟨fun w hw hs => ?_, fun w hw hs => ?_, fun d hd hs => ?_⟩
  · obtain ⟨hs, hc⟩ := Bool.or_eq_false_iff.1 hs
    exact (h.blocked w hw hs).trans (hblocked hc)
  · obtain ⟨hs, hc⟩ := Bool.or_eq_false_iff.1 hs
    exact (h.cap w hw hs).trans (hcap hc)
  · obtain ⟨hs, hc⟩ := Bool.or_eq_false_iff.1 hs
    rw [hdefault hc]
    exact h.default d hd hs

theorem Fresh.mono (h : Fresh co account s v stale) {stale' : Item → Bool}
    (hs : ∀ item, stale' item = false → stale item = false) : Fresh co account s v stale' :=
  ⟨fun w hw hf => h.blocked w hw (hs _ hf), fun w hw hf => h.cap w hw (hs _ hf),
    fun d hd hf => h.default d hd (hs _ hf)⟩

/-- The row was read. -/
theorem Fresh.withRow (h : Fresh co account s v stale) {row : Option AccountSettings}
    (hrow : ∀ w, row = some w → w = rowSettings co s account.id) {stale' : Item → Bool}
    (hs : stale' .default = false → stale .default = false) :
    Fresh co account s { v with row } stale' where
  blocked w hw _ := by rw [hrow w hw]; rfl
  cap w hw _ := by rw [hrow w hw]; rfl
  default d hd hf := h.default d hd (hs hf)

/-- The default was read, or set. -/
theorem Fresh.withDefault (h : Fresh co account s v stale) {d : Nat}
    (hd : d = parseGlobalMaxOpenOrders (s.settings maxOpenOrdersKey)) {stale' : Item → Bool}
    (hblocked : stale' .blocked = false → stale .blocked = false)
    (hcap : stale' .cap = false → stale .cap = false) :
    Fresh co account s { v with default := some d } stale' where
  blocked w hw hf := h.blocked w hw (hblocked hf)
  cap w hw hf := h.cap w hw (hcap hf)
  default d' hd' _ := by cases hd'; exact hd

theorem rowSettings_eq {id : Nat} {w : AccountSettings}
    (h : (byId s.accounts id).map (fun row => parseAccountSettings co row.settings) = some w) :
    w = rowSettings co s id := by
  obtain ⟨row, hrow, rfl⟩ := Option.map_eq_some_iff.1 h
  rw [rowSettings, hrow]

/-- The command's own call. -/
theorem Fresh.own (h : Fresh co account s v stale) (c : Call) :
    Fresh co account (effect .ok s c) ((telling co account).next v c (respond .ok s c))
      fun item => stale item && !c.learns account item := by
  have hother := h.other c
  cases c with
  | updateSettings id patch =>
      by_cases hid : id = account.id
      · simp only [telling, if_pos hid]
        refine hother.withRow (fun w hw => ?_) fun hf => ?_
        · refine rowSettings_eq ?_
          rw [← hid]
          simpa [respond, effect, Function.comp_def] using hw
        · simpa [Call.learns, Call.stores] using hf
      · simp only [telling, if_neg hid]
        refine hother.mono fun item hf => ?_
        cases item <;> simpa [Call.learns, Call.stores, hid] using hf
  | getAll =>
      simp only [telling]
      refine hother.withRow (fun w hw => rowSettings_eq hw) fun hf => ?_
      simpa [Call.learns, Call.stores] using hf
  | getSetting key =>
      by_cases hkey : key = maxOpenOrdersKey
      · simp only [telling, if_pos hkey]
        subst hkey
        refine hother.withDefault rfl (fun hf => ?_) fun hf => ?_
        · simpa [Call.learns, Call.stores] using hf
        · simpa [Call.learns, Call.stores] using hf
      · simp only [telling, if_neg hkey]
        refine hother.mono fun item hf => ?_
        simpa [Call.learns, Call.stores, hkey] using hf
  | setSetting key value =>
      by_cases hkey : key = maxOpenOrdersKey
      · simp only [telling, if_pos hkey]
        subst hkey
        refine hother.withDefault ?_ (fun hf => ?_) fun hf => ?_
        · have hset : (effect .ok s (.setSetting maxOpenOrdersKey value)).settings
              maxOpenOrdersKey = some value := by simp [effect]
          rw [hset]
        · simpa [Call.learns, Call.stores] using hf
        · simpa [Call.learns, Call.stores] using hf
      · simp only [telling, if_neg hkey]
        refine hother.mono fun item hf => ?_
        cases item <;> simpa [Call.learns, Call.stores, hkey] using hf
  | sendMessage | publish =>
      refine hother.mono fun item hf => ?_
      simpa [Call.learns, Call.stores] using hf

/-- What a command tells the worker is what is stored, as far as it is not stale. -/
theorem agree_of_tells {f : Field} {m : Outgoing} (h : Fresh co account s v stale)
    (ht : v.Tells account m) (hm : m.Carries account f)
    (hs : ∀ item, Depends co account s f item → stale item = false) (w : AccountSettings) :
    (w.apply account m).Agree f (storedSettings co s account.id) := by
  cases m with
  | admin subject action =>
      obtain ⟨hsubject, rfl, hflat⟩ := hm
      obtain ⟨w', hw', hblock, hallow⟩ := ht hsubject
      have hrow : w'.signalBlocked = (rowSettings co s account.id).signalBlocked :=
        h.blocked w' hw' (hs .blocked trivial)
      have hstored : (storedSettings co s account.id).signalBlocked = w'.signalBlocked :=
        (signalBlocked_resolve _ _).trans hrow.symm
      simp only [AccountSettings.apply, if_pos hsubject]
      cases action with
      | flat => exact absurd rfl hflat
      | blockSignal => exact ((hblock rfl).symm.trans hstored.symm)
      | allowSignal => exact ((hallow rfl).symm.trans hstored.symm)
  | settingsUpdate accountId settings =>
      have hid : some accountId = account.gateway.map
        (composeWorkerId account.market · account.accountId) := hm
      obtain ⟨w', d, hw', hd, rfl⟩ := ht hid
      simp only [AccountSettings.apply, if_pos hid]
      cases f with
      | signalBlocked =>
          exact (signalBlocked_resolve w' d).trans
            ((h.blocked w' hw' (hs .blocked trivial)).trans (signalBlocked_resolve _ _).symm)
      | maxOpenOrders =>
          have hcap : w'.maxOpenOrders = (rowSettings co s account.id).maxOpenOrders :=
            h.cap w' hw' (hs .cap trivial)
          show (resolveAccountSettings w' d).maxOpenOrders =
            (resolveAccountSettings _ _).maxOpenOrders
          rw [maxOpenOrders_resolve, maxOpenOrders_resolve, hcap]
          cases hnone : (rowSettings co s account.id).maxOpenOrders with
          | none => rw [h.default d hd (hs .default hnone)]
          | some n => rfl

end

/-! ## Runs -/

/-- The invariant: the account is known, and no command has been told anything that is
neither stored nor stale. -/
structure Abreast (co : Coercions) (account : Account) (s : Noted Broker Notes) : Prop where
  known : Known account s.now
  fresh : ∀ i, Fresh co account s.now (s.notes.views i) (s.notes.stale i)

section
variable {co : Coercions} {account : Account}

theorem fresh_start (s : Broker) (stale : Item → Bool) : Fresh co account s {} stale where
  blocked _ h := by cases h
  cap _ h := by cases h
  default _ h := by cases h

/-- A call that succeeds; `i` made it. -/
theorem Abreast.call {s : Noted Broker Notes} (h : Abreast co account s) (i : Nat) (c : Call) :
    Abreast co account ⟨effect .ok s.now c,
      Notes.take co account s.now (.call i () c .ok) (effect .ok s.now c) s.notes⟩ := by
  refine ⟨h.known.effect .ok c, fun j => ?_⟩
  by_cases hj : j = i
  · subst hj
    simp only [Notes.take, Function.update_self, if_true]
    exact (h.fresh j).own c
  · simp only [Notes.take, Function.update_of_ne hj, if_neg hj]
    exact (h.fresh j).other c

/-- A command of its own is told nothing yet. -/
theorem Abreast.start {s : Noted Broker Notes} (h : Abreast co account s) (i : Nat)
    (e : Request) :
    Abreast co account ⟨s.now, Notes.take co account s.now (.start i e) s.now s.notes⟩ := by
  refine ⟨h.known, fun j => ?_⟩
  by_cases hj : j = i
  · subst hj
    simp only [Notes.take, Function.update_self]
    exact fresh_start _ _
  · simp only [Notes.take, Function.update_of_ne hj]
    exact h.fresh j

theorem watches_followed (hbool : ∀ b, co.bool (.bool b) = some b) (account : Account) :
    Watches (telling co account) (followed co account) (fun i s => s.notes.views i)
      (fun _ _ => True) (fun _ l => Succeeds l) (Abreast co account) where
  call := by
    intro i k c x s r h hok hex _ _
    have hx : x = .ok := hok
    subst hx
    cases hex
    exact ⟨answers_respond hbool h.known c, h.call i c, Function.update_self _ _ _, trivial⟩
  start := by
    intro i e s r h _ hst
    simp only [Machine.noted, commands, Option.map_map, Option.map_eq_some_iff] at hst
    obtain ⟨p, hp, rfl⟩ := hst
    exact ⟨h.start i e, trivial, heeds_serve h.known hp _⟩
  env := by
    intro e s s' _ _ henv
    cases henv
  crash := by
    intro i k s s' _ _ hcr
    cases hcr
  other := by
    intro l s s' i ha hl
    rw [Machine.act_noted, Option.map_eq_some_iff] at ha
    obtain ⟨t, -, rfl⟩ := ha
    cases l with
    | call j k c x =>
        have hj : i ≠ j := fun he => hl (congrArg some he.symm)
        exact Function.update_of_ne hj _ _
    | start j e =>
        have hj : i ≠ j := fun he => hl (congrArg some he.symm)
        exact Function.update_of_ne hj _ _
    | env e => rfl
    | crash j k => rfl

variable {w : AccountSettings} {f : Field}

/-- A message that is not overtaken leaves the worker in step, or somebody still owes it. -/
theorem fair_of_notOvertaken (hbool : ∀ b, co.bool (.bool b) = some b) {p : NotedWorld} {l : Step}
    {q : NotedWorld} (hs : (followed co account).Step p l q) (h : Abreast co account p.shared)
    (hheeds : ∀ i, Heedful (telling co account) (fun i s => s.notes.views i) (fun _ _ => True) p i)
    (hok : Succeeds l) (hl : NotOvertaken co account p l) :
    (settingsLedger hbool account w f).Fair p.plain l := by
  rcases hs.cases with ⟨i, x, c, k, r, rfl, hc, -, -⟩ | ⟨_, _, _, rfl, -⟩ | ⟨_, _, rfl, -⟩ |
    ⟨_, _, rfl, -⟩
  · intro hp
    cases c with
    | publish m =>
        rcases hl f hp with hfresh | hdue
        · left
          intro r' hr
          have hx : x = .ok := hok
          subst hx
          cases hr
          show (workerSettings account w (p.shared.now.published ++ [m])).Agree f _
          rw [workerSettings_append]
          exact agree_of_tells (h.fresh i) ((hheeds i).may hc) hp hfresh _
        · exact .inr hdue
    | updateSettings | getSetting | setSetting | getAll | sendMessage => exact hp.elim
  · exact trivial
  · exact trivial
  · exact trivial

/-- Along every run in which nothing is overtaken. -/
theorem kept_run (hbool : ∀ b, co.bool (.bool b) = some b) {p q : NotedWorld}
    (hrun : Relation.ReflTransGen
      ((followed co account).StepIf fun p l => Succeeds l ∧ NotOvertaken co account p l) p q)
    (h : Abreast co account p.shared)
    (hheeds : ∀ i, Heedful (telling co account) (fun i s => s.notes.views i) (fun _ _ => True) p i)
    (hkept : ∀ f, (settingsLedger hbool account w f).Kept p.plain) :
    ∀ f, (settingsLedger hbool account w f).Kept q.plain := by
  have hall : (Abreast co account q.shared ∧ ∀ i,
      Heedful (telling co account) (fun i s => s.notes.views i) (fun _ _ => True) q i) ∧
      ∀ f, (settingsLedger hbool account w f).Kept q.plain := by
    induction hrun with
    | refl => exact ⟨⟨h, hheeds⟩, hkept⟩
    | tail _ hstep ih =>
        obtain ⟨l, hl, hok, hnot⟩ := hstep
        obtain ⟨⟨habreast, hheeds⟩, hkept⟩ := ih
        refine ⟨(watches_followed hbool account).step hl hok habreast hheeds, fun f => ?_⟩
        exact (hkept f).step (Machine.plain_step hl).1 hok
          (fair_of_notOvertaken hbool hl habreast hheeds hok hnot)
  exact hall.2

end

/-- Whenever all commands have finished. -/
theorem converged_of_run {co : Coercions} {account : Account} {s : Broker} {p : NotedWorld}
    (hbool : ∀ b, co.bool (.bool b) = some b) (hs : Known account s) (hnone : s.published = [])
    (hrun : Relation.ReflTransGen
      ((followed co account).StepIf fun p l => Succeeds l ∧ NotOvertaken co account p l)
      ((idle s).noted Notes.start) p)
    (hdone : ∀ i, (p.threads i).2.Done) :
    workerSettings account (storedSettings co s account.id) p.shared.now.published =
      storedSettings co p.shared.now account.id := by
  refine AccountSettings.agree_ext fun f => ?_
  refine (kept_run hbool hrun ⟨hs, fun _ => fresh_start _ _⟩ (fun _ => .inl trivial)
    (fun f => ⟨hs, fun _ => trivial, .inl ?_⟩) f).good hdone
  show (workerSettings account _ s.published).Agree f _
  rw [hnone]
  cases f <;> rfl

/-! ## One command at a time -/

/-- No command is started while another runs. -/
def Alone (p : World) : Step → Prop
  | .start _ _ => ∀ j, (p.threads j).2.Done
  | _ => True

/-- Only one command runs, and nothing it knows is stale. -/
def Undisturbed (p : NotedWorld) : Prop :=
  ∀ i, ¬ (p.threads i).2.Done →
    (∀ j, j ≠ i → (p.threads j).2.Done) ∧ ∀ item, p.shared.notes.stale i item = false

theorem undisturbed_step {co : Coercions} {account : Account} {p q : NotedWorld} {l : Step}
    (h : Undisturbed p) (hl : Alone p.plain l) (hs : (followed co account).Step p l q) :
    NotOvertaken co account p l ∧ Undisturbed q := by
  rcases hs.cases with ⟨i, x, c, k, r, rfl, hc, hex, rfl⟩ | ⟨i, e, r, rfl, -, hst, rfl⟩ |
    ⟨e, s, rfl, he, -⟩ | ⟨i, s, rfl, hcr, -⟩
  · obtain ⟨hothers, hfresh⟩ := h i (by rw [hc]; exact id)
    cases hex
    refine ⟨?_, fun j hj => ?_⟩
    · cases c with
      | publish m => exact fun f _ => .inl fun item _ => hfresh item
      | updateSettings | getSetting | setSetting | getAll | sendMessage => exact trivial
    · by_cases hji : j = i
      · subst hji
        refine ⟨fun j' hj' => ?_, fun item => ?_⟩
        · simp only [Function.update_of_ne hj']
          exact hothers j' hj'
        · simp only [Notes.take, if_true, hfresh item, Bool.false_and]
      · simp only [Function.update_of_ne hji] at hj
        exact absurd (hothers j hji) hj
  · refine ⟨trivial, fun j hj => ?_⟩
    simp only [Machine.noted, commands, Option.map_map, Option.map_eq_some_iff] at hst
    obtain ⟨t, -, rfl⟩ := hst
    by_cases hji : j = i
    · subst hji
      refine ⟨fun j' hj' => ?_, fun item => ?_⟩
      · simp only [Function.update_of_ne hj']
        exact hl j'
      · simp only [Function.comp_apply, Notes.take, Function.update_self]
    · simp only [Function.update_of_ne hji] at hj
      exact absurd (hl j) hj
  · cases he
  · cases hcr

/-- Commands that run one at a time overtake nothing. -/
theorem pushes_converge_alone {co : Coercions} {account : Account} {s : Broker} {p : World}
    (hbool : ∀ b, co.bool (.bool b) = some b) (hs : Known account s) (hnone : s.published = [])
    (hrun : Relation.ReflTransGen ((commands co).StepIf fun p l => Succeeds l ∧ Alone p l)
      (idle s) p)
    (hdone : ∀ i, (p.threads i).2.Done) :
    workerSettings account (storedSettings co s account.id) p.shared.published =
      storedSettings co p.shared account.id := by
  obtain ⟨n, hnoted⟩ : ∃ n, Relation.ReflTransGen
      (((commands co).noted (Notes.take co account)).StepIf fun p l =>
        Succeeds l ∧ Alone p.plain l)
      ((idle s).noted Notes.start) (p.noted n) := Machine.noted_run hrun Notes.start
  have hstep : ∀ p l q, Undisturbed p → Succeeds l ∧ Alone p.plain l →
      ((commands co).noted (Notes.take co account)).Step p l q →
      (Succeeds l ∧ NotOvertaken co account p l) ∧ Undisturbed q := by
    intro p l q hinv hl hstep
    obtain ⟨hnot, hinv'⟩ := undisturbed_step hinv hl.2 hstep
    exact ⟨⟨hl.1, hnot⟩, hinv'⟩
  have hfollowed := (Machine.stepIf_of_invariant hstep hnoted fun i hi => absurd trivial hi).1
  exact converged_of_run hbool hs hnone hfollowed hdone

/-! ## A stale push, and one that is made good -/

namespace Sample

def co : Coercions where
  bool
    | .bool b => some b
    | _ => none
  int
    | .int n => some n
    | _ => none

def account : Account := ⟨1, "7654321", .crypto, some "BINANCE", .obj []⟩

def broker : Broker := ⟨[account], fun _ => none, []⟩

theorem known : Known account broker where
  stored := ⟨account, rfl, ⟨rfl, rfl, rfl⟩, [], rfl⟩
  gateway := ⟨"BINANCE", rfl, by decide⟩
  ids := by decide
  own := by
    intro row hrow _
    rw [List.mem_singleton.1 hrow]

def succeeds : Step → Bool
  | .call _ _ _ x => x == .ok
  | .crash _ _ => false
  | _ => true

theorem succeeds_of {l : Step} (h : succeeds l = true) : Succeeds l := by
  cases l with
  | call i k c x => exact eq_of_beq h
  | crash => cases h
  | start | env => trivial

def items : Field → List Item
  | .signalBlocked => [.blocked]
  | .maxOpenOrders => [.cap, .default]

/-- Of two commands, the other one publishes the setting next. -/
def pays (p : NotedWorld) (i : Nat) (f : Field) : Bool :=
  match (p.threads (1 - i)).2.next? with
  | some (.publish m) => decide (m.Carries account f)
  | _ => false

def notOvertaken (p : NotedWorld) : Step → Bool
  | .call i _ (.publish _) _ => [Field.signalBlocked, .maxOpenOrders].all fun f =>
      (items f).all (fun item => !p.shared.notes.stale i item) || pays p i f
  | _ => true

theorem due_of_pays {p : NotedWorld} {i : Nat} {f : Field} (h : pays p i f = true) :
    Due co account f (p.threads (1 - i)).2 := by
  unfold pays at h
  split at h
  · next m hm =>
      have hcarries : m.Carries account f := of_decide_eq_true h
      exact Owes.of_next? hm hcarries
  · cases h

theorem notOvertaken_of {p : NotedWorld} {l : Step} (h : notOvertaken p l = true) :
    NotOvertaken co account p l := by
  cases l with
  | call i k c x =>
      cases c with
      | publish m =>
          intro f _
          have hf : (items f).all (fun item => !p.shared.notes.stale i item) = true ∨
              pays p i f = true := by
            rw [← Bool.or_eq_true]
            exact List.all_eq_true.1 h f (by cases f <;> decide)
          rcases hf with hfresh | hpays
          · left
            intro item hitem
            have hmem : item ∈ items f := by
              cases f <;> cases item <;> first | decide | exact hitem.elim
            simpa using List.all_eq_true.1 hfresh item hmem
          · exact .inr ⟨1 - i, by omega, due_of_pays hpays⟩
      | updateSettings | getSetting | setSetting | getAll | sendMessage => trivial
  | start | env | crash => trivial

/-- Two commands: once their last calls are answered, nothing is running. -/
theorem done_of_replayWhile {σ : Type}
    {M : Machine Nat Unit σ Outcome Request Call Call.Result Fault}
    {ok : Pool Nat Unit σ Call Call.Result Fault → Step → Bool}
    {ms : List (Machine.Move Nat Outcome Request)} {p q : Pool Nat Unit σ Call Call.Result Fault}
    (hms : ∀ m ∈ ms, m.party = some 0 ∨ m.party = some 1)
    (h : M.replayWhile ok ms p = some q) (hp : ∀ i, (p.threads i).2.Done)
    (h0 : (q.threads 0).2.Done) (h1 : (q.threads 1).2.Done) (i : Nat) : (q.threads i).2.Done := by
  by_cases hi0 : i = 0
  · rw [hi0]
    exact h0
  by_cases hi1 : i = 1
  · rw [hi1]
    exact h1
  have hother : ∀ m ∈ ms, m.party ≠ some i := by
    intro m hm he
    rcases hms m hm with hp | hp
    · exact hi0 (Option.some.inj (he.symm.trans hp))
    · exact hi1 (Option.some.inj (he.symm.trans hp))
  rw [Machine.replayWhile_other hother h]
  exact hp i

/-- `/maxorders` has stored its cap when `/prevent` stores and publishes its
block; then the cap is published, in a block that was read before. -/
def overtaken : List (Machine.Move Nat Outcome Request) :=
  [.start 0 (.maxOpenOrders 1 (some 3)), .call 0 .ok, .start 1 (.prevent 1 true), .call 1 .ok,
    .call 1 .ok, .call 0 .ok, .call 0 .ok]

/-- The same commands, but `/prevent` publishes last. -/
def madeGood : List (Machine.Move Nat Outcome Request) :=
  [.start 0 (.maxOpenOrders 1 (some 3)), .call 0 .ok, .start 1 (.prevent 1 true), .call 1 .ok,
    .call 0 .ok, .call 0 .ok, .call 1 .ok]

end Sample

/-- Once every command has finished, the account's worker runs on what is stored, if it did
before the first. -/
def PushesConverge : Prop :=
  ∀ (co : Coercions) (account : Account) (s : Broker) (p : World),
    (∀ b, co.bool (.bool b) = some b) → Known account s → s.published = [] →
    Relation.ReflTransGen ((commands co).StepIf fun _ l => Succeeds l) (idle s) p →
    (∀ i, (p.threads i).2.Done) →
    workerSettings account (storedSettings co s account.id) p.shared.published =
      storedSettings co p.shared account.id

/-- The worker trades on, on an account that is stored as blocked. -/
theorem not_pushesConverge : ¬ PushesConverge := by
  intro h
  have hsome : ((commands Sample.co).replayWhile (fun _ l => Sample.succeeds l) Sample.overtaken
      (idle Sample.broker)).any (fun p =>
        decide ((p.threads 0).2.Done ∧ (p.threads 1).2.Done ∧
          (workerSettings Sample.account (storedSettings Sample.co Sample.broker 1)
            p.shared.published).signalBlocked = false ∧
          (storedSettings Sample.co p.shared 1).signalBlocked = true)) = true := by
    decide +kernel
  rw [Option.any_eq_true] at hsome
  obtain ⟨p, hp, hlast⟩ := hsome
  obtain ⟨h0, h1, hworker, hstored⟩ := of_decide_eq_true hlast
  have hrun := Machine.stepIf_of_replayWhile (fun _ _ => Sample.succeeds_of) hp
  have heq := h Sample.co Sample.account Sample.broker p (fun _ => rfl) Sample.known rfl hrun
    (Sample.done_of_replayWhile (by decide) hp (fun _ => trivial) h0 h1)
  have hblocked := congrArg AccountSettings.signalBlocked heq
  exact Bool.noConfusion (hworker.symm.trans (hblocked.trans hstored))

theorem pushes_converge (co : Coercions) (account : Account) (s : Broker) (p : NotedWorld)
    (hbool : ∀ b, co.bool (.bool b) = some b) (hs : Known account s) (hnone : s.published = [])
    (hrun : Relation.ReflTransGen
      ((followed co account).StepIf fun p l => Succeeds l ∧ NotOvertaken co account p l)
      ((idle s).noted Notes.start) p)
    (hdone : ∀ i, (p.threads i).2.Done) :
    workerSettings account (storedSettings co s account.id) p.shared.now.published =
      storedSettings co p.shared.now account.id :=
  converged_of_run hbool hs hnone hrun hdone

/-- The cap is published in a block that is stale, while the flag is still to come. -/
theorem pushes_converge_made_good : ∃ p : NotedWorld, (∀ i, (p.threads i).2.Done) ∧
    workerSettings Sample.account (storedSettings Sample.co Sample.broker 1)
      p.shared.now.published = storedSettings Sample.co p.shared.now 1 ∧
    storedSettings Sample.co p.shared.now 1 = ⟨true, some 3⟩ := by
  have hsome : ((followed Sample.co Sample.account).replayWhile
      (fun p l => Sample.succeeds l && Sample.notOvertaken p l) Sample.madeGood
      ((idle Sample.broker).noted Notes.start)).any (fun p =>
        decide ((p.threads 0).2.Done ∧ (p.threads 1).2.Done ∧
          storedSettings Sample.co p.shared.now 1 = ⟨true, some 3⟩)) = true := by
    decide +kernel
  rw [Option.any_eq_true] at hsome
  obtain ⟨p, hp, hlast⟩ := hsome
  obtain ⟨h0, h1, hstored⟩ := of_decide_eq_true hlast
  have hdone := Sample.done_of_replayWhile (by decide) hp (fun _ => trivial) h0 h1
  have hrun := Machine.stepIf_of_replayWhile (fun _ _ hok =>
    And.imp Sample.succeeds_of Sample.notOvertaken_of (Bool.and_eq_true_iff.1 hok)) hp
  exact ⟨p, hdone, pushes_converge Sample.co Sample.account Sample.broker p (fun _ => rfl)
    Sample.known rfl hrun hdone, hstored⟩

end TradingBroker.Settings
