import Mathlib.Data.List.Nodup
import TradingBroker.Settings.System

/-!
# What the commands owe a worker

A command stores a setting and then publishes to the account's worker, in two
calls. In between the worker does not run on what is stored, and the command owes
it a message (`Due`). Settings are looked at one at a time, since a message may
set one of them and leave the other alone: `KeepsWord` says of each command that
it owes a message on whatever it has stored, and `settingsLedger` puts this
together, for one account and one setting, into a ledger of all the commands that
run. What the messages say is another question.

The ledger is `Lib.Debt`'s: a call either incurs a debt on the setting, or pays
one, or does neither, and a program is honest if on every path whose calls
succeed it pays after it has incurred. Each command is shown to be honest by
walking its coroutine once, for each of the two settings. What this gives about a
run is that a setting nobody owes a message on was last stored before it was last
told, by whomever. Two commands that overlap may still have told it in the wrong
order, and for that the ledger does not suffice.
-/

namespace TradingBroker.Settings

open TradingBroker.Lib TradingBroker.Lib.Coro

/-! ## The two settings -/

inductive Field where
  | signalBlocked
  | maxOpenOrders
  deriving DecidableEq

def Field.key : Field → String
  | .signalBlocked => signalBlockedKey
  | .maxOpenOrders => maxOpenOrdersKey

/-- Two blocks say the same of a setting. -/
def AccountSettings.Agree (f : Field) (w w' : AccountSettings) : Prop :=
  match f with
  | .signalBlocked => w.signalBlocked = w'.signalBlocked
  | .maxOpenOrders => w.maxOpenOrders = w'.maxOpenOrders

instance (f : Field) (w w' : AccountSettings) : Decidable (w.Agree f w') :=
  match f with
  | .signalBlocked => inferInstanceAs (Decidable (w.signalBlocked = w'.signalBlocked))
  | .maxOpenOrders => inferInstanceAs (Decidable (w.maxOpenOrders = w'.maxOpenOrders))

theorem AccountSettings.agree_ext {w w' : AccountSettings} (h : ∀ f, w.Agree f w') : w = w' := by
  cases w
  cases w'
  have hb := h .signalBlocked
  have hm := h .maxOpenOrders
  simp only [Agree] at hb hm
  rw [hb, hm]

theorem AccountSettings.Agree.trans {f : Field} {w w' w'' : AccountSettings}
    (h : w.Agree f w') (h' : w'.Agree f w'') : w.Agree f w'' := by
  cases f with
  | signalBlocked => exact Eq.trans h h'
  | maxOpenOrders => exact Eq.trans h h'

theorem AccountSettings.Agree.symm {f : Field} {w w' : AccountSettings}
    (h : w.Agree f w') : w'.Agree f w := by
  cases f with
  | signalBlocked => exact Eq.symm h
  | maxOpenOrders => exact Eq.symm h

/-- The account's worker sets `f` when it sees the message. -/
def Outgoing.Carries (account : Account) (f : Field) : Outgoing → Prop
  | .admin subject action =>
      some subject = account.gateway.map
        (composeAdminSubject account.market · account.accountId) ∧
        f = .signalBlocked ∧ action ≠ .flat
  | .settingsUpdate accountId _ =>
      some accountId = account.gateway.map (composeWorkerId account.market · account.accountId)

instance (account : Account) (f : Field) (m : Outgoing) : Decidable (m.Carries account f) :=
  match m with
  | .admin subject action => inferInstanceAs (Decidable (some subject = account.gateway.map
      (composeAdminSubject account.market · account.accountId) ∧
      f = .signalBlocked ∧ action ≠ .flat))
  | .settingsUpdate accountId _ => inferInstanceAs (Decidable (some accountId =
      account.gateway.map (composeWorkerId account.market · account.accountId)))

theorem apply_of_not_carries {account : Account} {f : Field} {m : Outgoing}
    (h : ¬ m.Carries account f) (w : AccountSettings) : (w.apply account m).Agree f w := by
  cases m with
  | admin subject action =>
      simp only [AccountSettings.apply]
      split
      · next hs =>
          cases f with
          | maxOpenOrders => cases action <;> rfl
          | signalBlocked =>
              cases action with
              | flat => rfl
              | blockSignal => exact absurd ⟨hs, rfl, by decide⟩ h
              | allowSignal => exact absurd ⟨hs, rfl, by decide⟩ h
      · cases f <;> rfl
  | settingsUpdate accountId settings =>
      simp only [AccountSettings.apply]
      split
      · next hs => exact absurd hs h
      · cases f <;> rfl

theorem workerSettings_append (account : Account) (w : AccountSettings) (ms : List Outgoing)
    (m : Outgoing) :
    workerSettings account w (ms ++ [m]) = (workerSettings account w ms).apply account m := by
  rw [workerSettings, List.foldl_append]
  rfl

/-! ## What a write changes -/

theorem get_ofFields (co : Coercions) (items : JsonObject)
    (h : (AccountSettings.ofFields co items).isSome = true) :
    some ((AccountSettings.ofFields co items).get h).signalBlocked =
        field co.bool false items signalBlockedKey ∧
      some ((AccountSettings.ofFields co items).get h).maxOpenOrders =
        field co.cap none items maxOpenOrdersKey := by
  obtain ⟨w, hw⟩ := Option.isSome_iff_exists.1 h
  simp only [hw, Option.get_some]
  simp only [AccountSettings.ofFields, Option.bind_eq_some_iff, Option.map_eq_some_iff] at hw
  obtain ⟨b, hb, c, hc, rfl⟩ := hw
  exact ⟨hb.symm, hc.symm⟩

/-- A patch of another key leaves what is kept of this one alone. -/
theorem get?_kept_concat (co : Coercions) (items : JsonObject) (patch : PyStr × Json)
    (name : String) (h : patch.1 ≠ pyStr name) :
    JsonObject.get? ((items.filter (fun item => ! [patch].any fun other => other.1 == item.1) ++
        [patch]).filter (kept co)) name = JsonObject.get? (items.filter (kept co)) name := by
  have hpatch : (patch.1 == pyStr name) = false := by simpa using h
  have hlast : List.find?
      (fun item => decide (kept co item = true ∧ (item.1 == pyStr name) = true))
        [patch] = none := by
    simp [h]
  simp only [JsonObject.get?, List.find?_filter, List.find?_append]
  rw [hlast, Option.or_none]
  congr 2
  funext item
  by_cases hitem : item.1 = pyStr name
  · have hne : (patch.1 == item.1) = false := by
      rw [hitem]
      exact hpatch
    simp [hne]
  · have hfalse : (item.1 == pyStr name) = false := by simpa using hitem
    simp [hfalse]

theorem parse_concat (co : Coercions) (value : Json) (patch : PyStr × Json) {f : Field}
    (h : patch.1 ≠ pyStr f.key) :
    (parseAccountSettings co (concatJsonb value (.obj [patch]))).Agree f
      (parseAccountSettings co value) := by
  cases value with
  | obj items =>
      have hnew := get_ofFields co _ (ofFields_kept co
        (items.filter (fun item => ! [patch].any fun other => other.1 == item.1) ++ [patch]))
      have hold := get_ofFields co _ (ofFields_kept co items)
      cases f with
      | signalBlocked =>
          have heq : field co.bool false ((items.filter (fun item =>
              ! [patch].any fun other => other.1 == item.1) ++ [patch]).filter (kept co))
                signalBlockedKey = field co.bool false (items.filter (kept co))
                  signalBlockedKey := by
            rw [field, field, get?_kept_concat co items patch signalBlockedKey h]
          exact Option.some.inj (hnew.1.trans (heq.trans hold.1.symm))
      | maxOpenOrders =>
          have heq : field co.cap none ((items.filter (fun item =>
              ! [patch].any fun other => other.1 == item.1) ++ [patch]).filter (kept co))
                maxOpenOrdersKey = field co.cap none (items.filter (kept co)) maxOpenOrdersKey := by
            rw [field, field, get?_kept_concat co items patch maxOpenOrdersKey h]
          exact Option.some.inj (hnew.2.trans (heq.trans hold.2.symm))
  | null | bool | int | float | str | arr => cases f <;> rfl

theorem key_ne : pyStr signalBlockedKey ≠ pyStr maxOpenOrdersKey := by decide

/-- A flag that was just stored is what the row says. -/
theorem parse_concat_bool {co : Coercions} (hbool : ∀ b, co.bool (.bool b) = some b)
    (items : JsonObject) (enabled : Bool) :
    (parseAccountSettings co
      (concatJsonb (.obj items) (.obj [(pyStr signalBlockedKey, .bool enabled)]))).signalBlocked =
        enabled := by
  have hkept : kept co (pyStr signalBlockedKey, .bool enabled) = true := by
    have hblocked : field co.bool false [(pyStr signalBlockedKey, .bool enabled)]
        signalBlockedKey = some enabled := by
      rw [field, get?_singleton, if_pos rfl]
      exact hbool enabled
    have hcap : field co.cap none [(pyStr signalBlockedKey, .bool enabled)]
        maxOpenOrdersKey = some none := by
      rw [field, get?_singleton, if_neg key_ne]
    rw [kept, AccountSettings.ofFields, hblocked, Option.bind_some, hcap]
    simp
  have hget : JsonObject.get? ((items.filter (fun item : PyStr × Json =>
      ! [(pyStr signalBlockedKey, Json.bool enabled)].any fun other => other.1 == item.1) ++
        [(pyStr signalBlockedKey, Json.bool enabled)]).filter (kept co)) signalBlockedKey =
          some (.bool enabled) := by
    have hfirst : (items.filter (fun item : PyStr × Json =>
        ! [(pyStr signalBlockedKey, Json.bool enabled)].any fun other => other.1 == item.1)).find?
          (fun item : PyStr × Json =>
            decide (kept co item = true ∧ (item.1 == pyStr signalBlockedKey) = true)) = none := by
      rw [List.find?_eq_none]
      intro item hitem
      have hne := (List.mem_filter.1 hitem).2
      simp only [List.any_cons, List.any_nil, Bool.or_false, Bool.not_eq_true',
        beq_eq_false_iff_ne] at hne
      simp [Ne.symm hne]
    rw [JsonObject.get?, List.find?_filter, List.find?_append, hfirst, Option.none_or]
    simp [hkept]
  have hnew := (get_ofFields co _ (ofFields_kept co
    (items.filter (fun item =>
      ! [(pyStr signalBlockedKey, Json.bool enabled)].any fun other => other.1 == item.1) ++
        [(pyStr signalBlockedKey, .bool enabled)]))).1
  rw [field, hget] at hnew
  exact Option.some.inj (hnew.trans (hbool enabled))

theorem signalBlocked_resolve (w : AccountSettings) (n : Nat) :
    (resolveAccountSettings w n).signalBlocked = w.signalBlocked := by
  unfold resolveAccountSettings
  split <;> rfl

theorem maxOpenOrders_resolve (w : AccountSettings) (n : Nat) :
    (resolveAccountSettings w n).maxOpenOrders = some (w.maxOpenOrders.getD n) := by
  unfold resolveAccountSettings
  split
  · next hnone => rw [hnone]; rfl
  · next hsome => rw [hsome]; rfl

theorem resolve_agree {f : Field} {w w' : AccountSettings} (h : w.Agree f w') (n : Nat) :
    (resolveAccountSettings w n).Agree f (resolveAccountSettings w' n) := by
  cases f with
  | signalBlocked =>
      exact (signalBlocked_resolve w n).trans (h.trans (signalBlocked_resolve w' n).symm)
  | maxOpenOrders =>
      have h' : w.maxOpenOrders = w'.maxOpenOrders := h
      show (resolveAccountSettings w n).maxOpenOrders =
        (resolveAccountSettings w' n).maxOpenOrders
      rw [maxOpenOrders_resolve, maxOpenOrders_resolve, h']

theorem resolve_signalBlocked (w : AccountSettings) (n n' : Nat) :
    (resolveAccountSettings w n).Agree .signalBlocked (resolveAccountSettings w n') :=
  (signalBlocked_resolve w n).trans (signalBlocked_resolve w n').symm

/-! ## The account in the store -/

/-- Nothing a command or an admin does changes where a worker is reached. -/
structure SameAddress (row account : Account) : Prop where
  accountId : row.accountId = account.accountId
  market : row.market = account.market
  gateway : row.gateway = account.gateway

/-- A message to the one worker is taken by the other: they have one worker id, or one subject. -/
def SharesAddress (row account : Account) : Prop :=
  (∃ g, row.gateway = some g ∧ some (composeWorkerId row.market g row.accountId) =
    account.gateway.map (composeWorkerId account.market · account.accountId)) ∨
  ∃ g, row.gateway = some g ∧ some (composeAdminSubject row.market g row.accountId) =
    account.gateway.map (composeAdminSubject account.market · account.accountId)

/-- The account is stored, with an object of settings, and its worker can be addressed,
by an address that no other account has. Ids are a primary key. Every step of a run
keeps this. -/
structure Known (account : Account) (s : Broker) : Prop where
  stored : ∃ row, byId s.accounts account.id = some row ∧ SameAddress row account ∧
    ∃ fields, row.settings = .obj fields
  gateway : ∃ g, account.gateway = some g ∧ g ≠ ""
  ids : (s.accounts.map Account.id).Nodup
  own : ∀ row ∈ s.accounts, SharesAddress row account → row.id = account.id

theorem merge_id (id : Nat) (patch : PyStr × Json) (a : Account) :
    (Account.merge id patch a).id = a.id := by
  unfold Account.merge
  split <;> rfl

theorem byId_merge (accounts : List Account) (id id' : Nat) (patch : PyStr × Json) :
    byId (accounts.map (Account.merge id patch)) id' =
      (byId accounts id').map (Account.merge id patch) := by
  unfold byId
  rw [List.find?_map]
  congr 2
  funext a
  show ((Account.merge id patch a).id == id') = _
  rw [merge_id]

theorem merge_sameAddress {row account : Account} (h : SameAddress row account) (id : Nat)
    (patch : PyStr × Json) : SameAddress (Account.merge id patch row) account := by
  unfold Account.merge
  split
  · exact ⟨h.accountId, h.market, h.gateway⟩
  · exact h

theorem byId_id {accounts : List Account} {id : Nat} {row : Account}
    (h : byId accounts id = some row) : row.id = id := by
  simpa using List.find?_some h

section
variable {co : Coercions} {account : Account} {s : Broker}

theorem merge_sharesAddress {row : Account} {id : Nat} {patch : PyStr × Json}
    (h : SharesAddress (Account.merge id patch row) account) : SharesAddress row account := by
  unfold Account.merge at h
  split at h
  · exact h
  · exact h

theorem merge_obj {row : Account} {fields : JsonObject} (h : row.settings = .obj fields) (id : Nat)
    (patch : PyStr × Json) : ∃ fields, (Account.merge id patch row).settings = .obj fields := by
  unfold Account.merge
  split
  · rw [h]
    exact ⟨_, rfl⟩
  · exact ⟨fields, h⟩

theorem Known.updateSettings (h : Known account s) (id : Nat) (patch : PyStr × Json) :
    Known account (s.updateSettings id patch) := by
  obtain ⟨⟨row, hrow, haddr, fields, hfields⟩, hg, hids, hown⟩ := h
  refine ⟨⟨Account.merge id patch row, ?_, merge_sameAddress haddr id patch,
    merge_obj hfields id patch⟩, hg, ?_, ?_⟩
  · show byId (s.accounts.map (Account.merge id patch)) account.id = _
    rw [byId_merge, hrow]
    rfl
  · show ((s.accounts.map (Account.merge id patch)).map Account.id).Nodup
    have hsame : Account.id ∘ Account.merge id patch = Account.id := funext (merge_id id patch)
    rw [List.map_map, hsame]
    exact hids
  · intro row' hmem hshares
    obtain ⟨row'', hmem', rfl⟩ := List.mem_map.1 hmem
    rw [merge_id]
    exact hown row'' hmem' (merge_sharesAddress hshares)

theorem Known.effect (h : Known account s) (x : Outcome) (c : Call) :
    Known account (effect x s c) := by
  unfold Settings.effect
  split
  · exact h
  · cases c with
    | updateSettings id patch => exact h.updateSettings id patch
    | _ => exact ⟨h.stored, h.gateway, h.ids, h.own⟩

/-- Whatever row shares the account's address is the account's. -/
theorem Known.eq_of_sharesAddress (h : Known account s) {row other : Account}
    (hrow : byId s.accounts account.id = some row) (hmem : other ∈ s.accounts)
    (hshares : SharesAddress other account) : other = row := by
  have hid : other.id = row.id := (h.own other hmem hshares).trans (byId_id hrow).symm
  exact List.inj_on_of_nodup_map h.ids hmem (List.mem_of_find?_eq_some hrow) hid

/-- A row is patched elsewhere, or under another key. -/
theorem rowSettings_update {f : Field} {id : Nat} {patch : PyStr × Json}
    (h : ¬ (id = account.id ∧ patch.1 = pyStr f.key)) :
    (rowSettings co (s.updateSettings id patch) account.id).Agree f
      (rowSettings co s account.id) := by
  unfold rowSettings
  have haccounts : (s.updateSettings id patch).accounts = s.accounts.map (Account.merge id patch) :=
    rfl
  rw [haccounts, byId_merge]
  cases hrow : byId s.accounts account.id with
  | none => cases f <;> rfl
  | some row =>
      show (parseAccountSettings co (Account.merge id patch row).settings).Agree f
        (parseAccountSettings co row.settings)
      unfold Account.merge
      split
      · next hid =>
          have hpatch : patch.1 ≠ pyStr f.key := fun hp =>
            h ⟨hid.symm.trans (byId_id hrow), hp⟩
          exact parse_concat co row.settings patch hpatch
      · cases f <;> rfl

theorem storedSettings_update {f : Field} {id : Nat} {patch : PyStr × Json}
    (h : ¬ (id = account.id ∧ patch.1 = pyStr f.key)) :
    (storedSettings co (s.updateSettings id patch) account.id).Agree f
      (storedSettings co s account.id) :=
  resolve_agree (rowSettings_update h) _

end

/-! ## What a command owes -/

section
variable (co : Coercions) (account : Account)

/-- The answers a call gets that succeeds. A flag that is stored is returned as it was stored. -/
def Answers : (c : Call) → c.Result → Prop
  | .updateSettings id patch, r => id = account.id → ∃ stored, r = some stored ∧
      ∀ enabled, patch = (pyStr signalBlockedKey, .bool enabled) →
        (parseAccountSettings co stored).signalBlocked = enabled
  | .setSetting _ _, r => r = true
  | .getAll, rows => ∃ row, byId rows account.id = some row ∧ SameAddress row account ∧
      ∀ other ∈ rows, SharesAddress other account → other = row
  | _, _ => True

/-- The call may change what is stored of `f`. -/
def Incurs (f : Field) : Call → Prop
  | .updateSettings id patch => id = account.id ∧ patch.1 = pyStr f.key
  | .setSetting key _ => f = .maxOpenOrders ∧ key = maxOpenOrdersKey
  | _ => False

/-- The call tells the worker of `f`. -/
def Pays (f : Field) : Call → Prop
  | .publish m => m.Carries account f
  | _ => False

/-- The command has yet to tell the worker of `f`: on every path it can still take. -/
abbrev Due (f : Field) {α : Type} (p : Prog α) : Prop :=
  p.Owes (Answers co account) (Pays account f)

abbrev KeepsWord (f : Field) {α : Type} (p : Prog α) : Prop :=
  p.Honest (Answers co account) (Incurs account f) (Pays account f)

end

section
variable {co : Coercions} {account row : Account} {f : Field}

theorem due_push (h : SameAddress row account) (hg : ∃ g, account.gateway = some g ∧ g ≠ "")
    (settings : AccountSettings) :
    Due co account f (pushWorkerSettingsUpdate row.accountId row.market row.gateway settings) := by
  obtain ⟨g, hgw, hne⟩ := hg
  unfold pushWorkerSettingsUpdate
  rw [h.gateway, hgw]
  simp only [if_neg hne]
  refine .now ?_
  show some _ = _
  rw [hgw, h.market, h.accountId]
  rfl

theorem keepsWord_push (accountId : String) (market : MarketType) (gateway : Option String)
    (settings : AccountSettings) :
    KeepsWord co account f (pushWorkerSettingsUpdate accountId market gateway settings) := by
  unfold pushWorkerSettingsUpdate
  split
  · exact trivial
  · split
    · exact trivial
    · exact fun _ _ => ⟨False.elim, trivial⟩

theorem keepsWord_prevent (hrow : row.id = account.id → SameAddress row account)
    (hg : ∃ g, account.gateway = some g ∧ g ≠ "") (enabled : Bool) :
    KeepsWord co account f (prevent row enabled) := by
  rintro (_ | settings) hok
  · exact ⟨fun hi => absurd (hok hi.1) (by simp), trivial⟩
  · refine ⟨fun hi => ?_, ?_⟩
    · have hf : f = .signalBlocked := by
        cases f with
        | signalBlocked => rfl
        | maxOpenOrders => exact absurd hi.2 key_ne
      have haddr := hrow hi.1
      obtain ⟨g, hgw, -⟩ := hg
      refine Owes.bind ?_ _
      unfold publishAdminSignal
      rw [haddr.gateway, hgw]
      refine .now ⟨?_, hf, ?_⟩
      · rw [hgw, haddr.market, haddr.accountId]
        rfl
      · cases enabled <;> decide
    · refine Honest.bind ?_ fun _ => trivial
      unfold publishAdminSignal
      split
      · exact trivial
      · rintro (_ | _) _
        · exact ⟨False.elim, trivial⟩
        · exact ⟨False.elim, trivial⟩

theorem keepsWord_setMaxOpenOrders (hrow : row.id = account.id → SameAddress row account)
    (hg : ∃ g, account.gateway = some g ∧ g ≠ "") (value : Option Nat) :
    KeepsWord co account f (setMaxOpenOrders co row value) := by
  rintro (_ | stored) hok
  · exact ⟨fun hi => absurd (hok hi.1) (by simp), trivial⟩
  · refine ⟨fun hi => .later fun raw _ => (due_push (hrow hi.1) hg _).bind _, fun raw _ => ?_⟩
    exact ⟨False.elim, (keepsWord_push _ _ _ _).bind fun _ => trivial⟩

theorem keepsWord_pushToEach (globalValue : Nat) (accounts : List Account) :
    KeepsWord co account f (pushToEach co globalValue accounts) := by
  induction accounts with
  | nil => exact trivial
  | cons a accounts ih => exact (keepsWord_push _ _ _ _).bind fun _ => ih

/-- Every account in the list is pushed. -/
theorem due_pushToEach (hg : ∃ g, account.gateway = some g ∧ g ≠ "") (globalValue : Nat)
    {accounts : List Account} (h : ∃ row ∈ accounts, SameAddress row account) :
    Due co account f (pushToEach co globalValue accounts) := by
  induction accounts with
  | nil =>
      obtain ⟨row, hmem, -⟩ := h
      cases hmem
  | cons a accounts ih =>
      obtain ⟨row, hmem, haddr⟩ := h
      rcases List.mem_cons.1 hmem with rfl | hmem
      · exact (due_push haddr hg _).bind _
      · have hrest := ih ⟨row, hmem, haddr⟩
        -- the push before it may be skipped or made, the rest follows either way
        unfold pushToEach pushWorkerSettingsUpdate
        split
        · exact hrest
        · split
          · exact hrest
          · exact .later fun _ _ => hrest

theorem keepsWord_setGlobalMaxOpenOrders (hg : ∃ g, account.gateway = some g ∧ g ≠ "")
    (value : Nat) : KeepsWord co account f (setGlobalMaxOpenOrders co value) := by
  intro ok hok
  have hpush : Due co account f (pushMaxOpenOrders co) :=
    .later fun raw _ => .later fun accounts ⟨row, hrow, haddr, _⟩ =>
      due_pushToEach hg _ ⟨row, List.mem_of_find?_eq_some hrow, haddr⟩
  have hkeeps : KeepsWord co account f (pushMaxOpenOrders co) := fun raw _ =>
    ⟨False.elim, fun accounts _ => ⟨False.elim, keepsWord_pushToEach _ _⟩⟩
  have hok' : ok = true := hok
  subst hok'
  exact ⟨fun _ => .later fun _ _ => hpush.bind _,
    fun _ _ => ⟨False.elim, hkeeps.bind fun _ => trivial⟩⟩

end

/-! ## Runs -/

/-- No call fails, and no command is killed: runs of which convergence is promised. -/
def Succeeds : Step → Prop
  | .call _ _ _ x => x = .ok
  | .crash _ _ => False
  | _ => True

section
variable {co : Coercions} {account : Account} {w : AccountSettings} {f : Field}

/-- The worker runs on what is stored of `f`. -/
def InStep (co : Coercions) (account : Account) (w : AccountSettings) (f : Field)
    (s : Broker) : Prop :=
  (workerSettings account w s.published).Agree f (storedSettings co s account.id)

theorem answers_respond (hbool : ∀ b, co.bool (.bool b) = some b) {s : Broker}
    (hs : Known account s) (c : Call) : Answers co account c (respond .ok s c) := by
  cases c with
  | updateSettings id patch =>
      intro hid
      obtain ⟨row, hrow, -, fields, hfields⟩ := hs.stored
      have hafter : byId (s.updateSettings id patch).accounts id =
          some (Account.merge id patch row) := by
        show byId (s.accounts.map (Account.merge id patch)) id = _
        rw [byId_merge, hid, hrow]
        rfl
      refine ⟨(Account.merge id patch row).settings, ?_, ?_⟩
      · simp only [respond, if_pos, hafter, Option.map_some]
      · rintro enabled rfl
        have hrid : row.id = id := (byId_id hrow).trans hid.symm
        rw [Account.merge, if_pos hrid, hfields]
        exact parse_concat_bool hbool fields enabled
  | setSetting key value => rfl
  | getAll =>
      obtain ⟨row, hrow, haddr, -⟩ := hs.stored
      exact ⟨row, hrow, haddr, fun other hmem hshares =>
        hs.eq_of_sharesAddress hrow hmem hshares⟩
  | getSetting | sendMessage | publish => trivial

/-- A call that writes nothing of `f` and tells the worker nothing of it. -/
theorem inStep_effect {s : Broker} {c : Call} (hi : ¬ Incurs account f c)
    (hp : ¬ Pays account f c) (h : InStep co account w f s) :
    InStep co account w f (effect .ok s c) := by
  cases c with
  | updateSettings id patch => exact h.trans (storedSettings_update hi).symm
  | setSetting key value =>
      refine h.trans ?_
      cases f with
      | signalBlocked => exact resolve_signalBlocked _ _ _
      | maxOpenOrders =>
          have hkey : maxOpenOrdersKey ≠ key := fun he => hi ⟨rfl, he.symm⟩
          show (storedSettings co s account.id).maxOpenOrders =
            (resolveAccountSettings _ (parseGlobalMaxOpenOrders
              (Function.update s.settings key (some value) maxOpenOrdersKey))).maxOpenOrders
          rw [Function.update_of_ne hkey]
          rfl
  | publish m =>
      show (workerSettings account w (s.published ++ [m])).Agree f _
      rw [workerSettings_append]
      exact (apply_of_not_carries hp _).trans h
  | getSetting | getAll | sendMessage => exact h

theorem keepsWord_serve {s : Broker} {e : Request} {p : Prog Unit} (hs : Known account s)
    (h : serve co s e = some p) : KeepsWord co account f p := by
  have hrow : ∀ {id : Nat} {a : Account}, byId s.accounts id = some a →
      a.id = account.id → SameAddress a account := by
    intro id a ha hid
    obtain ⟨row, hrow, haddr, -⟩ := hs.stored
    rw [← hid, byId_id ha, ha] at hrow
    cases hrow
    exact haddr
  cases e with
  | prevent id enabled =>
      simp only [serve, Option.map_eq_some_iff] at h
      obtain ⟨a, ha, rfl⟩ := h
      exact (keepsWord_prevent (hrow ha) hs.gateway enabled).bind fun _ => trivial
  | maxOpenOrders id value =>
      simp only [serve, Option.map_eq_some_iff] at h
      obtain ⟨a, ha, rfl⟩ := h
      exact (keepsWord_setMaxOpenOrders (hrow ha) hs.gateway value).bind fun _ => trivial
  | globalMaxOpenOrders value =>
      simp only [serve, Option.some.injEq] at h
      subst h
      exact (keepsWord_setGlobalMaxOpenOrders hs.gateway value).bind fun _ => trivial

/-- What the commands owe the account's worker of `f`. -/
def settingsLedger (hbool : ∀ b, co.bool (.bool b) = some b) (account : Account)
    (w : AccountSettings) (f : Field) : Ledger (commands co) where
  inv := Known account
  good := InStep co account w f
  may := Succeeds
  ok := Answers co account
  incurs := Incurs account f
  pays := Pays account f
  call := by
    intro i k c x s r hs hm hr
    have hx : x = .ok := hm
    subst hx
    simp only [commands, Option.some.injEq] at hr
    subst hr
    exact ⟨hs.effect .ok c, answers_respond hbool hs c, inStep_effect⟩
  start := by
    intro i e s r hs hr
    simp only [commands, Option.map_eq_some_iff] at hr
    obtain ⟨p, hp, rfl⟩ := hr
    exact ⟨hs, keepsWord_serve hs hp, id⟩
  env := fun _ h => by cases h
  no_crash := fun _ _ h => h

end

end TradingBroker.Settings
