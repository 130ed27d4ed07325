import Mathlib.Data.List.Perm.Basic
import Mathlib.Logic.Function.Iterate
import TradingBroker.Lib.Along
import TradingBroker.Lib.Server
import TradingBroker.Settings.Service

/-!
# The three toggles

`toggle_block_signal`, `toggle_silent_signal` and `toggle_include_signal_raw` of
`broker/api/admin.py`: each reads a setting and writes the other value, in two
calls of the repository, and a read that fails answers what a setting that was
never set answers. `toggles_flip` says when the requests of any number of admins
all count: as long as no request reads a setting while another one of its
endpoint is between its read and its write, and no read of a setting that is on
fails. `not_togglesFlip` is two admins at once.

The invariant says of each endpoint that it has been served as if one request
came after the other (`Served`): where its requests stand (`Stage`), which
values they have written, and that the value still to be written is the other
one of what is stored. A second request that reads in between would break the
last of these, since both would then write the same. So does a failed read of a
setting that is on: it is taken for one that is off, and the write leaves it on.
-/

namespace TradingBroker.Settings.Toggles

open TradingBroker.Lib
open TradingBroker.Settings (Fault)

/-! ## The endpoints -/

inductive Call where
  | get (key : String)
  | set (key value : String)
  | sendMessage (text : String)

abbrev Call.Result : Call → Type
  | .get _ => Option String
  | .set _ _ => Bool
  | .sendMessage _ => Bool

abbrev Prog := Coro Call Call.Result Fault

/-- `SettingToggleResponse`. -/
structure SettingToggleResponse where
  setting : String
  value : String
  state : String
  deriving DecidableEq

/-- The setting of an endpoint, and what the admin channel calls it. -/
structure Toggle where
  key : String
  label : String
  deriving DecidableEq

def newValue (current : Option String) : String := if current = some "1" then "0" else "1"

def stateLabel (value : String) : String := if value = "1" then "ENABLED" else "DISABLED"

def Toggle.response (t : Toggle) (value : String) : SettingToggleResponse :=
  ⟨t.key, value, stateLabel value⟩

def Toggle.text (t : Toggle) (value : String) : String :=
  "⚙️ <b>Broker setting changed</b>\nSetting: <code>" ++ t.key ++ "</code>\n" ++ t.label ++
    ": <b>" ++ stateLabel value ++ "</b>\n"

/-- After the write: the admin channel is told, and the caller is answered. -/
def Toggle.announce (t : Toggle) (value : String) : Prog SettingToggleResponse :=
  .call (.sendMessage (t.text value)) fun _ => .pure (t.response value)

/-- After the read. -/
def Toggle.write (t : Toggle) (value : String) : Prog SettingToggleResponse :=
  .call (.set t.key value) fun ok =>
    if ok then t.announce value else .raise (.http 500 "Failed to update broker setting")

/-- What the three endpoints share. -/
def Toggle.toggle (t : Toggle) : Prog SettingToggleResponse :=
  .call (.get t.key) fun current => t.write (newValue current)

inductive Endpoint where
  | blockSignal | silentSignal | includeSignalRaw
  deriving DecidableEq

def Endpoint.toggle : Endpoint → Toggle
  | .blockSignal => ⟨"signal_blocked", "Signal blocked"⟩
  | .silentSignal => ⟨"silent_signal", "Silent signal"⟩
  | .includeSignalRaw => ⟨"notification_include_signal_raw", "Include signal raw"⟩

def toggleBlockSignal : Prog SettingToggleResponse := Endpoint.blockSignal.toggle.toggle

def toggleSilentSignal : Prog SettingToggleResponse := Endpoint.silentSignal.toggle.toggle

def toggleIncludeSignalRaw : Prog SettingToggleResponse := Endpoint.includeSignalRaw.toggle.toggle

def serve : Endpoint → Prog SettingToggleResponse
  | .blockSignal => toggleBlockSignal
  | .silentSignal => toggleSilentSignal
  | .includeSignalRaw => toggleIncludeSignalRaw

theorem serve_eq (e : Endpoint) : serve e = e.toggle.toggle := by
  cases e <;> rfl

/-- No two endpoints have one setting. -/
theorem key_inj {e e' : Endpoint} (h : e.toggle.key = e'.toggle.key) : e = e' := by
  cases e <;> cases e' <;> first | rfl | exact absurd h (by decide)

/-! ## Requests at once -/

abbrev Store := String → Option String

/-- Only reads fail. `fails` is about a read, and means nothing for other calls. -/
def exec : (c : Call) → (fails : Bool) → Store → c.Result × Store
  | .get key, fails, s => (if fails then none else s key, s)
  | .set key value, _, s => (true, Function.update s key (some value))
  | .sendMessage _, fails, s => (!fails, s)

abbrev World := Server Endpoint Store Call Call.Result Fault SettingToggleResponse

abbrev Event := Server.Event Endpoint Bool

def World.start (s : Store) : World := ⟨s, []⟩

def World.step (w : World) (e : Event) : World := Server.step serve exec w e

def World.run (w : World) (es : List Event) : World := es.foldl World.step w

/-! ## What is promised -/

/-- The setting is flipped `n` times. -/
def flips (n : Nat) (v : Option String) : Option String := (fun v => some (newValue v))^[n] v

/-- What `n` requests report one after the other. -/
def serial (v : Option String) : Nat → List String
  | 0 => []
  | n + 1 => serial v n ++ [newValue (flips n v)]

/-- How many requests an endpoint has had. -/
def World.count (w : World) (e : Endpoint) : Nat := w.requests.countP fun r => r.1 == e

/-- What a request that is answered reports. -/
def reported (e : Endpoint) (r : Endpoint × Prog SettingToggleResponse) :
    Option SettingToggleResponse :=
  match r with
  | (e', .pure response) => if e' = e then some response else none
  | _ => none

def World.reports (w : World) (e : Endpoint) : List SettingToggleResponse :=
  w.requests.filterMap (reported e)

/-- Every setting is flipped once for each request to its endpoint, and the callers of an
endpoint are told what they would have been told one after the other, in some order. -/
def TogglesFlip (s : Store) (w : World) : Prop :=
  ∀ e : Endpoint, w.shared e.toggle.key = flips (w.count e) (s e.toggle.key) ∧
    (w.reports e).Perm ((serial (s e.toggle.key) (w.count e)).map e.toggle.response)

/-- The request is between its read and its write. -/
def Writes (p : Prog SettingToggleResponse) : Prop := ∃ key value, p.next? = some (.set key value)

/-- The condition: a read comes while no other request of its endpoint is between its
read and its write, and does not fail on a setting that is on. -/
def Apart (w : World) : Event → Prop
  | .request _ => True
  | .call i fails =>
      ∀ e p key, w.requests[i]? = some (e, p) → p.next? = some (.get key) →
        (∀ r ∈ w.requests, r.1 = e → ¬ Writes r.2) ∧
          (fails = true → w.shared key ≠ some "1")

/-! ## Where a request stands -/

inductive Stage where
  | ready
  | read (value : String)
  | wrote (value : String)
  | answered (value : String)

def Stage.program (t : Toggle) : Stage → Prog SettingToggleResponse
  | .ready => t.toggle
  | .read value => t.write value
  | .wrote value => t.announce value
  | .answered value => .pure (t.response value)

/-- The value the request has written. -/
def Stage.written : Stage → Option String
  | .wrote value => some value
  | .answered value => some value
  | _ => none

def Stage.isRead : Stage → Bool
  | .read _ => true
  | _ => false

/-- What the requests of an endpoint have written. -/
def written (e : Endpoint) (stages : List (Endpoint × Stage)) : List String :=
  stages.filterMap fun r => if r.1 = e then r.2.written else none

/-- How many requests of an endpoint are between read and write. -/
def reading (e : Endpoint) (stages : List (Endpoint × Stage)) : Nat :=
  stages.countP fun r => r.1 == e && r.2.isRead

/-- The requests of an endpoint have been served as if one after the other: what is stored is
the outcome of the writes so far, they wrote what they would have written one after the
other, and the one request that is between read and write is about to write the other value
of what is stored. -/
structure Served (s : Store) (w : World) (stages : List (Endpoint × Stage)) (e : Endpoint) :
    Prop where
  stored : w.shared e.toggle.key = flips (written e stages).length (s e.toggle.key)
  wrote : (written e stages).Perm (serial (s e.toggle.key) (written e stages).length)
  one : reading e stages ≤ 1
  fresh : ∀ value, (e, Stage.read value) ∈ stages → value = newValue (w.shared e.toggle.key)

/-- The requests are at these stages, and all endpoints are served. -/
def Inv (s : Store) (w : World) : Prop :=
  ∃ stages : List (Endpoint × Stage),
    w.requests = stages.map (fun r => (r.1, r.2.program r.1.toggle)) ∧
      ∀ e, Served s w stages e

/-! ## Steps -/

section Steps

variable {s : Store} {w w' : World} {stages pre post : List (Endpoint × Stage)}
  {e e' : Endpoint} {st st' : Stage}

theorem written_split :
    written e (pre ++ (e', st) :: post) =
      written e pre ++ (if e' = e then st.written else none).toList ++ written e post := by
  simp only [written, List.filterMap_append, List.filterMap_cons]
  split
  · next h => simp [h]
  · next v h => simp [h]

theorem reading_split :
    reading e (pre ++ (e', st) :: post) =
      reading e pre + (if e' = e ∧ st.isRead = true then 1 else 0) + reading e post := by
  simp only [reading, List.countP_append, List.countP_cons, Bool.and_eq_true, beq_iff_eq]
  omega

theorem reading_eq_zero_iff :
    reading e stages = 0 ↔ ∀ value, (e, Stage.read value) ∉ stages := by
  rw [reading, List.countP_eq_zero]
  constructor
  · intro h value hmem
    exact h _ hmem (by simp [Stage.isRead])
  · intro h r hr hread
    obtain ⟨e', st⟩ := r
    rw [Bool.and_eq_true, beq_iff_eq] at hread
    cases st with
    | read value =>
        obtain ⟨rfl, -⟩ := hread
        exact h value hr
    | ready => exact absurd hread.2 (by simp [Stage.isRead])
    | wrote value => exact absurd hread.2 (by simp [Stage.isRead])
    | answered value => exact absurd hread.2 (by simp [Stage.isRead])

/-- A move that writes nothing and reads nothing for the endpoint. -/
theorem Served.quiet (h : Served s w (pre ++ (e', st) :: post) e)
    (hstore : w'.shared e.toggle.key = w.shared e.toggle.key)
    (hw : e' = e → st'.written = st.written) (hr : e' = e → st'.isRead = false) :
    Served s w' (pre ++ (e', st') :: post) e := by
  have hwritten : written e (pre ++ (e', st') :: post) = written e (pre ++ (e', st) :: post) := by
    rw [written_split, written_split]
    by_cases he : e' = e
    · rw [if_pos he, if_pos he, hw he]
    · rw [if_neg he, if_neg he]
  have hreading : reading e (pre ++ (e', st') :: post) ≤ reading e (pre ++ (e', st) :: post) := by
    rw [reading_split, reading_split]
    have : ¬ (e' = e ∧ st'.isRead = true) := by
      intro hread
      rw [hr hread.1] at hread
      exact absurd hread.2 (by decide)
    rw [if_neg this]
    omega
  refine ⟨?_, ?_, ?_, ?_⟩
  · rw [hstore, hwritten, h.stored]
  · rw [hwritten]
    exact h.wrote
  · have := h.one
    omega
  · intro value hmem
    rw [hstore]
    apply h.fresh
    simp only [List.mem_append, List.mem_cons, Prod.mk.injEq] at hmem ⊢
    rcases hmem with hmem | ⟨he, hst⟩ | hmem
    · exact .inl hmem
    · have hfalse := hr he.symm
      rw [← hst] at hfalse
      cases hfalse
    · exact .inr (.inr hmem)

/-- A read, with no other request of the endpoint between read and write. -/
theorem Served.read {value : String} (h : Served s w (pre ++ (e, .ready) :: post) e)
    (hzero : reading e (pre ++ (e, .ready) :: post) = 0)
    (hvalue : value = newValue (w.shared e.toggle.key)) (hstore : w'.shared = w.shared) :
    Served s w' (pre ++ (e, .read value) :: post) e := by
  have hwritten : written e (pre ++ (e, .read value) :: post) =
      written e (pre ++ (e, .ready) :: post) := by
    rw [written_split, written_split]
    rfl
  have hpre : reading e (pre ++ (e, .ready) :: post) =
      reading e pre + (if e = e ∧ Stage.ready.isRead = true then 1 else 0) + reading e post :=
    reading_split
  rw [hzero] at hpre
  refine ⟨?_, ?_, ?_, ?_⟩
  · rw [hstore, hwritten, h.stored]
  · rw [hwritten]
    exact h.wrote
  · rw [reading_split, if_pos ⟨rfl, rfl⟩]
    omega
  · intro v hmem
    rw [hstore]
    simp only [List.mem_append, List.mem_cons, Prod.mk.injEq, true_and,
      Stage.read.injEq] at hmem
    rcases hmem with hmem | rfl | hmem
    · exact absurd hmem (reading_eq_zero_iff.mp (by omega) v)
    · exact hvalue
    · exact absurd hmem (reading_eq_zero_iff.mp (by omega) v)

/-- A write of the one request that is between read and write. -/
theorem Served.write {value : String} (h : Served s w (pre ++ (e, .read value) :: post) e)
    (hstore : w'.shared e.toggle.key = some value) :
    Served s w' (pre ++ (e, .wrote value) :: post) e := by
  have hold : written e (pre ++ (e, .read value) :: post) = written e pre ++ written e post := by
    rw [written_split]
    simp [Stage.written]
  have hnew : written e (pre ++ (e, .wrote value) :: post) =
      written e pre ++ value :: written e post := by
    rw [written_split]
    simp [Stage.written]
  have hlength : (written e (pre ++ (e, .wrote value) :: post)).length =
      (written e pre ++ written e post).length + 1 := by
    rw [hnew, List.length_append, List.length_append, List.length_cons]
    omega
  have hone := h.one
  rw [reading_split, if_pos ⟨rfl, rfl⟩] at hone
  have hvalue := h.fresh value (by simp)
  have hstored := h.stored
  have hwrote := h.wrote
  rw [hold] at hstored hwrote
  refine ⟨?_, ?_, ?_, ?_⟩
  · rw [hstore, hlength, flips, Function.iterate_succ_apply']
    rw [hvalue, hstored]
    rfl
  · rw [hlength, hnew, serial, ← hstored, ← hvalue]
    have hmid : (written e pre ++ value :: written e post).Perm
        (value :: (written e pre ++ written e post)) := List.perm_middle
    exact hmid.trans ((hwrote.cons value).trans (List.perm_append_singleton _ _).symm)
  · rw [reading_split, if_neg (by simp [Stage.isRead])]
    omega
  · intro v hmem
    simp only [List.mem_append, List.mem_cons, Prod.mk.injEq, reduceCtorEq, and_false,
      false_or] at hmem
    rcases hmem with hmem | hmem
    · exact absurd hmem (reading_eq_zero_iff.mp (by omega) v)
    · exact absurd hmem (reading_eq_zero_iff.mp (by omega) v)

theorem Served.request (h : Served s w stages e) (hstore : w'.shared = w.shared) :
    Served s w' (stages ++ [(e', .ready)]) e := by
  have hwritten : written e (stages ++ [(e', .ready)]) = written e stages := by
    simp [written, Stage.written]
  have hreading : reading e (stages ++ [(e', .ready)]) = reading e stages := by
    simp [reading, Stage.isRead]
  refine ⟨?_, ?_, ?_, ?_⟩
  · rw [hstore, hwritten, h.stored]
  · rw [hwritten]
    exact h.wrote
  · rw [hreading]
    exact h.one
  · intro value hmem
    rw [hstore]
    apply h.fresh
    simpa using hmem

theorem next?_program {t : Toggle} {c : Call} (h : (st.program t).next? = some c) :
    (st = .ready ∧ c = .get t.key) ∨ (∃ value, st = .read value ∧ c = .set t.key value) ∨
      ∃ value, st = .wrote value ∧ c = .sendMessage (t.text value) := by
  cases st with
  | ready =>
      cases h
      exact .inl ⟨rfl, rfl⟩
  | read value =>
      cases h
      exact .inr (.inl ⟨value, rfl, rfl⟩)
  | wrote value =>
      cases h
      exact .inr (.inr ⟨value, rfl, rfl⟩)
  | answered value => cases h

/-- What a read answers leads to the same value as what is stored, unless it fails on a setting
that is on. -/
theorem newValue_answer {current : Option String} {fails : Bool}
    (h : fails = true → current ≠ some "1") :
    newValue (if fails = true then none else current) = newValue current := by
  split
  · next hf => simp [newValue, h hf]
  · rfl

/-- No request of the endpoint writes next, so none is between read and write. -/
theorem reading_eq_zero
    (h : ∀ r ∈ stages.map (fun r => (r.1, r.2.program r.1.toggle)), r.1 = e → ¬ Writes r.2) :
    reading e stages = 0 := by
  refine reading_eq_zero_iff.mpr fun value hmem => ?_
  exact h _ (List.mem_map_of_mem hmem) rfl ⟨e.toggle.key, value, rfl⟩

theorem Inv.step {ev : Event} (h : Inv s w) (hev : Apart w ev) : Inv s (w.step ev) := by
  obtain ⟨stages, hreq, hserved⟩ := h
  cases ev with
  | request e =>
      have hshared : (w.step (.request e)).shared = w.shared := rfl
      refine ⟨stages ++ [(e, .ready)], ?_, fun e' => (hserved e').request hshared⟩
      simp [World.step, Server.step, hreq, Stage.program, serve_eq]
  | call i fails =>
      rcases Server.step_call serve exec w i fails with heq | ⟨pre, post, e, c, k, hsplit, hi, heq⟩
      · rw [World.step, heq]
        exact ⟨stages, hreq, hserved⟩
      rw [World.step, heq]
      rw [hreq, List.map_eq_append_iff] at hsplit
      obtain ⟨spre, srest, rfl, rfl, hrest⟩ := hsplit
      obtain ⟨⟨e', st⟩, spost, rfl, hone, rfl⟩ := List.map_eq_cons_iff.mp hrest
      simp only [Prod.mk.injEq] at hone
      obtain ⟨rfl, hst⟩ := hone
      have hnext : (st.program e'.toggle).next? = some c := by
        rw [hst]
        rfl
      rcases next?_program hnext with ⟨rfl, rfl⟩ | ⟨value, rfl, rfl⟩ | ⟨value, rfl, rfl⟩
      · -- a read
        obtain ⟨hothers, hfails⟩ := hev e' _ _ hi rfl
        cases hst
        refine ⟨spre ++ (e', .read (newValue (exec (.get e'.toggle.key) fails w.shared).1)) ::
          spost, ?_, fun e => ?_⟩
        · simp [Stage.program]
        · by_cases he : e' = e
          · subst he
            refine (hserved e').read ?_ (newValue_answer hfails) rfl
            exact reading_eq_zero (hreq ▸ hothers)
          · exact (hserved e).quiet rfl (fun h => absurd h he) (fun h => absurd h he)
      · -- a write
        cases hst
        refine ⟨spre ++ (e', .wrote value) :: spost, ?_, fun e => ?_⟩
        · simp [Stage.program, exec]
        · by_cases he : e' = e
          · subst he
            exact (hserved e').write (Function.update_self _ _ _)
          · refine (hserved e).quiet ?_ (fun h => absurd h he) (fun h => absurd h he)
            exact Function.update_of_ne (fun hkey => he (key_inj hkey).symm) _ _
      · -- the message to the admin channel
        cases hst
        refine ⟨spre ++ (e', .answered value) :: spost, ?_, fun e => ?_⟩
        · simp [Stage.program]
        · exact (hserved e).quiet rfl (fun _ => rfl) (fun _ => rfl)

/-- Once all requests are answered, all have written, and what they report is what they
wrote. -/
theorem Inv.flip (h : Inv s w) (hdone : w.Answered) : TogglesFlip s w := by
  obtain ⟨stages, hreq, hserved⟩ := h
  have hanswered : ∀ r ∈ stages, ∃ value, r.2 = .answered value := by
    intro r hr
    have hd := hdone (r.1, r.2.program r.1.toggle) (hreq ▸ List.mem_map_of_mem hr)
    obtain ⟨e, st⟩ := r
    cases st with
    | answered value => exact ⟨value, rfl⟩
    | ready => exact absurd hd id
    | read value => exact absurd hd id
    | wrote value => exact absurd hd id
  intro e
  have hreports : w.reports e = (written e stages).map e.toggle.response := by
    rw [World.reports, hreq]
    clear hreq hserved
    induction stages with
    | nil => rfl
    | cons r stages ih =>
        obtain ⟨value, hv⟩ := hanswered r (by simp)
        have ih' := ih fun r' hr' => hanswered r' (by simp [hr'])
        obtain ⟨e', st⟩ := r
        subst hv
        by_cases he : e' = e
        · subst he
          simpa [reported, Stage.program, written, Stage.written] using ih'
        · simpa [reported, Stage.program, written, Stage.written, he] using ih'
  have hcount : w.count e = (written e stages).length := by
    rw [World.count, hreq]
    clear hreq hserved hreports
    induction stages with
    | nil => rfl
    | cons r stages ih =>
        obtain ⟨value, hv⟩ := hanswered r (by simp)
        have ih' := ih fun r' hr' => hanswered r' (by simp [hr'])
        obtain ⟨e', st⟩ := r
        subst hv
        by_cases he : e' = e
        · subst he
          simpa [written, Stage.written] using ih'
        · simpa [written, Stage.written, he] using ih'
  rw [hcount, hreports]
  exact ⟨(hserved e).stored, (hserved e).wrote.map _⟩

end Steps

/-- Requests that keep apart all count. -/
theorem toggles_flip (s : Store) (es : List Event)
    (hapart : Along World.step Apart (World.start s) es)
    (hdone : ((World.start s).run es).Answered) : TogglesFlip s ((World.start s).run es) := by
  refine Inv.flip (Along.invariant (Inv s) (fun _ _ h hev => h.step hev) hapart ?_) hdone
  refine ⟨[], rfl, fun e => ⟨rfl, .refl _, Nat.zero_le 1, ?_⟩⟩
  intro value hmem
  cases hmem

namespace Sample

/-- Nothing was ever set. -/
def unset : Store := fun _ => none

/-- Two admins block signals at once: both read before either writes. -/
def crossed : List Event :=
  [.request .blockSignal, .request .blockSignal, .call 0 false, .call 1 false, .call 0 false,
    .call 1 false, .call 0 false, .call 1 false]

/-- One after the other. -/
def inTurn : List Event :=
  [.request .blockSignal, .call 0 false, .call 0 false, .call 0 false,
    .request .blockSignal, .call 1 false, .call 1 false, .call 1 false]

theorem apart_inTurn : Along World.step Apart (World.start unset) inTurn := by
  refine ⟨trivial, ?_, ?_, ?_, trivial, ?_, ?_, ?_, trivial⟩
  all_goals
    intro e p key hi hn
    cases hi
    cases hn
  all_goals
    refine ⟨fun r hr _ hw => ?_, fun hf => by cases hf⟩
    obtain ⟨key, value, hw⟩ := hw
  · cases List.mem_singleton.mp hr
    cases hw
  · rcases List.mem_cons.mp hr with rfl | hr
    · cases hw
    · cases List.mem_singleton.mp hr
      cases hw

end Sample

/-- Both are told that signals are blocked now, and they are; one request is lost. -/
theorem not_togglesFlip :
    ¬ ∀ (s : Store) (es : List Event), ((World.start s).run es).Answered →
      TogglesFlip s ((World.start s).run es) := by
  intro h
  have hflip := (h Sample.unset Sample.crossed (by decide +kernel) .blockSignal).1
  exact absurd hflip (by decide +kernel)

theorem toggles_flip_inTurn :
    ((World.start Sample.unset).run Sample.inTurn).count .blockSignal = 2 ∧
      TogglesFlip Sample.unset ((World.start Sample.unset).run Sample.inTurn) := by
  exact ⟨by decide +kernel, toggles_flip Sample.unset Sample.inTurn Sample.apart_inTurn
    (by decide +kernel)⟩

end TradingBroker.Settings.Toggles
