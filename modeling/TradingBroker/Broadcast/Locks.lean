import Mathlib.Logic.Relation
import TradingBroker.Lib.AsyncLock

/-!
# The lock of a cycle

`BroadcastDispatcher.dispatch`, with any number of calls in one event loop. What a
call does between two suspensions is one step: it registers with the cycle's entry
and takes the lock or queues; it is woken, or cancelled, while it waits; it leaves
`_dispatch_locked`, by a return or an exception, and with it the lock and the
entry. Entries are objects: a call keeps the one it found or made.

An entry counts the calls that hold or await its lock, so it goes when the last of
them has left, and calls of one cycle always share one (`dispatch_one_at_a_time`).

Two facts hold each other up (`Sound`). An entry is in `_locks` for as long as a
call of its cycle runs, so that a call that comes later finds the entry of those
before it and shares its lock. And the count of an entry is the number of those
calls, waiters and holder together, so that the last one to leave is the one that
deletes it. Cancellation is what makes the count delicate: a waiter may be
cancelled before it is woken, or after, with the lock in flight to it, and
`asyncio.Lock` hands the lock on in the second case.
-/

namespace TradingBroker.Broadcast

open TradingBroker.Lib

variable {ι κ : Type}

/-- `_CycleLock`. -/
structure CycleLock (ι : Type) where
  lock : AsyncLock ι
  users : Nat

/-- Where a call of `dispatch` is: before its first statement or after its last one,
at the lock of an entry, or in `_dispatch_locked`. -/
inductive Dispatch (κ : Type) where
  | idle
  | waiting (key : κ) (entry : Nat)
  | inside (key : κ) (entry : Nat)
  deriving DecidableEq

/-- Between the first and the last statement. -/
def Dispatch.At (d : Dispatch κ) (key : κ) (e : Nat) : Prop :=
  d = .waiting key e ∨ d = .inside key e

/-- `_locks` and the entries, which are objects, with the calls. -/
structure Locks (ι κ : Type) where
  locks : κ → Option Nat
  entries : Nat → CycleLock ι
  next : Nat
  calls : ι → Dispatch κ

/-- What happens to a call: it starts; it goes on after waiting; `_dispatch_locked`
returns or raises; it is cancelled while it waits. -/
inductive Turn (ι κ : Type) where
  | start (i : ι) (key : κ)
  | resume (i : ι)
  | exit (i : ι)
  | cancel (i : ι)

namespace Locks

def init : Locks ι κ := ⟨fun _ => none, fun _ => ⟨.new, 0⟩, 0, fun _ => .idle⟩

def put (e : Nat) (x : CycleLock ι) (s : Locks ι κ) : Locks ι κ :=
  { s with entries := Function.update s.entries e x }

section
variable [DecidableEq ι] [DecidableEq κ]

def goto (i : ι) (d : Dispatch κ) (s : Locks ι κ) : Locks ι κ :=
  { s with calls := Function.update s.calls i d }

/-- A new entry for the cycle. -/
def create (key : κ) (s : Locks ι κ) : Locks ι κ :=
  { s with
    locks := Function.update s.locks key (some s.next)
    entries := Function.update s.entries s.next ⟨.new, 0⟩
    next := s.next + 1 }

/-- From the entry to the lock. -/
def register (i : ι) (key : κ) (e : Nat) (s : Locks ι κ) : Locks ι κ :=
  let r := (s.entries e).lock.acquire i
  (s.put e ⟨r.2, (s.entries e).users + 1⟩).goto i (if r.1 then .inside key e else .waiting key e)

/-- From the first statement to the lock. -/
def enter (i : ι) (key : κ) (s : Locks ι κ) : Locks ι κ :=
  match s.locks key with
  | some e => s.register i key e
  | none => (s.create key).register i key s.next

/-- `del self._locks[key]`. -/
def drop (key : κ) (s : Locks ι κ) : Locks ι κ :=
  { s with locks := Function.update s.locks key none }

/-- The `finally` of `dispatch`, with the lock as the call leaves it. -/
def leave (i : ι) (key : κ) (e : Nat) (lock : AsyncLock ι) (s : Locks ι κ) : Locks ι κ :=
  let users := (s.entries e).users - 1
  let s := (s.put e ⟨lock, users⟩).goto i .idle
  if users = 0 then s.drop key else s

def step (s : Locks ι κ) : Turn ι κ → Option (Locks ι κ)
  | .start i key =>
      match s.calls i with
      | .idle => some (s.enter i key)
      | _ => none
  | .resume i =>
      match s.calls i with
      | .waiting key e =>
          ((s.entries e).lock.resume i).map fun r =>
            if r.1 then (s.put e ⟨r.2, (s.entries e).users⟩).goto i (.inside key e)
            else s.leave i key e r.2
      | _ => none
  | .exit i =>
      match s.calls i with
      | .inside key e => some (s.leave i key e (s.entries e).lock.release)
      | _ => none
  | .cancel i =>
      match s.calls i with
      | .waiting _ e => some (s.put e ⟨(s.entries e).lock.cancel i, (s.entries e).users⟩)
      | _ => none

/-- One turn of the event loop after another. -/
def Reaches : Locks ι κ → Locks ι κ → Prop :=
  Relation.ReflTransGen fun s s' => ∃ a, s.step a = some s'

end

/-- The call is in `_dispatch_locked` for the cycle. -/
def Inside (s : Locks ι κ) (key : κ) (i : ι) : Prop := ∃ e, s.calls i = .inside key e

/-- The call is between its first and its last statement. -/
def Running (s : Locks ι κ) (key : κ) (i : ι) : Prop := ∃ e, (s.calls i).At key e

/-! ## Calls that share an entry -/

/-- The call waits for the lock of this entry. -/
def Waits (s : Locks ι κ) (e : Nat) (i : ι) : Prop := ∃ key, s.calls i = .waiting key e

/-- The call holds the lock of this entry. -/
def Holds (s : Locks ι κ) (e : Nat) (i : ι) : Prop := ∃ key, s.calls i = .inside key e

/-- An entry that counts the calls at its lock: its lock has them as waiters and holder,
and `users` is how many they are. -/
structure Counted (s : Locks ι κ) (e : Nat) : Prop where
  serves : (s.entries e).lock.Serves (s.Waits e) (s.Holds e)
  users : (s.entries e).users =
    (s.entries e).lock.waiters.length + (s.entries e).lock.locked.toNat

/-- The entries of `_locks` are those of the calls that run; the entry of `but` may
not be used yet. -/
structure Sound (s : Locks ι κ) (but : κ → Prop) : Prop where
  own : ∀ i key e, (s.calls i).At key e → s.locks key = some e
  used : ∀ key e, s.locks key = some e → ¬ but key → ∃ i, s.Running key i
  fresh : ∀ key e, s.locks key = some e → e < s.next
  apart : ∀ key key' e, s.locks key = some e → s.locks key' = some e → key = key'
  counted : ∀ key e, s.locks key = some e → s.Counted e

variable {s : Locks ι κ} {i j : ι} {key k : κ} {e e' : Nat} {x : CycleLock ι} {d : Dispatch κ}
  {l : AsyncLock ι} {but : κ → Prop}

/-- A call is at one entry. -/
theorem at_unique (hat : (s.calls i).At key e) (hat' : (s.calls i).At k e') :
    k = key ∧ e' = e := by
  rcases hat with hat | hat <;> rcases hat' with hat' | hat' <;> rw [hat] at hat' <;>
    cases hat' <;> exact ⟨rfl, rfl⟩

/-- An entry is only changed by the calls at its lock. -/
theorem Counted.frame {s' : Locks ι κ} (h : s.Counted e) (he : s'.entries e = s.entries e)
    (hcalls : ∀ i key, (s'.calls i = .waiting key e ↔ s.calls i = .waiting key e) ∧
      (s'.calls i = .inside key e ↔ s.calls i = .inside key e)) : s'.Counted e where
  serves := by
    rw [he]
    exact h.serves.congr (fun i => exists_congr fun key => (hcalls i key).1)
      fun i => exists_congr fun key => (hcalls i key).2
  users := by
    rw [he]
    exact h.users

theorem drop_locks [DecidableEq κ] :
    (s.drop key).locks k = some e ↔ k ≠ key ∧ s.locks k = some e := by
  show Function.update s.locks key none k = some e ↔ _
  rw [Function.update_apply]
  split
  · next heq => exact ⟨nofun, fun hand => absurd heq hand.1⟩
  · next hne => exact ⟨fun hk => ⟨hne, hk⟩, And.right⟩

theorem Sound.weaken (h : s.Sound fun _ => False) : s.Sound but where
  own := h.own
  used := fun key e hkey _ => h.used key e hkey id
  fresh := h.fresh
  apart := h.apart
  counted := h.counted

theorem create_locks [DecidableEq κ] :
    (s.create key).locks k = some e ↔ k = key ∧ e = s.next ∨ k ≠ key ∧ s.locks k = some e := by
  show Function.update s.locks key (some s.next) k = some e ↔ _
  rw [Function.update_apply]
  split
  · next heq =>
      refine ⟨fun he => .inl ⟨heq, (Option.some.inj he).symm⟩, fun hk => ?_⟩
      rcases hk with ⟨-, rfl⟩ | ⟨hne, -⟩
      · rfl
      · exact absurd heq hne
  · next hne => exact ⟨fun hk => .inr ⟨hne, hk⟩, fun hk => (hk.resolve_left fun h => hne h.1).2⟩

theorem sound_init : (init : Locks ι κ).Sound fun _ => False where
  own := fun i key e hat => by rcases hat with hat | hat <;> cases hat
  used := nofun
  fresh := nofun
  apart := nofun
  counted := nofun

/-- The first call of a cycle makes its entry, which no call is at. -/
theorem Sound.create [DecidableEq κ] (h : s.Sound fun _ => False) (hnone : s.locks key = none) :
    (s.create key).Sound (· = key) where
  own := by
    intro j k e hat
    have hk := h.own j k e hat
    refine create_locks.2 (.inr ⟨fun heq => ?_, hk⟩)
    rw [heq, hnone] at hk
    cases hk
  used := by
    intro k e hk hne
    rcases create_locks.1 hk with ⟨heq, -⟩ | ⟨-, hk⟩
    · exact absurd heq hne
    · exact h.used k e hk id
  fresh := by
    intro k e hk
    show e < s.next + 1
    rcases create_locks.1 hk with ⟨-, rfl⟩ | ⟨-, hk⟩
    · omega
    · have := h.fresh k e hk
      omega
  apart := by
    intro k k' e hk hk'
    rcases create_locks.1 hk with ⟨hkey, he⟩ | ⟨-, hold⟩ <;>
      rcases create_locks.1 hk' with ⟨hkey', he'⟩ | ⟨-, hold'⟩
    · rw [hkey, hkey']
    · rw [he] at hold'
      exact absurd (h.fresh k' _ hold') (Nat.lt_irrefl _)
    · rw [he'] at hold
      exact absurd (h.fresh k _ hold) (Nat.lt_irrefl _)
    · exact h.apart k k' e hold hold'
  counted := by
    intro k e hk
    rcases create_locks.1 hk with ⟨-, rfl⟩ | ⟨-, hk⟩
    · have hnew : (s.create key).entries s.next = ⟨.new, 0⟩ := Function.update_self ..
      have hnobody : ∀ i k, ¬ (s.calls i).At k s.next := fun i k hat =>
        Nat.lt_irrefl _ (h.fresh k _ (h.own i k _ hat))
      refine ⟨?_, ?_⟩
      · rw [hnew]
        refine AsyncLock.serves_new.congr (fun i => ?_) fun i => ?_
        · exact ⟨fun ⟨k, hk⟩ => hnobody i k (.inl hk), False.elim⟩
        · exact ⟨fun ⟨k, hk⟩ => hnobody i k (.inr hk), False.elim⟩
      · rw [hnew]
        rfl
    · have hne : e ≠ s.next := Nat.ne_of_lt (h.fresh k e hk)
      exact (h.counted k e hk).frame (Function.update_of_ne hne _ _)
        fun _ _ => ⟨Iff.rfl, Iff.rfl⟩

variable [DecidableEq ι]

theorem calls_set : ((s.put e x).goto i d).calls j = if j = i then d else s.calls j :=
  Function.update_apply ..

/-- A call that is at one entry, if any, before and after does not concern another. -/
theorem counted_set_other (h : s.Counted e') (hne : e' ≠ e)
    (hi : ∀ k e', (s.calls i).At k e' → e' = e) (hd : ∀ k e', d.At k e' → e' = e) :
    ((s.put e x).goto i d).Counted e' := by
  refine h.frame (Function.update_of_ne hne _ _) fun j k => ?_
  rw [calls_set]
  by_cases hj : j = i
  · subst hj
    rw [if_pos rfl]
    exact ⟨⟨fun hw => absurd (hd k e' (.inl hw)) hne, fun hw => absurd (hi k e' (.inl hw)) hne⟩,
      ⟨fun hw => absurd (hd k e' (.inr hw)) hne, fun hw => absurd (hi k e' (.inr hw)) hne⟩⟩
  · rw [if_neg hj]
    exact ⟨Iff.rfl, Iff.rfl⟩

/-- A call moves at its entry, which goes on counting the calls there. -/
theorem Sound.set (h : s.Sound (· = key)) (hkey : s.locks key = some e)
    (hi : ∀ k e', (s.calls i).At k e' → k = key ∧ e' = e)
    (hd : ∀ k e', d.At k e' → k = key ∧ e' = e)
    (hc : ((s.put e x).goto i d).Counted e) (hused : ∃ j, ((s.put e x).goto i d).Running key j) :
    ((s.put e x).goto i d).Sound fun _ => False where
  own := by
    intro j k e' hat
    rw [calls_set] at hat
    split at hat
    · obtain ⟨rfl, rfl⟩ := hd k e' hat
      exact hkey
    · exact h.own j k e' hat
  used := by
    intro k e' hk _
    by_cases hkk : k = key
    · rw [hkk]
      exact hused
    · obtain ⟨j, e'', hat⟩ := h.used k e' hk hkk
      refine ⟨j, e'', ?_⟩
      rw [calls_set, if_neg]
      · exact hat
      · intro hj
        subst hj
        exact hkk (hi k e'' hat).1
  fresh := h.fresh
  apart := h.apart
  counted := by
    intro k e' hk
    by_cases he : e' = e
    · rw [he]
      exact hc
    · exact counted_set_other (h.counted k e' hk) he (fun k e' hat => (hi k e' hat).2)
        fun k e' hat => (hd k e' hat).2

/-- The last call at an entry takes it away. -/
theorem Sound.drop [DecidableEq κ] (h : s.Sound fun _ => False) (hkey : s.locks key = some e)
    (hi : ∀ k e', (s.calls i).At k e' → k = key ∧ e' = e)
    (hlast : ∀ j, s.Running key j → j = i) :
    (((s.put e x).goto i .idle).drop key).Sound fun _ => False where
  own := by
    intro j k e' hat
    rw [show (((s.put e x).goto i .idle).drop key).calls j = if j = i then .idle else s.calls j
      from calls_set] at hat
    split at hat
    · rcases hat with hat | hat <;> cases hat
    · next hj =>
        refine drop_locks.2 ⟨fun hk => ?_, h.own j k e' hat⟩
        subst hk
        exact hj (hlast j ⟨e', hat⟩)
  used := by
    intro k e' hk _
    obtain ⟨hkk, hk⟩ := drop_locks.1 hk
    obtain ⟨j, e'', hat⟩ := h.used k e' hk id
    refine ⟨j, e'', ?_⟩
    show (((s.put e x).goto i .idle).calls j).At k e''
    rw [calls_set, if_neg]
    · exact hat
    · intro hj
      subst hj
      exact hkk (hi k e'' hat).1
  fresh := fun k e' hk => h.fresh k e' (drop_locks.1 hk).2
  apart := fun k k' e' hk hk' => h.apart k k' e' (drop_locks.1 hk).2 (drop_locks.1 hk').2
  counted := by
    intro k e' hk
    obtain ⟨hkk, hk⟩ := drop_locks.1 hk
    have hne : e' ≠ e := by
      intro he
      subst he
      exact hkk (h.apart k key e' hk hkey)
    have hc := counted_set_other (x := x) (d := .idle) (h.counted k e' hk) hne
      (fun k e' hat => (hi k e' hat).2) fun k e' hat => by rcases hat with hat | hat <;> cases hat
    exact ⟨hc.serves, hc.users⟩

/-- Who waits and who holds the lock, once a call has moved. -/
theorem serves_set {waits holds : ι → Prop} (h : x.lock.Serves waits holds)
    (hw : ∀ j, ((s.put e x).goto i d).Waits e j ↔ waits j)
    (hh : ∀ j, ((s.put e x).goto i d).Holds e j ↔ holds j)
    (hu : x.users = x.lock.waiters.length + x.lock.locked.toNat) :
    ((s.put e x).goto i d).Counted e where
  serves := by
    rw [show ((s.put e x).goto i d).entries e = x from Function.update_self ..]
    exact h.congr hw hh
  users := by
    rw [show ((s.put e x).goto i d).entries e = x from Function.update_self ..]
    exact hu

theorem waits_set : ((s.put e x).goto i d).Waits e j ↔
    if j = i then ∃ k, d = .waiting k e else s.Waits e j := by
  unfold Waits
  rw [calls_set]
  split <;> exact Iff.rfl

theorem holds_set : ((s.put e x).goto i d).Holds e j ↔
    if j = i then ∃ k, d = .inside k e else s.Holds e j := by
  unfold Holds
  rw [calls_set]
  split <;> exact Iff.rfl

/-- A call starts at an entry, and takes its lock or queues. -/
theorem Sound.register (h : s.Sound (· = key)) (hkey : s.locks key = some e)
    (hi : s.calls i = .idle) : (s.register i key e).Sound fun _ => False := by
  have hidle : ∀ k e', ¬ (s.calls i).At k e' := by
    intro k e' hat
    rw [hi] at hat
    rcases hat with hat | hat <;> cases hat
  obtain ⟨hserves, husers⟩ := h.counted key e hkey
  have hnot : ¬ s.Waits e i := fun ⟨k, hk⟩ => hidle k e (.inl hk)
  have hnot' : ¬ s.Holds e i := fun ⟨k, hk⟩ => hidle k e (.inr hk)
  obtain ⟨hserves', hlen⟩ := hserves.acquire hnot
  unfold Locks.register
  generalize (s.entries e).lock.acquire i = r at hserves' hlen ⊢
  obtain ⟨got, lock⟩ := r
  have hd : ∀ k e', (if got then Dispatch.inside key e else .waiting key e).At k e' →
      k = key ∧ e' = e := by
    intro k e' hat
    cases got with
    | true => rcases hat with hat | hat <;> cases hat; exact ⟨rfl, rfl⟩
    | false => rcases hat with hat | hat <;> cases hat; exact ⟨rfl, rfl⟩
  refine h.set hkey (fun k e' hat => absurd hat (hidle k e')) hd
    (serves_set hserves' (fun j => ?_) (fun j => ?_) ?_) ⟨i, e, ?_⟩
  · rw [waits_set]
    by_cases hj : j = i
    · subst hj
      rw [if_pos rfl]
      cases got with
      | true =>
        refine ⟨fun ⟨_, hk⟩ => (nomatch hk), fun hw => ?_⟩
        rcases hw with hw | hw
        · exact absurd hw hnot
        · cases hw.1
      | false => exact ⟨fun _ => .inr ⟨rfl, rfl⟩, fun _ => ⟨key, rfl⟩⟩
    · rw [if_neg hj]
      exact ⟨.inl, fun hw => hw.resolve_right fun hand => hj hand.2⟩
  · rw [holds_set]
    by_cases hj : j = i
    · subst hj
      rw [if_pos rfl]
      cases got with
      | true => exact ⟨fun _ => .inr ⟨rfl, rfl⟩, fun _ => ⟨key, rfl⟩⟩
      | false =>
        refine ⟨fun ⟨_, hk⟩ => (nomatch hk), fun hh => ?_⟩
        rcases hh with hh | hh
        · exact absurd hh hnot'
        · cases hh.1
    · rw [if_neg hj]
      exact ⟨.inl, fun hh => hh.resolve_right fun hand => hj hand.2⟩
  · show (s.entries e).users + 1 = lock.waiters.length + lock.locked.toNat
    rw [husers]
    exact hlen.symm
  · rw [calls_set, if_pos rfl]
    cases got with
    | true => exact .inr rfl
    | false => exact .inl rfl

theorem Sound.cancel (h : s.Sound fun _ => False) (hi : s.calls i = .waiting key e) :
    (s.put e ⟨(s.entries e).lock.cancel i, (s.entries e).users⟩).Sound fun _ => False := by
  have hat : (s.calls i).At key e := .inl hi
  have hkey := h.own i key e hat
  obtain ⟨hserves, husers⟩ := h.counted key e hkey
  obtain ⟨hserves, hlen⟩ := hserves.cancel i
  -- the call stays where it is
  have hstay : ∀ x : CycleLock ι, s.put e x = (s.put e x).goto i (s.calls i) := by
    intro x
    unfold goto put
    rw [Function.update_eq_self]
  rw [hstay]
  refine h.weaken.set hkey (fun k e' => at_unique hat) (fun k e' => at_unique hat)
    (serves_set hserves (fun j => ?_) (fun j => ?_) ?_) ⟨i, e, ?_⟩
  · rw [← hstay]
    exact Iff.rfl
  · rw [← hstay]
    exact Iff.rfl
  · show (s.entries e).users = _ + (s.entries e).lock.locked.toNat
    rw [hlen]
    exact husers
  · rw [← hstay]
    exact hat

/-! ## A call starts -/

theorem Sound.enter [DecidableEq κ] (h : s.Sound fun _ => False) (hi : s.calls i = .idle) :
    (s.enter i key).Sound fun _ => False := by
  unfold Locks.enter
  split
  · next hkey => exact h.weaken.register hkey hi
  · next hnone => exact (h.create hnone).register (create_locks.2 (.inl ⟨rfl, rfl⟩)) hi

/-! ## A call ends -/

/-- A call leaves with its place at the lock: the others keep theirs, and the entry goes
with the last one. -/
theorem Sound.leave [DecidableEq κ] (h : s.Sound fun _ => False) (hat : (s.calls i).At key e)
    (hserves : l.Serves (fun j => s.Waits e j ∧ j ≠ i) fun j => s.Holds e j ∧ j ≠ i)
    (hlen : l.waiters.length + l.locked.toNat + 1 =
      (s.entries e).lock.waiters.length + (s.entries e).lock.locked.toNat) :
    (s.leave i key e l).Sound fun _ => False := by
  have hkey := h.own i key e hat
  have husers := (h.counted key e hkey).users
  have hi : ∀ k e', (s.calls i).At k e' → k = key ∧ e' = e := fun k e' => at_unique hat
  unfold Locks.leave
  dsimp only
  split
  · next hzero =>
      refine h.drop hkey hi fun j hj => ?_
      obtain ⟨e', hj⟩ := hj
      have he : e' = e := Option.some.inj ((h.own j key e' hj).symm.trans hkey)
      rw [he] at hj
      by_contra hne
      rcases hj with hj | hj
      · have hmem := (hserves.waits j).2 ⟨⟨key, hj⟩, hne⟩
        have hpos : 0 < l.ids.length := List.length_pos_of_mem hmem
        rw [AsyncLock.ids, List.length_map] at hpos
        omega
      · have hlocked := hserves.locked.2 ⟨j, ⟨key, hj⟩, hne⟩
        rw [hlocked, Bool.toNat_true] at hlen
        omega
  · next hsome =>
      have hd : ∀ k e', (Dispatch.idle : Dispatch κ).At k e' → k = key ∧ e' = e := by
        intro k e' hat'
        rcases hat' with hat' | hat' <;> cases hat'
      -- somebody is still at the lock
      have hother : ∃ j, j ≠ i ∧ ∃ k, (s.calls j).At k e := by
        cases hlocked : l.locked with
        | true =>
            obtain ⟨j, ⟨k, hj⟩, hne⟩ := hserves.locked.1 hlocked
            exact ⟨j, hne, k, .inr hj⟩
        | false =>
            rw [hlocked, Bool.toNat_false] at hlen
            have hpos : 0 < l.ids.length := by
              rw [AsyncLock.ids, List.length_map]
              omega
            obtain ⟨j, hj⟩ := List.exists_mem_of_length_pos hpos
            obtain ⟨⟨k, hj⟩, hne⟩ := (hserves.waits j).1 hj
            exact ⟨j, hne, k, .inl hj⟩
      obtain ⟨j, hne, k, hj⟩ := hother
      have hk : k = key := h.apart k key e (h.own j k e hj) hkey
      subst hk
      refine h.weaken.set hkey hi hd (serves_set hserves (fun m => ?_) (fun m => ?_) ?_)
        ⟨j, e, ?_⟩
      · rw [waits_set]
        split
        · next hm =>
            refine ⟨fun hw => ?_, fun hw => absurd hm hw.2⟩
            obtain ⟨_, hidle⟩ := hw
            cases hidle
        · next hm => exact ⟨fun hw => ⟨hw, hm⟩, And.left⟩
      · rw [holds_set]
        split
        · next hm =>
            refine ⟨fun hw => ?_, fun hw => absurd hm hw.2⟩
            obtain ⟨_, hidle⟩ := hw
            cases hidle
        · next hm => exact ⟨fun hw => ⟨hw, hm⟩, And.left⟩
      · show (s.entries e).users - 1 = l.waiters.length + l.locked.toNat
        omega
      · rw [calls_set, if_neg hne]
        exact hj

/-! ## Every turn of the loop -/

variable [DecidableEq κ] {s' : Locks ι κ} {a : Turn ι κ}

theorem Sound.resume {b : Bool} (h : s.Sound fun _ => False) (hi : s.calls i = .waiting key e)
    (hr : (s.entries e).lock.resume i = some (b, l)) :
    (if b then (s.put e ⟨l, (s.entries e).users⟩).goto i (.inside key e)
      else s.leave i key e l).Sound fun _ => False := by
  have hat : (s.calls i).At key e := .inl hi
  have hkey := h.own i key e hat
  obtain ⟨hserves, husers⟩ := h.counted key e hkey
  obtain ⟨hserves, hlen⟩ := hserves.resume hr
  cases b with
  | false =>
    refine h.leave hat (hserves.congr (fun _ => Iff.rfl) fun j => ?_) (by simpa using hlen)
    refine ⟨fun hj => .inl hj.1, fun hj => ?_⟩
    have hj := hj.resolve_right fun hand => (nomatch hand.1)
    refine ⟨hj, fun heq => ?_⟩
    obtain ⟨k, hk⟩ := hj
    rw [heq, hi] at hk
    cases hk
  | true =>
    have hd : ∀ k e', (Dispatch.inside key e).At k e' → k = key ∧ e' = e := by
      intro k e' hat'
      rcases hat' with hat' | hat' <;> cases hat'
      exact ⟨rfl, rfl⟩
    rw [if_pos rfl]
    refine h.weaken.set hkey (fun k e' => at_unique hat) hd
      (serves_set hserves (fun j => ?_) (fun j => ?_) ?_) ⟨i, e, ?_⟩
    · rw [waits_set]
      split
      · next hj => exact ⟨fun ⟨_, hw⟩ => (nomatch hw), fun hw => absurd hj hw.2⟩
      · next hj => exact ⟨fun hw => ⟨hw, hj⟩, And.left⟩
    · rw [holds_set]
      split
      · next hj => exact ⟨fun _ => .inr ⟨rfl, hj⟩, fun _ => ⟨key, rfl⟩⟩
      · next hj => exact ⟨.inl, fun hh => hh.resolve_right fun hand => hj hand.2⟩
    · show (s.entries e).users = l.waiters.length + l.locked.toNat
      rw [Bool.toNat_true] at hlen
      omega
    · rw [calls_set, if_pos rfl]
      exact .inr rfl

theorem Sound.exit (h : s.Sound fun _ => False) (hi : s.calls i = .inside key e) :
    (s.leave i key e (s.entries e).lock.release).Sound fun _ => False := by
  have hkey := h.own i key e (.inr hi)
  obtain ⟨hserves, hlen⟩ := (h.counted key e hkey).serves.release ⟨key, hi⟩
  refine h.leave (.inr hi) (hserves.congr (fun j => ?_) fun _ => Iff.rfl) hlen
  refine ⟨And.left, fun hj => ⟨hj, fun heq => ?_⟩⟩
  obtain ⟨k, hk⟩ := hj
  rw [heq, hi] at hk
  cases hk

theorem Sound.step (h : s.Sound fun _ => False) (ha : s.step a = some s') :
    s'.Sound fun _ => False := by
  cases a with
  | start i key =>
    simp only [Locks.step] at ha
    split at ha
    · next hi =>
        cases ha
        exact h.enter hi
    · cases ha
  | resume i =>
    simp only [Locks.step] at ha
    split at ha
    · next key e hi =>
        obtain ⟨⟨b, l⟩, hr, rfl⟩ := Option.map_eq_some_iff.1 ha
        exact h.resume hi hr
    · cases ha
  | exit i =>
    simp only [Locks.step] at ha
    split at ha
    · next key e hi =>
        cases ha
        exact h.exit hi
    · cases ha
  | cancel i =>
    simp only [Locks.step] at ha
    split at ha
    · next key e hi =>
        cases ha
        exact h.cancel hi
    · cases ha

theorem sound_of_reaches (h : init.Reaches s) : s.Sound fun _ => False := by
  induction h with
  | refl => exact sound_init
  | tail _ hstep ih =>
    obtain ⟨a, ha⟩ := hstep
    exact ih.step ha

/-- Whatever starts, is woken, leaves or is cancelled: one call is inside at most, and a
cycle has an entry exactly while a call of it runs. -/
theorem dispatch_one_at_a_time (h : init.Reaches s) :
    (∀ key i j, s.Inside key i → s.Inside key j → i = j) ∧
      ∀ key, (s.locks key).isSome ↔ ∃ i, s.Running key i := by
  have hsound := sound_of_reaches h
  refine ⟨fun key i j ⟨e, hi⟩ ⟨e', hj⟩ => ?_, fun key => ⟨fun hsome => ?_, fun ⟨i, e, hat⟩ => ?_⟩⟩
  · have hkey := hsound.own i key e (.inr hi)
    have he : e' = e := Option.some.inj ((hsound.own j key e' (.inr hj)).symm.trans hkey)
    rw [he] at hj
    exact (hsound.counted key e hkey).serves.one i j ⟨key, hi⟩ ⟨key, hj⟩
  · obtain ⟨e, hkey⟩ := Option.isSome_iff_exists.1 hsome
    exact hsound.used key e hkey id
  · rw [hsound.own i key e hat]
    rfl

theorem reaches_of_run {as : List (Turn ι κ)} (h : as.foldlM step s = some s') :
    s.Reaches s' := by
  induction as generalizing s with
  | nil =>
    cases h
    exact .refl
  | cons a as ih =>
    rw [List.foldlM_cons] at h
    obtain ⟨s₁, ha, hrest⟩ := Option.bind_eq_some_iff.1 h
    exact .head ⟨a, ha⟩ (ih hrest)

/-- The first call leaves while the second waits, and the third arrives before the second
has run. -/
def handOver : List (Turn (Fin 3) Unit) :=
  [.start 0 (), .start 1 (), .exit 0, .start 2 (), .resume 1]

theorem dispatch_one_at_a_time_handed_over :
    ∃ s, handOver.foldlM step init = some s ∧ s.Inside () 1 ∧ s.Running () 2 ∧
      (∀ i, s.Inside () i → i = 1) ∧ (s.locks ()).isSome := by
  have hrun : handOver.foldlM step init =
      some ((handOver.foldlM step init).get (by decide)) := (Option.some_get _).symm
  have hone := dispatch_one_at_a_time (reaches_of_run hrun)
  refine ⟨_, hrun, ⟨0, by decide⟩, ⟨0, .inl (by decide)⟩, fun i hi => ?_, ?_⟩
  · exact hone.1 () i 1 hi ⟨0, by decide⟩
  · exact (hone.2 ()).2 ⟨1, 0, .inr (by decide)⟩

end Locks

end TradingBroker.Broadcast
