import Mathlib.Data.List.Nodup
import TradingBroker.Lib.Rows

/-!
# An `asyncio.Lock`

The lock of an event loop, step by step between two suspensions. A task that finds
it taken queues with a future. A release wakes the first waiter, which does not own
the lock before it runs; meanwhile the lock reads as unlocked, and it may still be
cancelled, in which case it wakes the next one.

A task that is woken is the first in the queue, and the lock is not taken then
(`Orderly`). So the one that runs next takes a free lock, and no two tasks hold it
(`Serves`), whoever else arrives or is cancelled.

`Serves` relates a lock to two predicates of its user's, the tasks that wait for it
and those that hold it, and each operation says how it moves them. A user keeps the
two predicates by whatever its own state says of a task, so nothing of the queue
has to be looked at again.
-/

namespace TradingBroker.Lib

/-- The future of a waiter. -/
inductive Waiting where
  | pending
  | woken
  /-- Woken, and then its task was cancelled. -/
  | revoked
  | cancelled
  deriving DecidableEq

def Waiting.roused : Waiting → Bool
  | .woken | .revoked => true
  | .pending | .cancelled => false

/-- The task that waits is cancelled. -/
def Waiting.cancel : Waiting → Waiting
  | .pending => .cancelled
  | .woken => .revoked
  | f => f

structure AsyncLock (ι : Type) where
  locked : Bool
  waiters : List (ι × Waiting)

namespace AsyncLock

variable {ι : Type}

def new : AsyncLock ι := ⟨false, []⟩

/-- The tasks that wait. -/
def ids (l : AsyncLock ι) : List ι := l.waiters.map Prod.fst

/-- Nobody holds the lock, and nobody waits who was not cancelled. -/
def free (l : AsyncLock ι) : Bool := !l.locked && l.waiters.all fun w => w.2 == .cancelled

/-- `acquire` up to its first suspension: whether the lock was taken. -/
def acquire (i : ι) (l : AsyncLock ι) : Bool × AsyncLock ι :=
  if l.free then (true, { l with locked := true })
  else (false, { l with waiters := l.waiters ++ [(i, .pending)] })

/-- `_wake_up_first`. -/
def wakeUpFirst (l : AsyncLock ι) : AsyncLock ι :=
  match l.waiters with
  | (i, .pending) :: later => { l with waiters := (i, .woken) :: later }
  | _ => l

/-- `release`; of a lock that is not taken it raises. -/
def release (l : AsyncLock ι) : AsyncLock ι :=
  if l.locked then wakeUpFirst { l with locked := false } else l

/-- The invariant of a lock by itself: only the first waiter is woken, and only while
nobody holds the lock. -/
structure Orderly (l : AsyncLock ι) : Prop where
  nodup : l.ids.Nodup
  first : ∀ w ∈ l.waiters.tail, w.2.roused = false
  unlocked : ∀ w ∈ l.waiters, w.2.roused = true → l.locked = false

variable {l l' : AsyncLock ι} {i : ι}

theorem orderly_new : (new : AsyncLock ι).Orderly := ⟨.nil, nofun, nofun⟩

theorem wakeUpFirst_ids (l : AsyncLock ι) : l.wakeUpFirst.ids = l.ids := by
  unfold wakeUpFirst
  split
  · next hw => simp only [ids, hw, List.map_cons]
  · rfl

theorem wakeUpFirst_locked (l : AsyncLock ι) : l.wakeUpFirst.locked = l.locked := by
  unfold wakeUpFirst
  split <;> rfl

theorem Orderly.wakeUpFirst (h : l.Orderly) (hl : l.locked = false) : l.wakeUpFirst.Orderly := by
  refine ⟨?_, ?_, fun _ _ _ => ?_⟩
  · rw [wakeUpFirst_ids]
    exact h.nodup
  · have hfirst := h.first
    unfold AsyncLock.wakeUpFirst
    split
    · next hw =>
        rw [hw] at hfirst
        exact hfirst
    · exact hfirst
  · rw [wakeUpFirst_locked]
    exact hl

theorem Orderly.release (h : l.Orderly) : l.release.Orderly := by
  unfold AsyncLock.release
  split
  · refine Orderly.wakeUpFirst ⟨h.nodup, h.first, fun _ _ _ => rfl⟩ rfl
  · exact h

theorem Orderly.acquire (h : l.Orderly) (hi : i ∉ l.ids) : (l.acquire i).2.Orderly := by
  unfold AsyncLock.acquire
  split
  · next hfree =>
      have hall : ∀ w ∈ l.waiters, w.2.roused = false := by
        intro w hw
        have hc := List.all_eq_true.1 (Bool.and_eq_true_iff.1 hfree).2 w hw
        rw [eq_of_beq hc]
        rfl
      refine ⟨h.nodup, h.first, fun w hw hr => ?_⟩
      rw [hall w hw] at hr
      cases hr
  · refine ⟨?_, fun w hw => ?_, fun w hw hr => ?_⟩
    · show ((l.waiters ++ [(i, Waiting.pending)]).map Prod.fst).Nodup
      refine nodup_map_concat h.nodup fun w hw heq => hi ?_
      rw [← show w.1 = i from heq]
      exact List.mem_map_of_mem hw
    · cases hwaiters : l.waiters with
      | nil =>
          simp only [hwaiters, List.nil_append, List.tail_cons] at hw
          cases hw
      | cons w₀ ws =>
          simp only [hwaiters, List.cons_append, List.tail_cons] at hw
          rcases List.mem_append.1 hw with hw | hw
          · exact h.first w (by rw [hwaiters]; exact hw)
          · rw [List.mem_singleton.1 hw]
            rfl
    · rcases List.mem_append.1 hw with hw | hw
      · exact h.unlocked w hw hr
      · rw [List.mem_singleton.1 hw] at hr
        cases hr

/-! ## A lock and its tasks -/

/-- The tasks that wait for the lock, and the one that holds it. -/
structure Serves (l : AsyncLock ι) (waits holds : ι → Prop) : Prop where
  orderly : l.Orderly
  waits : ∀ i, i ∈ l.ids ↔ waits i
  one : ∀ i j, holds i → holds j → i = j
  locked : l.locked = true ↔ ∃ i, holds i

variable {waits holds waits' holds' : ι → Prop}

theorem serves_new : (new : AsyncLock ι).Serves (fun _ => False) fun _ => False :=
  ⟨orderly_new, fun _ => ⟨nofun, False.elim⟩, nofun, ⟨nofun, nofun⟩⟩

theorem Serves.congr (h : l.Serves waits holds) (hw : ∀ i, waits' i ↔ waits i)
    (hh : ∀ i, holds' i ↔ holds i) : l.Serves waits' holds' := by
  refine ⟨h.orderly, fun i => (h.waits i).trans (hw i).symm,
    fun i j hi hj => h.one i j ((hh i).1 hi) ((hh j).1 hj), h.locked.trans ?_⟩
  exact exists_congr fun i => (hh i).symm

/-- Nobody holds a lock that is taken at once, and a task that finds it taken waits. -/
theorem Serves.acquire (h : l.Serves waits holds) (hi : ¬ waits i) :
    let r := l.acquire i
    r.2.Serves (fun j => waits j ∨ r.1 = false ∧ j = i) (fun j => holds j ∨ r.1 = true ∧ j = i) ∧
      r.2.waiters.length + r.2.locked.toNat = l.waiters.length + l.locked.toNat + 1 := by
  have horderly := h.orderly.acquire (i := i) fun hmem => hi ((h.waits i).1 hmem)
  cases hfree : l.free with
  | true =>
    have hacquire : l.acquire i = (true, { l with locked := true }) := if_pos hfree
    rw [hacquire] at horderly ⊢
    have hunlocked : l.locked = false := by
      have hnot := (Bool.and_eq_true_iff.1 hfree).1
      simpa using hnot
    have hnone : ∀ j, ¬ holds j := by
      intro j hj
      have hlocked := h.locked.2 ⟨j, hj⟩
      rw [hunlocked] at hlocked
      cases hlocked
    refine ⟨⟨horderly, fun j => ?_, fun j k hj hk => ?_, ⟨fun _ => ⟨i, .inr ⟨rfl, rfl⟩⟩,
      fun _ => rfl⟩⟩, ?_⟩
    · exact (h.waits j).trans ⟨.inl, fun hj => hj.resolve_right fun hand => nomatch hand.1⟩
    · rw [(hj.resolve_left (hnone j)).2, (hk.resolve_left (hnone k)).2]
    · rw [hunlocked]
      rfl
  | false =>
    have hacquire : l.acquire i = (false, { l with waiters := l.waiters ++ [(i, .pending)] }) :=
      if_neg (by rw [hfree]; nofun)
    rw [hacquire] at horderly ⊢
    refine ⟨⟨horderly, fun j => ?_, fun j k hj hk => ?_, h.locked.trans ?_⟩, ?_⟩
    · show j ∈ (l.waiters ++ [(i, Waiting.pending)]).map Prod.fst ↔ _
      rw [List.map_append, List.map_singleton, List.mem_append, List.mem_singleton]
      exact or_congr (h.waits j) ⟨fun hj => ⟨rfl, hj⟩, And.right⟩
    · exact h.one j k (hj.resolve_right fun hand => nomatch hand.1)
        (hk.resolve_right fun hand => nomatch hand.1)
    · exact exists_congr fun j => ⟨.inl, fun hj => hj.resolve_right fun hand => nomatch hand.1⟩
    · show (l.waiters ++ [(i, Waiting.pending)]).length + l.locked.toNat = _
      rw [List.length_append, List.length_singleton]
      omega

/-- The holder gives the lock back. -/
theorem Serves.release (h : l.Serves waits holds) (hi : holds i) :
    l.release.Serves waits (fun j => holds j ∧ j ≠ i) ∧
      l.release.waiters.length + l.release.locked.toNat + 1 =
        l.waiters.length + l.locked.toNat := by
  have hlocked := h.locked.2 ⟨i, hi⟩
  have hrelease : l.release = wakeUpFirst { l with locked := false } := if_pos hlocked
  have hids : l.release.ids = l.ids := by
    rw [hrelease, wakeUpFirst_ids]
    rfl
  have hfree : l.release.locked = false := by
    rw [hrelease, wakeUpFirst_locked]
  refine ⟨⟨h.orderly.release, fun j => ?_, fun j k hj hk => h.one j k hj.1 hk.1, ?_⟩, ?_⟩
  · rw [hids]
    exact h.waits j
  · rw [hfree]
    refine ⟨nofun, ?_⟩
    rintro ⟨j, hj, hne⟩
    exact absurd (h.one j i hj hi) hne
  · have hlen : l.release.waiters.length = l.waiters.length := by
      have := congrArg List.length hids
      simpa only [ids, List.length_map] using this
    rw [hfree, hlen, hlocked]
    rfl

/-! ## Tasks that wait are woken, or cancelled -/

variable [DecidableEq ι]

def remove (i : ι) (l : AsyncLock ι) : AsyncLock ι :=
  { l with waiters := l.waiters.filter fun w => w.1 ≠ i }

def cancel (i : ι) (l : AsyncLock ι) : AsyncLock ι :=
  { l with waiters := l.waiters.map fun w => if w.1 = i then (w.1, w.2.cancel) else w }

/-- `acquire` goes on when its future is done: whether it takes the lock or raises. -/
def resume (i : ι) (l : AsyncLock ι) : Option (Bool × AsyncLock ι) :=
  match (l.waiters.find? fun w => w.1 = i).map Prod.snd with
  | some .woken => some (true, { l.remove i with locked := true })
  | some .revoked | some .cancelled =>
      some (false, if l.locked then l.remove i else (l.remove i).wakeUpFirst)
  | _ => none

theorem cancel_ids (i : ι) (l : AsyncLock ι) : (l.cancel i).ids = l.ids := by
  simp only [ids, cancel, List.map_map]
  refine List.map_congr_left fun w _ => ?_
  show (if w.1 = i then (w.1, w.2.cancel) else w).1 = w.1
  split <;> rfl

theorem roused_cancel (w : ι × Waiting) :
    (if w.1 = i then (w.1, w.2.cancel) else w).2.roused = w.2.roused := by
  split
  · cases w.2 <;> rfl
  · rfl

theorem Orderly.cancel (h : l.Orderly) (i : ι) : (l.cancel i).Orderly := by
  refine ⟨?_, fun w hw => ?_, fun w hw hr => ?_⟩
  · rw [cancel_ids]
    exact h.nodup
  · simp only [AsyncLock.cancel, ← List.map_tail] at hw
    obtain ⟨w₀, hw₀, rfl⟩ := List.mem_map.1 hw
    rw [roused_cancel]
    exact h.first w₀ hw₀
  · obtain ⟨w₀, hw₀, rfl⟩ := List.mem_map.1 hw
    rw [roused_cancel] at hr
    exact h.unlocked w₀ hw₀ hr

theorem remove_ids (i : ι) (l : AsyncLock ι) : (l.remove i).ids = l.ids.filter (· ≠ i) := by
  simp only [ids, remove, List.filter_map]
  rfl

theorem tail_remove (i : ι) (l : AsyncLock ι) :
    ∀ w ∈ (l.remove i).waiters.tail, w ∈ l.waiters.tail := by
  intro w hw
  simp only [remove] at hw
  cases hwaiters : l.waiters with
  | nil =>
      rw [hwaiters] at hw
      cases hw
  | cons w₀ ws =>
      rw [hwaiters, List.filter_cons] at hw
      split at hw
      · exact (List.mem_filter.1 hw).1
      · exact (List.mem_filter.1 (List.mem_of_mem_tail hw)).1

theorem Orderly.remove (h : l.Orderly) (i : ι) : (l.remove i).Orderly where
  nodup := by
    rw [remove_ids]
    exact h.nodup.filter _
  first := fun w hw => h.first w (tail_remove i l w hw)
  unlocked := fun w hw hr => h.unlocked w (List.mem_filter.1 hw).1 hr

theorem Serves.cancel (h : l.Serves waits holds) (i : ι) :
    (l.cancel i).Serves waits holds ∧ (l.cancel i).waiters.length = l.waiters.length := by
  refine ⟨⟨h.orderly.cancel i, fun j => ?_, h.one, h.locked⟩, List.length_map _⟩
  rw [cancel_ids]
  exact h.waits j

/-- What `resume` finds is a waiter of that task. -/
theorem mem_of_resume {f : Waiting}
    (h : (l.waiters.find? fun w => w.1 = i).map Prod.snd = some f) : (i, f) ∈ l.waiters := by
  obtain ⟨w, hw, rfl⟩ := Option.map_eq_some_iff.1 h
  have hid := List.find?_some hw
  rw [← of_decide_eq_true hid]
  exact List.mem_of_find?_eq_some hw

/-- One waiter less. -/
theorem length_remove (h : l.Orderly) (hi : i ∈ l.ids) :
    (l.remove i).waiters.length + 1 = l.waiters.length := by
  have hlen : (l.remove i).waiters.length = (l.remove i).ids.length := (List.length_map _).symm
  have hlen' : l.waiters.length = l.ids.length := (List.length_map _).symm
  have hpos : 0 < l.ids.length := List.length_pos_of_mem hi
  have herase : l.ids.filter (· ≠ i) = l.ids.erase i := by
    rw [h.nodup.erase_eq_filter]
    refine List.filter_congr fun j _ => ?_
    by_cases hj : j = i <;> simp [hj]
  rw [hlen, hlen', remove_ids, herase, List.length_erase_of_mem hi]
  omega

theorem Serves.mem_remove (h : l.Serves waits holds) (j : ι) :
    j ∈ (l.remove i).ids ↔ waits j ∧ j ≠ i := by
  rw [remove_ids, List.mem_filter, h.waits j, decide_eq_true_eq]

/-- A task that gives its place up leaves the lock to the next, unless somebody holds it. -/
theorem Serves.giveUp {f : Waiting} (h : l.Serves waits holds) (hmem : (i, f) ∈ l.waiters)
    (hl' : l' = if l.locked then l.remove i else (l.remove i).wakeUpFirst) :
    l'.Serves (fun j => waits j ∧ j ≠ i) holds ∧
      l'.waiters.length + l'.locked.toNat + 1 = l.waiters.length + l.locked.toNat := by
  have hi : i ∈ l.ids := List.mem_map.2 ⟨(i, f), hmem, rfl⟩
  have hlen := length_remove h.orderly hi
  cases hlocked : l.locked with
  | true =>
      rw [hlocked, if_pos rfl] at hl'
      subst hl'
      refine ⟨⟨h.orderly.remove i, h.mem_remove, h.one, h.locked⟩, ?_⟩
      show _ + l.locked.toNat + 1 = _
      rw [hlocked]
      simp only [Bool.toNat_true]
      omega
  | false =>
      rw [hlocked, if_neg nofun] at hl'
      subst hl'
      have hlen' : (l.remove i).wakeUpFirst.waiters.length = (l.remove i).waiters.length := by
        have := congrArg List.length (wakeUpFirst_ids (l.remove i))
        simpa only [ids, List.length_map] using this
      refine ⟨⟨(h.orderly.remove i).wakeUpFirst hlocked, fun j => ?_, h.one, ?_⟩, ?_⟩
      · rw [wakeUpFirst_ids]
        exact h.mem_remove j
      · rw [wakeUpFirst_locked]
        exact h.locked
      · rw [wakeUpFirst_locked, hlen']
        show _ + l.locked.toNat + 1 = _
        rw [hlocked]
        simp only [Bool.toNat_false]
        omega

/-- Who is woken is the first waiter, so behind a woken task nobody is. -/
theorem Orderly.not_roused_of_remove {f : Waiting} (h : l.Orderly) (hmem : (i, f) ∈ l.waiters)
    (hf : f.roused = true) {w : ι × Waiting} (hw : w ∈ (l.remove i).waiters) :
    w.2.roused = false := by
  obtain ⟨hw, hne⟩ := List.mem_filter.1 hw
  have hfirst := h.first
  cases hwaiters : l.waiters with
  | nil =>
      rw [hwaiters] at hw
      cases hw
  | cons w₀ ws =>
      rw [hwaiters] at hw hmem hfirst
      rcases List.mem_cons.1 hmem with rfl | hmem
      · rcases List.mem_cons.1 hw with rfl | hw
        · simp at hne
        · exact hfirst w hw
      · have hwoken : f.roused = false := hfirst (i, f) hmem
        rw [hf] at hwoken
        cases hwoken

/-- A task that was woken takes the lock, or gives its place up. -/
theorem Serves.resume {b : Bool} (h : l.Serves waits holds) (hr : l.resume i = some (b, l')) :
    l'.Serves (fun j => waits j ∧ j ≠ i) (fun j => holds j ∨ b = true ∧ j = i) ∧
      l'.waiters.length + l'.locked.toNat + 1 =
        l.waiters.length + l.locked.toNat + b.toNat := by
  have hholds : (fun j => holds j ∨ false = true ∧ j = i) = holds := by
    funext j
    rw [Bool.false_eq_true, false_and, or_false]
  unfold AsyncLock.resume at hr
  split at hr
  · next hfind =>
      -- the lock was released, and the first waiter takes it
      cases hr
      have hmem := mem_of_resume hfind
      have hi : i ∈ l.ids := List.mem_map.2 ⟨_, hmem, rfl⟩
      have hunlocked := h.orderly.unlocked _ hmem rfl
      have hnone : ∀ j, ¬ holds j := by
        intro j hj
        have hlocked := h.locked.2 ⟨j, hj⟩
        rw [hunlocked] at hlocked
        cases hlocked
      have hlen := length_remove h.orderly hi
      refine ⟨⟨⟨(h.orderly.remove i).nodup, (h.orderly.remove i).first, fun w hw hroused => ?_⟩,
        h.mem_remove, fun j k hj hk => ?_, ⟨fun _ => ⟨i, .inr ⟨rfl, rfl⟩⟩, fun _ => rfl⟩⟩, ?_⟩
      · rw [h.orderly.not_roused_of_remove hmem rfl hw] at hroused
        cases hroused
      · rw [(hj.resolve_left (hnone j)).2, (hk.resolve_left (hnone k)).2]
      · show (l.remove i).waiters.length + 1 + 1 = _
        rw [hunlocked]
        simp only [Bool.toNat_true, Bool.toNat_false]
        omega
  · next hfind =>
      cases hr
      rw [hholds]
      exact h.giveUp (mem_of_resume hfind) rfl
  · next hfind =>
      cases hr
      rw [hholds]
      exact h.giveUp (mem_of_resume hfind) rfl
  · cases hr

end AsyncLock

end TradingBroker.Lib
