import TradingBroker.Broadcast.Writers

/-!
# Writers take turns

Whatever the writers of a cycle do at the same time, the committed rows are the
outcome of whole transactions, one after the other: a transaction commits rows
it computed from what is committed at that moment, because until then it holds
the row's lock, or the key of a row that did not exist. That is the contract of
`Writers` (`writersContract`). Each commit then takes rows whose views agree to
rows whose views agree, and leaves exactly one entry, its caller's.

The invariant (`Inv`) speaks of committed rows only, and says that they are the
history of some list of whole calls, as many as there are entries. What a
transaction has in its hands is in the assertions of the walk: it holds nothing
(`Free`), or the lock with nothing written (`Holding`), or an inserted row
(`Blank`), or all it is going to commit (`Written`), and what it is going to
commit is the call run on what is committed now. The last is stable because of
the lock: whoever else commits meanwhile does not hold this row (`Undisturbed`).
-/

namespace TradingBroker.Broadcast.Writers

open TradingBroker.Lib TradingBroker.Lib.Contract

/-! ## What a statement does -/

/-- The entries a writer left in the trace. -/
def own (i : Nat) (t : List Entry) : List Entry := t.filter fun e => e.writer == i

theorem own_cons_self {i : Nat} {e : Entry} (h : e.writer = i) (t : List Entry) :
    own i (e :: t) = e :: own i t :=
  List.filter_cons_of_pos (by simpa using h)

theorem own_cons_other {i : Nat} {e : Entry} (h : e.writer ≠ i) (t : List Entry) :
    own i (e :: t) = own i t :=
  List.filter_cons_of_neg (by simpa using h)

/-- Everything a statement can do to the rows. -/
inductive Effect (i : Nat) (s : Table) : Call → Table → Prop where
  | none (c : Call) : Effect i s c s
  | lock (c : Cycle) (hc : s.committed = some c) (hfree : s.holder = .none ∨ s.holder = some i) :
      Effect i s .lockedCycle { s with holder := some i }
  | insert (m : BroadcastMessage) (hc : s.committed = .none) (hi : s.inserting = .none) :
      Effect i s (.insertMessage m) { s with
        inserting := some i
        pending := Function.update s.pending i (some ⟨m, [], [], []⟩) }
  | write (d : Change) (c : Cycle) (hc : (s.pending i).or s.committed = some c) :
      Effect i s (.flush d) { s with pending := Function.update s.pending i (some (d.apply c)) }
  | commit : Effect i s .commit (s.commit i)
  | release : Effect i s .rollback (s.release i)
  | replayed : Effect i s .replayIgnored { s with trace := .replayed i :: s.trace }
  | answered (row : Option BroadcastMessage) :
      Effect i s (.answered row) { s with trace := .answered i row :: s.trace }

theorem fails_eq {α : Type} {x : Outcome} {go : Option (Except Fault α × Table)} {s s' : Table}
    {r : Except Fault α} (h : fails x go s = some (r, s')) :
    go = some (r, s') ∨ r = .error .unavailable ∧ s' = s := by
  unfold fails at h
  split at h
  · exact .inl h
  · simp only [Option.some.injEq, Prod.mk.injEq] at h
    exact .inr ⟨h.1.symm, h.2.symm⟩

theorem exec_effect {i : Nat} {x : Outcome} {s s' : Table} {c : Call} {r : c.Result}
    (h : exec i x s c = some (r, s')) : Effect i s c s' := by
  cases c with
  | lockedCycle =>
      rcases fails_eq h with h | ⟨-, rfl⟩
      · split at h
        · cases h
          exact .none _
        · next c hc =>
            split at h
            · next hfree =>
                cases h
                exact .lock c hc hfree
            · cases h
      · exact .none _
  | insertMessage m =>
      rcases fails_eq h with h | ⟨-, rfl⟩
      · split at h
        · cases h
          exact .none _
        · next hc =>
            split at h
            · next hi =>
                cases h
                exact .insert m (by simpa using hc) hi
            · cases h
      · exact .none _
  | selectWorker workerId =>
      rcases fails_eq h with h | ⟨-, rfl⟩
      · cases h
        exact .none _
      · exact .none _
  | flush d =>
      rcases fails_eq h with h | ⟨-, rfl⟩
      · split at h
        · cases h
          exact .none _
        · next c hc =>
            split at h
            · cases h
              exact .none _
            · cases h
              exact .write d c hc
      · exact .none _
  | refresh =>
      rcases fails_eq h with h | ⟨-, rfl⟩
      · cases h
        exact .none _
      · exact .none _
  | commit =>
      cases x with
      | ok =>
          cases h
          exact .commit
      | failed =>
          cases h
          exact .none _
      | failedApplied =>
          cases h
          exact .commit
  | rollback =>
      cases h
      exact .release
  | replayIgnored =>
      cases h
      exact .replayed
  | answered row =>
      cases h
      exact .answered row

/-! ## Where a transaction stands -/

/-- The committed write log. -/
def Table.logs (s : Table) : List LogEntry := (s.committed.map Cycle.logs).getD []

/-- It has no transaction open. -/
structure Free (i : Nat) (s : Table) : Prop where
  holder : s.holder ≠ some i
  inserting : s.inserting ≠ some i
  pending : s.pending i = none

/-- Its call was started, and nothing has come of it. -/
def Started (i : Nat) (e : Request) (s : Table) : Prop := own i s.trace = [.started i e]

/-- It has locked the row `c` and written nothing. -/
structure Holding (i : Nat) (e : Request) (c : Cycle) (s : Table) : Prop where
  holder : s.holder = some i
  pending : s.pending i = none
  committed : s.committed = some c
  started : Started i e s

/-- It has inserted the row `m`, and nothing else. -/
structure Blank (i : Nat) (e : Request) (m : BroadcastMessage) (s : Table) : Prop where
  inserting : s.inserting = some i
  pending : s.pending i = some ⟨m, [], [], []⟩
  committed : s.committed = none
  started : Started i e s

/-- It has written what it is going to commit. -/
structure Written (i : Nat) (e : Request) (s : Table) : Prop where
  locked : s.holder = some i ∨ s.inserting = some i
  pending : ∃ c entry, s.pending i = some c ∧ e.run s.committed = some c ∧
    c.logs = s.logs ++ [entry] ∧ entry.payload = e.payload
  started : Started i e s

/-- What a writer may have left in the trace before it answers. -/
inductive Opened (i : Nat) (e : Request) : List Entry → Prop where
  | started : Opened i e [.started i e]
  | replayed : Opened i e [.replayed i, .started i e]
  | appended : Opened i e [.appended i e.payload, .started i e]

/-- What it may ever leave there: a row is only returned for a replay or an
entry. -/
inductive Shape (i : Nat) : List Entry → Prop where
  | nil : Shape i []
  | running {e : Request} {l : List Entry} (h : Opened i e l) : Shape i l
  | answered {e : Request} {l : List Entry} (row : Option BroadcastMessage) (h : Opened i e l)
      (hrow : row.isSome = true → l ≠ [.started i e]) : Shape i (.answered i row :: l)

/-- The payloads of the committed entries, oldest first. -/
def appends (t : List Entry) : List LogPayload :=
  (t.filterMap fun
    | .appended _ payload => some payload
    | _ => none).reverse

theorem appends_appended (i : Nat) (payload : LogPayload) (t : List Entry) :
    appends (.appended i payload :: t) = appends t ++ [payload] :=
  List.reverse_cons

theorem appends_other {e : Entry} (he : appends [e] = []) (t : List Entry) :
    appends (e :: t) = appends t := by
  cases e with
  | appended i payload => cases he
  | started i e => rfl
  | replayed i => rfl
  | answered i row => rfl

/-- The invariant of the writers: the committed rows are those of whole calls, one after
the other; only one transaction has the row or its key at a time, and only that one has
written; and no call leaves more in the trace than one entry, or one replay, and its
answer. -/
structure Inv (s : Table) : Prop where
  serial : ∃ es, s.committed = history es ∧ appends s.trace = es.map Request.payload
  held : ∀ i, s.holder = some i → s.committed.isSome = true
  inserting : ∀ i, s.inserting = some i → s.committed = none
  pending : ∀ i, (s.pending i).isSome = true → s.holder = some i ∨ s.inserting = some i
  logs : s.logs.map LogEntry.payload = appends s.trace
  shape : ∀ i, Shape i (own i s.trace)

/-- When a writer executes a statement: it writes only with the row or its key in hands,
and commits only nothing at all or what its call comes to. -/
def May (i : Nat) (c : Call) (s : Table) : Prop :=
  match c with
  | .flush _ => s.holder = some i ∨ s.inserting = some i
  | .commit => s.pending i = none ∨ ∃ e, Written i e s
  | .replayIgnored => ∃ e, Started i e s
  | .answered row =>
      ∃ e, Opened i e (own i s.trace) ∧
        (row.isSome = true → own i s.trace ≠ [.started i e])
  | _ => True

/-! ## What the others leave alone -/

/-- A writer finds what it holds as it left it. -/
structure Undisturbed (i : Nat) (s s' : Table) : Prop where
  own : own i s'.trace = own i s.trace
  pending : s'.pending i = s.pending i
  holder : s'.holder = some i ↔ s.holder = some i
  inserting : s'.inserting = some i ↔ s.inserting = some i
  committed : s.holder = some i ∨ s.inserting = some i → s'.committed = s.committed

theorem Undisturbed.refl (i : Nat) (s : Table) : Undisturbed i s s :=
  ⟨rfl, rfl, .rfl, .rfl, fun _ => rfl⟩

/-- Only the writer that has the lock, or the key, has anything to commit. -/
theorem Written.alone {i j : Nat} {e : Request} {s : Table} (h : Written i e s) (hinv : Inv s)
    (hj : s.holder = some j ∨ s.inserting = some j) : j = i := by
  rcases h.locked with hl | hl
  · rcases hj with hj | hj
    · rw [hl] at hj
      exact (Option.some.inj hj).symm
    · have hsome := hinv.held i hl
      rw [hinv.inserting j hj] at hsome
      cases hsome
  · rcases hj with hj | hj
    · have hsome := hinv.held j hj
      rw [hinv.inserting i hl] at hsome
      cases hsome
    · rw [hl] at hj
      exact (Option.some.inj hj).symm

theorem release_undisturbed {i j : Nat} (s : Table) (hne : j ≠ i) :
    Undisturbed i s (s.release j) where
  own := rfl
  pending := Function.update_of_ne (Ne.symm hne) _ _
  holder := by
    show (if s.holder = some j then none else s.holder) = some i ↔ s.holder = some i
    split
    · next h =>
        rw [h]
        simpa using hne
    · exact .rfl
  inserting := by
    show (if s.inserting = some j then none else s.inserting) = some i ↔ s.inserting = some i
    split
    · next h =>
        rw [h]
        simpa using hne
    · exact .rfl
  committed := fun _ => rfl

theorem own_commitEntry_other {i j : Nat} (s : Table) (hne : j ≠ i) :
    own i (s.commitEntry j ++ s.trace) = own i s.trace := by
  unfold Table.commitEntry
  split
  · next entry _ => exact own_cons_other (e := .appended j entry.payload) hne _
  · rfl

theorem commit_undisturbed {i j : Nat} {s : Table} (hne : j ≠ i) (hinv : Inv s)
    (hmay : May j .commit s) : Undisturbed i s (s.commit j) where
  own := own_commitEntry_other s hne
  pending := (release_undisturbed s hne).pending
  holder := (release_undisturbed s hne).holder
  inserting := (release_undisturbed s hne).inserting
  committed := by
    intro hi
    show (s.pending j).or s.committed = s.committed
    rcases hmay with hp | ⟨e, hw⟩
    · rw [hp]
      rfl
    · exact absurd (hw.alone hinv hi).symm hne

theorem Effect.undisturbed {i j : Nat} {c : Call} {s s' : Table} (h : Effect j s c s')
    (hne : j ≠ i) (hinv : Inv s) (hmay : May j c s) : Undisturbed i s s' := by
  cases h with
  | none => exact .refl i s
  | lock c hc hfree =>
      have hother : s.holder ≠ some i := by
        intro hi
        rcases hfree with hf | hf
        · rw [hi] at hf
          cases hf
        · rw [hi] at hf
          exact hne (Option.some.inj hf).symm
      exact ⟨rfl, rfl, by simpa [hother] using hne, .rfl, fun _ => rfl⟩
  | insert m hc hi =>
      refine ⟨rfl, Function.update_of_ne (Ne.symm hne) _ _, .rfl, ?_, fun _ => rfl⟩
      simpa [hi] using hne
  | write d c hc =>
      exact ⟨rfl, Function.update_of_ne (Ne.symm hne) _ _, .rfl, .rfl, fun _ => rfl⟩
  | commit => exact commit_undisturbed hne hinv hmay
  | release => exact release_undisturbed s hne
  | replayed =>
      exact ⟨own_cons_other (e := .replayed j) hne _, rfl, .rfl, .rfl, fun _ => rfl⟩
  | answered row =>
      exact ⟨own_cons_other (e := .answered j row) hne _, rfl, .rfl, .rfl, fun _ => rfl⟩

/-! ## What every statement keeps -/

theorem logs_of_committed {s : Table} {c : Cycle} (h : s.committed = some c) :
    s.logs = c.logs := by
  rw [Table.logs, h]
  rfl

theorem Shape.started_of {i : Nat} {s : Table} (h : (s.trace.any fun e => e.writer == i) = false) :
    own i s.trace = [] := by
  rw [own, List.filter_eq_nil_iff]
  intro e he
  simpa using List.any_eq_false.1 h e he

theorem Inv.of_trace {s : Table} {e : Entry} (h : Inv s) (hnew : appends [e] = [])
    (hshape : Shape e.writer (e :: own e.writer s.trace)) :
    Inv { s with trace := e :: s.trace } where
  serial := by
    obtain ⟨es, hes, happ⟩ := h.serial
    exact ⟨es, hes, (appends_other hnew s.trace).trans happ⟩
  held := h.held
  inserting := h.inserting
  pending := h.pending
  logs := h.logs.trans (appends_other hnew s.trace).symm
  shape := by
    intro i
    show Shape i (own i (e :: s.trace))
    by_cases hi : e.writer = i
    · subst hi
      rw [own_cons_self rfl]
      exact hshape
    · rw [own_cons_other hi]
      exact h.shape i

theorem Inv.release {s : Table} (h : Inv s) (i : Nat) : Inv (s.release i) where
  serial := h.serial
  held := by
    intro j hj
    by_cases hij : i = j
    · subst hij
      by_cases hs : s.holder = some i <;> simp [Table.release, hs] at hj
    · exact h.held j ((release_undisturbed s hij).holder.1 hj)
  inserting := by
    intro j hj
    by_cases hij : i = j
    · subst hij
      by_cases hs : s.inserting = some i <;> simp [Table.release, hs] at hj
    · exact h.inserting j ((release_undisturbed s hij).inserting.1 hj)
  pending := by
    intro j hj
    by_cases hij : i = j
    · subst hij
      simp [Table.release] at hj
    · have hu := release_undisturbed s hij
      rw [hu.pending] at hj
      exact (h.pending j hj).imp hu.holder.2 hu.inserting.2
  logs := h.logs
  shape := h.shape

/-- A commit by a writer that has written adds its entry and takes the rows it
wrote for the committed ones. -/
theorem Inv.commit_written {s : Table} {i : Nat} {e : Request} (h : Inv s)
    (hw : Written i e s) : Inv (s.commit i) := by
  obtain ⟨c, entry, hpend, hrun, hlogs, hpay⟩ := hw.pending
  have hcommitted : (s.commit i).committed = some c := by
    show (s.pending i).or s.committed = some c
    rw [hpend]
    rfl
  have htrace : (s.commit i).trace = .appended i e.payload :: s.trace := by
    show s.commitEntry i ++ s.trace = _
    rw [Table.commitEntry, hpend, Option.bind_some, hlogs, List.getLast?_concat, ← hpay]
    rfl
  have hr := h.release i
  refine ⟨?_, ?_, ?_, hr.pending, ?_, ?_⟩
  · obtain ⟨es, hes, happ⟩ := h.serial
    refine ⟨es ++ [e], ?_, ?_⟩
    · rw [hcommitted, history_concat, ← hes, hrun]
    · rw [htrace, appends_appended, happ, List.map_append]
      rfl
  · intro j hj
    rw [hcommitted]
    rfl
  · -- nobody else has inserted the row
    intro j hj
    have hne : i ≠ j := by
      intro hij
      subst hij
      by_cases hs : s.inserting = some i <;> simp [Table.commit, Table.release, hs] at hj
    exact absurd (hw.alone h (.inr ((release_undisturbed s hne).inserting.1 hj))).symm hne
  · rw [logs_of_committed hcommitted, htrace, hlogs, List.map_append, h.logs,
      appends_appended, ← hpay]
    rfl
  · intro j
    rw [htrace]
    by_cases hj : i = j
    · subst hj
      rw [own_cons_self (i := i) (e := .appended i e.payload) rfl,
        show own i s.trace = [.started i e] from hw.started]
      exact .running .appended
    · rw [own_cons_other (e := .appended i e.payload) hj]
      exact h.shape j

theorem Inv.commit {s : Table} {i : Nat} (h : Inv s) (hmay : May i .commit s) :
    Inv (s.commit i) := by
  rcases hmay with hp | ⟨e, hw⟩
  · -- with nothing written it is a release
    have heq : s.commit i = s.release i := by
      rw [Table.commit, Table.commitEntry, hp]
      rfl
    rw [heq]
    exact h.release i
  · exact h.commit_written hw

theorem Effect.inv {i : Nat} {c : Call} {s s' : Table} (h : Effect i s c s') (hinv : Inv s)
    (hmay : May i c s) : Inv s' := by
  cases h with
  | none => exact hinv
  | lock c hc hfree =>
      refine ⟨hinv.serial, ?_, hinv.inserting, ?_, hinv.logs, hinv.shape⟩
      · intro j _
        show s.committed.isSome = true
        rw [hc]
        rfl
      · intro j hj
        rcases hinv.pending j hj with hh | hi
        · rcases hfree with hf | hf
          · rw [hh] at hf
            cases hf
          · exact .inl (hf ▸ hh)
        · exact .inr hi
  | insert m hc hi =>
      refine ⟨hinv.serial, hinv.held, fun _ _ => hc, ?_, hinv.logs, hinv.shape⟩
      intro j hj
      by_cases hij : i = j
      · subst hij
        exact .inr rfl
      · have hj' : (Function.update s.pending i (some ⟨m, [], [], []⟩) j).isSome = true := hj
        rw [Function.update_of_ne (Ne.symm hij)] at hj'
        rcases hinv.pending j hj' with hh | hh
        · exact .inl hh
        · rw [hi] at hh
          cases hh
  | write d c hc =>
      refine ⟨hinv.serial, hinv.held, hinv.inserting, ?_, hinv.logs, hinv.shape⟩
      intro j hj
      by_cases hij : i = j
      · subst hij
        exact hmay
      · have hj' : (Function.update s.pending i (some (d.apply c)) j).isSome = true := hj
        rw [Function.update_of_ne (Ne.symm hij)] at hj'
        exact hinv.pending j hj'
  | commit => exact hinv.commit hmay
  | release => exact hinv.release i
  | replayed =>
      obtain ⟨e, hs⟩ := hmay
      refine hinv.of_trace (e := .replayed i) rfl ?_
      show Shape i (.replayed i :: own i s.trace)
      rw [show own i s.trace = [.started i e] from hs]
      exact .running .replayed
  | answered row =>
      obtain ⟨e, hopen, hrow⟩ := hmay
      exact hinv.of_trace (e := .answered i row) rfl (.answered row hopen hrow)

theorem effect_of_act {s s' : Table} {l : Step} (h : writers.act l s = some s') :
    (∃ i k c x, l = .call i k c x ∧ Effect i s c s') ∨
    (∃ i e, l = .start i e ∧ own i s.trace = [] ∧
      s' = { s with trace := .started i e :: s.trace }) ∨
    (∃ i k, l = .crash i k ∧ s' = s.release i) := by
  cases l with
  | call i k c x =>
      simp only [Machine.act, writers, Option.map_eq_some_iff] at h
      obtain ⟨r, hr, rfl⟩ := h
      exact .inl ⟨i, k, c, x, rfl, exec_effect hr⟩
  | start i e =>
      right; left
      simp only [Machine.act, writers] at h
      split at h
      · cases h
      · next hnew =>
          cases h
          exact ⟨i, e, rfl, Shape.started_of (by simpa using hnew), rfl⟩
  | env e => cases h
  | crash i k =>
      right; right
      cases h
      exact ⟨i, k, rfl, rfl⟩

/-- Writers take turns: a statement is executed by the writer whose turn it is. -/
def writersContract : Contract writers where
  inv := Inv
  pre i _ c s := May i c s
  post i _ s := Free i s
  keeps := by
    intro s l s' hinv hl ha
    rcases effect_of_act ha with ⟨i, k, c, x, rfl, he⟩ | ⟨i, e, rfl, hown, rfl⟩ | ⟨i, k, rfl, rfl⟩
    · exact he.inv hinv hl
    · refine hinv.of_trace (e := .started i e) rfl ?_
      show Shape i (.started i e :: own i s.trace)
      rw [hown]
      exact .running .started
    · exact hinv.release i

theorem interferes_undisturbed {i : Nat} {s s' : Table} (h : writersContract.Interferes i s s') :
    Undisturbed i s s' := by
  obtain ⟨hinv, -, l, hp, hl, ha⟩ := h
  rcases effect_of_act ha with ⟨j, k, c, x, rfl, he⟩ | ⟨j, e, rfl, -, rfl⟩ | ⟨j, k, rfl, rfl⟩
  · exact he.undisturbed (fun hj => hp (congrArg some hj)) hinv hl
  · have hne : j ≠ i := fun hj => hp (congrArg some hj)
    exact ⟨own_cons_other (e := .started j e) hne _, rfl, .rfl, .rfl, fun _ => rfl⟩
  · exact release_undisturbed s fun hj => hp (congrArg some hj)

/-! ## Assertions the others cannot break -/

theorem stable_started (i : Nat) (e : Request) : writersContract.Stable i (Started i e) := by
  intro s s' hs h
  rw [Started, (interferes_undisturbed hs).own]
  exact h

theorem stable_free (i : Nat) : writersContract.Stable i (Free i) := by
  intro s s' hs h
  have hu := interferes_undisturbed hs
  refine ⟨fun hh => h.holder (hu.holder.1 hh), fun hh => h.inserting (hu.inserting.1 hh), ?_⟩
  rw [hu.pending]
  exact h.pending

theorem stable_own (i : Nat) (P : List Entry → Prop) :
    writersContract.Stable i fun s => P (own i s.trace) := by
  intro s s' hs h
  rw [(interferes_undisturbed hs).own]
  exact h

theorem stable_blankPending (i : Nat) : writersContract.Stable i fun s => s.pending i = none := by
  intro s s' hs h
  rw [(interferes_undisturbed hs).pending]
  exact h

theorem stable_holding (i : Nat) (e : Request) (c : Cycle) :
    writersContract.Stable i (Holding i e c) := by
  intro s s' hs h
  have hu := interferes_undisturbed hs
  refine ⟨hu.holder.2 h.holder, ?_, ?_, stable_started i e s s' hs h.started⟩
  · rw [hu.pending]
    exact h.pending
  · rw [hu.committed (.inl h.holder)]
    exact h.committed

theorem stable_blank (i : Nat) (e : Request) (m : BroadcastMessage) :
    writersContract.Stable i (Blank i e m) := by
  intro s s' hs h
  have hu := interferes_undisturbed hs
  refine ⟨hu.inserting.2 h.inserting, ?_, ?_, stable_started i e s s' hs h.started⟩
  · rw [hu.pending]
    exact h.pending
  · rw [hu.committed (.inr h.inserting)]
    exact h.committed

theorem stable_written (i : Nat) (e : Request) : writersContract.Stable i (Written i e) := by
  intro s s' hs h
  have hu := interferes_undisturbed hs
  obtain ⟨c, entry, hp, hrun, hlogs, hpay⟩ := h.pending
  refine ⟨h.locked.imp hu.holder.2 hu.inserting.2, ⟨c, entry, ?_, ?_, ?_, hpay⟩,
    stable_started i e s s' hs h.started⟩
  · rw [hu.pending]
    exact hp
  · rw [hu.committed h.locked]
    exact hrun
  · rw [hlogs, Table.logs, Table.logs, hu.committed h.locked]

/-! ## One transaction -/

/-- What a transaction's body leaves for its commit. `shown` is whether it returns
the row. -/
def Ready (i : Nat) (e : Request) (shown : Bool) (s : Table) : Prop :=
  Written i e s ∨
    s.pending i = none ∧
      (own i s.trace = [.replayed i, .started i e] ∨ shown = false ∧ Started i e s)

/-- The transaction is over. -/
def Ended (i : Nat) (e : Request) (shown : Bool) (s : Table) : Prop :=
  Free i s ∧ Opened i e (own i s.trace) ∧
    (shown = true → own i s.trace ≠ [.started i e])

/-- It is over and raised; an `IntegrityError` never comes from a commit. -/
def Failed (i : Nat) (e : Request) (f : Fault) (s : Table) : Prop :=
  Free i s ∧ Opened i e (own i s.trace) ∧ (f = .integrity → Started i e s)

theorem stable_ready (i : Nat) (e : Request) (shown : Bool) :
    writersContract.Stable i (Ready i e shown) :=
  (stable_written i e).or ((stable_blankPending i).and
    ((stable_own i fun l => l = [.replayed i, .started i e]).or
      ((Stable.const _).and (stable_started i e))))

theorem stable_ended (i : Nat) (e : Request) (shown : Bool) :
    writersContract.Stable i (Ended i e shown) :=
  (stable_free i).and ((stable_own i (Opened i e)).and
    (stable_own i fun l => shown = true → l ≠ [.started i e]))

theorem stable_failed (i : Nat) (e : Request) (f : Fault) :
    writersContract.Stable i (Failed i e f) :=
  (stable_free i).and ((stable_own i (Opened i e)).and
    (Stable.imp_left fun _ => stable_started i e))

theorem free_release (i : Nat) (s : Table) : Free i (s.release i) where
  holder := by
    show (if s.holder = some i then none else s.holder) ≠ some i
    split
    · nofun
    · next h => exact h
  inserting := by
    show (if s.inserting = some i then none else s.inserting) ≠ some i
    split
    · nofun
    · next h => exact h
  pending := Function.update_self _ _ _

theorem Written.own_commit {i : Nat} {e : Request} {s : Table} (h : Written i e s) :
    own i (s.commit i).trace = [.appended i e.payload, .started i e] := by
  obtain ⟨c, entry, hpend, -, hlogs, hpay⟩ := h.pending
  show own i (s.commitEntry i ++ s.trace) = _
  rw [Table.commitEntry, hpend, Option.bind_some, hlogs, List.getLast?_concat, ← hpay]
  show own i (.appended i entry.payload :: s.trace) = _
  rw [own_cons_self (i := i) (e := .appended i entry.payload) rfl,
    show own i s.trace = [.started i e] from h.started]

theorem own_commit_of_pending {i : Nat} {s : Table} (h : s.pending i = none) :
    own i (s.commit i).trace = own i s.trace := by
  show own i (s.commitEntry i ++ s.trace) = _
  rw [Table.commitEntry, h]
  rfl

theorem Ready.commit {i : Nat} {e : Request} {shown : Bool} {s : Table} (h : Ready i e shown s) :
    Ended i e shown (s.commit i) := by
  refine ⟨?_, ?_⟩
  · have hf := free_release i s
    exact ⟨hf.holder, hf.inserting, hf.pending⟩
  · rcases h with hw | ⟨hp, ho | ⟨rfl, ho⟩⟩
    · rw [hw.own_commit]
      exact ⟨.appended, fun _ => by simp⟩
    · rw [own_commit_of_pending hp, ho]
      exact ⟨.replayed, fun _ => by simp⟩
    · rw [own_commit_of_pending hp, show own i s.trace = [.started i e] from ho]
      exact ⟨.started, nofun⟩

theorem Ready.opened {i : Nat} {e : Request} {shown : Bool} {s : Table} (h : Ready i e shown s) :
    Opened i e (own i s.trace) := by
  rcases h with hw | ⟨hp, ho | ⟨-, ho⟩⟩
  · rw [show own i s.trace = [.started i e] from hw.started]
    exact .started
  · rw [ho]
    exact .replayed
  · rw [show own i s.trace = [.started i e] from ho]
    exact .started

theorem Ready.may {i : Nat} {e : Request} {shown : Bool} {s : Table} (h : Ready i e shown s) :
    May i .commit s := by
  rcases h with hw | ⟨hp, -⟩
  · exact .inr ⟨e, hw⟩
  · exact .inl hp

section
variable {i : Nat} {e : Request}

/-- `rollback` and `raise`. -/
theorem spec_rollback {α : Type} {f : Fault} {P : Table → Prop} {Q : α → Table → Prop}
    (hP : writersContract.Stable i P) (hopen : ∀ s, P s → Opened i e (own i s.trace))
    (hraced : ∀ s, P s → f = .integrity → Started i e s) :
    writersContract.Spec i () P (.call .rollback fun _ => .raise f) Q (Failed i e) := by
  refine Spec.call (fun _ => Failed i e f) hP (fun _ _ _ => trivial) ?_ fun _ =>
    Spec.raise (stable_failed i e f) fun _ _ h => h
  intro s x r s' _ hs hx _
  cases hx
  exact ⟨free_release i s, hopen s hs, hraced s hs⟩

/-- `Q` where a statement goes through, `X` where it raises. -/
def Ends {α : Type} (Q : α → Table → Prop) (X : Fault → Table → Prop) :
    Except Fault α → Table → Prop
  | .ok a => Q a
  | .error f => X f

theorem spec_session {α : Type} {body : Prog α} {P : Table → Prop} (shown : α → Bool)
    (hbody : writersContract.Spec i () P body (fun a => Ready i e (shown a))
      fun _ => Started i e) :
    writersContract.Spec i () P (session body) (fun a => Ended i e (shown a)) (Failed i e) := by
  refine Spec.bind _ hbody.attempt fun a => ?_
  cases a with
  | error f =>
      refine spec_rollback (stable_started i e) (fun s hs => ?_) fun s hs _ => hs
      rw [show own i s.trace = [.started i e] from hs]
      exact .started
  | ok a =>
      refine Spec.call
        (Ends (fun _ => Ended i e (shown a))
          fun f s => f = .unavailable ∧ Opened i e (own i s.trace))
        (stable_ready i e (shown a)) (fun s _ hs => hs.may) ?_ ?_
      · intro s x r s' _ hs hx _
        cases x with
        | ok =>
            cases hx
            exact hs.commit
        | failed =>
            cases hx
            exact ⟨rfl, hs.opened⟩
        | failedApplied =>
            cases hx
            exact ⟨rfl, hs.commit.2.1⟩
      · intro r
        cases r with
        | ok _ => exact Spec.pure (stable_ended i e _) fun _ _ h => h
        | error f =>
            refine spec_rollback ((Stable.const _).and (stable_own i (Opened i e)))
              (fun s hs => hs.2) fun s hs hf => ?_
            rw [hs.1] at hf
            cases hf

/-- A statement that only fails leaves the writer where it was. -/
theorem spec_store {d : Change} {P : Table → Prop} (hP : writersContract.Stable i P)
    (hlock : ∀ s, P s → s.holder = some i ∨ s.inserting = some i)
    (hstarted : ∀ s, P s → Started i e s) (hpay : d.entry.payload = e.payload)
    (hrow : ∀ s c, P s → (s.pending i).or s.committed = some c →
      e.run s.committed = some (d.apply c) ∧ c.logs = s.logs) :
    writersContract.Spec i () P (store d) (fun _ => Written i e) fun _ => Started i e := by
  refine Spec.call (Ends (fun _ => Written i e) fun _ => Started i e) hP
    (fun s _ hs => hlock s hs) ?_ ?_
  · intro s x r s' hinv hs hx _
    rcases fails_eq hx with hx | ⟨rfl, rfl⟩
    · split at hx
      · cases hx
        exact hstarted s hs
      · next c hc =>
          split at hx
          · cases hx
            exact hstarted s hs
          · cases hx
            obtain ⟨hrun, hlogs⟩ := hrow s c hs hc
            refine ⟨hlock s hs, ⟨d.apply c, d.entry, Function.update_self _ _ _, hrun, ?_,
              hpay⟩, hstarted s hs⟩
            show c.logs ++ [d.entry] = s.logs ++ [d.entry]
            rw [hlogs]
    · exact hstarted _ hs
  · intro r
    cases r with
    | error f => exact Spec.raise (stable_started i e) fun _ _ h => h
    | ok _ =>
        refine Spec.call (Ends (fun _ => Written i e) fun _ => Started i e) (stable_written i e)
          (fun _ _ _ => trivial) ?_ ?_
        · intro s x r s' _ hs hx _
          rcases fails_eq hx with hx | ⟨rfl, rfl⟩
          · cases hx
            exact hs
          · exact hs.started
        · intro r
          cases r with
          | error f => exact Spec.raise (stable_started i e) fun _ _ h => h
          | ok _ => exact Spec.pure (stable_written i e) fun _ _ h => h

/-- Before a transaction: the call is free, and nothing has come of it. -/
def Fresh (i : Nat) (e : Request) (s : Table) : Prop := Free i s ∧ Started i e s

theorem stable_fresh : writersContract.Stable i (Fresh i e) :=
  (stable_free i).and (stable_started i e)

/-- What the lock found, if the row is there. -/
def Locked (i : Nat) (e : Request) : Option BroadcastMessage → Table → Prop
  | none => Fresh i e
  | some row => fun s => ∃ c : Cycle, row = c.message ∧ Holding i e c s

/-- Every transaction begins by locking the row. -/
theorem spec_lockedCycle {α : Type} {f : Except Fault (Option BroadcastMessage) → Prog α}
    {Q : α → Table → Prop} {X : Fault → Table → Prop}
    (hfail : ∀ x, writersContract.Spec i () (Started i e) (f (.error x)) Q X)
    (hnone : writersContract.Spec i () (Fresh i e) (f (.ok none)) Q X)
    (hsome : ∀ c, writersContract.Spec i () (Holding i e c) (f (.ok (some c.message))) Q X) :
    writersContract.Spec i () (Fresh i e) (.call .lockedCycle f) Q X := by
  refine Spec.call (Ends (Locked i e) fun _ => Started i e) stable_fresh (fun _ _ _ => trivial)
    ?_ ?_
  · intro s x r s' _ hs hx _
    rcases fails_eq hx with hx | ⟨rfl, rfl⟩
    · split at hx
      · cases hx
        exact hs
      · next c hc =>
          split at hx
          · cases hx
            exact ⟨c, rfl, rfl, hs.1.pending, hc, hs.2⟩
          · cases hx
    · exact hs.2
  · intro r
    cases r with
    | error x => exact hfail x
    | ok found =>
        cases found with
        | none => exact hnone
        | some row =>
            rintro s hs ⟨c, rfl, hc⟩
            exact hsome c s hs hc

/-- The replay is noted, and the row that was read is returned. -/
theorem spec_replay {α : Type} {a : α} {c : Cycle} {shown : Bool} :
    writersContract.Spec i () (Holding i e c) (.call .replayIgnored fun _ => .pure a : Prog α)
      (fun _ => Ready i e shown) fun _ => Started i e := by
  refine Spec.call (fun _ => Ready i e shown) (stable_holding i e c)
    (fun s _ hs => ⟨e, hs.started⟩) ?_ fun _ =>
    Spec.pure (stable_ready i e shown) fun _ _ h => h
  intro s x r s' _ hs hx _
  cases hx
  refine .inr ⟨hs.pending, .inl ?_⟩
  show own i (.replayed i :: s.trace) = _
  rw [own_cons_self (i := i) (e := .replayed i) rfl,
    show own i s.trace = [.started i e] from hs.started]

/-- Whatever it writes from the row it holds. -/
theorem spec_store_held {d : Change} {c : Cycle} (hpay : d.entry.payload = e.payload)
    (hrun : e.run (some c) = some (d.apply c)) :
    writersContract.Spec i () (Holding i e c) (store d) (fun _ => Written i e)
      fun _ => Started i e := by
  refine spec_store (stable_holding i e c) (fun s hs => .inl hs.holder)
    (fun s hs => hs.started) hpay fun s c' hs hc' => ?_
  rw [hs.pending, hs.committed] at hc'
  cases hc'
  rw [hs.committed]
  exact ⟨hrun, (logs_of_committed hs.committed).symm⟩

theorem spec_recordOnce {r : EventRecord} {now : Int} :
    writersContract.Spec i () (Fresh i (.event r now)) (recordOnce r now)
      (fun _ => Ended i (.event r now) true) (Failed i (.event r now)) := by
  refine spec_session (fun _ => true) (spec_lockedCycle (fun x => ?_) ?_ fun c => ?_)
  · exact Spec.raise (stable_started i _) fun _ _ h => h
  · -- the create branch
    refine Spec.call
      (fun a s => match a with
        | .ok () => Blank i (.event r now) r.message s
        | .error _ => Started i (.event r now) s)
      stable_fresh (fun _ _ _ => trivial) ?_ ?_
    · intro s x a s' _ hs hx _
      rcases fails_eq hx with hx | ⟨rfl, rfl⟩
      · split at hx
        · cases hx
          exact hs.2
        · next hc =>
            split at hx
            · cases hx
              exact ⟨rfl, Function.update_self _ _ _, by simpa using hc, hs.2⟩
            · cases hx
      · exact hs.2
    · intro a
      cases a with
      | error f => exact Spec.raise (stable_started i _) fun _ _ h => h
      | ok _ =>
          refine (spec_store (stable_blank i _ r.message) (fun s hs => .inr hs.inserting)
            (fun s hs => hs.started) rfl fun s c hs hc => ?_).mono (fun _ _ h => h)
            (fun _ _ _ h => .inl h) fun _ _ _ h => h
          rw [hs.pending] at hc
          cases hc
          rw [Table.logs, hs.committed]
          exact ⟨rfl, rfl⟩
  · show writersContract.Spec i () _
      (if isDuplicateEvent c.message.events r.event then
        (.call .replayIgnored fun _ => .pure c.message : Prog BroadcastMessage)
      else store (r.change c.message now)) _ _
    split
    · exact spec_replay
    · next hnew =>
        have hrun : (Request.event r now).run (some c) = some ((r.change c.message now).apply c) :=
          congrArg some (if_neg hnew)
        exact (spec_store_held rfl hrun).mono (fun _ _ h => h) (fun _ _ _ h => .inl h)
          fun _ _ _ h => h

theorem spec_recordEvent {r : EventRecord} {now : Int} :
    writersContract.Spec i () (Fresh i (.event r now)) (recordEvent r now)
      (fun row => Ended i (.event r now) row.isSome) fun _ _ => False := by
  have hnone : ∀ f, writersContract.Spec i () (Failed i (.event r now) f)
      (pure none : Prog (Option BroadcastMessage))
      (fun row => Ended i (.event r now) row.isSome) fun _ _ => False := fun f =>
    Spec.pure (stable_ended i _ false) fun s _ h => ⟨h.1, h.2.1, nofun⟩
  refine Spec.bind _ spec_recordOnce.attempt fun a => ?_
  match a with
  | .ok row => exact Spec.pure (stable_ended i _ true) fun _ _ h => h
  | .error .unavailable => exact hnone .unavailable
  | .error .integrity =>
      refine Spec.bind _ (spec_recordOnce.attempt.pre fun s _ h => ⟨h.1, h.2.2 rfl⟩) fun b => ?_
      cases b with
      | ok row => exact Spec.pure (stable_ended i _ true) fun _ _ h => h
      | error f => exact hnone f

theorem spec_recordWorkerExecution {x : Execution} {now : Int} :
    writersContract.Spec i () (Fresh i (.execution x now)) (recordWorkerExecution x now)
      (fun row => Ended i (.execution x now) row.isSome) fun _ _ => False := by
  refine Spec.bind _ (spec_session (e := .execution x now) Option.isSome
    (spec_lockedCycle (fun f => ?_) ?_ fun c => ?_)).attempt fun a => ?_
  · exact Spec.raise (stable_started i _) fun _ _ h => h
  · exact Spec.pure (stable_ready i _ false) fun s _ h => .inr ⟨h.1.pending, .inr ⟨rfl, h.2⟩⟩
  · refine Spec.call
      (fun a s => match a with
        | .ok worker => worker = c.worker? x.workerId ∧ Holding i (.execution x now) c s
        | .error _ => Started i (.execution x now) s)
      (stable_holding i _ c) (fun _ _ _ => trivial) ?_ ?_
    · intro s y a s' _ hs hx _
      rcases fails_eq hx with hx | ⟨rfl, rfl⟩
      · cases hx
        refine ⟨?_, hs⟩
        rw [hs.pending, hs.committed]
        rfl
      · exact hs.started
    · intro a
      cases a with
      | error f => exact Spec.raise (stable_started i _) fun _ _ h => h
      | ok worker =>
          rintro s hinv ⟨rfl, hs⟩
          refine (?_ : writersContract.Spec i () (Holding i (.execution x now) c) _ _ _) s hinv hs
          by_cases hsame : (c.worker? x.workerId).any x.unchanged = true
          · simp only [hsame, if_true]
            exact spec_replay (a := some c.message)
          · have hrun : (Request.execution x now).run (some c) =
                some ((x.change c.message (c.worker? x.workerId) now).apply c) :=
              congrArg some (if_neg hsame)
            simp only [hsame]
            exact Spec.bind _ (spec_store_held rfl hrun) fun row =>
              Spec.pure (stable_ready i _ true) fun _ _ h => .inl h
  · cases a with
    | ok row => exact Spec.pure (stable_ended i _ _) fun _ _ h => h
    | error f => exact Spec.pure (stable_ended i _ false) fun s _ h => ⟨h.1, h.2.1, nofun⟩

theorem spec_serve {k : Request} :
    writersContract.Spec i () (Fresh i k) (serve k) (fun _ => Free i) fun _ => Free i := by
  have hanswer : ∀ row : Option BroadcastMessage,
      writersContract.Spec i () (Ended i k row.isSome)
        (.call (.answered row) fun _ => .pure ()) (fun _ => Free i) fun _ => Free i := by
    intro row
    refine Spec.call (fun _ => Free i) (stable_ended i k _)
      (fun s _ hs => ⟨k, hs.2.1, hs.2.2⟩) ?_ fun _ => Spec.pure (stable_free i) fun _ _ h => h
    intro s x r s' _ hs hx _
    cases hx
    exact ⟨hs.1.holder, hs.1.inserting, hs.1.pending⟩
  cases k with
  | event r now =>
      exact Spec.bind _ (spec_recordEvent.mono (fun _ _ h => h) (fun _ _ _ h => h)
        fun _ _ _ h => h.elim) hanswer
  | execution x now =>
      exact Spec.bind _ (spec_recordWorkerExecution.mono (fun _ _ h => h) (fun _ _ _ h => h)
        fun _ _ _ h => h.elim) hanswer

end

/-! ## Every run -/

theorem writers_hold : writersContract.Holds where
  start := by
    intro i e s k₀ k p s' hinv hfree hstart hinv'
    have hs : own i s.trace = [] ∧ k = () ∧ p = serve e ∧
        s' = { s with trace := .started i e :: s.trace } := by
      simp only [writers] at hstart
      split at hstart
      · cases hstart
      · next hnew =>
          cases hstart
          exact ⟨Shape.started_of (by simpa using hnew), rfl, rfl, rfl⟩
    obtain ⟨hown, rfl, rfl, rfl⟩ := hs
    refine spec_serve _ hinv' ⟨⟨hfree.holder, hfree.inserting, hfree.pending⟩, ?_⟩
    show own i (.started i e :: s.trace) = [.started i e]
    rw [own_cons_self (i := i) (e := .started i e) rfl, hown]
  crash := by
    intro i k s s' _ h
    cases h
    exact free_release i s
  stable i _ := stable_free i

theorem good_idle : writersContract.Good idle := by
  have hfree : ∀ i, Free i Table.empty := fun i => ⟨nofun, nofun, rfl⟩
  have hinv : Inv Table.empty :=
    ⟨⟨[], rfl, rfl⟩, nofun, nofun, nofun, rfl, fun _ => .nil⟩
  refine ⟨hinv, fun i => ?_⟩
  exact fun s hs => (stable_free i).drifts hs (hfree i)

theorem runs_inv {p : World} (h : writers.Runs idle p) : Inv p.shared :=
  (writers_hold.refines good_idle h).1.1

theorem mem_own {i : Nat} {e : Entry} {t : List Entry} :
    e ∈ own i t ↔ e ∈ t ∧ e.writer = i := by
  rw [own, List.mem_filter, beq_iff_eq]

/-- A writer that was answered with a row, and recognised no replay, left its entry. -/
theorem Shape.appends {i : Nat} {l : List Entry} {row : BroadcastMessage} (h : Shape i l)
    (hans : .answered i (some row) ∈ l) (hnot : .replayed i ∉ l) :
    ∃ e, .started i e ∈ l ∧ appends l = [e.payload] := by
  cases h with
  | nil => cases hans
  | running ho => cases ho <;> simp at hans
  | @answered e l row' ho hrow =>
      cases ho with
      | started =>
          have heq : row' = some row := by simpa [eq_comm] using hans
          exact absurd rfl (hrow (by rw [heq]; rfl))
      | replayed => simp at hnot
      | appended => exact ⟨e, by simp, rfl⟩

/-- The committed rows are those of whole calls one after the other, one for each
entry of the write log; so their views agree. A writer that was answered with a
row, and recognised no replay, appended once. -/
theorem writers_serialise {p : World} (h : writers.Runs idle p) :
    (∃ es, p.shared.committed = history es ∧
      p.shared.logs.map LogEntry.payload = es.map Request.payload) ∧
    (∀ c, p.shared.committed = some c → c.Agrees) ∧
    p.shared.logs.map LogEntry.payload = appends p.shared.trace ∧
    ∀ i row, .answered i (some row) ∈ p.shared.trace → .replayed i ∉ p.shared.trace →
      ∃ e, .started i e ∈ p.shared.trace ∧ appends (own i p.shared.trace) = [e.payload] := by
  have hinv := runs_inv h
  obtain ⟨es, hes, happ⟩ := hinv.serial
  refine ⟨⟨es, hes, hinv.logs.trans happ⟩, fun c hc => ?_, hinv.logs, fun i row hans hnot => ?_⟩
  · exact agrees_history (hes.symm.trans hc)
  · obtain ⟨e, he, hone⟩ := (hinv.shape i).appends (mem_own.2 ⟨hans, rfl⟩)
      fun hmem => hnot (mem_own.1 hmem).1
    exact ⟨e, (mem_own.1 he).1, hone⟩

namespace Sample

/-- Two events of a new cycle find no row; the second one loses the insert. -/
def race : List (Machine.Move Nat Outcome Request) :=
  [.start 0 (.event (Broadcast.Sample.record .long "1") 0),
    .start 1 (.event (Broadcast.Sample.record .tp1 "2") 0), .call 0 .ok, .call 1 .ok,
      .call 0 .ok, .call 0 .ok, .call 0 .ok, .call 0 .ok, .call 0 .ok,
    .call 1 .ok, .call 1 .ok, .call 1 .ok, .call 1 .ok, .call 1 .ok, .call 1 .ok, .call 1 .ok]

end Sample

theorem writers_serialise_race : ∃ p c, writers.Runs idle p ∧ p.shared.committed = some c ∧
    c.message.lastSeq = 2 ∧ c.Agrees := by
  have h : (writers.replay Sample.race idle).any (fun p =>
      p.shared.committed.any fun c => c.message.lastSeq == 2) = true := by decide +kernel
  rw [Option.any_eq_true] at h
  obtain ⟨p, hp, hc⟩ := h
  rw [Option.any_eq_true] at hc
  obtain ⟨c, hc, hseq⟩ := hc
  have hrun := Machine.runs_of_replay hp
  exact ⟨p, c, hrun, hc, eq_of_beq hseq, (writers_serialise hrun).2.1 c hc⟩

end TradingBroker.Broadcast.Writers
