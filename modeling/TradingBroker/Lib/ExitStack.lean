import Mathlib.Data.List.Nodup

/-!
# A stack of what is to be stopped

Services are started one after the other, and each one's `stop` is put on a stack as soon as it
has started. Whatever ends the block, a start that fails, the body or its exception, the stack is
taken down from the top, and a `stop` that fails does not keep the rest from being called: the
last exception is what comes out.

Each service has a part of the state to itself. So what a block leaves of a part is what its
service makes of it on its own, by starting and stopping, and the rest may be forgotten. The
services that are up are at every time the first few of the order: one that comes later in it may
rely on those before it.
-/

namespace TradingBroker.Lib.ExitStack

/-- A call, on its service's part of the state. -/
abbrev Act (τ ε : Type) := τ → Except ε Unit × τ

structure Service (τ ε : Type) where
  start : Act τ ε
  stop : Act τ ε

inductive Event (ι : Type) where
  | started (i : ι)
  | failed (i : ι)
  | body
  | stopped (i : ι)
  deriving DecidableEq

/-- The parts of the state, and what has happened. -/
structure State (ι τ : Type) where
  parts : ι → τ
  events : List (Event ι)

/-- What goes on while all is up, in each part, and the exception it ends with. -/
structure Body (ι τ ε : Type) where
  run : ι → τ → τ
  raises : Option ε

variable {ι τ ε : Type} [DecidableEq ι]

def State.record (s : State ι τ) (i : ι) (part : τ) (e : Event ι) : State ι τ :=
  ⟨Function.update s.parts i part, s.events ++ [e]⟩

section
variable (svc : ι → Service τ ε)

/-- The stack is taken down, the service started last at its head. -/
def unwind : List ι → Option ε → State ι τ → Option ε × State ι τ
  | [], pending, s => (pending, s)
  | i :: stack, pending, s =>
      unwind stack
        (match ((svc i).stop (s.parts i)).1 with
          | .ok _ => pending
          | .error e => some e)
        (s.record i ((svc i).stop (s.parts i)).2 (.stopped i))

/-- The services still to be started, and the stack. -/
def enter (body : Body ι τ ε) : List ι → List ι → State ι τ → Option ε × State ι τ
  | [], stack, s =>
      unwind svc stack body.raises
        ⟨fun i => body.run i (s.parts i), s.events ++ [.body]⟩
  | i :: services, stack, s =>
      match ((svc i).start (s.parts i)).1 with
      | .ok _ =>
          enter body services (i :: stack)
            (s.record i ((svc i).start (s.parts i)).2 (.started i))
      | .error e =>
          unwind svc stack (some e)
            (s.record i ((svc i).start (s.parts i)).2 (.failed i))

def block (body : Body ι τ ε) (order : List ι) (parts : ι → τ) : Option ε × State ι τ :=
  enter svc body order [] ⟨parts, []⟩

end

/-! ## Who is up -/

def Event.apply (up : List ι) : Event ι → List ι
  | .started i => up ++ [i]
  | .stopped i => up.erase i
  | _ => up

/-- The services that are up once this has happened, in the order they were started. -/
def up (events : List (Event ι)) : List ι := events.foldl Event.apply []

theorem up_concat (events : List (Event ι)) (e : Event ι) :
    up (events ++ [e]) = e.apply (up events) := List.foldl_append

/-- At every time so far, the services that were up were the first few of the order. -/
def Nested (order : List ι) (events : List (Event ι)) : Prop :=
  ∀ es, es <+: events → up es <+: order

theorem Nested.nil (order : List ι) : Nested order [] := by
  intro es hes
  rw [List.prefix_nil.1 hes]
  exact List.nil_prefix

theorem Nested.concat {order : List ι} {events : List (Event ι)} {e : Event ι}
    (h : Nested order events) (he : e.apply (up events) <+: order) :
    Nested order (events ++ [e]) := by
  intro es hes
  rcases List.prefix_concat_iff.1 hes with rfl | hes
  · rw [up_concat]
    exact he
  · exact h es hes

section
variable {svc : ι → Service τ ε} {body : Body ι τ ε} {order stack services : List ι}
  {s : State ι τ} {pending : Option ε}

theorem nested_unwind (hnodup : stack.Nodup) (hup : up s.events = stack.reverse)
    (horder : stack.reverse <+: order) (h : Nested order s.events) :
    Nested order (unwind svc stack pending s).2.events := by
  induction stack generalizing s pending with
  | nil => exact h
  | cons i stack ih =>
      obtain ⟨hi, hnodup⟩ := List.nodup_cons.1 hnodup
      rw [List.reverse_cons] at hup horder
      have hrest : stack.reverse <+: order := (List.prefix_append _ _).trans horder
      -- what was started last is stopped first
      have hstop : Event.apply (up s.events) (.stopped i) = stack.reverse := by
        rw [hup]
        show (stack.reverse ++ [i]).erase i = stack.reverse
        rw [List.erase_append_right _ (fun hmem => hi (List.mem_reverse.1 hmem)),
          List.erase_cons_head, List.append_nil]
      refine ih hnodup ?_ hrest (h.concat ?_)
      · exact (up_concat _ _).trans hstop
      · rw [hstop]
        exact hrest

theorem nested_enter (hnodup : (stack.reverse ++ services).Nodup)
    (hup : up s.events = stack.reverse) (horder : order = stack.reverse ++ services)
    (h : Nested order s.events) : Nested order (enter svc body services stack s).2.events := by
  induction services generalizing s stack with
  | nil =>
      have hstack : stack.reverse <+: order := ⟨[], horder.symm⟩
      refine nested_unwind (List.nodup_reverse.1 (List.nodup_append.1 hnodup).1) ?_ hstack
        (h.concat ?_)
      · exact (up_concat _ _).trans hup
      · show up s.events <+: order
        rw [hup]
        exact hstack
  | cons i services ih =>
      have hstack : stack.reverse <+: order := ⟨i :: services, horder.symm⟩
      have hnext : order = (i :: stack).reverse ++ services := by
        rw [horder, List.reverse_cons, List.append_assoc, List.singleton_append]
      rw [enter]
      split
      · have hstart : Event.apply (up s.events) (.started i) = (i :: stack).reverse := by
          rw [hup, List.reverse_cons]
          rfl
        refine ih (hnext ▸ horder ▸ hnodup) ?_ hnext (h.concat ?_)
        · exact (up_concat _ _).trans hstart
        · rw [hstart]
          exact ⟨services, hnext.symm⟩
      · refine nested_unwind (List.nodup_reverse.1 (List.nodup_append.1 hnodup).1) ?_ hstack
          (h.concat ?_)
        · exact (up_concat _ _).trans hup
        · show up s.events <+: order
          rw [hup]
          exact hstack

/-- The services that are up are the first of the order, all through the block. -/
theorem nested_block (hnodup : order.Nodup) (parts : ι → τ) :
    Nested order (block svc body order parts).2.events :=
  nested_enter hnodup rfl rfl (Nested.nil order)

/-- A service that is up finds up what it needs, if that was to be started before it. -/
theorem needed_up {needs : ι → ι → Prop} (hneeds : order.Pairwise fun i j => ¬ needs i j)
    {events : List (Event ι)} (h : Nested order events) {es : List (Event ι)}
    (hes : es <+: events) {i j : ι} (hi : i ∈ up es) (hj : j ∈ order) (hij : needs i j) :
    j ∈ up es := by
  obtain ⟨rest, hrest⟩ := h es hes
  rw [← hrest] at hj hneeds
  rcases List.mem_append.1 hj with hj | hj
  · exact hj
  · exact absurd hij ((List.pairwise_append.1 hneeds).2.2 i hi j hj)

end

/-! ## What is left -/

/-- The service starts, on its part as it is. -/
def Starts (svc : ι → Service τ ε) (parts : ι → τ) (i : ι) : Prop :=
  ((svc i).start (parts i)).1.isOk = true

instance (svc : ι → Service τ ε) (parts : ι → τ) (i : ι) : Decidable (Starts svc parts i) :=
  inferInstanceAs (Decidable (_ = true))

/-- All services started: each part is left as its service's `stop` leaves it. -/
structure Completes (svc : ι → Service τ ε) (body : Body ι τ ε) (order : List ι)
    (parts : ι → τ) (out : State ι τ) : Prop where
  starts : ∀ i ∈ order, Starts svc parts i
  events : out.events = order.map .started ++ (.body :: order.reverse.map .stopped)
  part : ∀ i ∈ order, out.parts i =
    ((svc i).stop (body.run i ((svc i).start (parts i)).2)).2

/-- One did not: those before it are stopped, and those behind it never touched. -/
structure Fails (svc : ι → Service τ ε) (parts : ι → τ) (before : List ι) (i : ι)
    (behind : List ι) (out : State ι τ) : Prop where
  starts : ∀ j ∈ before, Starts svc parts j
  fails : ¬ Starts svc parts i
  events : out.events = before.map .started ++ (.failed i :: before.reverse.map .stopped)
  stopped : ∀ j ∈ before, out.parts j = ((svc j).stop ((svc j).start (parts j)).2).2
  part : out.parts i = ((svc i).start (parts i)).2
  untouched : ∀ j ∈ behind, out.parts j = parts j

section
variable {svc : ι → Service τ ε} {body : Body ι τ ε} {order stack services : List ι}
  {s : State ι τ} {pending : Option ε} {i j : ι}

theorem record_self (s : State ι τ) (i : ι) (part : τ) (e : Event ι) :
    (s.record i part e).parts i = part := by
  simp only [State.record, Function.update_self]

theorem record_other (s : State ι τ) (part : τ) (e : Event ι) (h : j ≠ i) :
    (s.record i part e).parts j = s.parts j := by
  simp only [State.record, Function.update_of_ne h]

theorem events_unwind :
    (unwind svc stack pending s).2.events = s.events ++ stack.map .stopped := by
  induction stack generalizing s pending with
  | nil => exact (List.append_nil _).symm
  | cons i stack ih =>
      rw [unwind, ih, State.record, List.append_assoc]
      rfl

/-- A part whose service is not on the stack is left alone. -/
theorem part_unwind_other (h : j ∉ stack) :
    (unwind svc stack pending s).2.parts j = s.parts j := by
  induction stack generalizing s pending with
  | nil => rfl
  | cons i stack ih =>
      obtain ⟨hne, hrest⟩ := not_or.1 (fun hor => h (List.mem_cons.2 hor))
      rw [unwind, ih hrest, record_other s _ _ hne]

/-- The others are stopped once, as they were. -/
theorem part_unwind (hnodup : stack.Nodup) (h : j ∈ stack) :
    (unwind svc stack pending s).2.parts j = ((svc j).stop (s.parts j)).2 := by
  induction stack generalizing s pending with
  | nil => cases h
  | cons i stack ih =>
      obtain ⟨hi, hnodup⟩ := List.nodup_cons.1 hnodup
      rw [unwind]
      rcases List.mem_cons.1 h with rfl | hmem
      · rw [part_unwind_other hi, record_self]
      · have hne : j ≠ i := fun heq => hi (heq ▸ hmem)
        rw [ih hnodup hmem, record_other s _ _ hne]

/-- All of these started. -/
def started (svc : ι → Service τ ε) (services : List ι) (s : State ι τ) : State ι τ where
  parts j := if j ∈ services then ((svc j).start (s.parts j)).2 else s.parts j
  events := s.events ++ services.map .started

theorem started_cons (hi : i ∉ services) :
    started svc services (s.record i ((svc i).start (s.parts i)).2 (.started i)) =
      started svc (i :: services) s := by
  simp only [started, State.mk.injEq]
  refine ⟨funext fun j => ?_, ?_⟩
  · by_cases hj : j = i
    · subst hj
      rw [if_neg hi, if_pos List.mem_cons_self, record_self]
    · have hmem : j ∈ i :: services ↔ j ∈ services := by
        rw [List.mem_cons, or_iff_right hj]
      simp only [record_other s _ _ hj, hmem]
  · rw [State.record, List.map_cons, List.append_assoc]
    rfl

theorem starts_record (part : τ) (e : Event ι) (h : j ≠ i) :
    Starts svc (s.record i part e).parts j ↔ Starts svc s.parts j := by
  rw [Starts, Starts, record_other s part e h]

theorem enter_started (hi : Starts svc s.parts i) :
    enter svc body (i :: services) stack s =
      enter svc body services (i :: stack)
        (s.record i ((svc i).start (s.parts i)).2 (.started i)) := by
  rw [enter]
  split
  · rfl
  · next e he =>
      rw [Starts, he] at hi
      cases hi

/-- The first of the services to be started all do. -/
theorem enter_append {before : List ι} (hnodup : before.Nodup)
    (hstarts : ∀ j ∈ before, Starts svc s.parts j) :
    enter svc body (before ++ services) stack s =
      enter svc body services (before.reverse ++ stack) (started svc before s) := by
  induction before generalizing s stack with
  | nil =>
      have hnone : started svc [] s = s := by
        simp only [started, List.not_mem_nil, if_false, List.map_nil, List.append_nil]
      rw [hnone]
      rfl
  | cons i before ih =>
      obtain ⟨hi, hnodup⟩ := List.nodup_cons.1 hnodup
      have hrest : ∀ j ∈ before,
          Starts svc (s.record i ((svc i).start (s.parts i)).2 (.started i)).parts j := by
        intro j hj
        have hne : j ≠ i := fun heq => hi (heq ▸ hj)
        exact (starts_record _ _ hne).2 (hstarts j (List.mem_cons_of_mem _ hj))
      rw [List.cons_append, enter_started (hstarts i List.mem_cons_self), ih hnodup hrest,
        started_cons hi, List.reverse_cons, List.append_assoc, List.singleton_append]

theorem part_started (h : j ∈ services) :
    (started svc services s).parts j = ((svc j).start (s.parts j)).2 := if_pos h

theorem part_started_other (h : j ∉ services) :
    (started svc services s).parts j = s.parts j := if_neg h

/-- With every service started, the body runs, and all are stopped. -/
theorem block_started {parts : ι → τ} (hnodup : order.Nodup)
    (hstarts : ∀ i ∈ order, Starts svc parts i) :
    block svc body order parts = unwind svc order.reverse body.raises
      ⟨fun i => body.run i ((started svc order ⟨parts, []⟩).parts i),
        (started svc order ⟨parts, []⟩).events ++ [.body]⟩ := by
  have happend : enter svc body (order ++ []) [] ⟨parts, []⟩ =
      enter svc body [] (order.reverse ++ []) (started svc order ⟨parts, []⟩) :=
    enter_append hnodup hstarts
  rw [List.append_nil, List.append_nil, enter] at happend
  exact happend

def raised : Except ε Unit → Option ε
  | .ok _ => none
  | .error e => some e

/-- With one that fails, those before it are stopped. -/
theorem block_failed {parts : ι → τ} {before behind : List ι}
    (hnodup : (before ++ i :: behind).Nodup) (hstarts : ∀ j ∈ before, Starts svc parts j)
    (hfails : ¬ Starts svc parts i) :
    block svc body (before ++ i :: behind) parts =
      unwind svc before.reverse
        (raised ((svc i).start (parts i)).1)
        ((started svc before ⟨parts, []⟩).record i ((svc i).start (parts i)).2 (.failed i)) := by
  obtain ⟨hbefore, hrest, hapart⟩ := List.nodup_append.1 hnodup
  have hi : i ∉ before := fun hmem => hapart i hmem i List.mem_cons_self rfl
  have hpart : (started svc before ⟨parts, []⟩).parts i = parts i := part_started_other hi
  cases hstart : ((svc i).start (parts i)).1 with
  | ok u =>
      rw [Starts, hstart] at hfails
      exact absurd rfl hfails
  | error e =>
      rw [block, enter_append hbefore hstarts, List.append_nil, enter, hpart, hstart]
      rfl

theorem completes_block {parts : ι → τ} (hnodup : order.Nodup)
    (hstarts : ∀ i ∈ order, Starts svc parts i) :
    Completes svc body order parts (block svc body order parts).2 := by
  refine ⟨hstarts, ?_, fun i hi => ?_⟩
  · rw [block_started hnodup hstarts, events_unwind, started, List.nil_append,
      List.append_assoc]
    rfl
  · rw [block_started hnodup hstarts,
      part_unwind (List.nodup_reverse.2 hnodup) (List.mem_reverse.2 hi)]
    simp only [part_started hi]

theorem fails_block {parts : ι → τ} {before behind : List ι}
    (hnodup : (before ++ i :: behind).Nodup) (hstarts : ∀ j ∈ before, Starts svc parts j)
    (hfails : ¬ Starts svc parts i) :
    Fails svc parts before i behind (block svc body (before ++ i :: behind) parts).2 := by
  obtain ⟨hbefore, hrest, hapart⟩ := List.nodup_append.1 hnodup
  have hi : i ∉ before := fun hmem => hapart i hmem i List.mem_cons_self rfl
  rw [block_failed hnodup hstarts hfails]
  refine ⟨hstarts, hfails, ?_, fun j hj => ?_, ?_, fun j hj => ?_⟩
  · rw [events_unwind, State.record, started, List.nil_append, List.append_assoc]
    rfl
  · have hne : j ≠ i := fun heq => hi (heq ▸ hj)
    rw [part_unwind (List.nodup_reverse.2 hbefore) (List.mem_reverse.2 hj),
      record_other _ _ _ hne, part_started hj]
  · rw [part_unwind_other fun hmem => hi (List.mem_reverse.1 hmem), record_self]
  · have hne : j ≠ i := fun heq => (List.nodup_cons.1 hrest).1 (heq ▸ hj)
    have hout : j ∉ before := fun hmem => hapart j hmem j (List.mem_cons_of_mem _ hj) rfl
    rw [part_unwind_other fun hmem => hout (List.mem_reverse.1 hmem),
      record_other _ _ _ hne, part_started_other hout]

omit [DecidableEq ι] in
/-- The first of the order that does not start. -/
theorem first_failing {parts : ι → τ} (h : ¬ ∀ i ∈ order, Starts svc parts i) :
    ∃ before i behind, order = before ++ i :: behind ∧
      (∀ j ∈ before, Starts svc parts j) ∧ ¬ Starts svc parts i := by
  cases hfind : order.find? fun i => ! decide (Starts svc parts i) with
  | none =>
      refine absurd (fun i hi => ?_) h
      have hi := List.find?_eq_none.1 hfind i hi
      simpa only [Bool.not_eq_true', Bool.not_eq_false, decide_eq_true_eq] using hi
  | some i =>
      obtain ⟨hi, before, behind, rfl, hbefore⟩ := List.find?_eq_some_iff_append.1 hfind
      refine ⟨before, i, behind, rfl, fun j hj => ?_, ?_⟩
      · simpa only [Bool.not_not, decide_eq_true_eq] using hbefore j hj
      · simpa only [Bool.not_eq_true', decide_eq_false_iff_not] using hi

/-- One or the other. -/
theorem block_cases (svc : ι → Service τ ε) (body : Body ι τ ε) {order : List ι}
    (hnodup : order.Nodup) (parts : ι → τ) :
    Completes svc body order parts (block svc body order parts).2 ∨
      ∃ before i behind, order = before ++ i :: behind ∧
        Fails svc parts before i behind (block svc body order parts).2 := by
  by_cases hall : ∀ i ∈ order, Starts svc parts i
  · exact .inl (completes_block hnodup hall)
  · obtain ⟨before, i, behind, rfl, hbefore, hi⟩ := first_failing hall
    exact .inr ⟨before, i, behind, rfl, fails_block hnodup hbefore hi⟩

end

/-! ## One service at a time -/

/-- All that are started before the service do start. -/
def Reached (svc : ι → Service τ ε) (parts : ι → τ) (order : List ι) (i : ι) : Prop :=
  ∀ j ∈ order.takeWhile (· ≠ i), Starts svc parts j

instance (svc : ι → Service τ ε) (parts : ι → τ) (order : List ι) (i : ι) :
    Decidable (Reached svc parts order i) :=
  inferInstanceAs (Decidable (∀ j ∈ order.takeWhile (· ≠ i), Starts svc parts j))

/-- What a block leaves of a service's part. -/
def leaves (svc : ι → Service τ ε) (body : Body ι τ ε) (order : List ι) (parts : ι → τ)
    (i : ι) : τ :=
  if Reached svc parts order i then
    if Starts svc parts i then
      ((svc i).stop (if ∀ j ∈ order, Starts svc parts j then
        body.run i ((svc i).start (parts i)).2 else ((svc i).start (parts i)).2)).2
    else ((svc i).start (parts i)).2
  else parts i

section
variable {svc : ι → Service τ ε} {body : Body ι τ ε} {order stack : List ι} {s : State ι τ}
  {pending : Option ε} {i j : ι}

theorem takeWhile_ne_append {before behind : List ι} (h : i ∉ before) :
    (before ++ i :: behind).takeWhile (· ≠ i) = before := by
  rw [List.takeWhile_append_of_pos]
  · simp
  · intro j hj
    have hne : j ≠ i := fun heq => h (heq ▸ hj)
    simpa using hne

theorem reached_of_mem {parts : ι → τ} {before behind : List ι} (h : i ∉ before)
    (hstarts : ∀ j ∈ before, Starts svc parts j) :
    Reached svc parts (before ++ i :: behind) i := by
  rw [Reached, takeWhile_ne_append h]
  exact hstarts

/-- The block has nothing to do with other parts than its services'. -/
theorem part_block_other {parts : ι → τ} (hnodup : order.Nodup) (hi : i ∉ order)
    (hbody : ∀ p, body.run i p = p) :
    (block svc body order parts).2.parts i = parts i := by
  by_cases hall : ∀ j ∈ order, Starts svc parts j
  · rw [block_started hnodup hall, part_unwind_other fun h => hi (List.mem_reverse.1 h)]
    show body.run i _ = parts i
    rw [hbody, part_started_other hi]
  · obtain ⟨before, k, behind, rfl, hbefore, hk⟩ := first_failing hall
    obtain ⟨hin, hne⟩ := not_or.1 fun h => hi (List.mem_append.2 h)
    have hne : i ≠ k := by
      intro heq
      exact hne (heq ▸ List.mem_cons_self)
    rw [block_failed hnodup hbefore hk, part_unwind_other fun h => hin (List.mem_reverse.1 h),
      record_other _ _ _ hne, part_started_other hin]

/-- Each part is left as `leaves` says. -/
theorem part_block {parts : ι → τ} (hnodup : order.Nodup) (hi : i ∈ order) :
    (block svc body order parts).2.parts i = leaves svc body order parts i := by
  rcases block_cases svc body hnodup parts with h | ⟨before, k, behind, rfl, h⟩
  · have hreached : Reached svc parts order i := fun j hj =>
      h.starts j ((List.takeWhile_prefix _).subset hj)
    rw [h.part i hi, leaves, if_pos hreached, if_pos (h.starts i hi), if_pos h.starts]
  · have hsome : ¬ ∀ j ∈ before ++ k :: behind, Starts svc parts j := fun hall =>
      h.fails (hall k (List.mem_append_right _ List.mem_cons_self))
    obtain ⟨_, hrest, hapart⟩ := List.nodup_append.1 hnodup
    have hk : k ∉ before := fun hmem => hapart k hmem k List.mem_cons_self rfl
    rcases List.mem_append.1 hi with hmem | hmem
    · obtain ⟨front, back, rfl⟩ := List.append_of_mem hmem
      have hfront : i ∉ front := by
        intro hin
        have hnodup' := (List.nodup_append.1 hnodup).1
        exact (List.nodup_append.1 hnodup').2.2 i hin i List.mem_cons_self rfl
      have hreached : Reached svc parts ((front ++ i :: back) ++ k :: behind) i := by
        rw [List.append_assoc, List.cons_append]
        exact reached_of_mem hfront fun j hj => h.starts j (List.mem_append_left _ hj)
      rw [h.stopped i hmem, leaves, if_pos hreached, if_pos (h.starts i hmem), if_neg hsome]
    · rcases List.mem_cons.1 hmem with rfl | hmem
      · rw [h.part, leaves, if_pos (reached_of_mem hk h.starts), if_neg h.fails]
      · have hout : i ∉ before := fun hin =>
          hapart i hin i (List.mem_cons_of_mem _ hmem) rfl
        have hne : k ≠ i := fun heq => (List.nodup_cons.1 hrest).1 (heq ▸ hmem)
        have hnot : ¬ Reached svc parts (before ++ k :: behind) i := by
          intro hall
          refine h.fails (hall k ?_)
          rw [List.takeWhile_append_of_pos]
          · refine List.mem_append_right _ ?_
            rw [List.takeWhile_cons_of_pos (by simpa using hne)]
            exact List.mem_cons_self
          · intro j hj
            have hne : j ≠ i := fun heq => hout (heq ▸ hj)
            simpa using hne
        rw [h.untouched i hmem, leaves, if_neg hnot]

end

/-! ## What comes out -/

/-- The service stops, on its part as it is. -/
def Stops (svc : ι → Service τ ε) (parts : ι → τ) (i : ι) : Prop :=
  ((svc i).stop (parts i)).1.isOk = true

section
variable {svc : ι → Service τ ε} {body : Body ι τ ε} {order stack : List ι} {s : State ι τ}
  {pending : Option ε} {i j : ι}

/-- An exception on its way out is replaced by a `stop`'s, and never lost. -/
theorem unwind_none (hnodup : stack.Nodup) :
    (unwind svc stack pending s).1 = none ↔
      pending = none ∧ ∀ j ∈ stack, Stops svc s.parts j := by
  induction stack generalizing s pending with
  | nil => simp [unwind]
  | cons i stack ih =>
      obtain ⟨hi, hnodup⟩ := List.nodup_cons.1 hnodup
      have hrest : ∀ part e, (∀ j ∈ stack, Stops svc (s.record i part e).parts j) ↔
          ∀ j ∈ stack, Stops svc s.parts j := by
        intro part e
        refine forall₂_congr fun j hj => ?_
        have hne : j ≠ i := fun heq => hi (heq ▸ hj)
        rw [Stops, Stops, record_other s part e hne]
      rw [unwind, ih hnodup, hrest, List.forall_mem_cons]
      cases hstop : ((svc i).stop (s.parts i)).1 with
      | ok u => simp [Stops, hstop, Except.isOk, Except.toBool]
      | error e => simp [Stops, hstop, Except.isOk, Except.toBool]

/-- Nothing is raised just when all started, the body ended well, and all stopped. -/
theorem block_none {parts : ι → τ} (hnodup : order.Nodup) :
    (block svc body order parts).1 = none ↔
      (∀ i ∈ order, Starts svc parts i) ∧ body.raises = none ∧
        ∀ i ∈ order, Stops svc (fun i => body.run i ((svc i).start (parts i)).2) i := by
  by_cases hall : ∀ i ∈ order, Starts svc parts i
  · rw [block_started hnodup hall, unwind_none (List.nodup_reverse.2 hnodup)]
    have hstops : (∀ j ∈ order.reverse, Stops svc
        (fun i => body.run i ((started svc order ⟨parts, []⟩).parts i)) j) ↔
        ∀ i ∈ order, Stops svc (fun i => body.run i ((svc i).start (parts i)).2) i := by
      simp only [List.mem_reverse]
      refine forall₂_congr fun j hj => ?_
      rw [Stops, Stops, part_started hj]
    rw [hstops, and_iff_right hall]
  · obtain ⟨before, k, behind, rfl, hbefore, hk⟩ := first_failing hall
    rw [block_failed hnodup hbefore hk]
    refine iff_of_false ?_ fun h => hall h.1
    cases hstart : ((svc k).start (parts k)).1 with
    | ok u => exact absurd (by rw [Starts, hstart]; rfl) hk
    | error e =>
        simp [raised, unwind_none (List.nodup_reverse.2 (List.nodup_append.1 hnodup).1)]

end

end TradingBroker.Lib.ExitStack
