import TradingBroker.Lib.Rows
import TradingBroker.Deferred.Conserved
import TradingBroker.Deferred.Clock

/-!
# How long the duplicate window covers a retry

The stream drops a retry only for a while after it stored the alert, and how late a retry
may come depends on the backlog: one loop shares its attempts and its intervals among all
envelopes. Two that both keep failing are enough. An alert whose very first message was
stored, its acknowledgement late, is stored again two minutes after.

What keeps an alert from being stored twice is that an attempt begins only while the
stream would still drop its message when the attempt is over (`prompt`). In a run of such
steps an id that is in the stream is offered again only inside the window; an id that is
not is held by one party alone, an enqueue or the backlog, and landing puts it there once.
-/

namespace TradingBroker.Deferred

open TradingBroker.Lib

/-! ## What the enqueuer still owes -/

namespace Enqueuer

variable {s t : Enqueuer} {a : Action} {i item : DeferredEnvelope}

/-- What it may yet publish. -/
def live (s : Enqueuer) : List DeferredEnvelope :=
  s.queue ++ s.inFlight.toList ++ s.stopping.rest

/-- What it would begin to publish. -/
def next (s : Enqueuer) : Action → Option DeferredEnvelope
  | .take => s.queue.head?
  | .tryFlush => s.stopping.rest.head?
  | _ => none

/-- Nothing runs while `stop` drains. -/
def Alone (s : Enqueuer) : Prop :=
  ∀ rest trying, s.stopping = .draining rest trying → s.task = none

theorem mem_live : i ∈ s.live ↔ i ∈ s.queue ∨ s.inFlight = some i ∨ i ∈ s.stopping.rest := by
  simp only [live, List.mem_append, Option.mem_toList, or_assoc]

/-- Only `submit` brings in an id. -/
theorem live_step (h : s.Inv) (hstep : Stepped s a t) (hi : i ∈ t.live) :
    (∃ j ∈ s.live, j.msgId = i.msgId) ∨
      ∃ strategy envelope, a = .submit strategy envelope i.msgId := by
  have hself (hi : i ∈ s.queue ∨ s.inFlight = some i ∨ i ∈ s.stopping.rest) :
      (∃ j ∈ s.live, j.msgId = i.msgId) ∨
        ∃ strategy envelope, a = .submit strategy envelope i.msgId :=
    .inl ⟨i, mem_live.2 hi, rfl⟩
  have hcleared (hi : i ∈ s.queue ∨ none = some i ∨ i ∈ s.stopping.rest) :
      (∃ j ∈ s.live, j.msgId = i.msgId) ∨
        ∃ strategy envelope, a = .submit strategy envelope i.msgId := by
    rcases hi with hi | hi | hi
    · exact hself (.inl hi)
    · cases hi
    · exact hself (.inr (.inr hi))
  rw [mem_live] at hi
  cases hstep with
  | refused => exact hself hi
  | @submitted _ _ _ item hfull hitem =>
    rcases hi with hi | hi | hi
    · rcases List.mem_append.1 hi with hi | hi
      · exact hself (.inl hi)
      · right
        rw [List.mem_singleton.1 hi, hitem]
        exact ⟨_, _, rfl⟩
    · exact hself (.inr (.inl hi))
    · exact hself (.inr (.inr hi))
  | running => exact hself hi
  | started => exact hself hi
  | @take item rest htask hqueue =>
    rcases hi with hi | hi | hi
    · exact hself (.inl (hqueue ▸ List.mem_cons_of_mem _ hi))
    · left
      refine ⟨item, mem_live.2 (.inl (hqueue ▸ List.mem_cons_self)), ?_⟩
      rw [← Option.some.inj hi]
    · exact hself (.inr (.inr hi))
  | published => exact hcleared hi
  | gaveUp => exact hcleared hi
  | failed => exact hself hi
  | dropped => exact hcleared hi
  | requeued htask =>
    rcases hi with hi | hi | hi
    · rcases List.mem_append.1 hi with hi | hi
      · exact hself (.inl hi)
      · exact hself (.inr (.inl (List.mem_singleton.1 hi ▸ (h.sleeping htask).1)))
    · cases hi
    · exact hself (.inr (.inr hi))
  | stop hidle =>
    rcases hi with hi | hi | hi
    · exact hself (.inl hi)
    · exact hself (.inr (.inl hi))
    · cases hi
  | cancelled => exact hself hi
  | collected =>
    simp only [collect, rest_drainNext, List.mem_append, Option.mem_toList] at hi
    rcases hi with hi | hi | hi | hi
    · cases hi
    · cases hi
    · exact hself (.inr (.inl hi))
    · exact hself (.inl hi)
  | tryFlush hstop =>
    rw [hstop] at hself
    exact hself hi
  | flushed hstop =>
    rw [hstop] at hself
    simp only [rest_drainNext] at hi
    rcases hi with hi | hi | hi
    · exact hself (.inl hi)
    · exact hself (.inr (.inl hi))
    · exact hself (.inr (.inr (List.mem_cons_of_mem _ hi)))
  | lost hstop =>
    rw [hstop] at hself
    simp only [rest_drainNext] at hi
    rcases hi with hi | hi | hi
    · exact hself (.inl hi)
    · exact hself (.inr (.inl hi))
    · exact hself (.inr (.inr (List.mem_cons_of_mem _ hi)))

theorem Alone.not_draining (h : s.Alone) {l : Loop} (htask : s.task = some l)
    (rest : List DeferredEnvelope) (trying : Bool) : s.stopping ≠ .draining rest trying := by
  intro hstop
  rw [h rest trying hstop] at htask
  cases htask

theorem alone_step (h : s.Alone) (hstep : Stepped s a t) : t.Alone := by
  intro rest trying hrest
  cases hstep with
  | started hidle =>
    rw [show s.stopping = _ from hrest] at hidle
    cases hidle
  | take htask => exact absurd hrest (h.not_draining htask rest trying)
  | published htask => exact absurd hrest (h.not_draining htask rest trying)
  | gaveUp htask => exact absurd hrest (h.not_draining htask rest trying)
  | failed htask => exact absurd hrest (h.not_draining htask rest trying)
  | dropped htask => exact absurd hrest (h.not_draining htask rest trying)
  | requeued htask => exact absurd hrest (h.not_draining htask rest trying)
  | stop => cases hrest
  | cancelled hstop =>
    rw [show s.stopping = _ from hrest] at hstop
    cases hstop
  | collected => rfl
  | tryFlush hstop => exact h _ _ hstop
  | flushed hstop => exact h _ _ hstop
  | lost hstop => exact h _ _ hstop
  | _ => exact h rest trying hrest

theorem attempted_cases (hi : s.attempted = some i) :
    s.task = some (.publishing i) ∨ ∃ rest, s.stopping = .draining (i :: rest) true := by
  rw [attempted] at hi
  split at hi
  · next htask => exact .inl (Option.some.inj hi ▸ htask)
  · next hstop _ => exact .inr ⟨_, Option.some.inj hi ▸ hstop⟩
  · cases hi

theorem attempted_live (h : s.Inv) (hi : s.attempted = some i) : i ∈ s.live := by
  rw [mem_live]
  rcases attempted_cases hi with htask | ⟨rest, hstop⟩
  · exact .inr (.inl (h.publishing htask).1)
  · rw [hstop]
    exact .inr (.inr List.mem_cons_self)

theorem attempted_publishing (htask : s.task = some (.publishing i)) : s.attempted = some i := by
  simp only [attempted, htask]

/-- The loop is through with an attempt when it is not publishing. -/
theorem Alone.not_attempted (hs : s.Alone) {l : Loop} (htask : s.task = some l)
    (hstop : t.stopping = s.stopping) (hover : ∀ i, t.task ≠ some (.publishing i)) :
    t.attempted ≠ some i := by
  intro hi
  rcases attempted_cases hi with h | ⟨rest, h⟩
  · exact hover i h
  · exact hs.not_draining htask _ _ (hstop ▸ h)

theorem drainNext_ne (l rest : List DeferredEnvelope) : drainNext l ≠ .draining rest true := by
  cases l <;> simp [drainNext]

/-- An attempt goes on, or `a` began it. -/
theorem attempted_step (hs : s.Alone) (hstep : Stepped s a t) (hi : t.attempted = some i) :
    (s.attempted = some i ∧ a ≠ .take ∧ a ≠ .tryFlush ∧ a ≠ .failed) ∨
      ∃ j, s.next a = some j ∧ j.msgId = i.msgId := by
  have hcases := attempted_cases hi
  cases hstep with
  | take htask hqueue =>
    right
    refine ⟨_, by rw [next, hqueue]; rfl, ?_⟩
    rcases hcases with h | ⟨rest, h⟩
    · cases h
      rfl
    · exact absurd h (hs.not_draining htask _ _)
  | published htask => exact absurd hi (hs.not_attempted htask rfl fun _ h => by cases h)
  | gaveUp htask => exact absurd hi (hs.not_attempted htask rfl fun _ h => by cases h)
  | failed htask => exact absurd hi (hs.not_attempted htask rfl fun _ h => by cases h)
  | dropped htask => exact absurd hi (hs.not_attempted htask rfl fun _ h => by cases h)
  | requeued htask => exact absurd hi (hs.not_attempted htask rfl fun _ h => by cases h)
  | started hidle =>
    rcases hcases with h | ⟨rest, h⟩
    · cases h
    · rw [show s.stopping = _ from h] at hidle
      cases hidle
  | stop =>
    rcases hcases with h | ⟨rest, h⟩
    · exact .inl ⟨attempted_publishing h, by simp⟩
    · cases h
  | cancelled hstop =>
    rcases hcases with h | ⟨rest, h⟩
    · cases h
    · rw [show s.stopping = _ from h] at hstop
      cases hstop
  | collected =>
    rcases hcases with h | ⟨rest, h⟩
    · cases h
    · exact absurd h (drainNext_ne _ _)
  | tryFlush hstop =>
    right
    refine ⟨_, by rw [next, hstop]; rfl, ?_⟩
    rcases hcases with h | ⟨rest, h⟩
    · cases (hs _ _ hstop).symm.trans h
    · cases h
      rfl
  | flushed hstop =>
    rcases hcases with h | ⟨rest, h⟩
    · cases (hs _ _ hstop).symm.trans h
    · exact absurd h (drainNext_ne _ _)
  | lost hstop =>
    rcases hcases with h | ⟨rest, h⟩
    · cases (hs _ _ hstop).symm.trans h
    · exact absurd h (drainNext_ne _ _)
  | _ => exact .inl ⟨hi, by simp⟩

end Enqueuer

/-! ## Attempts the window covers -/

namespace World

/-- An attempt begins only where the stream still drops its message when it is over, or
does not have it yet. The longest a publish can last is known when it begins, so this is
a condition on the moment of the step. -/
def prompt (w : World) : Event → Bool
  | .deferred a =>
      (w.enqueuer.next a).all fun item => w.stream.all fun x =>
        x.msgId != item.msgId || w.attemptDue a < x.storedAt + jetstreamDuplicateWindow
  | _ => true

/-- Every event of a run is prompt where it happens. -/
def promptly (uuid : Nat → MsgId) (w : World) : List Event → Bool
  | [] => true
  | e :: es => w.prompt e && (w.step uuid e).all fun v => v.promptly uuid es

/-- The invariant of a prompt run. An id is in one party's hands at most: an enqueue's,
while its message has not landed and the stream has not seen it, or the backlog's. An
attempt that is under way is over before the stream would take its message a second time
(`attempt`). -/
structure Inv (uuid : Nat → MsgId) (w : World) : Prop where
  enqueuer : w.enqueuer.Inv
  alone : w.enqueuer.Alone
  once : (w.stream.map (·.msgId)).Nodup
  stored : ∀ x ∈ w.stream, ∃ n < w.alerts, x.msgId = uuid n
  posted : ∀ p ∈ w.posts, ∃ n < w.alerts, p.msgId = uuid n
  owed : ∀ i ∈ w.enqueuer.live, ∃ n < w.alerts, i.msgId = uuid n
  single : (w.posts.map (·.msgId)).Nodup
  apart : ∀ i ∈ w.enqueuer.live, ∀ p ∈ w.posts, i.msgId ≠ p.msgId
  flying : ∀ p ∈ w.posts, p.landed = false → ∀ x ∈ w.stream, x.msgId ≠ p.msgId
  attempt : ∀ i, w.enqueuer.attempted = some i → w.now ≤ w.due ∧
    (w.landed = false → ∀ x ∈ w.stream, x.msgId = i.msgId →
      w.due < x.storedAt + jetstreamDuplicateWindow)

variable {w v : World} {uuid : Nat → MsgId} {m : MsgId} {x : Stored}

theorem offer_new (hold : ∀ x ∈ w.stream, x.msgId = m →
    x.storedAt + jetstreamDuplicateWindow ≤ w.now) : w.offer m = w.stream ++ [⟨m, w.now⟩] := by
  rw [offer, if_neg]
  intro h
  obtain ⟨x, hx, hmatch⟩ := List.any_eq_true.1 h
  rw [Bool.and_eq_true, beq_iff_eq, decide_eq_true_eq] at hmatch
  exact Nat.not_le.2 hmatch.2 (hold x hx hmatch.1)

theorem offer_known (hx : x ∈ w.stream) (hid : x.msgId = m)
    (hrecent : w.now < x.storedAt + jetstreamDuplicateWindow) : w.offer m = w.stream := by
  rw [offer, if_pos]
  refine List.any_eq_true.2 ⟨x, hx, ?_⟩
  rw [Bool.and_eq_true, beq_iff_eq, decide_eq_true_eq]
  exact ⟨hid, hrecent⟩

theorem mem_offer (hx : x ∈ w.offer m) : x ∈ w.stream ∨ x.msgId = m := by
  rw [offer] at hx
  split at hx
  · exact .inl hx
  · rcases List.mem_append.1 hx with hx | hx
    · exact .inl hx
    · exact .inr (by rw [List.mem_singleton.1 hx])

/-- Within the window an offer makes no second copy. -/
theorem offer_once (honce : (w.stream.map (·.msgId)).Nodup)
    (hrecent : ∀ x ∈ w.stream, x.msgId = m → w.now < x.storedAt + jetstreamDuplicateWindow) :
    ((w.offer m).map (·.msgId)).Nodup := by
  by_cases h : ∃ x ∈ w.stream, x.msgId = m
  · obtain ⟨x, hx, hid⟩ := h
    rw [offer_known hx hid (hrecent x hx hid)]
    exact honce
  · have hnew : ∀ x ∈ w.stream, x.msgId ≠ m := fun x hx hid => h ⟨x, hx, hid⟩
    rw [offer_new fun x hx hid => absurd hid (hnew x hx)]
    exact nodup_map_concat honce hnew

/-! ## A step -/

theorem Inv.passes (h : w.Inv uuid) {ms : Nat} (hidle : w.idleUntil (w.now + ms) = true) :
    { w with now := w.now + ms }.Inv uuid := by
  refine { h with attempt := fun i hi => ⟨?_, (h.attempt i hi).2⟩ }
  rw [idleUntil, Bool.and_eq_true] at hidle
  have hmatch := hidle.2
  rcases Enqueuer.attempted_cases hi with htask | ⟨rest, hstop⟩
  · have hstop : w.enqueuer.stopping = .awaiting ∨ w.enqueuer.stopping = .idle := by
      match hstop : w.enqueuer.stopping with
      | .awaiting => exact .inl rfl
      | .idle => exact .inr rfl
      | .draining rest trying => exact absurd hstop (h.alone.not_draining htask _ _)
    rcases hstop with hstop | hstop
    · rw [hstop] at hmatch
      cases hmatch
    · rw [hstop, htask] at hmatch
      exact of_decide_eq_true hmatch
  · rw [hstop] at hmatch
    exact of_decide_eq_true hmatch

theorem Inv.alert (h : w.Inv uuid) (huuid : Function.Injective uuid) (strategy : String)
    (envelope : Json) : (w.alert (uuid w.alerts) strategy envelope).Inv uuid := by
  have hnew {m : MsgId} (hm : ∃ n < w.alerts, m = uuid n) : m ≠ uuid w.alerts := by
    obtain ⟨n, hn, rfl⟩ := hm
    intro heq
    have := huuid heq
    omega
  have hmore {m : MsgId} (hm : ∃ n < w.alerts, m = uuid n) : ∃ n < w.alerts + 1, m = uuid n := by
    obtain ⟨n, hn, heq⟩ := hm
    exact ⟨n, by omega, heq⟩
  refine { h with
    stored := fun x hx => hmore (h.stored x hx), posted := ?_,
    owed := fun i hi => hmore (h.owed i hi), single := ?_, apart := ?_, flying := ?_ }
  · intro p hp
    rcases List.mem_append.1 hp with hp | hp
    · exact hmore (h.posted p hp)
    · rw [List.mem_singleton.1 hp]
      exact ⟨w.alerts, by show w.alerts < w.alerts + 1; omega, rfl⟩
  · exact nodup_map_concat h.single fun p hp => hnew (h.posted p hp)
  · intro i hi p hp
    rcases List.mem_append.1 hp with hp | hp
    · exact h.apart i hi p hp
    · rw [List.mem_singleton.1 hp]
      exact hnew (h.owed i hi)
  · intro p hp hlanded x hx
    rcases List.mem_append.1 hp with hp | hp
    · exact h.flying p hp hlanded x hx
    · rw [List.mem_singleton.1 hp]
      exact hnew (h.stored x hx)

theorem Inv.post_ne (h : w.Inv uuid) {p q : Post} {j k : Nat} (hj : w.posts[j]? = some p)
    (hk : w.posts[k]? = some q) (hne : j ≠ k) : p.msgId ≠ q.msgId := by
  intro heq
  have hlt : j < (w.posts.map (·.msgId)).length := by
    rw [List.length_map]
    exact (List.getElem?_eq_some_iff.1 hj).1
  refine hne ((List.getElem?_inj hlt h.single).1 ?_)
  rw [List.getElem?_map, List.getElem?_map, hj, hk]
  exact congrArg some heq

/-- The message of an enqueue is not in the stream yet. -/
theorem Inv.lands (h : w.Inv uuid) {k : Nat} {post : Post} (hk : w.posts[k]? = some post)
    (hlanded : post.landed = false) :
    { w with stream := w.offer post.msgId,
             posts := w.posts.set k { post with landed := true } }.Inv uuid := by
  have hpost := List.mem_of_getElem? hk
  have hnew := h.flying post hpost hlanded
  have hids : ∀ p ∈ w.posts.set k { post with landed := true },
      ∃ q ∈ w.posts, q.msgId = p.msgId := by
    intro p hp
    rcases List.mem_or_eq_of_mem_set hp with hp | rfl
    · exact ⟨p, hp, rfl⟩
    · exact ⟨post, hpost, rfl⟩
  refine { h with once := ?_, stored := ?_, posted := ?_, single := ?_, apart := ?_, flying := ?_,
                  attempt := ?_ }
  · exact offer_once h.once fun x hx hid => absurd hid (hnew x hx)
  · intro x hx
    rcases mem_offer hx with hx | hx
    · exact h.stored x hx
    · rw [hx]
      exact h.posted post hpost
  · intro p hp
    obtain ⟨q, hq, hid⟩ := hids p hp
    rw [← hid]
    exact h.posted q hq
  · rw [List.map_set]
    have hget : (w.posts.map (·.msgId))[k]? = some post.msgId := by
      rw [List.getElem?_map, hk]
      rfl
    obtain ⟨hlt, hget⟩ := List.getElem?_eq_some_iff.1 hget
    rw [← hget, List.set_getElem_self]
    exact h.single
  · intro i hi p hp
    obtain ⟨q, hq, hid⟩ := hids p hp
    rw [← hid]
    exact h.apart i hi q hq
  · intro p hp hflying x hx
    obtain ⟨j, hj⟩ := List.mem_iff_getElem?.1 hp
    have hne : j ≠ k := by
      rintro rfl
      rw [List.getElem?_set_self (List.getElem?_eq_some_iff.1 hk).1] at hj
      rw [← Option.some.inj hj] at hflying
      cases hflying
    rw [List.getElem?_set_ne hne.symm] at hj
    rcases mem_offer hx with hx | hx
    · exact h.flying p (List.mem_of_getElem? hj) hflying x hx
    · rw [hx]
      exact (h.post_ne hj hk hne).symm
  · intro i hi
    obtain ⟨hnow, hrecent⟩ := h.attempt i hi
    refine ⟨hnow, ?_⟩
    intro hwait x hx hid
    rcases mem_offer hx with hx | hx
    · exact hrecent hwait x hx hid
    · have hlive := Enqueuer.attempted_live h.enqueuer hi
      exact absurd (hid.symm.trans hx) (h.apart i hlive post hpost)

/-- Nothing changes but that an enqueue is over. -/
theorem Inv.eraseIdx (h : w.Inv uuid) (k : Nat) (accepted : List MsgId) :
    { w with posts := w.posts.eraseIdx k, accepted := accepted }.Inv uuid where
  enqueuer := h.enqueuer
  alone := h.alone
  once := h.once
  stored := h.stored
  posted p hp := h.posted p (List.mem_of_mem_eraseIdx hp)
  owed := h.owed
  single := h.single.sublist ((List.eraseIdx_sublist _ _).map _)
  apart i hi p hp := h.apart i hi p (List.mem_of_mem_eraseIdx hp)
  flying p hp := h.flying p (List.mem_of_mem_eraseIdx hp)
  attempt := h.attempt

/-- The backlog takes an id that nobody else holds. -/
theorem Inv.defer (h : w.Inv uuid) {post : Post} (hown : ∃ n < w.alerts, post.msgId = uuid n)
    (hapart : ∀ p ∈ w.posts, post.msgId ≠ p.msgId) : (w.defer post).Inv uuid := by
  have hstep : w.enqueuer.step (.submit post.strategy post.envelope post.msgId) =
    some (w.enqueuer.submit post.strategy post.envelope post.msgId).2 := rfl
  have hstepped := Enqueuer.step_cases hstep
  have hlive : ∀ i ∈ (w.enqueuer.submit post.strategy post.envelope post.msgId).2.live,
      (∃ j ∈ w.enqueuer.live, j.msgId = i.msgId) ∨ i.msgId = post.msgId := by
    intro i hi
    rcases Enqueuer.live_step h.enqueuer hstepped hi with hold | ⟨_, _, hsubmit⟩
    · exact .inl hold
    · right
      injection hsubmit with _ _ hid
      exact hid.symm
  refine { h with enqueuer := h.enqueuer.step hstep, alone := Enqueuer.alone_step h.alone hstepped,
                  owed := ?_, apart := ?_, attempt := ?_ }
  · intro i hi
    rcases hlive i hi with ⟨j, hj, hid⟩ | hid
    · rw [← hid]
      exact h.owed j hj
    · rw [hid]
      exact hown
  · intro i hi p hp
    rcases hlive i hi with ⟨j, hj, hid⟩ | hid
    · rw [← hid]
      exact h.apart j hj p hp
    · rw [hid]
      exact hapart p hp
  · intro i hi
    rcases Enqueuer.attempted_step h.alone hstepped hi with ⟨hi, -⟩ | ⟨j, hj, -⟩
    · exact h.attempt i hi
    · cases hj

theorem Inv.raised (h : w.Inv uuid) {k : Nat} {post : Post} (hk : w.posts[k]? = some post) :
    ({ w with posts := w.posts.eraseIdx k }.defer post).Inv uuid := by
  refine (h.eraseIdx k w.accepted).defer (h.posted post (List.mem_of_getElem? hk)) ?_
  intro p hp
  obtain ⟨j, hne, hj⟩ := List.mem_eraseIdx_iff_getElem?.1 hp
  exact h.post_ne hk hj hne.symm

/-- The message of an attempt is not in the stream, or the stream drops it. -/
theorem Inv.attemptLands (h : w.Inv uuid) {item : DeferredEnvelope}
    (hitem : w.enqueuer.attempted = some item) (hlanded : w.landed = false) :
    { w with stream := w.offer item.msgId, landed := true }.Inv uuid := by
  obtain ⟨hnow, hrecent⟩ := h.attempt item hitem
  have hlive := Enqueuer.attempted_live h.enqueuer hitem
  refine { h with once := ?_, stored := ?_, flying := ?_, attempt := ?_ }
  · refine offer_once h.once ?_
    intro x hx hid
    have := hrecent hlanded x hx hid
    omega
  · intro x hx
    rcases mem_offer hx with hx | hx
    · exact h.stored x hx
    · rw [hx]
      exact h.owed item hlive
  · intro p hp hflying x hx
    rcases mem_offer hx with hx | hx
    · exact h.flying p hp hflying x hx
    · rw [hx]
      exact h.apart item hlive p hp
  · intro i hi
    exact ⟨(h.attempt i hi).1, fun hwait => nomatch hwait⟩

theorem timed_kept (w : World) {a : Action} (s : Enqueuer)
    (ha : a ≠ .take ∧ a ≠ .tryFlush ∧ a ≠ .failed) :
    (w.timed a s).due = w.due ∧ (w.timed a s).landed = w.landed := by
  cases a with
  | take => exact absurd rfl ha.1
  | tryFlush => exact absurd rfl ha.2.1
  | failed => exact absurd rfl ha.2.2
  | _ => exact ⟨rfl, rfl⟩

/-- An attempt that may begin has some time. -/
theorem now_le_attemptDue {a : Action} {item : DeferredEnvelope} (hpermits : w.permits a = true)
    (hnext : w.enqueuer.next a = some item) : w.now ≤ w.attemptDue a := by
  cases a with
  | take =>
    show w.now ≤ w.now + ackTimeout
    omega
  | tryFlush =>
    have hbefore : w.now < w.deadline := of_decide_eq_true hpermits
    show w.now ≤ min (w.now + ackTimeout) w.deadline
    omega
  | _ => cases hnext

/-- What a step begins is under way after it, with all its time left. -/
theorem attempt_begun (h : w.Inv uuid) {a : Action} {s : Enqueuer} {item : DeferredEnvelope}
    (hnext : w.enqueuer.next a = some item) (hstep : w.enqueuer.step a = some s) :
    (∃ i, s.attempted = some i ∧ i.msgId = item.msgId) ∧ s.stopping ≠ .awaiting ∧
      (w.timed a s).due = w.attemptDue a ∧ (w.timed a s).landed = false := by
  have hstepped := Enqueuer.step_cases hstep
  cases hstepped with
  | take htask hqueue hstop =>
    rw [Enqueuer.next, hqueue] at hnext
    refine ⟨⟨_, Enqueuer.attempted_publishing rfl, ?_⟩, hstop, rfl, rfl⟩
    rw [← Option.some.inj hnext]
  | tryFlush hstop =>
    rw [Enqueuer.next, hstop] at hnext
    have htask := h.alone _ _ hstop
    refine ⟨⟨item, ?_, rfl⟩, by simp, rfl, rfl⟩
    rw [← Option.some.inj hnext]
    simp only [Enqueuer.attempted, htask]
  | collected _ ha =>
    rcases ha with rfl | rfl
    · cases hnext
    · cases hnext
  | _ => cases hnext

theorem Inv.deferred (h : w.Inv uuid) {a : Action} {s : Enqueuer}
    (hprompt : w.prompt (.deferred a) = true) (hpermits : w.permits a = true)
    (hstep : w.enqueuer.step a = some s) : (w.timed a s).Inv uuid := by
  have hstepped := Enqueuer.step_cases hstep
  have hlive : ∀ i ∈ s.live, ∃ j ∈ w.enqueuer.live, j.msgId = i.msgId := by
    intro i hi
    rcases Enqueuer.live_step h.enqueuer hstepped hi with hold | ⟨_, _, rfl⟩
    · exact hold
    · cases hpermits
  constructor
  case enqueuer =>
    rw [timed_enqueuer]
    exact h.enqueuer.step hstep
  case alone =>
    rw [timed_enqueuer]
    exact Enqueuer.alone_step h.alone hstepped
  case once => simpa only [timed_stream] using h.once
  case stored => simpa only [timed_stream, timed_alerts] using h.stored
  case posted => simpa only [timed_posts, timed_alerts] using h.posted
  case single => simpa only [timed_posts] using h.single
  case flying => simpa only [timed_posts, timed_stream] using h.flying
  case owed =>
    intro i hi
    rw [timed_enqueuer] at hi
    obtain ⟨j, hj, hid⟩ := hlive i hi
    rw [← hid, timed_alerts]
    exact h.owed j hj
  case apart =>
    intro i hi p hp
    rw [timed_enqueuer] at hi
    rw [timed_posts] at hp
    obtain ⟨j, hj, hid⟩ := hlive i hi
    rw [← hid]
    exact h.apart j hj p hp
  case attempt =>
    intro i hi
    rw [timed_enqueuer] at hi
    rw [timed_now, timed_stream]
    rcases Enqueuer.attempted_step h.alone hstepped hi with ⟨hold, hkept⟩ | ⟨j, hj, hid⟩
    · obtain ⟨hdue, hlanded⟩ := w.timed_kept s hkept
      rw [hdue, hlanded]
      exact h.attempt i hold
    · -- the attempt begins here, so `prompt` speaks of it
      have hcovered : ∀ x ∈ w.stream, x.msgId = i.msgId →
          w.attemptDue a < x.storedAt + jetstreamDuplicateWindow := by
        intro x hx hx'
        rw [prompt, hj, Option.all_some] at hprompt
        have hall := List.all_eq_true.1 hprompt x hx
        rw [Bool.or_eq_true, bne_iff_ne, decide_eq_true_eq] at hall
        exact hall.resolve_left fun hne => hne (hx'.trans hid.symm)
      obtain ⟨-, -, hdue, -⟩ := attempt_begun h hj hstep
      rw [hdue]
      exact ⟨now_le_attemptDue hpermits hj, fun _ => hcovered⟩

theorem Inv.step (h : w.Inv uuid) (huuid : Function.Injective uuid) {e : Event}
    (hprompt : w.prompt e = true) (hstep : w.step uuid e = some v) : v.Inv uuid := by
  cases e with
  | passes ms =>
    simp only [World.step] at hstep
    split at hstep
    · next hidle => exact Option.some.inj hstep ▸ h.passes hidle
    · cases hstep
  | alert strategy envelope => exact Option.some.inj hstep ▸ h.alert huuid strategy envelope
  | lands k =>
    simp only [World.step] at hstep
    split at hstep
    · next hk =>
      split at hstep
      · cases hstep
      · next hlanded => exact Option.some.inj hstep ▸ h.lands hk (Bool.eq_false_iff.2 hlanded)
    · cases hstep
  | acked k =>
    simp only [World.step] at hstep
    split at hstep
    · split at hstep
      · exact Option.some.inj hstep ▸ h.eraseIdx k _
      · cases hstep
    · cases hstep
  | raised k =>
    simp only [World.step] at hstep
    split at hstep
    · next hk => exact Option.some.inj hstep ▸ h.raised hk
    · cases hstep
  | attemptLands =>
    simp only [World.step] at hstep
    split at hstep
    · next hitem =>
      split at hstep
      · cases hstep
      · next hlanded =>
        exact Option.some.inj hstep ▸ h.attemptLands hitem (Bool.eq_false_iff.2 hlanded)
    · cases hstep
  | deferred a =>
    simp only [World.step] at hstep
    split at hstep
    · next hpermits =>
      obtain ⟨s, hs, rfl⟩ := Option.map_eq_some_iff.1 hstep
      exact h.deferred hprompt hpermits hs
    · cases hstep

/-! ## A run -/

theorem new_inv : World.new.Inv uuid where
  enqueuer := Enqueuer.new_inv
  alone _ _ h := by cases h
  once := List.nodup_nil
  stored x hx := by cases hx
  posted p hp := by cases hp
  owed i hi := by cases hi
  single := List.nodup_nil
  apart i hi := by cases hi
  flying p hp := by cases hp
  attempt i hi := by cases hi

theorem Inv.run (h : w.Inv uuid) (huuid : Function.Injective uuid) {es : List Event}
    (hprompt : w.promptly uuid es = true) (hrun : w.run uuid es = some v) : v.Inv uuid := by
  induction es generalizing w with
  | nil => exact Option.some.inj hrun ▸ h
  | cons e es ih =>
    rw [World.run] at hrun
    rw [promptly, Bool.and_eq_true] at hprompt
    obtain ⟨u, hstep, hrest⟩ := Option.bind_eq_some_iff.1 hrun
    have hlater := hprompt.2
    rw [hstep, Option.all_some] at hlater
    exact ih (h.step huuid hprompt.1 hstep) hlater hrest

/-! ## An attempt that begins later

Such an attempt may still land in time. But nothing makes it: left waiting, it lands when
the window has closed. -/

/-- The attempt and what it meets are the same. -/
structure SameAttempt (w v : World) : Prop where
  now : v.now = w.now
  due : v.due = w.due
  landed : v.landed = w.landed
  stream : v.stream = w.stream
  task : v.enqueuer.task = w.enqueuer.task
  stopping : v.enqueuer.stopping = w.enqueuer.stopping

theorem SameAttempt.refl (w : World) : SameAttempt w w := ⟨rfl, rfl, rfl, rfl, rfl, rfl⟩

theorem SameAttempt.trans {u : World} (h : SameAttempt w v) (h' : SameAttempt v u) :
    SameAttempt w u :=
  ⟨h'.now.trans h.now, h'.due.trans h.due, h'.landed.trans h.landed, h'.stream.trans h.stream,
    h'.task.trans h.task, h'.stopping.trans h.stopping⟩

theorem sameAttempt_raised (w : World) (k : Nat) (post : Post) :
    SameAttempt w ({ w with posts := w.posts.eraseIdx k }.defer post) := by
  simp only [defer, Enqueuer.submit]
  split
  · exact ⟨rfl, rfl, rfl, rfl, rfl, rfl⟩
  · exact ⟨rfl, rfl, rfl, rfl, rfl, rfl⟩

theorem run_append (es es' : List Event) :
    w.run uuid (es ++ es') = (w.run uuid es).bind fun v => v.run uuid es' := by
  induction es generalizing w with
  | nil => rfl
  | cons e es ih =>
    simp only [List.cons_append, World.run, Option.bind_assoc]
    exact congrArg _ (funext fun v => ih)

/-- The enqueues can all fail while an attempt waits. -/
theorem exists_run_posts_nil (uuid : Nat → MsgId) (w : World) :
    ∃ es v, w.run uuid es = some v ∧ v.posts = [] ∧ SameAttempt w v := by
  generalize hn : w.posts = posts
  induction posts generalizing w with
  | nil => exact ⟨[], w, rfl, hn, .refl w⟩
  | cons post rest ih =>
    have hstep : w.step uuid (.raised 0) =
        some ({ w with posts := w.posts.eraseIdx 0 }.defer post) := by
      simp only [World.step, hn, List.getElem?_cons_zero]
    obtain ⟨es, v, hrun, hnil, hsame⟩ :=
      ih ({ w with posts := w.posts.eraseIdx 0 }.defer post) (by simp [defer, hn])
    refine ⟨.raised 0 :: es, v, ?_, hnil, (sameAttempt_raised w 0 post).trans hsame⟩
    rw [World.run, hstep]
    exact hrun

/-- Whoever attempts may wait until `due`. -/
theorem idleUntil_of_attempted {item : DeferredEnvelope} (halone : w.enqueuer.Alone)
    (hitem : w.enqueuer.attempted = some item) (hstop : w.enqueuer.stopping ≠ .awaiting)
    (hposts : w.posts = []) {time : Nat} (htime : time ≤ w.due) : w.idleUntil time = true := by
  rw [idleUntil, hposts, List.all_nil, Bool.true_and]
  rcases Enqueuer.attempted_cases hitem with htask | ⟨rest, hdrain⟩
  · match hs : w.enqueuer.stopping with
    | .awaiting => exact absurd hs hstop
    | .idle =>
      rw [htask]
      exact decide_eq_true htime
    | .draining rest trying => exact absurd hs (halone.not_draining htask _ _)
  · rw [hdrain]
    exact decide_eq_true htime

/-- An attempt at an alert in the stream lands when the window has closed, if it may last
that long. -/
theorem attempt_lands_again {item : DeferredEnvelope} (halone : w.enqueuer.Alone)
    (hitem : w.enqueuer.attempted = some item) (hstop : w.enqueuer.stopping ≠ .awaiting)
    (hposts : w.posts = []) (hlanded : w.landed = false) (hnow : w.now ≤ w.due)
    (honce : (w.stream.map (·.msgId)).Nodup) (hx : x ∈ w.stream) (hm : x.msgId = item.msgId)
    (hlate : x.storedAt + jetstreamDuplicateWindow ≤ w.due) :
    ∃ es u, w.run uuid es = some u ∧ 2 ≤ u.copies item.msgId := by
  let ms := x.storedAt + jetstreamDuplicateWindow - w.now
  have hidle : w.idleUntil (w.now + ms) = true :=
    idleUntil_of_attempted halone hitem hstop hposts (by omega)
  let v : World := { w with now := w.now + ms }
  have hoffer : v.offer item.msgId = w.stream ++ [⟨item.msgId, v.now⟩] := by
    refine offer_new ?_
    intro y hy hym
    have hxy : y = x := List.inj_on_of_nodup_map honce hy hx (hym.trans hm.symm)
    show y.storedAt + jetstreamDuplicateWindow ≤ w.now + ms
    rw [hxy]
    omega
  refine ⟨[.passes ms, .attemptLands], { v with stream := v.offer item.msgId, landed := true },
    ?_, ?_⟩
  · simp only [World.run, World.step, hidle, if_true, Option.bind_some, hitem, hlanded]
    rfl
  · have hmem : item.msgId ∈ w.stream.map (·.msgId) := hm ▸ List.mem_map_of_mem hx
    have hcount := List.count_pos_iff.2 hmem
    simp only [copies, hoffer, List.map_append, List.map_cons, List.map_nil, List.count_append,
      List.count_singleton_self]
    omega

theorem stored_twice_of_late (h : w.Inv uuid) {a : Action} {item : DeferredEnvelope}
    (hnext : w.enqueuer.next a = some item) (hx : x ∈ w.stream) (hm : x.msgId = item.msgId)
    (hlate : x.storedAt + jetstreamDuplicateWindow ≤ w.attemptDue a)
    (hpermits : w.permits a = true) {s : Enqueuer} (hs : w.enqueuer.step a = some s) :
    ∃ es u, (w.timed a s).run uuid es = some u ∧ 2 ≤ u.copies item.msgId := by
  obtain ⟨⟨i, hi, him⟩, hstop, hdue, hlanded⟩ := attempt_begun h hnext hs
  obtain ⟨es, v, hrun, hposts, hsame⟩ := exists_run_posts_nil uuid (w.timed a s)
  obtain ⟨hvnow, hvdue, hvlanded, hvstream, hvtask, hvstop⟩ := hsame
  rw [timed_now] at hvnow
  rw [timed_stream] at hvstream
  rw [timed_enqueuer] at hvtask hvstop
  have hitem : v.enqueuer.attempted = some i := by
    rw [Enqueuer.attempted, hvtask, hvstop, ← Enqueuer.attempted, hi]
  have halone : v.enqueuer.Alone := by
    intro rest trying hdrain
    rw [hvtask]
    rw [hvstop] at hdrain
    exact Enqueuer.alone_step h.alone (Enqueuer.step_cases hs) rest trying hdrain
  have hnow : v.now ≤ v.due := by
    rw [hvnow, hvdue, hdue]
    exact now_le_attemptDue hpermits hnext
  obtain ⟨es', u, hrun', hcopies⟩ := attempt_lands_again halone hitem (hvstop ▸ hstop) hposts
    (hvlanded.trans hlanded) hnow (hvstream ▸ h.once) (hvstream ▸ hx) (hm.trans him.symm)
    (by rw [hvdue, hdue]; exact hlate)
  refine ⟨es ++ es', u, ?_, him ▸ hcopies⟩
  rw [run_append, hrun]
  exact hrun'

/-- A run whose attempts all begin in time stores an alert once at most. One attempt begun
later is enough for a run that stores an alert again. -/
theorem stored_once_promptly (huuid : Function.Injective uuid) {es : List Event}
    (hprompt : World.new.promptly uuid es = true) (hrun : World.new.run uuid es = some w) :
    (∀ m, w.copies m ≤ 1) ∧
      ∀ e v, w.step uuid e = some v → w.prompt e = false →
        ∃ es' u m, v.run uuid es' = some u ∧ 2 ≤ u.copies m := by
  have h := new_inv.run huuid hprompt hrun
  refine ⟨fun m => List.nodup_iff_count_le_one.1 h.once m, ?_⟩
  intro e v hstep hlate
  cases e with
  | deferred a =>
    rw [World.prompt] at hlate
    obtain ⟨item, hnext, hall⟩ := (Option.all_eq_false _ _).1 hlate
    obtain ⟨x, hx, hbad⟩ := List.all_eq_false.1 hall
    simp only [Bool.or_eq_true, bne_iff_ne, decide_eq_true_eq, not_or, not_not, Nat.not_lt]
      at hbad
    simp only [World.step] at hstep
    split at hstep
    · next hpermits =>
      obtain ⟨s, hs, rfl⟩ := Option.map_eq_some_iff.1 hstep
      obtain ⟨es', u, hu, hcopies⟩ := stored_twice_of_late h hnext hx hbad.1 hbad.2 hpermits hs
      exact ⟨es', u, item.msgId, hu, hcopies⟩
    · cases hstep
  | _ => cases hlate

/-- An alert is stored, and its retry is dropped and acknowledged. -/
theorem stored_once_promptly_retried :
    ∃ w, World.new.run id [.deferred .start, .alert "s" .null, .lands 0, .passes 1000, .raised 0,
      .deferred .take, .attemptLands, .deferred .published] = some w ∧ ∀ m, w.copies m ≤ 1 := by
  obtain ⟨w, hrun⟩ : ∃ w, World.new.run id [.deferred .start, .alert "s" .null, .lands 0,
      .passes 1000, .raised 0, .deferred .take, .attemptLands, .deferred .published] = some w :=
    ⟨_, rfl⟩
  exact ⟨w, hrun, (stored_once_promptly Function.injective_id (by decide +kernel) hrun).1⟩

/-! ## Two envelopes that keep failing -/

/-- Two alerts at once, the message of the first stored, neither acknowledged in time. -/
def slowAcks : List Event :=
  [.deferred .start, .alert "s" .null, .alert "s" .null, .lands 0, .passes 1000, .raised 0,
    .raised 0]

/-- An attempt that waits for its ack in vain, and the interval. -/
def vainAttempt : List Event :=
  [.deferred .take, .passes ackTimeout, .deferred .failed, .passes deferredEnqueueInterval,
    .deferred .woke]

/-- Nine such attempts each, and the tenth of the first alert reaches the stream. -/
def lateRetry : List Event :=
  slowAcks ++ (List.replicate 18 vainAttempt).flatten ++ [.deferred .take, .attemptLands]

theorem not_stored_once : ¬ ∀ (uuid : Nat → MsgId), Function.Injective uuid →
    ∀ (es : List Event) (w : World), World.new.run uuid es = some w →
      ∀ id ∈ w.accepted, w.copies id ≤ 1 := by
  intro h
  have hrun : (World.new.run id lateRetry).all (fun w =>
      decide (∀ m ∈ w.accepted, w.copies m ≤ 1)) = false := by decide +kernel
  obtain ⟨w, hw, hcopies⟩ := (Option.all_eq_false _ _).1 hrun
  exact of_decide_eq_false hcopies (h id Function.injective_id lateRetry w hw)

end World

end TradingBroker.Deferred

