import TradingBroker.Broadcast.Board
import TradingBroker.Lib.Protocol

/-!
# A pass as an automaton

Where a dispatcher's pass stands after the calls it has made, and the one call it
can make there. `dispatchLocked` follows this automaton (`dispatchLocked_carries`),
so in every run a pass stands where the trace says it does and its next call is
known; what is proved about runs is proved here on, phase by phase, without
looking at the functions again.

A phase is what a pass remembers: the entries it claimed, the view and the settings
it read, the verdict so far, the targets that are left and how far the first of
them has got. `Moves` is the one case distinction over all its calls, and every
invariant of a pass is proved by it. Nothing in a phase says what the tables hold
by then. Whether what a pass remembers is still so is what the invariants of the
other files are about.

The last section is about a chat between a Telegram call and the write that records
it. For that while the stored row is behind, and what it is going to be is known
(`Phase.written`).
-/

namespace TradingBroker.Broadcast

open TradingBroker.Lib

/-- What a delivering pass has read. -/
structure Pass where
  entries : List LogEntry
  view : CycleView
  values : SettingValues

/-- How far the delivery to a chat has got: not begun; edited, with `sent` notices
announced and the rest to come; an edit was refused; the message was reported
missing; a new message was posted. -/
inductive Stage where
  | deliver
  | announcing (messageId : MessageId) (sent : Nat) (left : List (Option Notice))
  | refused
  | missing
  | posted (r : SendResult)

inductive Phase where
  | rest
  | begun
  | claimed (entries : List LogEntry)
  | gone (entries : List LogEntry)
  | loaded (entries : List LogEntry) (view : CycleView)
  /-- Parked with nobody behind. -/
  | dropping (entries : List LogEntry) (view : CycleView)
  /-- Parked, with the chats that are still to be caught up. -/
  | parking (entries : List LogEntry) (view : CycleView) (reason : String)
      (todo : List BroadcastChat)
  /-- The targets that are left, the first one at a stage; all before were
  delivered to if `ok`. -/
  | delivering (p : Pass) (ok : Bool) (todo : List Target) (stage : Stage)
  | finished
  | reclaiming
  | listing

/-- Events without a notice count as announced. -/
def Stage.announce (messageId : MessageId) (sent : Nat) : List (Option Notice) → Stage
  | none :: left => announce messageId (sent + 1) left
  | left => .announcing messageId sent left

theorem announce_eq (messageId : MessageId) (left : List (Option Notice)) : ∀ sent : Nat,
    ∃ n l, sent ≤ n ∧ Stage.announce messageId sent left = .announcing messageId n l := by
  induction left with
  | nil => exact fun sent => ⟨sent, [], Nat.le_refl _, rfl⟩
  | cons notice left ih =>
      intro sent
      cases notice with
      | none =>
          obtain ⟨n, l, hle, heq⟩ := ih (sent + 1)
          exact ⟨n, l, by omega, heq⟩
      | some notice => exact ⟨sent, some notice :: left, Nat.le_refl _, rfl⟩

section
variable (cfg : Config)

def Pass.delivery (p : Pass) (t : Target) : Delivery := Broadcast.delivery cfg p.view p.values t

/-- A chat gets the body of its audience. -/
theorem delivery_text {p : Pass} (h : cfg.renders p.view p.values = true) (t : Target) :
    bodyText cfg p.view p.values t.audience = some (p.delivery cfg t).body.text := by
  obtain ⟨hprivate, hpublic⟩ := Bool.and_eq_true_iff.1 h
  have hsome : (bodyText cfg p.view p.values t.audience).isSome = true := by
    cases t.audience with
    | privateChats => exact hprivate
    | publicChats => exact hpublic
  obtain ⟨text, htext⟩ := Option.isSome_iff_exists.1 hsome
  rw [htext]
  show some text = some ((bodyText cfg p.view p.values t.audience).getD "")
  rw [htext]
  rfl

def Pass.ids (p : Pass) : List Nat := p.entries.map LogEntry.seq

/-- The pass goes on with the first target that is not up to date. -/
def Phase.next (p : Pass) (ok : Bool) (todo : List Target) : Phase :=
  .delivering p ok (todo.dropWhile fun t => (p.delivery cfg t).upToDate) .deliver

theorem Phase.next_skip {p : Pass} {ok : Bool} {t : Target} {todo : List Target}
    (h : (p.delivery cfg t).upToDate = true) :
    Phase.next cfg p ok (t :: todo) = .next cfg p ok todo := by
  simp only [Phase.next, List.dropWhile_cons, h, if_true]

theorem Phase.next_stop {p : Pass} {ok : Bool} {t : Target} {todo : List Target}
    (h : (p.delivery cfg t).upToDate = false) :
    Phase.next cfg p ok (t :: todo) = .delivering p ok (t :: todo) .deliver := by
  simp only [Phase.next, List.dropWhile_cons, h, Bool.false_eq_true, if_false]

def Phase.park (entries : List LogEntry) (view : CycleView) (reason : String) : Phase :=
  if (chatsBehind view).isEmpty then .dropping entries view
  else .parking entries view reason (chatsBehind view)

/-- `_notify_updates` begins. -/
def Delivery.notify (d : Delivery) (messageId : MessageId) : Stage :=
  match d.alreadyNotified with
  | none => .announcing messageId d.notices.length []
  | some already =>
      if d.notifyEnabled then .announce messageId already (d.notices.drop already)
      else .announcing messageId d.notices.length []

theorem notify_eq (d : Delivery) (id : MessageId) : ∃ n l, d.notify id = .announcing id n l := by
  unfold Delivery.notify
  split
  · exact ⟨_, _, rfl⟩
  · split
    · obtain ⟨n, l, -, heq⟩ := announce_eq id _ _
      exact ⟨n, l, heq⟩
    · exact ⟨_, _, rfl⟩

/-- The next call of a delivery. -/
def Delivery.call (d : Delivery) : Stage → Call
  | .deliver =>
      match d.messageId with
      | some messageId => .editMessage d.chat messageId d.body
      | none => .sendMessage d.chat d.body
  | .announcing messageId _ (some notice :: _) => .replyMessage d.chat messageId notice
  | .announcing messageId sent _ => .upsertChat (d.edited messageId sent)
  | .refused => .upsertChat (d.refused "edit failed")
  | .missing => .sendMessage d.chat d.body
  | .posted r => .upsertChat (d.sent r)

def Phase.call? : Phase → Option Call
  | .rest => none
  | .begun => some .claimPendingLogs
  | .claimed _ => some .loadCycle
  | .gone entries => some (.finishLogs (entries.map LogEntry.seq) delivered)
  | .loaded _ _ => some .getMany
  | .dropping entries _ => some (.finishLogs (entries.map LogEntry.seq) delivered)
  | .parking _ view reason (chat :: _) => some (.upsertChat (catchUp view reason chat))
  | .parking entries _ reason [] => some (.deferLogs (entries.map LogEntry.seq) reason)
  | .delivering p _ (t :: _) stage => some ((p.delivery cfg t).call stage)
  | .delivering p ok [] _ => some (.finishLogs p.ids (cfg.finish ok))
  | .finished => some .markBroadcast
  | .reclaiming => some .reclaimStaleLogs
  | .listing => some .listCycle

/-- Where the settings lead. -/
def Phase.settings (entries : List LogEntry) (view : CycleView) (values : SettingValues) :
    Phase :=
  if values.silent then .park entries view "silenced"
  else
    match cfg.targets values with
    | none => .rest
    | some [] => .park entries view "no broadcast chats configured"
    | some ts =>
        if cfg.renders view values then .next cfg ⟨entries, view, values⟩ true ts else .rest

/-- The pass raises, or parks, or begins to deliver. -/
@[elab_as_elim]
theorem Phase.settings_cases {motive : Phase → Prop} (entries : List LogEntry)
    (view : CycleView) (values : SettingValues) (raised : motive .rest)
    (parked : ∀ reason, values.silent = true ∨ cfg.targets values = some [] →
      motive (.park entries view reason))
    (delivers : ∀ ts, values.silent = false → cfg.targets values = some ts → ts ≠ [] →
      cfg.renders view values = true → motive (.next cfg ⟨entries, view, values⟩ true ts)) :
    motive (.settings cfg entries view values) := by
  unfold Phase.settings
  split
  · next hsilent => exact parked _ (.inl hsilent)
  · next hsilent =>
      split
      · exact raised
      · next hts => exact parked _ (.inr hts)
      · next ts hne hts =>
          split
          · next hrenders => exact delivers ts (by simpa using hsilent) hts hne hrenders
          · exact raised

/-- Where an answer to a delivery's call leads. -/
def Phase.deliver (p : Pass) (ok : Bool) (t : Target) (todo : List Target) (stage : Stage) :
    (c : Call) → c.Result → Phase
  | .editMessage _ messageId _, .ok =>
      .delivering p ok (t :: todo) ((p.delivery cfg t).notify messageId)
  | .editMessage _ _ _, .failed => .delivering p ok (t :: todo) .refused
  | .editMessage _ _ _, .missing => .delivering p ok (t :: todo) .missing
  | .sendMessage _ _, r => .delivering p ok (t :: todo) (.posted r)
  | .replyMessage _ _ _, taken =>
      match stage with
      | .announcing messageId sent (_ :: left) =>
          .delivering p ok (t :: todo)
            (if taken then .announce messageId (sent + 1) left
            else .announcing messageId sent [])
      | _ => .rest
  | .upsertChat _, _ =>
      match stage with
      | .refused => .next cfg p false todo
      | .posted r => .next cfg p (ok && r.landed) todo
      | _ => .next cfg p ok todo
  | _, _ => .rest

def Phase.after : Phase → (c : Call) → c.Result → Phase
  | .begun, .claimPendingLogs, entries => if entries.isEmpty then .rest else .claimed entries
  | .claimed entries, .loadCycle, answer =>
      match answer with
      | none => .gone entries
      | some view => .loaded entries view
  | .loaded entries view, .getMany, values => .settings cfg entries view values
  | .parking entries view reason (_ :: todo), .upsertChat _, _ =>
      .parking entries view reason todo
  | .delivering p ok (t :: todo) stage, c, r => .deliver cfg p ok t todo stage c r
  | .delivering _ _ [] _, .finishLogs _ _, _ => .finished
  | .reclaiming, .reclaimStaleLogs, _ => .listing
  | _, _, _ => .rest

def passes : Protocol Call Call.Result Phase := ⟨Phase.call? cfg, Phase.after cfg⟩

end

/-- Everything a task can do: the call it makes, its answer, and where it stands
then. -/
inductive Moves (cfg : Config) : Phase → (c : Call) → c.Result → Phase → Prop where
  | claim (entries : List LogEntry) :
      Moves cfg .begun .claimPendingLogs entries
        (if entries.isEmpty then .rest else .claimed entries)
  | missed (entries : List LogEntry) : Moves cfg (.claimed entries) .loadCycle none (.gone entries)
  | load (entries : List LogEntry) (view : CycleView) :
      Moves cfg (.claimed entries) .loadCycle (some view) (.loaded entries view)
  | gone (entries : List LogEntry) (r : Bool) :
      Moves cfg (.gone entries) (.finishLogs (entries.map LogEntry.seq) delivered) r .rest
  | settings (entries : List LogEntry) (view : CycleView) (values : SettingValues) :
      Moves cfg (.loaded entries view) .getMany values (.settings cfg entries view values)
  | drop (entries : List LogEntry) (view : CycleView) (r : Bool) :
      Moves cfg (.dropping entries view) (.finishLogs (entries.map LogEntry.seq) delivered) r .rest
  | catchUp (entries : List LogEntry) (view : CycleView) (reason : String) (chat : BroadcastChat)
      (todo : List BroadcastChat) (r : Bool) :
      Moves cfg (.parking entries view reason (chat :: todo))
        (.upsertChat (catchUp view reason chat)) r (.parking entries view reason todo)
  | defer (entries : List LogEntry) (view : CycleView) (reason : String) (r : Bool) :
      Moves cfg (.parking entries view reason []) (.deferLogs (entries.map LogEntry.seq) reason) r
        .rest
  | edit (p : Pass) (ok : Bool) (t : Target) (todo : List Target) (messageId : MessageId)
      (hid : (p.delivery cfg t).messageId = some messageId) (outcome : EditOutcome) :
      Moves cfg (.delivering p ok (t :: todo) .deliver)
        (.editMessage t.chat messageId (p.delivery cfg t).body) outcome
        (.delivering p ok (t :: todo)
          (match outcome with
          | .ok => (p.delivery cfg t).notify messageId
          | .failed => .refused
          | .missing => .missing))
  | send (p : Pass) (ok : Bool) (t : Target) (todo : List Target) (stage : Stage)
      (hstage : stage = .deliver ∧ (p.delivery cfg t).messageId = none ∨ stage = .missing)
      (r : SendResult) :
      Moves cfg (.delivering p ok (t :: todo) stage)
        (.sendMessage t.chat (p.delivery cfg t).body) r (.delivering p ok (t :: todo) (.posted r))
  | reply (p : Pass) (ok : Bool) (t : Target) (todo : List Target) (messageId : MessageId)
      (sent : Nat) (notice : Notice) (left : List (Option Notice)) (taken : Bool) :
      Moves cfg (.delivering p ok (t :: todo) (.announcing messageId sent (some notice :: left)))
        (.replyMessage t.chat messageId notice) taken
        (.delivering p ok (t :: todo)
          (if taken then .announce messageId (sent + 1) left
          else .announcing messageId sent []))
  | edited (p : Pass) (ok : Bool) (t : Target) (todo : List Target) (messageId : MessageId)
      (sent : Nat) (left : List (Option Notice)) (hleft : ∀ notice rest, left ≠ some notice :: rest)
      (r : Bool) :
      Moves cfg (.delivering p ok (t :: todo) (.announcing messageId sent left))
        (.upsertChat ((p.delivery cfg t).edited messageId sent)) r (.next cfg p ok todo)
  | refused (p : Pass) (ok : Bool) (t : Target) (todo : List Target) (r : Bool) :
      Moves cfg (.delivering p ok (t :: todo) .refused)
        (.upsertChat ((p.delivery cfg t).refused "edit failed")) r (.next cfg p false todo)
  | posted (p : Pass) (ok : Bool) (t : Target) (todo : List Target) (sent : SendResult)
      (r : Bool) :
      Moves cfg (.delivering p ok (t :: todo) (.posted sent))
        (.upsertChat ((p.delivery cfg t).sent sent)) r (.next cfg p (ok && sent.landed) todo)
  | finish (p : Pass) (ok : Bool) (stage : Stage) (r : Bool) :
      Moves cfg (.delivering p ok [] stage) (.finishLogs p.ids (cfg.finish ok)) r .finished
  | mark (r : Bool) : Moves cfg .finished .markBroadcast r .rest
  | reclaim (n : Nat) : Moves cfg .reclaiming .reclaimStaleLogs n .listing
  | list (r : Bool) : Moves cfg .listing .listCycle r .rest

theorem moves_deliver {cfg : Config} {p : Pass} {ok : Bool} {t : Target} {todo : List Target}
    {stage : Stage} {c : Call} (h : (p.delivery cfg t).call stage = c) (r : c.Result) :
    Moves cfg (.delivering p ok (t :: todo) stage) c r (.deliver cfg p ok t todo stage c r) := by
  cases stage with
  | deliver =>
      cases hid : (p.delivery cfg t).messageId with
      | none =>
          simp only [Delivery.call, hid] at h
          subst h
          exact .send p ok t todo .deliver (.inl ⟨rfl, hid⟩) r
      | some messageId =>
          simp only [Delivery.call, hid] at h
          subst h
          cases r with
          | ok => exact .edit p ok t todo messageId hid .ok
          | missing => exact .edit p ok t todo messageId hid .missing
          | failed => exact .edit p ok t todo messageId hid .failed
  | announcing messageId sent left =>
      match left with
      | [] =>
          subst h
          exact .edited p ok t todo messageId sent [] nofun r
      | none :: left =>
          subst h
          exact .edited p ok t todo messageId sent (none :: left) nofun r
      | some notice :: left =>
          subst h
          exact .reply p ok t todo messageId sent notice left r
  | refused =>
      subst h
      exact .refused p ok t todo r
  | missing =>
      subst h
      exact .send p ok t todo .missing (.inr rfl) r
  | posted sent =>
      subst h
      exact .posted p ok t todo sent r

theorem moves {cfg : Config} {f : Phase} {c : Call} (h : f.call? cfg = some c) (r : c.Result) :
    Moves cfg f c r (f.after cfg c r) := by
  cases f with
  | rest => cases h
  | begun =>
      cases h
      exact .claim r
  | claimed entries =>
      cases h
      cases r with
      | none => exact .missed entries
      | some view => exact .load entries view
  | gone entries =>
      cases h
      exact .gone entries r
  | loaded entries view =>
      cases h
      exact .settings entries view r
  | dropping entries view =>
      cases h
      exact .drop entries view r
  | parking entries view reason todo =>
      cases todo with
      | nil =>
          cases h
          exact .defer entries view reason r
      | cons chat todo =>
          cases h
          exact .catchUp entries view reason chat todo r
  | delivering p ok todo stage =>
      cases todo with
      | nil =>
          cases h
          exact .finish p ok stage r
      | cons t todo => exact moves_deliver (Option.some.inj h) r
  | finished =>
      cases h
      exact .mark r
  | reclaiming =>
      cases h
      exact .reclaim r
  | listing =>
      cases h
      exact .list r

/-- The three places where entries are finished. -/
theorem Moves.finishing {cfg : Config} {f f' : Phase} {c : Call} {r : c.Result} {ids : List Nat}
    {fin : Finish} (hm : Moves cfg f c r f') (hc : c = .finishLogs ids fin) :
    (∃ entries, f = .gone entries ∧ fin = delivered) ∨
      (∃ entries view, f = .dropping entries view ∧ fin = delivered) ∨
        ∃ p ok stage, f = .delivering p ok [] stage ∧ fin = cfg.finish ok := by
  cases hm with
  | gone entries =>
      cases hc
      exact .inl ⟨entries, rfl, rfl⟩
  | drop entries view =>
      cases hc
      exact .inr (.inl ⟨entries, view, rfl, rfl⟩)
  | finish p ok stage =>
      cases hc
      exact .inr (.inr ⟨p, ok, stage, rfl, rfl⟩)
  | claim | missed | load | settings | catchUp | defer | edit | send | reply | edited | refused
  | posted | mark | reclaim | list => cases hc

/-! ## The functions follow it -/

variable {cfg : Config} {X : Phase → Prop}

theorem announce_follows {p : Pass} {ok : Bool} {t : Target} {todo : List Target}
    {messageId : MessageId} (left : List (Option Notice)) : ∀ sent : Nat,
    (announce t.chat messageId sent left).Follows (passes cfg)
      (fun notified f => f = .delivering p ok (t :: todo) (.announcing messageId notified [])) X
      (.delivering p ok (t :: todo) (.announce messageId sent left)) := by
  induction left with
  | nil => exact fun sent => rfl
  | cons notice left ih =>
      intro sent
      cases notice with
      | none => exact ih (sent + 1)
      | some notice =>
          refine ⟨rfl, fun taken => ?_⟩
          cases taken with
          | true => exact ih (sent + 1)
          | false => rfl

theorem notifyUpdates_follows {p : Pass} {ok : Bool} {t : Target} {todo : List Target}
    {messageId : MessageId} :
    (notifyUpdates (p.delivery cfg t) messageId).Follows (passes cfg)
      (fun notified f => f = .delivering p ok (t :: todo) (.announcing messageId notified [])) X
      (.delivering p ok (t :: todo) ((p.delivery cfg t).notify messageId)) := by
  unfold notifyUpdates Delivery.notify
  cases (p.delivery cfg t).alreadyNotified with
  | none => exact rfl
  | some already =>
      by_cases he : (p.delivery cfg t).notifyEnabled = true
      · simp only [he, if_true]
        exact announce_follows _ already
      · simp only [he]
        exact rfl

theorem post_follows {p : Pass} {ok : Bool} {t : Target} {todo : List Target} {stage : Stage}
    (hcall : (p.delivery cfg t).call stage =
      .sendMessage (p.delivery cfg t).chat (p.delivery cfg t).body) :
    (post (p.delivery cfg t)).Follows (passes cfg)
      (fun b f => f = .next cfg p (ok && b) todo) X (.delivering p ok (t :: todo) stage) :=
  ⟨congrArg some hcall, fun _ => ⟨rfl, fun _ => rfl⟩⟩

theorem deliver_follows {p : Pass} {ok : Bool} {t : Target} {todo : List Target}
    (hnew : (p.delivery cfg t).upToDate = false) :
    (deliver (p.delivery cfg t)).Follows (passes cfg)
      (fun b f => f = .next cfg p (ok && b) todo) X (.delivering p ok (t :: todo) .deliver) := by
  rw [deliver, hnew]
  cases hid : (p.delivery cfg t).messageId with
  | none => exact post_follows (by rw [Delivery.call, hid])
  | some messageId =>
      refine ⟨congrArg some (by rw [Delivery.call, hid]), fun outcome => ?_⟩
      cases outcome with
      | ok =>
          refine Coro.Follows.bind (fun notified f hf => ?_) notifyUpdates_follows
          subst hf
          refine ⟨rfl, fun _ => ?_⟩
          show Phase.next cfg p ok todo = _
          rw [Bool.and_true]
      | failed =>
          refine ⟨rfl, fun _ => ?_⟩
          show Phase.next cfg p false todo = _
          rw [Bool.and_false]
      | missing => exact post_follows rfl

theorem deliverAll_follows {p : Pass} (todo : List Target) : ∀ ok : Bool,
    (deliverAll cfg p.view p.values todo).Follows (passes cfg)
      (fun b f => f = .delivering p (ok && b) [] .deliver) X (.next cfg p ok todo) := by
  induction todo with
  | nil =>
      intro ok
      show Phase.delivering p ok [] .deliver = _
      rw [Bool.and_true]
  | cons t todo ih =>
      intro ok
      cases hup : (p.delivery cfg t).upToDate with
      | true =>
          -- the chat is skipped
          have hdeliver : deliver (delivery cfg p.view p.values t) = .pure true := by
            rw [deliver, show (delivery cfg p.view p.values t).upToDate = true from hup]
            rfl
          rw [deliverAll, hdeliver, Phase.next_skip cfg hup]
          show Coro.Follows _ _ _ (deliverAll cfg p.view p.values todo >>= fun bs => pure bs) _
          exact Coro.Follows.bind (fun bs f hf => hf) (ih ok)
      | false =>
          rw [Phase.next_stop cfg hup]
          refine Coro.Follows.bind (fun b f hf => ?_) (deliver_follows hup)
          subst hf
          refine Coro.Follows.bind (fun bs f hf => ?_) (ih (ok && b))
          subst hf
          show Phase.delivering p ((ok && b) && bs) [] .deliver = _
          rw [Bool.and_assoc]

theorem park_carries {entries : List LogEntry} {view : CycleView} {reason : String} :
    (park view (entries.map LogEntry.seq) reason).Carries (passes cfg)
      (.park entries view reason) := by
  have hcatch : ∀ todo : List BroadcastChat, (catchUpAll view reason todo).Follows (passes cfg)
      (fun _ f => f = .parking entries view reason []) (Coro.AtRest (passes cfg))
      (.parking entries view reason todo) := by
    intro todo
    induction todo with
    | nil => exact rfl
    | cons chat todo ih => exact ⟨rfl, fun _ => ih⟩
  unfold park Phase.park
  by_cases hb : (chatsBehind view).isEmpty = true
  · simp only [hb, if_true]
    exact ⟨rfl, fun _ => rfl⟩
  · simp only [hb]
    refine Coro.Follows.bind (fun _ f hf => ?_) (hcatch (chatsBehind view))
    subst hf
    exact ⟨rfl, fun _ => rfl⟩

theorem dispatchLocked_carries : (dispatchLocked cfg).Carries (passes cfg) .begun := by
  refine ⟨rfl, fun entries => ?_⟩
  show Coro.Carries _ (if entries.isEmpty then _ else _) (if entries.isEmpty then _ else _)
  by_cases he : entries.isEmpty = true
  · simp only [he, if_true]
    exact rfl
  simp only [he]
  refine ⟨rfl, fun answer => ?_⟩
  cases answer with
  | none => exact ⟨rfl, fun _ => rfl⟩
  | some view =>
      refine ⟨rfl, fun values => ?_⟩
      show Coro.Carries _ (if values.silent then _ else _) (Phase.settings cfg entries view values)
      unfold Phase.settings
      by_cases hs : values.silent = true
      · simp only [hs, if_true]
        exact park_carries
      simp only [hs]
      cases cfg.targets values with
      | none => exact rfl
      | some targets =>
        cases targets with
        | nil => exact park_carries
        | cons t ts =>
          dsimp only
          by_cases hrenders : cfg.renders view values = true
          · simp only [hrenders, if_true]
            refine Coro.Follows.bind (fun b f hf => ?_)
              (deliverAll_follows (p := ⟨entries, view, values⟩) (t :: ts) true)
            subst hf
            exact ⟨rfl, fun _ => ⟨rfl, fun _ => rfl⟩⟩
          · simp only [hrenders]
            exact rfl

theorem sweep_carries : sweep.Carries (passes cfg) .reclaiming :=
  ⟨rfl, fun _ => ⟨rfl, fun _ => rfl⟩⟩

/-- The notices are those of the events, in their order. -/
theorem notice_index {view : CycleView} {sent : Nat} {notice : Notice}
    {left : List (Option Notice)} (h : some notice :: left = (notices cfg view).drop sent) :
    notice.index = sent := by
  have hget : (notices cfg view)[sent]? = some (some notice) := by
    rw [← List.head?_drop, ← h, List.head?_cons]
  rw [notices, List.getElem?_map] at hget
  obtain ⟨k, hk, hnotice⟩ := Option.map_eq_some_iff.1 hget
  obtain ⟨text, -, rfl⟩ := Option.map_eq_some_iff.1 hnotice
  obtain ⟨hlt, rfl⟩ := List.getElem?_eq_some_iff.1 hk
  exact List.getElem_range _

/-! ## Where a task stands -/

variable {D : Type} [DecidableEq D]

def Party.begins : Party D → Phase
  | .pass _ => .begun
  | .sweep _ => .reclaiming

/-- The phase of a task, after what has happened. -/
def phase (cfg : Config) (i : Party D) : List (Entry D) → Phase
  | [] => .rest
  | .started j :: t => if j = i then i.begins else phase cfg i t
  | .call j c r :: t => if j = i then (phase cfg i t).after cfg c r else phase cfg i t
  | .died j :: t => if j = i then .rest else phase cfg i t

variable {i j : Party D} {s s' : Board D}

theorem phase_call_self (c : Call) (r : c.Result) (t : List (Entry D)) :
    phase cfg i (.call i c r :: t) = (phase cfg i t).after cfg c r :=
  if_pos rfl

theorem phase_call_other (h : j ≠ i) (c : Call) (r : c.Result) (t : List (Entry D)) :
    phase cfg i (.call j c r :: t) = phase cfg i t :=
  if_neg h

theorem phase_started_self (t : List (Entry D)) :
    phase cfg i (.started i :: t) = i.begins :=
  if_pos rfl

theorem phase_started_other (h : j ≠ i) (t : List (Entry D)) :
    phase cfg i (.started j :: t) = phase cfg i t :=
  if_neg h

theorem phase_died_self (t : List (Entry D)) : phase cfg i (.died i :: t) = .rest :=
  if_pos rfl

theorem phase_died_other (h : j ≠ i) (t : List (Entry D)) :
    phase cfg i (.died j :: t) = phase cfg i t :=
  if_neg h

theorem phase_other {l : Step D} (ha : (dispatchers cfg D).act l s = some s')
    (hl : l.party ≠ some i) : phase cfg i s'.trace = phase cfg i s.trace := by
  cases l with
  | call j k c x =>
      rw [act_call ha, Board.log_trace, effect_trace]
      exact phase_call_other (fun hj => hl (congrArg some hj)) c _ _
  | start j e =>
      rw [act_start ha]
      exact phase_started_other (fun hj => hl (congrArg some hj)) _
  | env e => rw [event_trace (act_env ha)]
  | crash j k =>
      rw [act_crash ha]
      exact phase_died_other (fun hj => hl (congrArg some hj)) _

/-- A dispatcher's tasks are where the trace says they are. -/
theorem conducts (D : Type) [DecidableEq D] (cfg : Config) :
    Conducts (dispatchers cfg D) (passes cfg) fun i s => phase cfg i s.trace where
  call := by
    intro i k c x s r h
    cases h
    show phase cfg i (.call i c _ :: (effect cfg x s c).trace) = _
    rw [effect_trace]
    exact phase_call_self c _ _
  start := by
    intro i e s r h
    cases i with
    | pass d =>
        cases e with
        | wake =>
            cases h
            show Coro.Carries _ (dispatchLocked cfg) (phase cfg (.pass d) (.started (.pass d) :: _))
            rw [phase_started_self]
            exact dispatchLocked_carries
        | record | set | pass | delete => cases h
    | sweep d =>
        cases e with
        | wake =>
            cases h
            show Coro.Carries _ sweep (phase cfg (.sweep d) (.started (.sweep d) :: _))
            rw [phase_started_self]
            exact sweep_carries
        | record | set | pass | delete => cases h
  crash := by
    intro i k s s' h
    cases h
    show (phase cfg i (.died i :: s.trace)).call? cfg = none
    rw [phase_died_self]
    rfl
  other := phase_other

theorem good_opened (r : EventRecord) (now : Int) (v : SettingValues) :
    (conducts D cfg).contract.Good (opened r now v) :=
  (conducts D cfg).good (fun _ => rfl) fun _ => rfl

/-- The chat a pass is at was not shown a body as new as the pass's. -/
def Phase.HeadDue (cfg : Config) : Phase → Prop
  | .delivering p _ (t :: _) _ => (p.delivery cfg t).upToDate = false
  | _ => True

theorem headDue_next (p : Pass) (ok : Bool) (todo : List Target) :
    (Phase.next cfg p ok todo).HeadDue cfg := by
  induction todo with
  | nil => trivial
  | cons t todo ih =>
      cases hup : (p.delivery cfg t).upToDate with
      | true =>
          rw [Phase.next_skip cfg hup]
          exact ih
      | false =>
          rw [Phase.next_stop cfg hup]
          exact hup

theorem headDue_park (entries : List LogEntry) (view : CycleView) (reason : String) :
    (Phase.park entries view reason).HeadDue cfg := by
  unfold Phase.park
  split <;> trivial

theorem Moves.headDue {f f' : Phase} {c : Call} {r : c.Result} (hm : Moves cfg f c r f')
    (h : f.HeadDue cfg) : f'.HeadDue cfg := by
  cases hm with
  | claim => split <;> trivial
  | settings entries view values =>
      refine Phase.settings_cases cfg entries view values trivial (fun _ _ => headDue_park _ _ _)
        fun _ _ _ _ _ => headDue_next _ _ _
  | edit | send | reply => exact h
  | edited | refused | posted => exact headDue_next _ _ _
  | missed | load | gone | drop | catchUp | defer | finish | mark | reclaim | list => trivial

/-- The moves of a run, with what each comes to. -/
theorem due_cases {l : Step D} (hd : l.Due (passes cfg) (fun i s => phase cfg i s.trace) s)
    (ha : (dispatchers cfg D).act l s = some s') :
    (∃ i c x, l = .call i () c x ∧ (phase cfg i s.trace).call? cfg = some c ∧
      s' = (effect cfg x s c).log (.call i c (respond cfg x s c))) ∨
    (∃ i e, l = .start i e ∧ (phase cfg i s.trace).call? cfg = none ∧ s' = s.log (.started i)) ∨
    (∃ e, l = .env e ∧ s.event e = some s') ∨
    (∃ i, l = .crash i () ∧ s' = s.log (.died i)) := by
  cases l with
  | call i k c x => exact .inl ⟨i, c, x, rfl, hd, act_call ha⟩
  | start i e => exact .inr (.inl ⟨i, e, rfl, hd, act_start ha⟩)
  | env e => exact .inr (.inr (.inl ⟨e, rfl, act_env ha⟩))
  | crash i k => exact .inr (.inr (.inr ⟨i, rfl, act_crash ha⟩))

/-- The write log after a move: the same, one entry longer, or each entry as the call
left it. -/
theorem logs_step {l : Step D} (hd : l.Due (passes cfg) (fun i s => phase cfg i s.trace) s)
    (ha : (dispatchers cfg D).act l s = some s') {d' : Cycle} (hd' : s'.cycle = some d') :
    ∃ d, s.cycle = some d ∧
      (d'.logs = d.logs ∨
        (∃ e, d'.logs = d.logs ++ [e] ∧ e.status = .pending ∧ e.attempts = 0) ∨
        ∃ i c x, l = .call i () c x ∧ (phase cfg i s.trace).call? cfg = some c ∧
          d'.logs = d.logs.map (c.entry cfg s.now)) := by
  rcases due_cases hd ha with ⟨i, c, x, rfl, hcall, rfl⟩ | ⟨i, _, rfl, -, rfl⟩ |
    ⟨ev, rfl, hev⟩ | ⟨i, rfl, rfl⟩
  · rw [Board.log_cycle, effect_cycle] at hd'
    split at hd'
    · exact ⟨d', hd', .inl rfl⟩
    · obtain ⟨d, hd, rfl⟩ := Option.map_eq_some_iff.1 hd'
      exact ⟨d, hd, .inr (.inr ⟨i, c, x, rfl, hcall, write_logs cfg s.now c d⟩)⟩
  · exact ⟨d', hd', .inl rfl⟩
  · cases ev with
    | wake => cases hev
    | record r =>
        simp only [Board.event, Option.map_eq_some_iff] at hev
        obtain ⟨d, hd, rfl⟩ := hev
        refine ⟨d, hd, ?_⟩
        rcases (recorded_run hd').grows with rfl | ⟨e, hlogs, hstatus, hatt, -⟩
        · exact .inl rfl
        · exact .inr (.inl ⟨e, hlogs, hstatus, hatt⟩)
    | set v =>
        cases hev
        exact ⟨d', hd', .inl rfl⟩
    | pass n =>
        cases hev
        exact ⟨d', hd', .inl rfl⟩
    | delete =>
        cases hev
        cases hd'
  · exact ⟨d', hd', .inl rfl⟩

/-- The rows of the chats only move forward. -/
theorem chats_step {l : Step D} (hd : l.Due (passes cfg) (fun i s => phase cfg i s.trace) s)
    (ha : (dispatchers cfg D).act l s = some s') {d' : Cycle} (hd' : s'.cycle = some d') :
    ∃ d, s.cycle = some d ∧ ChatsForward d.chats d'.chats := by
  rcases due_cases hd ha with ⟨i, c, x, rfl, hcall, rfl⟩ | ⟨i, _, rfl, -, rfl⟩ |
    ⟨ev, rfl, hev⟩ | ⟨i, rfl, rfl⟩
  · rw [Board.log_cycle, effect_cycle] at hd'
    split at hd'
    · exact ⟨d', hd', .refl _⟩
    · obtain ⟨d, hd, rfl⟩ := Option.map_eq_some_iff.1 hd'
      exact ⟨d, hd, write_forward cfg s.now c d⟩
  · exact ⟨d', hd', .refl _⟩
  · cases ev with
    | wake => cases hev
    | record r =>
        simp only [Board.event, Option.map_eq_some_iff] at hev
        obtain ⟨d, hd, rfl⟩ := hev
        refine ⟨d, hd, ?_⟩
        rw [(recorded_run hd').chats]
        exact .refl _
    | set v =>
        cases hev
        exact ⟨d', hd', .refl _⟩
    | pass n =>
        cases hev
        exact ⟨d', hd', .refl _⟩
    | delete =>
        cases hev
        cases hd'
  · exact ⟨d', hd', .refl _⟩

/-- A sweep only reclaims and lists. -/
theorem sweep_phase (cfg : Config) (d : D) (t : List (Entry D)) :
    phase cfg (.sweep d) t = .rest ∨ phase cfg (.sweep d) t = .reclaiming ∨
      phase cfg (.sweep d) t = .listing := by
  induction t with
  | nil => exact .inl rfl
  | cons e t ih =>
      cases e with
      | started j =>
          by_cases hj : j = .sweep d
          · subst hj
            rw [phase_started_self]
            exact .inr (.inl rfl)
          · rw [phase_started_other hj]
            exact ih
      | call j c r =>
          by_cases hj : j = .sweep d
          · subst hj
            rw [phase_call_self]
            rcases ih with h | h | h
            · rw [h]
              exact .inl rfl
            · rw [h]
              cases c with
              | reclaimStaleLogs => exact .inr (.inr rfl)
              | _ => exact .inl rfl
            · rw [h]
              exact .inl rfl
          · rw [phase_call_other hj]
            exact ih
      | died j =>
          by_cases hj : j = .sweep d
          · subst hj
            rw [phase_died_self]
            exact .inl rfl
          · rw [phase_died_other hj]
            exact ih

theorem sweep_call {d : D} {t : List (Entry D)} {c : Call}
    (h : (phase cfg (.sweep d) t).call? cfg = some c) : c = .reclaimStaleLogs ∨ c = .listCycle := by
  rcases sweep_phase cfg d t with hp | hp | hp
  · rw [hp] at h
    cases h
  · rw [hp] at h
    exact .inl (Option.some.inj h).symm
  · rw [hp] at h
    exact .inr (Option.some.inj h).symm

/-- Nothing comes next only between passes. -/
theorem call?_eq_none {f : Phase} : f.call? cfg = none ↔ f = .rest := by
  constructor
  · intro h
    cases f with
    | rest => rfl
    | parking _ _ _ todo => cases todo <;> cases h
    | delivering _ _ todo _ => cases todo <;> cases h
    | begun | claimed | gone | loaded | dropping | finished | reclaiming | listing => cases h
  · intro h
    rw [h]
    rfl

/-! ## The row as the pass will leave it -/

section
variable (cfg : Config)

/-- What is written of the chat the pass is at. -/
def Delivery.pending (d : Delivery) : Stage → Option ChatUpsert
  | .deliver => none
  | .announcing messageId sent _ => some (d.edited messageId sent)
  | .refused => some (d.refused "edit failed")
  | .missing => none
  | .posted r => some (d.sent r)

def Phase.pending : Phase → Option ChatUpsert
  | .delivering p _ (t :: _) stage => (p.delivery cfg t).pending stage
  | _ => none

/-- The cycle with what a pass has done, and will write next. -/
def Phase.written (f : Phase) (c : Cycle) : Cycle := (f.pending cfg).elim c c.upsertChat

end

theorem pending_next (p : Pass) (ok : Bool) (todo : List Target) :
    (Phase.next cfg p ok todo).pending cfg = none := by
  unfold Phase.next
  cases todo.dropWhile fun t => (p.delivery cfg t).upToDate <;> rfl

theorem pending_park (entries : List LogEntry) (view : CycleView) (reason : String) :
    (Phase.park entries view reason).pending cfg = none := by
  unfold Phase.park
  split <;> rfl

theorem pending_settings (entries : List LogEntry) (view : CycleView) (values : SettingValues) :
    (Phase.settings cfg entries view values).pending cfg = none := by
  refine Phase.settings_cases cfg entries view values rfl (fun _ _ => pending_park entries view _)
    fun _ _ _ _ _ => pending_next _ true _

theorem rowLe_written (f : Phase) (c : Cycle) (raw : String) :
    RowLe (chat? c.chats raw) (chat? (f.written cfg c).chats raw) := by
  unfold Phase.written
  cases f.pending cfg with
  | none => exact .refl _
  | some u => exact rowLe_upsertChat u c raw

theorem written_of_none {f : Phase} (h : f.pending cfg = none) (c : Cycle) :
    f.written cfg c = c := by
  rw [Phase.written, h, Option.elim_none]

theorem chats_written {f : Phase} {c c' : Cycle} (h : c'.chats = c.chats) :
    (f.written cfg c').chats = (f.written cfg c).chats := by
  unfold Phase.written
  cases f.pending cfg with
  | none => exact h
  | some u =>
      show (c'.upsertChat u).chats = (c.upsertChat u).chats
      simp only [Cycle.upsertChat, h]

/-- The row a posted message is going to be written to. -/
theorem chat?_posted {p : Pass} {ok : Bool} {t : Target} {todo : List Target} {c : Cycle}
    (r : SendResult) :
    chat? ((Phase.delivering p ok (t :: todo) (.posted r)).written cfg c).chats t.chat.rawId =
      some (((p.delivery cfg t).sent r).store (chat? c.chats t.chat.rawId)) := by
  have hchat : t.chat.rawId = ((p.delivery cfg t).sent r).chatId :=
    (sent_chatId (p.delivery cfg t) r).symm
  show chat? (c.upsertChat _).chats _ = _
  rw [chat?_upsertChat, if_pos hchat]

/-- The rows of the chats that are left are not touched by what is written of the one
before. -/
theorem rows_upsertChat {p : Pass} {t : Target} {todo : List Target} {c : Cycle} {u : ChatUpsert}
    (hu : u.chatId = t.rawId) (hnodup : ((t :: todo).map Target.rawId).Nodup)
    (hrows : ∀ t' ∈ t :: todo, chat? p.view.chats t'.rawId = chat? c.chats t'.rawId) :
    ∀ t' ∈ todo, chat? p.view.chats t'.rawId = chat? (c.upsertChat u).chats t'.rawId := by
  intro t' ht'
  rw [chat?_upsertChat, if_neg, hrows t' (List.mem_cons_of_mem _ ht')]
  rw [hu]
  intro heq
  have hmem : t'.rawId ∈ todo.map Target.rawId := List.mem_map.2 ⟨t', ht', rfl⟩
  rw [heq] at hmem
  exact (List.nodup_cons.1 hnodup).1 hmem

end TradingBroker.Broadcast
