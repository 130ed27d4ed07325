import TradingBroker.Signals.Runs

/-!
# No signal is lost at its ack

An ack takes the message out of the stream for good, so at that moment something
else has to answer for the signal: the gate that stopped it, a worker that was
sent it, a row that has failed, or a row the retry job will come to. The worker
acks only when `handle_enqueued` has returned, and what it then knows of its row
(`Answered`) no other party can undo.

What answers is of two kinds. That the gate stopped it is on the worker's own
record of this delivery, which nobody else writes. That a row of it is sent,
failed or waiting for the retry job is a fact that lasts (`Done`): one of the
three may become another, and none of them is ever undone, so it holds at the
ack if it held when the coroutine found it. There is no ack after an exception:
`_handle_one` retries in place and NAKs then.
-/

namespace TradingBroker

open TradingBroker.Lib

/-- The gate was read closed in this delivery, and the answer was `blocked`. -/
def StoppedByGate (s : Shared) : Prop :=
  (activity .worker s.trace).gate = some (some "1") ∧
    (activity .worker s.trace).answer = some .blocked

/-- The retry job will come to the row: it is `QUEUED` with attempts left and a failure
on record, and `list_retryable` returns it from the moment on when the cool-down has
passed. Stated of the query at every later time, since nobody can say when the job
looks. -/
def WillBeRetried (cfg : Config) (s : Shared) (r : Signal) : Prop :=
  r.status = .queued ∧ 0 < r.attempts ∧ ∃ last, r.lastAttempt = some last ∧
    ∀ later, last < later - Signal.microseconds cfg.retryInterval →
      r ∈ Signal.listRetryable s.rows later cfg.retryInterval

/-- Something answers for the message's signal. -/
def Settled (cfg : Config) (s : Shared) (msg : Message) : Prop :=
  StoppedByGate s ∨
    ∃ r ∈ s.rows, r.isOf msg ∧ (Sent s r.id ∨ r.status = .failed ∨ WillBeRetried cfg s r)

section
variable {lib : Libraries} {cfg : Config} {now : Int} {settings : String → Option String}
  {p q : Pool Party Context Shared Call Call.Result Fault} {s : Shared} {r : Signal}

theorem willBeRetried_of_awaitsRetry (hinv : Inv s) (hr : r ∈ s.rows)
    (hw : r.awaitsRetry = true) : WillBeRetried cfg s r := by
  have hatt := (hinv.rows r hr).attempts hw
  simp only [Signal.awaitsRetry, Bool.and_eq_true, beq_iff_eq, bne_iff_ne] at hw
  obtain ⟨hst, hlast⟩ := hw
  obtain ⟨last, hsome⟩ := Option.ne_none_iff_exists'.1 hlast
  refine ⟨hst, hatt, last, hsome, fun later hlater => ?_⟩
  rw [Signal.listRetryable, Signal.mem_oldestFirst, List.mem_filter]
  refine ⟨hr, ?_⟩
  simp [Signal.isRetryable, hst, hatt, hsome, hlater]

theorem settled_of_done (hinv : Inv s) {msg : Message} (hr : r ∈ s.rows) (hof : r.isOf msg)
    (hd : Done s r) : Settled cfg s msg := by
  refine .inr ⟨r, hr, hof, ?_⟩
  rcases hd with hs | hf | hw
  · exact .inl hs
  · exact .inr (.inl hf)
  · exact .inr (.inr (willBeRetried_of_awaitsRetry hinv hr hw))

/-- In every run, whenever a message is acked something answers for its signal. -/
theorem acked_is_settled {i : Party} {k : Context} {x : Choice}
    (hrun : (pipeline lib cfg).Runs (startPool now settings) p)
    (hstep : (pipeline lib cfg).Step p (.call i k .ack x) q) :
    ∃ m msg, k = some m ∧ p.shared.stream[m]? = some msg ∧ Settled cfg p.shared msg := by
  have hinv := reaches_inv hrun
  have hmay : May lib cfg i k .ack p.shared := (reaches_step hrun hstep).1
  have hi := may_settle hmay (.inl rfl)
  subst hi
  cases k with
  | none => exact hmay.elim
  | some m =>
      obtain ⟨msg, a, hat, hack | ⟨-, r, -, -, -, _, _, -, -, hf⟩⟩ := hmay
      · refine ⟨m, msg, rfl, hat.stored, ?_⟩
        rcases hack with ⟨hshut, hanswer⟩ | ⟨r, hr, hof, hd⟩
        · left
          rw [StoppedByGate, hat.activity]
          exact ⟨hshut, hanswer⟩
        · exact settled_of_done hinv hr hof hd
      · exact hf.elim

end

def Call.isAck : Call → Bool
  | .ack => true
  | _ => false

/-- The alert's only publish fails, the failure is recorded, and the message is
acked with its row left to the retry job. -/
theorem acked_is_settled_after_failure :
    ∃ p q, (pipeline Sample.lib Sample.cfg).Step p (.call .worker (some 0) .ack Sample.ok) q ∧
      ∃ m msg, some 0 = some m ∧ p.shared.stream[m]? = some msg ∧
        Settled Sample.cfg p.shared msg := by
  obtain ⟨p, hrun, hp⟩ := Sample.run_any
    ([.env (.store Sample.entry), .start .worker (.deliver 0)] ++
      Sample.calls .worker 5 ++ [.call .worker Sample.failed] ++ Sample.calls .worker 2)
    (fun p => (p.threads .worker).1 == some 0 &&
      (p.threads .worker).2.next?.any Call.isAck) (by decide +kernel)
  simp only [Bool.and_eq_true, beq_iff_eq, Option.any_eq_true] at hp
  obtain ⟨hk, c, hc, hack⟩ := hp
  cases c <;> simp only [Call.isAck, Bool.false_eq_true] at hack
  obtain ⟨q, hstep⟩ := step_next (x := Sample.ok) hc
  rw [hk] at hstep
  exact ⟨p, q, hstep, acked_is_settled hrun hstep⟩

end TradingBroker
