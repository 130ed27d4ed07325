import TradingBroker.Broadcast.Phases

/-!
# What a pass has read

The cycle and the settings a pass goes by are the last answers it got since it
began. A pass that parks, delivers or calls Telegram has read them, and does so
because of what they say (`reads`).

It is an invariant of the trace and the phase: the phase of a pass holds copies
of what it was answered, and an answer to a read of another pass, or an earlier
one, is not among them.
-/

namespace TradingBroker.Broadcast

open TradingBroker.Lib

section
variable {D : Type}

/-- A pass begins. -/
def Entry.wakes : Entry D → Bool
  | .started (.pass _) => true
  | _ => false

/-- What has happened since the last pass began. -/
def thisPass (trace : List (Entry D)) : List (Entry D) := trace.takeWhile fun e => !e.wakes

theorem mem_thisPass_cons {e e' : Entry D} {t : List (Entry D)} (h : e' ∈ thisPass (e :: t)) :
    e' = e ∨ e' ∈ thisPass t := by
  rw [thisPass, List.takeWhile_cons] at h
  split at h
  · exact List.mem_cons.1 h
  · cases h

end

/-- The cycle as the pass has loaded it. -/
def readView : List (Entry Unit) → Option CycleView
  | .started (.pass _) :: _ => none
  | .call _ .loadCycle answer :: _ => answer
  | _ :: t => readView t
  | [] => none

/-- The settings as the pass has read them. -/
def readValues : List (Entry Unit) → Option SettingValues
  | .started (.pass _) :: _ => none
  | .call _ .getMany values :: _ => some values
  | _ :: t => readValues t
  | [] => none

section
variable (cfg : Config)

/-- Nothing is broadcast under these settings. -/
def Config.Parks (v : SettingValues) : Prop := v.silent = true ∨ cfg.targets v = some []

/-- There is a chat to broadcast into. -/
def Config.Broadcasts (v : SettingValues) : Prop :=
  v.silent = false ∧ ∃ ts, cfg.targets v = some ts ∧ ts ≠ []

def Phase.Read (t : List (Entry Unit)) : Phase → Prop
  | .begun | .claimed _ | .gone _ => readValues t = none
  | .loaded _ view => readView t = some view ∧ readValues t = none
  | .dropping _ view => readView t = some view ∧ ∃ v, readValues t = some v ∧ cfg.Parks v
  | .parking _ view _ _ => readView t = some view ∧ ∃ v, readValues t = some v ∧ cfg.Parks v
  | .delivering p _ _ _ =>
      readView t = some p.view ∧ readValues t = some p.values ∧ cfg.Broadcasts p.values
  | _ => True

end

variable {cfg : Config}

theorem not_broadcasts_of_parks {v : SettingValues} (h : cfg.Parks v) : ¬ cfg.Broadcasts v := by
  rintro ⟨hsilent, ts, hts, hne⟩
  rcases h with h | h
  · rw [hsilent] at h
    cases h
  · rw [h] at hts
    exact hne (Option.some.inj hts).symm

theorem readView_call {i : Party Unit} {c : Call} {r : c.Result} (h : c ≠ .loadCycle)
    (t : List (Entry Unit)) : readView (.call i c r :: t) = readView t := by
  cases c with
  | loadCycle => exact absurd rfl h
  | _ => rfl

theorem readValues_call {i : Party Unit} {c : Call} {r : c.Result} (h : c ≠ .getMany)
    (t : List (Entry Unit)) : readValues (.call i c r :: t) = readValues t := by
  cases c with
  | getMany => exact absurd rfl h
  | _ => rfl

/-- What is read does not change while the pass is at work. -/
theorem Phase.Read.call {i : Party Unit} {c : Call} {r : c.Result} {f : Phase}
    {t : List (Entry Unit)} (h : f.Read cfg t) (hl : c ≠ .loadCycle) (hg : c ≠ .getMany) :
    f.Read cfg (.call i c r :: t) := by
  cases f with
  | begun | claimed | gone | loaded | dropping | parking | delivering =>
      simp only [Phase.Read, readView_call hl, readValues_call hg]
      exact h
  | rest | finished | reclaiming | listing => trivial

theorem read_next {p : Pass} {ok : Bool} {todo : List Target} {t : List (Entry Unit)}
    (hview : readView t = some p.view) (hvalues : readValues t = some p.values)
    (hb : cfg.Broadcasts p.values) : (Phase.next cfg p ok todo).Read cfg t :=
  ⟨hview, hvalues, hb⟩

theorem read_park {entries : List LogEntry} {view : CycleView} {reason : String}
    {v : SettingValues} {t : List (Entry Unit)} (hview : readView t = some view)
    (hvalues : readValues t = some v) (hp : cfg.Parks v) :
    (Phase.park entries view reason).Read cfg t := by
  unfold Phase.park
  split
  · exact ⟨hview, v, hvalues, hp⟩
  · exact ⟨hview, v, hvalues, hp⟩

theorem Moves.read {i : Party Unit} {f f' : Phase} {c : Call} {r : c.Result}
    {t : List (Entry Unit)} (hm : Moves cfg f c r f') (h : f.Read cfg t) :
    f'.Read cfg (.call i c r :: t) := by
  cases hm with
  | claim =>
      split
      · trivial
      · exact h
  | load => exact ⟨rfl, h⟩
  | settings entries view values =>
      have hview : readView (.call i .getMany values :: t) = some view := h.1
      refine Phase.settings_cases cfg entries view values trivial
        (fun _ hparks => read_park hview rfl hparks)
        fun ts hsilent hts hne _ => read_next hview rfl ⟨hsilent, ts, hts, hne⟩
  | catchUp entries view reason chat todo => exact h.call nofun nofun
  | edit p ok t' todo messageId hid outcome => exact h.call nofun nofun
  | send p ok t' todo stage hstage r => exact h.call nofun nofun
  | reply p ok t' todo messageId sent notice left taken => exact h.call nofun nofun
  | edited | refused | posted => exact read_next h.1 h.2.1 h.2.2
  | missed => exact h
  | gone | drop | defer | finish | mark | reclaim | list => trivial

/-- Another task's entry changes nothing that is read. -/
theorem Phase.Read.sweep {c : Call} {r : c.Result} {f : Phase} {t : List (Entry Unit)}
    (h : f.Read cfg t) (hc : c = .reclaimStaleLogs ∨ c = .listCycle) :
    f.Read cfg (.call (.sweep ()) c r :: t) := by
  rcases hc with rfl | rfl
  · exact h.call nofun nofun
  · exact h.call nofun nofun

theorem read_step {s s' : Board Unit} {l : Step Unit}
    (hl : l.Due (passes cfg) (fun i s => phase cfg i s.trace) s)
    (ha : (dispatchers cfg Unit).act l s = some s')
    (h : (phase cfg (.pass ()) s.trace).Read cfg s.trace) :
    (phase cfg (.pass ()) s'.trace).Read cfg s'.trace := by
  rcases due_cases hl ha with ⟨i, c, x, rfl, hcall, rfl⟩ | ⟨i, e, rfl, hcall, rfl⟩ |
    ⟨e, rfl, he⟩ | ⟨i, rfl, rfl⟩
  · rw [Board.log_trace, effect_trace]
    cases i with
    | pass u =>
        rw [phase_call_self]
        exact (moves hcall _).read h
    | sweep u =>
        rw [phase_call_other (by nofun)]
        exact h.sweep (sweep_call hcall)
  · cases i with
    | pass u =>
        rw [Board.log_trace, phase_started_self]
        rfl
    | sweep u =>
        rw [Board.log_trace, phase_started_other (by nofun)]
        cases hf : phase cfg (.pass ()) s.trace <;> rw [hf] at h <;> exact h
  · rw [event_trace he]
    exact h
  · cases i with
    | pass u =>
        rw [Board.log_trace, phase_died_self]
        trivial
    | sweep u =>
        rw [Board.log_trace, phase_died_other (by nofun)]
        cases hf : phase cfg (.pass ()) s.trace <;> rw [hf] at h <;> exact h

theorem reads {cond : Board Unit → Step Unit → Prop} {r : EventRecord} {now : Int}
    {v : SettingValues} {p : World Unit}
    (h : (dispatchers cfg Unit).Reaches cond (opened r now v) p) :
    (phase cfg (.pass ()) p.shared.trace).Read cfg p.shared.trace :=
  (conducts Unit cfg).induct (J := fun s => (phase cfg (.pass ()) s.trace).Read cfg s.trace)
    (good_opened r now v) h trivial fun _ _ _ hl _ ha h => read_step hl ha h

end TradingBroker.Broadcast
