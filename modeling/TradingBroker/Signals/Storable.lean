import TradingBroker.Signals.Ownership

/-!
# Which accepted alerts have a row

`WebhookPayload` decides which alerts are accepted, the columns of `signals` which
are stored, and neither asks the other: a bounded `String(50)` or `Numeric(20, 8)`
and a `jsonb` document stand behind fields pydantic takes at any length and size,
and with any extra keys. Postgres makes one allowance, for a text that is too long
by blanks alone, which is cut (`varchar`). What else falls between the two is never
persisted, so `handle_enqueued` raises on it every time and its message is NAK-ed
for ever.

Both directions are about whole runs. If the columns fit, an insert can only fail
because the database does, and with the database up the walk through
`handle_enqueued` meets no other exception (`settles_of_accepted`). If they do not,
no insert of the row ever succeeds, in any run (`RowsFit`), so no delivery of the
message finds one, and every delivery that is let through the gate raises at the
same place.
-/

namespace TradingBroker

open TradingBroker.Lib TradingBroker.Lib.Machine TradingBroker.Lib.Contract

/-- The columns take the payload's values. -/
def WebhookPayload.columnsFit (lib : Libraries) (payload : WebhookPayload) : Bool :=
  let pos := payload.position
  varcharFits 50 (varchar 50 payload.strategy) && varcharFits 50 (varchar 50 payload.symbol) &&
    varcharFits 20 (varchar 20 payload.timeframe) && timestampFits payload.timestamp &&
    numericFits 20 8 (PyFloat.orZero pos.price) &&
    numericFits 20 8 (PyFloat.orZero pos.quantity) && pos.sl.all (numericFits 20 8) &&
    pos.tp1.all (numericFits 20 8) && pos.tp2.all (numericFits 20 8) &&
    numericFits 10 4 payload.effectiveRiskPercent &&
    (pos.scaleStrategy.map (varchar 50)).all (varcharFits 50) &&
    (Json.obj payload.dump).storable lib.maxNesting

section
variable {lib : Libraries} {payload payload' : WebhookPayload} {msg : Message}

/-! ## Documents inside documents -/

theorem hasJsonbText_of_mem {kvs : List (PyStr × Json)} {k : PyStr} {v : Json}
    (h : Json.fieldsHaveJsonbText kvs = true) (hv : (k, v) ∈ kvs) : v.hasJsonbText = true := by
  induction kvs with
  | nil => cases hv
  | cons kv kvs ih =>
      obtain ⟨k', v'⟩ := kv
      simp only [Json.fieldsHaveJsonbText, Bool.and_eq_true] at h
      rcases List.mem_cons.1 hv with heq | hmem
      · cases heq
        exact h.1.2
      · exact ih h.2 hmem

theorem nesting_le_of_mem {kvs : List (PyStr × Json)} {k : PyStr} {v : Json}
    (hv : (k, v) ∈ kvs) : v.nesting ≤ Json.nestingFields kvs := by
  induction kvs with
  | nil => cases hv
  | cons kv kvs ih =>
      obtain ⟨k', v'⟩ := kv
      simp only [Json.nestingFields]
      rcases List.mem_cons.1 hv with heq | hmem
      · cases heq
        exact Nat.le_max_left _ _
      · exact (ih hmem).trans (Nat.le_max_right _ _)

theorem storable_iff {n : Nat} {v : Json} :
    v.storable n = true ↔ v.hasJsonbText = true ∧ v.nesting ≤ n := by
  rw [Json.storable, Bool.and_eq_true, decide_eq_true_eq]

/-- What a storable object holds is storable. -/
theorem storable_of_mem {n : Nat} {kvs : List (PyStr × Json)} {k : PyStr} {v : Json}
    (h : (Json.obj kvs).storable n = true) (hv : (k, v) ∈ kvs) : v.storable n = true := by
  obtain ⟨htext, hnest⟩ := storable_iff.1 h
  rw [Json.hasJsonbText] at htext
  rw [Json.nesting] at hnest
  rw [storable_iff]
  have hle := nesting_le_of_mem hv
  exact ⟨hasJsonbText_of_mem htext hv, by omega⟩

/-- So the two documents stored beside `raw` are, when `raw` is. -/
theorem storable_section {α : Type} {n : Nat} {kvs : List (PyStr × Json)} {k : PyStr}
    {section? : Option α} {dump : α → Json} (h : (Json.obj kvs).storable n = true)
    (hv : (k, dumpOpt dump section?) ∈ kvs) :
    ((section?.map dump).getD (.obj [])).storable n = true := by
  cases section? with
  | some v => exact storable_of_mem h hv
  | none =>
      obtain ⟨-, hnest⟩ := storable_iff.1 h
      rw [Json.nesting] at hnest
      have hempty : (Json.obj []).storable n = decide (1 ≤ n) := rfl
      rw [Option.map_none, Option.getD_none, hempty, decide_eq_true_eq]
      omega

/-! ## The delivery key -/

theorem length_toDigits_le {n : Nat} (h : n < 2 ^ 64) : (Nat.toDigits 10 n).length ≤ 20 := by
  rw [Nat.length_toDigits_le_iff (by omega) (by omega)]
  omega

/-- A delivery key always fits its column. -/
theorem deliveryKey_fits (msg : Message) : varcharFits 128 (deliveryKeyFor msg) = true := by
  have hseq := length_toDigits_le msg.seq_lt
  have htime := msg.timestamp.length_le
  have hstream : jetstreamSignalStream.length = 7 := by decide
  simp only [varcharFits, deliveryKeyFor, decide_eq_true_eq, String.length_append,
    Nat.toString_eq_repr, hstream]
  rw [← String.length_toList (s := msg.seq.repr), Nat.toList_repr]
  have h4 : "seq:".length = 4 := by decide
  have h1 : ":".length = 1 := by decide
  have h1' : "@".length = 1 := by decide
  omega

/-! ## The row -/

theorem storable_row (id : RowId) (now attempts : Int) :
    (Signal.ofPayload payload id now (some (deliveryKeyFor msg)) attempts).stored.storable lib =
      payload.columnsFit lib := by
  have hind : (Json.obj payload.dump).storable lib.maxNesting = true →
      (((payload.indicators.map IndicatorsSchema.dump).getD (.obj [])).storable
        lib.maxNesting) = true :=
    fun h => storable_section h (k := pyStr "indicators") (by simp [WebhookPayload.dump])
  have hinp : (Json.obj payload.dump).storable lib.maxNesting = true →
      (((payload.inputs.map InputsSchema.dump).getD (.obj [])).storable
        lib.maxNesting) = true :=
    fun h => storable_section h (k := pyStr "inputs") (by simp [WebhookPayload.dump])
  have hkey := deliveryKey_fits msg
  cases hraw : (Json.obj payload.dump).storable lib.maxNesting with
  | false =>
      simp only [Signal.storable, Signal.stored, Signal.ofPayload, WebhookPayload.columnsFit, hraw,
        Bool.and_false]
  | true =>
      simp only [Signal.storable, Signal.stored, Signal.ofPayload, WebhookPayload.columnsFit,
      hraw, hind hraw,
        hinp hraw, hkey, Option.all_some, Bool.and_true]

theorem isJsonbChar_uxid (u : Uxid) : u.1.all isJsonbChar = true := by
  have hu := u.2
  simp only [isValidUxid, Bool.and_eq_true, List.all_eq_true] at hu ⊢
  intro c hc
  have hhex := hu.2 c hc
  simp only [isUpperHex, Bool.or_eq_true, Bool.and_eq_true, decide_eq_true_eq] at hhex
  have hne : c ≠ 0 := by omega
  have hlt : ¬ 0xd800 ≤ c := by omega
  simp [isJsonbChar, hne, hlt]

/-- What is minted for an alert has no part in whether its row can be stored. -/
theorem columnsFit_body (h : payload.toWebhookBody = payload'.toWebhookBody) :
    payload.columnsFit lib = payload'.columnsFit lib := by
  obtain ⟨body, u⟩ := payload
  obtain ⟨body', u'⟩ := payload'
  cases h
  have hdump : (Json.obj (WebhookPayload.dump ⟨body, u⟩)).storable lib.maxNesting =
      (Json.obj (WebhookPayload.dump ⟨body, u'⟩)).storable lib.maxNesting := by
    simp only [Json.storable, Json.hasJsonbText, Json.nesting, WebhookPayload.dump,
      Json.fieldsHaveJsonbText, Json.nestingFields, isJsonbChar_uxid]
  simp only [WebhookPayload.columnsFit, hdump]

theorem payload?_body {minted minted' : Uxid} (h : msg.payload? lib minted = some payload)
    (h' : msg.payload? lib minted' = some payload') :
    payload.toWebhookBody = payload'.toWebhookBody := by
  unfold Message.payload? at h h'
  split at h
  · next envelope hdata =>
      rw [hdata] at h'
      obtain ⟨raw, hraw, hp⟩ := Option.bind_eq_some_iff.1 h
      obtain ⟨raw', hraw', hp'⟩ := Option.bind_eq_some_iff.1 h'
      rw [hraw] at hraw'
      cases hraw'
      have hbody := validate_body lib.coerce raw minted minted'
      rw [hp, hp', Option.map_some, Option.map_some] at hbody
      exact Option.some.inj hbody
  · cases h

end

/-! ## With the database up -/

/-- The calls that leave the broker for the workers or for Telegram. -/
def Call.leavesBroker : Call → Bool
  | .publish _ => true
  | .broadcast _ _ => true
  | .notifyBlocked _ => true
  | .replyAck _ => true
  | _ => false

/-- The database and JetStream do what the worker asks, and draw fresh ids. -/
def databaseUp (s : Shared) : Label Party Context Choice Event Call → Bool
  | .call .worker _ c x =>
      (c.leavesBroker || x.outcome == .ok) && s.rows.all fun r => r.id != x.id
  | _ => true

section
variable {lib : Libraries} {cfg : Config} {payload : WebhookPayload} {msg : Message}
  {minted : Uxid} {s t u : Shared} {m : Nat} {l : Label Party Context Choice Event Call}

/-- The payload is accepted, and the columns take it. -/
def Accepted (lib : Libraries) (msg : Message) : Prop :=
  ∃ minted payload, msg.payload? lib minted = some payload ∧ payload.columnsFit lib = true

theorem Accepted.fits (h : Accepted lib msg) (hpay : msg.payload? lib minted = some payload) :
    payload.columnsFit lib = true := by
  obtain ⟨minted', payload', hpay', hfit⟩ := h
  rw [columnsFit_body (payload?_body hpay hpay')]
  exact hfit

theorem Accepted.readable (h : Accepted lib msg) : msg.data ≠ .unreadable := by
  obtain ⟨minted, payload, hpay, -⟩ := h
  intro hdata
  rw [Message.payload?, hdata] at hpay
  cases hpay

theorem databaseUp_call {k : Context} {c : Call} {x : Choice}
    (h : databaseUp s (.call .worker k c x) = true) :
    (c.leavesBroker = false → x.reports = true) ∧ s.rows.all (fun r => r.id != x.id) = true := by
  rw [databaseUp, Bool.and_eq_true, Bool.or_eq_true] at h
  refine ⟨fun hc => ?_, h.2⟩
  rw [hc] at h
  exact h.1.resolve_left (by simp)

/-- Nothing the worker asks of the database for the message is refused. -/
theorem not_refused (hinv : Inv t) (hmsg : t.stream[m]? = some msg) (hacc : Accepted lib msg)
    {c : Call} {x : Choice} (hl : May lib cfg .worker (some m) c t)
    (hup : databaseUp t (.call .worker (some m) c x) = true) :
    c.refused (respond lib x t c) = false := by
  obtain ⟨hcall, hid⟩ := databaseUp_call hup
  cases c with
  | getStrict key =>
      have hok := hcall rfl
      simp only [respond, Choice.orRaise, hok, if_true]
      rfl
  | getByDeliveryKey key =>
      have hok := hcall rfl
      simp only [respond, Choice.orRaise, hok, if_true]
      rfl
  | logSignal payload key attempts =>
      have hok := hcall rfl
      obtain ⟨msg', a, hat, ⟨-, -, rfl, rfl, hun, minted, -, hpay⟩ |
        ⟨-, r, -, -, -, _, _, -, -, hf⟩⟩ := hl
      · have hmm := hat.stored
        rw [hmsg] at hmm
        cases hmm
        have hins : Signal.insertable lib t.rows
            (newRow payload (some (deliveryKeyFor msg)) cfg.maxAttempts x t) = true := by
          rw [Signal.insertable, newRow, storable_row, hacc.fits hpay, Bool.true_and,
            Bool.and_eq_true, Bool.or_eq_true]
          refine ⟨hid, .inr (List.all_eq_true.2 fun r hr => ?_)⟩
          rw [bne_iff_ne]
          exact hun r hr
        simp only [respond, hok, hins, Bool.and_self, if_true]
        rfl
      · exact hf.elim
  | markFailed id =>
      have hok := hcall rfl
      obtain ⟨r, hr, rfl, -⟩ := may_markFailed hl
      simp only [respond, hok, Signal.byId_of_mem hinv.ids hr, Option.isSome_some]
      rfl
  | recordAttemptFailure id =>
      have hok := hcall rfl
      obtain ⟨r, hr, rfl, -⟩ := may_recordAttemptFailure hl
      simp only [respond, hok, Signal.byId_of_mem hinv.ids hr, Option.map_some, if_true]
      rfl
  | _ => rfl

/-- What the worker has asked for the message so far was done, and an ack or a term
has settled it. -/
structure Clean (lib : Libraries) (m : Nat) (s : Shared) : Prop where
  stored : ∀ c r, Entry.call .worker (some m) c r ∈ s.trace → ∃ msg, s.stream[m]? = some msg
  calls : ∀ msg, s.stream[m]? = some msg → Accepted lib msg → ∀ c r,
    Entry.call .worker (some m) c r ∈ s.trace →
      c.refused r = false ∧ c ≠ .inProgress ∧ c ≠ .nak ∧
        (c = .ack ∨ c = .term → s.gone m = true)

theorem Clean.not_troubled (h : Clean lib m s) (hmsg : s.stream[m]? = some msg)
    (hacc : Accepted lib msg) : ¬ Troubled .worker (some m) s := by
  rintro ⟨c, r, hmem, href⟩
  rw [(h.calls msg hmsg hacc c r hmem).1] at href
  cases href

/-- The call just made for the message. -/
theorem Clean.call (hinv : Inv t) {c : Call} {x : Choice} (hl : May lib cfg .worker (some m) c t)
    (ha : (pipeline lib cfg).act (.call .worker (some m) c x) t = some u)
    (hup : databaseUp t (.call .worker (some m) c x) = true) (h : Clean lib m t)
    (hmsg : t.stream[m]? = some msg) (hacc : Accepted lib msg) :
    c.refused (respond lib x t c) = false ∧ c ≠ .inProgress ∧ c ≠ .nak ∧
      (c = .ack ∨ c = .term → u.gone m = true) := by
  refine ⟨not_refused hinv hmsg hacc hl hup, ?_, ?_, ?_⟩
  · rintro rfl
    obtain ⟨msg', a, hat, hw | ⟨-, r, -, -, -, _, _, -, -, hf⟩⟩ := hl
    · have hw : Troubled .worker a.message t := hw
      rw [hat.message] at hw
      exact h.not_troubled hmsg hacc hw
    · exact hf.elim
  · rintro rfl
    obtain ⟨msg', a, hat, hw | ⟨-, r, -, -, -, _, _, -, -, hf⟩⟩ := hl
    · have hmm := hat.stored
      rw [hmsg] at hmm
      cases hmm
      rcases hw with hdata | ht
      · exact hacc.readable hdata
      · rw [hat.message] at ht
        exact h.not_troubled hmsg hacc ht
    · exact hf.elim
  · intro hc
    have hx : x.applies = true := by
      refine applies_of_reports ((databaseUp_call hup).1 ?_)
      rcases hc with rfl | rfl <;> rfl
    rw [act_call] at ha
    subst ha
    rw [Shared.log_gone, effect_gone, if_pos hx]
    rcases hc with rfl | rfl <;> simp [settle]

theorem Clean.step (hinv : Inv t) (hl : l.Allowed (May lib cfg) t)
    (ha : (pipeline lib cfg).act l t = some u) (hup : databaseUp t l = true)
    (h : Clean lib m t) : Clean lib m u := by
  have hg := act_grows ha
  have hold : ∀ c r, Entry.call .worker (some m) c r ∈ u.trace →
      Entry.call .worker (some m) c r ∈ t.trace ∨
        ∃ x, l = .call .worker (some m) c x ∧ r = respond lib x t c := by
    intro c r hmem
    rw [act_trace ha, List.mem_append] at hmem
    rcases hmem with hnew | hmem
    · right
      cases l with
      | call i k c' x =>
          rw [traced, List.mem_singleton] at hnew
          cases hnew
          exact ⟨x, rfl, rfl⟩
      | start i e =>
          rw [traced, List.mem_singleton] at hnew
          cases hnew
      | env e => cases hnew
      | crash i k =>
          rw [traced, List.mem_singleton] at hnew
          cases hnew
    · exact .inl hmem
  have hstored : ∀ c r, Entry.call .worker (some m) c r ∈ u.trace →
      ∃ msg, t.stream[m]? = some msg := by
    intro c r hmem
    rcases hold c r hmem with hmem' | ⟨x, rfl, -⟩
    · exact h.stored c r hmem'
    · obtain ⟨msg, a, hat, -⟩ := hl
      exact ⟨msg, hat.stored⟩
  refine ⟨?_, ?_⟩
  · intro c r hmem
    obtain ⟨msg, hmsg⟩ := hstored c r hmem
    exact ⟨msg, hg.stream m msg hmsg⟩
  · intro msg hmsg hacc c r hmem
    obtain ⟨msg', hmsg'⟩ := hstored c r hmem
    have heq := hg.stream m msg' hmsg'
    rw [hmsg] at heq
    cases heq
    rcases hold c r hmem with hmem' | ⟨x, rfl, rfl⟩
    · obtain ⟨href, hip, hnak, hgone⟩ := h.calls msg hmsg' hacc c r hmem'
      exact ⟨href, hip, hnak, fun hc => hg.gone m (hgone hc)⟩
    · exact h.call hinv hl ha hup hmsg' hacc

theorem not_insertable (hfit : payload.columnsFit lib = false) (rows : List Signal) (id : RowId)
    (now attempts : Int) : Signal.insertable lib rows
      (Signal.ofPayload payload id now (some (deliveryKeyFor msg)) attempts).stored = false := by
  rw [Signal.insertable, storable_row, hfit]
  rfl

/-- A message with a row is one whose payload the columns take. -/
def RowsFit (lib : Libraries) (s : Shared) : Prop :=
  ∀ m r msg minted payload, IsRowOf s m r → s.stream[m]? = some msg →
    msg.payload? lib minted = some payload → payload.columnsFit lib = true

theorem RowsFit.step (hinv : Inv t) (hinv' : Inv u) (hl : l.Allowed (May lib cfg) t)
    (ha : (pipeline lib cfg).act l t = some u) (h : RowsFit lib t) : RowsFit lib u := by
  intro m r' msg minted payload hr' hmsg hpay
  rcases hr'.backward hinv hinv' hl ha with ⟨r, hr, -⟩ | hins
  · obtain ⟨-, msg₀, hm₀, -⟩ := id hr
    have heq := (act_grows ha).stream m msg₀ hm₀
    rw [hmsg] at heq
    cases heq
    exact h m r msg minted payload hr hm₀ hpay
  · obtain ⟨m', msg', a, minted', payload', x, -, hat, -, -, hpay', rfl, hok⟩ := hins
    obtain ⟨-, msg₁, hm₁, hof⟩ := hr'
    rw [hmsg] at hm₁
    cases hm₁
    have hm' := (act_grows ha).stream m' msg' hat.stored
    have hmm := hinv'.place_unique hm' hmsg (isOf_unique (r := newRow payload' _ _ x t) rfl hof)
    subst hmm
    rw [hmsg] at hm'
    cases hm'
    rw [columnsFit_body (payload?_body hpay hpay')]
    by_contra hfit
    rw [newRow, not_insertable (Bool.eq_false_iff.2 hfit)] at hok
    cases hok

/-- Whatever happens, an alert the columns do not take has no row, and its message
is settled by a closed gate alone. -/
theorem unfit_is_never_settled {now : Int} {settings : String → Option String}
    {p q : Pool Party Context Shared Call Call.Result Fault}
    (hpay : msg.payload? lib minted = some payload) (hfit : payload.columnsFit lib = false)
    (hrun : (pipeline lib cfg).Runs (startPool now settings) p)
    (hmsg : p.shared.stream[m]? = some msg) :
    (∀ r, ¬ IsRowOf p.shared m r) ∧
      ∀ c x, c = .ack ∨ c = .term →
        (pipeline lib cfg).Step p (.call .worker (some m) c x) q →
        (activity .worker p.shared.trace).answer = some .blocked := by
  have hfits : RowsFit lib p.shared := by
    refine (reaches_good hrun).2.induct (J := RowsFit lib) ?_
      fun t l u ht hu hl _ ha hj => hj.step ht hu hl ha
    rintro m r msg minted payload ⟨hr, -⟩
    cases hr
  have hrows : ∀ r, ¬ IsRowOf p.shared m r := by
    intro r hr
    rw [hfits m r msg minted payload hr hmsg hpay] at hfit
    cases hfit
  refine ⟨hrows, ?_⟩
  intro c x hc hstep
  have hmay : May lib cfg .worker (some m) c p.shared := (reaches_step hrun hstep).1
  obtain ⟨msg', a, hat, hw | ⟨-, r, -, -, -, _, _, -, -, hf⟩⟩ := hmay
  · have hmm := hat.stored
    rw [hmsg] at hmm
    cases hmm
    rw [hat.activity]
    rcases hc with rfl | rfl
    · rcases hw with ⟨-, hanswer⟩ | ⟨r, hr, hof, -⟩
      · exact hanswer
      · exact absurd ⟨hr, msg, hmsg, hof⟩ (hrows r)
    · rw [hw minted] at hpay
      cases hpay
  · rcases hc with rfl | rfl <;> exact hf.elim

/-- A worker that has the first delivery of the alert in its hands, over an empty
table and with no setting stored. -/
structure AtFirst (lib : Libraries) (cfg : Config) (msg : Message) (prog : Prog Unit)
    (p : Pool Party Context Shared Call Call.Result Fault) : Prop where
  run : (pipeline lib cfg).Reaches (fun s l => databaseUp s l = true)
    (startPool 0 fun _ => none) p
  thread : p.threads .worker = (some 0, prog)
  stored : p.shared.stream[0]? = some msg
  rows : p.shared.rows = []
  unset : p.shared.settings "signal_blocked" = none

variable (minted) in
/-- It makes a call that succeeds and writes nothing. -/
theorem AtFirst.call {p : Pool Party Context Shared Call Call.Result Fault} {c : Call}
    {f : c.Result → Prog Unit} {r : c.Result} (h : AtFirst lib cfg msg (.call c f) p)
    (hr : ∀ s : Shared, s.rows = [] → s.settings "signal_blocked" = none →
      respond lib ⟨.ok, 0, minted⟩ s c = r ∧ writeRows lib ⟨.ok, 0, minted⟩ s c = s.rows) :
    ∃ q, AtFirst lib cfg msg (f r) q ∧ Entry.call .worker (some 0) c r ∈ q.shared.trace := by
  obtain ⟨hresp, hrows⟩ := hr p.shared h.rows h.unset
  have hup : databaseUp p.shared (.call .worker (some 0) c ⟨.ok, 0, minted⟩) = true := by
    rw [databaseUp, h.rows]
    simp
  obtain ⟨q, hrun, hq, hth⟩ := h.run.call h.thread (x := ⟨.ok, 0, minted⟩)
    (exec_eq.2 ⟨hresp, rfl⟩) hup
  refine ⟨q, ⟨hrun, hth, ?_, ?_, ?_⟩, ?_⟩
  · rw [hq, Shared.log_stream, effect_stream]
    exact h.stored
  · rw [hq, Shared.log_rows, effect_rows, hrows, ite_self]
    exact h.rows
  · rw [hq, Shared.log_settings]
    unfold effect
    split
    · exact h.unset
    · exact h.unset
  · rw [hq, Shared.log_trace]
    exact List.mem_cons_self

end

namespace Sample

end Sample

end TradingBroker
