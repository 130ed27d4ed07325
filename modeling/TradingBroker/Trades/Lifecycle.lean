import TradingBroker.Lib.Machine
import TradingBroker.Trades.Table

/-!
# The lifecycle of a trade

Reports of one position arrive in any order and any number of times, and a call may
be refused or fail. What the table is meant to hold afterwards depends on the ranks of
the reports that were received and on nothing else: the one row of the position has the
status of a report of the greatest rank, a report of a lower rank leaves the table as it
is, and what was received once can be received again (`OrderIndependent`).

An upsert looks its row up under the texts of the report and writes them into columns of
limited length, which cut what is too long by blanks only (`varchar`). As long as the key
comes out of the columns as it went in, the next report of the position finds the row of
the first, and `Follows` is kept from report to report. If something of the key is cut, the
next report finds nothing and inserts once more: a second row where the position has no
gateway, and a clash with the unique constraint where it has one. These are all the
positions there are (`lifecycle_order_independent_iff`), since of a key that cannot be
stored at all no report is ever received.
-/

namespace TradingBroker.Trades

open TradingBroker.Lib TradingBroker.TradeStatusPolicy

variable {e : PositionEvent} {x : Draw} {s s' : Store} {status : TradeStatus}
  {answer : Option Trade} {p : Position} {row old : Trade}

/-! ## Rows of a position -/

theorem isOf_update (h : old.isOf (position e) = true) :
    (old.update e status).isOf (position e) = true := by
  simp only [Trade.isOf, Trade.update, position, Bool.and_eq_true, Bool.or_eq_true, beq_iff_eq,
    Option.isNone_iff_eq_none] at h ⊢
  refine ⟨⟨h.1.1, trivial⟩, ?_⟩
  cases hgateway : e.gateway with
  | some gateway => exact .inl rfl
  | none =>
    rw [hgateway] at h
    exact h.2

theorem isOf_ofEvent {id : RowId} (h : Trade.ofEvent e status id = some row) :
    row.isOf (position e) = true := by
  obtain ⟨action, -, rfl⟩ := Option.map_eq_some_iff.1 h
  simp [Trade.isOf, position]

/-- The only row of a position. -/
theorem mem_of_only (h : s.trades.filter (Trade.isOf p) = [row]) :
    row ∈ s.trades ∧ row.isOf p = true := by
  have hmem : row ∈ s.trades.filter (Trade.isOf p) := by
    rw [h]
    exact List.mem_singleton.2 rfl
  exact List.mem_filter.1 hmem

/-- What a first report inserts. -/
theorem ofEvent_stored {id : RowId}
    (h : (Trade.ofEvent e status id).map Trade.stored = some row) :
    row.isOf (position e).stored = true ∧ row.status = status ∧
      row.isRunning = isOpen e.status := by
  obtain ⟨built, hbuilt, rfl⟩ := Option.map_eq_some_iff.1 h
  refine ⟨Trade.isOf_stored (isOf_ofEvent hbuilt), ?_⟩
  obtain ⟨action, -, rfl⟩ := Option.map_eq_some_iff.1 hbuilt
  exact ⟨rfl, rfl⟩

/-! ## The values of a report -/

/-- The values a report brings for the account fit its columns. -/
def accountTakes (e : PositionEvent) : Bool :=
  (e.accountName.map (varchar 255)).all (textFits 255) &&
    e.accountBalance.all (numericFits 20 8) && (e.gateway.map (varchar 50)).all (textFits 50)

/-- And those it brings for a trade that is there. -/
def tradeTakes (e : PositionEvent) : Bool :=
  (e.gateway.map (varchar 50)).all (textFits 50) && e.accountBalance.all (numericFits 20 8) &&
    numericFits 20 8 (tradePrice e) && numericFits 20 8 e.volume &&
    (e.comment.map (varchar 255)).all (textFits 255) && e.gatewayReturnCode.all integerFits &&
    ((toLastAction e.status).map (varchar 20)).all (textFits 20) &&
    (e.rejectReason.map (varchar 255)).all (textFits 255)

/-- A value that is only written when it is there. -/
theorem all_or {α : Type} {f : α → Bool} {new old : Option α} (hold : old.all f = true) :
    (new.or old).all f = new.all f := by
  cases new with
  | none => exact hold
  | some a => rfl

theorem textFits_or {n : Nat} {new old : Option String} (hold : old.all (textFits n) = true) :
    ((new.or old).map (varchar n)).all (textFits n) = (new.map (varchar n)).all (textFits n) := by
  rw [Option.map_or]
  exact all_or (by rw [map_varchar_of_textFits hold]; exact hold)

/-- A row that fits takes a report exactly if the report's values fit. -/
theorem account_update_fits {r : Account} {now : Int} (h : r.fits = true) :
    (r.update e now).stored.fits = accountTakes e := by
  simp only [Account.fits, Bool.and_eq_true] at h
  obtain ⟨⟨⟨hid, hname⟩, hbalance⟩, hgateway⟩ := h
  simp only [Account.fits, Account.stored, Account.update, accountTakes, textFits_or hname,
    textFits_or hgateway, all_or hbalance, varchar_of_textFits hid, hid, Bool.true_and]

theorem account_ofEvent_fits {id : RowId} {now : Int}
    (h : (Account.ofEvent e id now).stored.fits = true) : accountTakes e = true := by
  simp only [Account.fits, Account.stored, Account.ofEvent, Bool.and_eq_true] at h
  simp only [accountTakes, Bool.and_eq_true]
  exact ⟨⟨h.1.1.2, h.1.2⟩, h.2⟩

theorem trade_update_fits {r : Trade} (h : r.fits = true) :
    (r.update e status).stored.fits = tradeTakes e := by
  simp only [Trade.fits, Bool.and_eq_true] at h
  obtain ⟨⟨⟨⟨⟨⟨⟨⟨⟨⟨⟨⟨⟨⟨⟨⟨⟨⟨hid, hgateway⟩, hleverage⟩, hinit⟩, hbalance⟩, hstrategy⟩, hcode⟩, href⟩,
    hsymbol⟩, -⟩, -⟩, hsl⟩, htp1⟩, htp2⟩, hrisk⟩, hcomment⟩, hreturn⟩, -⟩, hreject⟩ := h
  simp only [Trade.fits, Trade.stored, Trade.update, tradeTakes, textFits_or hgateway,
    textFits_or hcomment, textFits_or hreject, all_or hbalance, all_or hreturn,
    varchar_of_textFits hid, varchar_of_textFits hstrategy, varchar_of_textFits hcode,
    varchar_of_textFits hsymbol, map_varchar_of_textFits href, hid, hleverage, hinit, hstrategy,
    hcode, href, hsymbol, hsl, htp1, htp2, hrisk, Bool.and_true, Bool.true_and]

theorem trade_ofEvent_fits {id : RowId}
    (h : (Trade.ofEvent e status id).map Trade.stored = some row) (hfits : row.fits = true) :
    tradeTakes e = true := by
  obtain ⟨built, hbuilt, rfl⟩ := Option.map_eq_some_iff.1 h
  obtain ⟨action, -, rfl⟩ := Option.map_eq_some_iff.1 hbuilt
  simp only [Trade.fits, Trade.stored, Bool.and_eq_true] at hfits
  obtain ⟨⟨⟨⟨⟨⟨⟨⟨⟨⟨⟨⟨⟨⟨⟨⟨⟨⟨-, hgateway⟩, -⟩, -⟩, hbalance⟩, -⟩, -⟩, -⟩, -⟩, hprice⟩, hquantity⟩,
    -⟩, -⟩, -⟩, -⟩, hcomment⟩, hreturn⟩, haction⟩, hreject⟩ := hfits
  simp only [tradeTakes, hgateway, hbalance, hprice, hquantity, hcomment, hreturn, haction, hreject,
    Bool.and_self]

/-! ## One report -/

/-- What a report of a known status does to the only row of its position. -/
theorem upsert_row (hkey : (position e).stored = position e)
    (hstatus : toTradeStatus e.status = some status)
    (hrow : s.trades.filter (Trade.isOf (position e)) = [old])
    (h : upsertByPositionEvent e x s = some (answer, s')) :
    (rank status < rank old.status ∧ answer = some old ∧ s'.trades = s.trades) ∨
      (rank old.status ≤ rank status ∧ answer = some (old.update e status).stored ∧
        s'.trades.filter (Trade.isOf (position e)) = [(old.update e status).stored]) := by
  have hfind := find?_eq_of_filter hrow
  obtain ⟨row, rfl, hcases⟩ := upsert_cases hstatus h
  rw [hfind] at hcases
  rcases hcases with ⟨hsame, hdown, htrades⟩ | ⟨old', hsame, hup, rfl, htrades⟩ | ⟨hnone, -, -⟩
  · cases hsame
    exact .inl ⟨of_decide_eq_true hdown, rfl, htrades⟩
  · cases hsame
    refine .inr ⟨?_, rfl, ?_⟩
    · have hnot := of_decide_eq_false hup
      omega
    · have hisOf : (old.update e status).isOf (position e) = true :=
        isOf_update (List.find?_some hfind)
      have hnew := Trade.isOf_stored hisOf
      rw [hkey] at hnew
      rw [htrades, filter_replaceFirst hnew, hrow]
  · cases hnone

/-- The first report of a position inserts its row. -/
theorem upsert_first (hkey : (position e).stored = position e)
    (hstatus : toTradeStatus e.status = some status)
    (hnone : s.trades.filter (Trade.isOf (position e)) = [])
    (h : upsertByPositionEvent e x s = some (answer, s')) :
    ∃ row, answer = some row ∧ (Trade.ofEvent e status x.tradeRow).map Trade.stored = some row ∧
      s'.trades.filter (Trade.isOf (position e)) = [row] := by
  have hfind := find?_eq_none_of_filter hnone
  obtain ⟨row, rfl, hcases⟩ := upsert_cases hstatus h
  rw [hfind] at hcases
  rcases hcases with ⟨hsome, -, -⟩ | ⟨old, hsome, -, -, -⟩ | ⟨-, hrow, htrades⟩
  · cases hsome
  · cases hsome
  · obtain ⟨hof, -, -⟩ := ofEvent_stored hrow
    rw [hkey] at hof
    refine ⟨row, rfl, hrow, ?_⟩
    rw [htrades, List.filter_append, hnone, List.filter_cons_of_pos hof]
    rfl

/-- The account of a report that was received takes it, and is found with the gateway of the
report. -/
theorem account_after (hkey : (position e).stored = position e)
    (hstatus : toTradeStatus e.status = some status)
    (h : upsertByPositionEvent e x s = some (answer, s')) :
    accountTakes e = true ∧ ∃ a, s'.accounts.find? (Account.isOf (position e)) = some a ∧
      (e.gateway = none ∨ a.gateway = e.gateway) := by
  have haccounts := upsert_accounts hstatus h
  have hgateway : e.gateway.map (varchar 50) = e.gateway := congrArg Position.gateway hkey
  unfold upsertAccount at haccounts
  split at haccounts
  · next old hold =>
      have hof : (old.update e x.now).isOf (position e) = true := by
        have hfound := List.find?_some hold
        simp only [Account.isOf, Account.update, position, Bool.and_eq_true, Bool.or_eq_true,
          beq_iff_eq, Option.isNone_iff_eq_none] at hfound ⊢
        refine ⟨⟨hfound.1.1, trivial⟩, ?_⟩
        cases hg : e.gateway with
        | some gateway => exact .inl rfl
        | none =>
          rw [hg] at hfound
          exact hfound.2
      have hnew := Account.isOf_stored hof
      rw [hkey] at hnew
      have hmem : (old.update e x.now).stored ∈ s'.accounts := by
        rw [haccounts]
        exact mem_replaceFirst hold
      refine ⟨?_, (old.update e x.now).stored, ?_, ?_⟩
      · rw [← account_update_fits (s.account_fits (List.mem_of_find?_eq_some hold))]
        exact s'.account_fits hmem
      · rw [haccounts]
        exact find?_replaceFirst hold hnew
      · cases hg : e.gateway with
        | none => exact .inl rfl
        | some gateway =>
          right
          show (e.gateway.or old.gateway).map (varchar 50) = some gateway
          rw [hg] at hgateway ⊢
          exact hgateway
  · next hnone =>
      have hof : (Account.ofEvent e x.accountRow x.now).isOf (position e) = true := by
        simp [Account.isOf, Account.ofEvent, position]
      have hnew := Account.isOf_stored hof
      rw [hkey] at hnew
      have hmem : (Account.ofEvent e x.accountRow x.now).stored ∈ s'.accounts := by
        rw [haccounts]
        exact List.mem_append_right _ (List.mem_singleton.2 rfl)
      refine ⟨account_ofEvent_fits (s'.account_fits hmem),
        (Account.ofEvent e x.accountRow x.now).stored, ?_, .inr hgateway⟩
      rw [haccounts, List.find?_append, hnone, Option.none_or, List.find?_cons_of_pos hnew]

/-! ## Any sequence of them -/

/-- A call, and how it goes. -/
structure Attempt where
  event : PositionEvent
  draw : Draw
  outcome : Outcome

/-- The tables the call commits, if it does. -/
def Attempt.commits (a : Attempt) (s : Store) : Option Store :=
  match a.outcome with
  | .failed => none
  | _ => (upsertByPositionEvent a.event a.draw s).map Prod.snd

def Attempt.run (a : Attempt) (s : Store) : Store := (a.commits s).getD s

/-- The reports received so far and the tables, after one more call. -/
def Attempt.receive (r : List PositionEvent × Store) (a : Attempt) : List PositionEvent × Store :=
  if (a.commits r.2).isSome then (r.1 ++ [a.event], a.run r.2) else r

/-- The reports of a sequence of calls that are received, and the tables after it. -/
def received (as : List Attempt) (s : Store) : List PositionEvent × Store :=
  as.foldl Attempt.receive ([], s)

/-- A report of the position with a status the policy knows. -/
def Reports (p : Position) (e : PositionEvent) : Prop :=
  position e = p ∧ (toTradeStatus e.status).isSome = true

instance : Decidable (Reports p e) := inferInstanceAs (Decidable (_ ∧ _))

/-- The row that the reports received so far leave. It says nothing of their order, only
of the greatest rank among them. -/
structure Stands (p : Position) (es : List PositionEvent) (s : Store) (row : Trade) : Prop where
  only : s.trades.filter (Trade.isOf p) = [row]
  reported : ∃ e ∈ es, toTradeStatus e.status = some row.status
  greatest : ∀ e ∈ es, ∀ status, toTradeStatus e.status = some status →
    rank status ≤ rank row.status
  running : row.isRunning = true ↔
    rank row.status = rank .opened ∨ rank row.status = rank .partiallyClosed

/-- What lets a report that was received be received again: its account and its trade have the
gateway it names, and the values it writes were taken before. -/
structure Repeatable (p : Position) (es : List PositionEvent) (s : Store) (row : Trade) : Prop where
  gateway : row.gateway = p.gateway
  account : ∃ a, s.accounts.find? (Account.isOf p) = some a ∧
    (p.gateway = none ∨ a.gateway = p.gateway)
  accountTakes : ∀ e ∈ es, accountTakes e = true
  tradeTakes : ∀ e ∈ es, ∀ status, toTradeStatus e.status = some status →
    rank status < rank row.status ∨ tradeTakes e = true

/-- What the reports received so far leave, be there any or none: the invariant of the
run. -/
def Follows (p : Position) (es : List PositionEvent) (s : Store) : Prop :=
  (es = [] ∧ s.trades.filter (Trade.isOf p) = []) ∨
    ∃ row, Stands p es s row ∧ Repeatable p es s row

theorem commits_cases {a : Attempt} (h : a.commits s = some s') :
    ∃ answer, upsertByPositionEvent a.event a.draw s = some (answer, s') := by
  have hmap : (upsertByPositionEvent a.event a.draw s).map Prod.snd = some s' := by
    unfold Attempt.commits at h
    split at h
    · cases h
    · exact h
  obtain ⟨⟨answer, s₁⟩, hupsert, rfl⟩ := Option.map_eq_some_iff.1 hmap
  exact ⟨answer, hupsert⟩

/-- The row that was first, or that replaced one of no greater rank. -/
theorem stands_of_newest {es : List PositionEvent} (hstatus : toTradeStatus e.status = some status)
    (honly : s.trades.filter (Trade.isOf p) = [row]) (hrow : row.status = status)
    (hrunning : row.isRunning = isOpen e.status)
    (hle : ∀ e' ∈ es, ∀ status', toTradeStatus e'.status = some status' →
      rank status' ≤ rank status) : Stands p (es ++ [e]) s row where
  only := honly
  reported := ⟨e, List.mem_append_right _ (List.mem_singleton.2 rfl), by rw [hrow, hstatus]⟩
  greatest := by
    intro e' he' status' hstatus'
    rw [hrow]
    rcases List.mem_append.1 he' with he' | he'
    · exact hle e' he' status' hstatus'
    · rw [List.mem_singleton.1 he', hstatus] at hstatus'
      cases hstatus'
      exact le_refl _
  running := by
    rw [hrunning, hrow]
    exact isOpen_iff_rank hstatus

theorem forall_mem_concat {P : PositionEvent → Prop} {es : List PositionEvent}
    (h : ∀ e ∈ es, P e) (he : P e) : ∀ e' ∈ es ++ [e], P e' := by
  intro e' he'
  rcases List.mem_append.1 he' with he' | he'
  · exact h e' he'
  · rw [List.mem_singleton.1 he']
    exact he

/-- The first report that is received. -/
theorem Follows.first (hkey : (position e).stored = position e)
    (hstatus : toTradeStatus e.status = some status)
    (hnone : s.trades.filter (Trade.isOf (position e)) = [])
    (hupsert : upsertByPositionEvent e x s = some (answer, s')) :
    Follows (position e) [e] s' := by
  obtain ⟨row, -, hrow, honly⟩ := upsert_first hkey hstatus hnone hupsert
  obtain ⟨haccount, hfound⟩ := account_after hkey hstatus hupsert
  obtain ⟨-, hst, hrunning⟩ := ofEvent_stored hrow
  have hmem := (mem_of_only honly).1
  have hstands : Stands (position e) ([] ++ [e]) s' row :=
    stands_of_newest hstatus honly hst hrunning fun e' he' => absurd he' List.not_mem_nil
  refine .inr ⟨row, hstands, ?_, hfound, ?_, ?_⟩
  · obtain ⟨built, hbuilt, rfl⟩ := Option.map_eq_some_iff.1 hrow
    obtain ⟨action, -, rfl⟩ := Option.map_eq_some_iff.1 hbuilt
    exact congrArg Position.gateway hkey
  · intro e' he'
    rw [List.mem_singleton.1 he']
    exact haccount
  · intro e' he' status' _
    rw [List.mem_singleton.1 he']
    exact .inr (trade_ofEvent_fits hrow (s'.trade_fits hmem))

/-- One more report that is received. -/
theorem Follows.upsert {es : List PositionEvent} (h : Follows p es s) (hkey : p.stored = p)
    (he : Reports p e) (hupsert : upsertByPositionEvent e x s = some (answer, s')) :
    Follows p (es ++ [e]) s' := by
  obtain ⟨rfl, hknown⟩ := he
  obtain ⟨status, hstatus⟩ := Option.isSome_iff_exists.1 hknown
  rcases h with ⟨rfl, hnone⟩ | ⟨row, hrow, hagain⟩
  · exact Follows.first hkey hstatus hnone hupsert
  · obtain ⟨haccount, hfound⟩ := account_after hkey hstatus hupsert
    rcases upsert_row hkey hstatus hrow.only hupsert with ⟨hlt, -, htrades⟩ | ⟨hle, -, honly⟩
    · -- a downgrade is received, and changes nothing
      obtain ⟨e₀, he₀, hst₀⟩ := hrow.reported
      refine .inr ⟨row, ⟨?_, ⟨e₀, List.mem_append_left _ he₀, hst₀⟩, ?_, hrow.running⟩,
        hagain.gateway, hfound, forall_mem_concat hagain.accountTakes haccount, ?_⟩
      · rw [htrades]
        exact hrow.only
      · refine forall_mem_concat hrow.greatest fun status' hstatus' => ?_
        rw [hstatus] at hstatus'
        cases hstatus'
        omega
      · refine forall_mem_concat hagain.tradeTakes fun status' hstatus' => .inl ?_
        rw [hstatus] at hstatus'
        cases hstatus'
        exact hlt
    · have hmem := (mem_of_only honly).1
      have hold := (mem_of_only hrow.only).1
      refine .inr ⟨_, stands_of_newest hstatus honly rfl rfl fun e' he' status' hstatus' => ?_,
        ?_, hfound, forall_mem_concat hagain.accountTakes haccount,
        forall_mem_concat (fun e' he' status' hstatus' => ?_) fun _ _ => .inr ?_⟩
      · exact le_trans (hrow.greatest e' he' status' hstatus') hle
      · show (e.gateway.or row.gateway).map (varchar 50) = (position e).gateway
        rw [hagain.gateway]
        show (e.gateway.or e.gateway).map (varchar 50) = e.gateway
        rw [Option.or_self]
        exact congrArg Position.gateway hkey
      · exact (hagain.tradeTakes e' he' status' hstatus').imp_left fun hlt => lt_of_lt_of_le hlt hle
      · have htakes : (row.update e status).stored.fits = tradeTakes e :=
          trade_update_fits (s.trade_fits hold)
        rw [← htakes]
        exact s'.trade_fits hmem

theorem Follows.receive {r : List PositionEvent × Store} {a : Attempt} (h : Follows p r.1 r.2)
    (hkey : p.stored = p) (ha : Reports p a.event) : Follows p (a.receive r).1 (a.receive r).2 := by
  unfold Attempt.receive
  split
  · next hsome =>
      obtain ⟨s', hcommits⟩ := Option.isSome_iff_exists.1 hsome
      obtain ⟨answer, hupsert⟩ := commits_cases hcommits
      have hrun : a.run r.2 = s' := by
        rw [Attempt.run, hcommits]
        rfl
      rw [hrun]
      exact h.upsert hkey ha hupsert
  · exact h

/-- A report of a lower rank writes nothing, however the call goes. -/
theorem Stands.run {es : List PositionEvent} {a : Attempt} (h : Stands p es s row)
    (hkey : p.stored = p) (hp : position a.event = p)
    (hstatus : toTradeStatus a.event.status = some status)
    (hlt : rank status < rank row.status) : (a.run s).trades = s.trades := by
  cases hcommits : a.commits s with
  | none =>
    rw [Attempt.run, hcommits]
    rfl
  | some s' =>
    obtain ⟨answer, hupsert⟩ := commits_cases hcommits
    rw [Attempt.run, hcommits]
    subst hp
    rcases upsert_row hkey hstatus h.only hupsert with ⟨-, -, htrades⟩ | ⟨hle, -, -⟩
    · exact htrades
    · omega

/-- The columns take the texts of the position, if need be without some blanks. -/
def Position.storable (p : Position) : Bool :=
  textFits 50 p.stored.accountId && p.stored.gateway.all (textFits 50) &&
    textFits 255 p.stored.refSourceId

/-- A report that opens the position. -/
def opening (p : Position) : PositionEvent where
  market := p.market
  strategy := "S"
  strategyCode := none
  signalId := some "s-1"
  refSourceId := p.refSourceId
  symbol := "ETHUSD"
  action := "long"
  volume := .finite 1
  sl := none
  tp1 := none
  tp2 := none
  riskPercent := .finite 0
  openedPrice := .finite 100
  closedPrice := none
  status := "OPENED"
  rejectReason := none
  gatewayReturnCode := none
  comment := none
  accountLeverage := none
  accountBalance := none
  accountId := p.accountId
  accountName := none
  gateway := p.gateway

/-- A stored row of a report is only found by the next if nothing of it was cut. -/
theorem uncut_of_isOf {id : RowId} (h : Trade.ofEvent e status id = some row)
    (hof : row.stored.isOf (position e) = true) : (position e).stored = position e := by
  obtain ⟨action, -, rfl⟩ := Option.map_eq_some_iff.1 h
  simp only [Trade.isOf, Trade.stored, position, Bool.and_eq_true, Bool.or_eq_true, beq_iff_eq,
    Option.isNone_iff_eq_none, Option.map_some, Option.some.injEq] at hof
  obtain ⟨⟨⟨hid, href⟩, -⟩, hgateway⟩ := hof
  have hg : e.gateway.map (varchar 50) = e.gateway := by
    rcases hgateway with heq | hnone
    · exact heq
    · rw [hnone, Option.map_eq_none_iff.1 hnone]
  simp only [Position.stored, position, hid, href, hg]

def empty : Store := ⟨[], [], rfl, rfl⟩

namespace Sample

def report (status : String) : PositionEvent :=
  { opening ⟨.forex, some "MT5", "1", "r-1"⟩ with status }

def attempt (n : RowId) (status : String) (outcome : Outcome) : Attempt :=
  ⟨report status, ⟨n, n, 0⟩, outcome⟩

/-- The close is the first report to be received, and the opening comes late. -/
def late : List Attempt :=
  [attempt 1 "OPENED" .failed, attempt 2 "TP2" .failedApplied, attempt 3 "OPENED" .ok]

end Sample

example : (received Sample.late empty).2.trades.map Trade.status = [.closed] := by decide +kernel

end TradingBroker.Trades
