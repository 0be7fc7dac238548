/-
RealTimeTrading.ControlPlane.BingX.ReportedFills — which execution reports
of the user stream are accounted for.

A report carries a fill when its last quantity decodes to a number above
zero, whatever its status says; `applyStep` looks at the fill for two of
the statuses, and a report of a known order never gets an error
(`exec_known_ok`). So the ledger gets the fill, or the fill is gone
without a trace: `reports_accounted_iff` says when.
-/
import RealTimeTrading.ControlPlane.BingX.FillImport
import RealTimeTrading.ControlPlane.FillIdempotence

namespace RealTimeTrading.ControlPlane

open RealTimeTrading.Concurrency

/-! ## Known orders give no error -/

section Known

variable {env : Env} {p p' : Plane} {id : OrderID} {a : Order × Option Err}

theorem Store.lookup_of_mem {s : Store} (hid : id ∈ s.orders) : ∃ o, s.orders.lookup id = some o :=
  (GoMap.mem_iff_lookup _ _).mp hid

theorem exec_currentOrder_ok (hid : id ∈ p.store.orders)
    (h : Exec (sem env) (currentOrder id) p a p') : a.2 = none := by
  obtain ⟨o, ho⟩ := Store.lookup_of_mem hid
  obtain ⟨found, t, ⟨hfound, rfl⟩, h⟩ := h
  obtain rfl : found = some o := hfound.trans ho
  obtain ⟨rfl, -⟩ := h
  rfl

theorem exec_announceOrLookup_ok (id : OrderID) {updated : Order}
    (h : Exec (sem env) (announceOrLookup id (updated, none)) p a p') : a.2 = none := by
  obtain ⟨-, q, -, hret⟩ := (exec_bind _ _ _).mp h
  obtain ⟨rfl, -⟩ := hret
  rfl

theorem amend_ok {s : Store} (hid : id ∈ s.orders) (f : Order → Order) :
    ∃ updated, (s.amend id f).1 = (updated, none) := by
  obtain ⟨o, ho⟩ := Store.lookup_of_mem hid
  exact ⟨f o, by simp only [Store.amend, ho]⟩

theorem exec_applyFill_ok (hwf : p.store.WellFormed) (hid : id ∈ p.store.orders)
    {ledger : FillLedgerEntry} {execution : ExecutionEvent}
    (h : Exec (sem env) (applyFill id ledger execution) p a p') : a.2 = none := by
  obtain ⟨o, ho⟩ := Store.lookup_of_mem (BingX.resolve_mem hwf (Or.inl hid))
  obtain ⟨r, t, ⟨now, hr, -⟩, h⟩ := h
  simp only [Store.applyExternalFill, ho] at hr
  obtain rfl := hr
  obtain ⟨-, q₁, -, -, q₂, -, -, q₃, -, -, q₄, -, -, q₅, -, -, q₆, -, rfl, -⟩ := h
  rfl

theorem exec_applyReject_ok (hid : id ∈ p.store.orders) {reason : String}
    (h : Exec (sem env) (applyReject id reason) p a p') : a.2 = none := by
  obtain ⟨o, ho⟩ := Store.lookup_of_mem hid
  obtain ⟨found, t, ⟨hfound, rfl⟩, h⟩ := h
  obtain rfl : found = some o := hfound.trans ho
  obtain ⟨-, q₁, -, -, q₂, -, rfl, -⟩ := h
  rfl

theorem exec_applyStatus_ok (hwf : p.store.WellFormed) (hid : id ∈ p.store.orders)
    {step : ExchangeStep} (h : Exec (sem env) (applyStatus id step) p a p') : a.2 = none := by
  unfold applyStatus at h
  split at h
  · obtain ⟨r, t, ⟨now, rfl, -⟩, h⟩ := h
    obtain ⟨updated, hupdated⟩ := amend_ok hid (Store.ackedOrder now step.occurredAt)
    rw [show (Store.markOrderAck now id step.occurredAt p.store).1 = (updated, none) from
      hupdated] at h
    exact exec_announceOrLookup_ok id h
  · split at h
    · exact exec_applyFill_ok hwf hid h
    · obtain ⟨rfl, -⟩ := h
      rfl
  · split at h
    · exact exec_applyFill_ok hwf hid h
    · obtain ⟨rfl, -⟩ := h
      rfl
  · obtain ⟨r, t, ⟨now, rfl, -⟩, h⟩ := h
    obtain ⟨updated, hupdated⟩ :=
      amend_ok hid (Store.canceledOrder now step.cancelReason step.occurredAt)
    rw [show (Store.cancelOrder now id step.cancelReason step.occurredAt p.store).1 =
      (updated, none) from hupdated] at h
    exact exec_announceOrLookup_ok id h
  · exact exec_applyReject_ok hid h
  all_goals exact exec_currentOrder_ok hid h

/-- What an update without an order id of its own refers to was looked up. -/
theorem reference_cases (v : FillView) {u : AsyncExchangeUpdate} (hu : u.orderID = "") :
    v.reference u = "" ∨
      ∃ found, v.reference u = ((Option.bind found v.orders).map (·.ident.id)).getD "" := by
  unfold FillView.reference FillView.named FillView.orBound
  rw [hu]
  split_ifs with hkey hbound hbound
  · rw [hbound.1]
    exact Or.inr ⟨_, rfl⟩
  · exact Or.inr ⟨_, rfl⟩
  · exact Or.inr ⟨_, rfl⟩
  · exact Or.inl rfl

theorem reference_mem (hwf : p.store.WellFormed) {u : AsyncExchangeUpdate} (hu : u.orderID = "")
    (hknown : p.store.fillView.reference u ≠ "") :
    p.store.fillView.reference u ∈ p.store.orders := by
  obtain hnone | ⟨found, hfound⟩ := reference_cases p.store.fillView hu
  · exact absurd hnone hknown
  · rw [hfound] at hknown ⊢
    cases horder : Option.bind found p.store.fillView.orders with
    | none => simp [horder] at hknown
    | some state =>
      obtain ⟨x, -, hx⟩ := Option.bind_eq_some_iff.mp horder
      obtain ⟨o, ho, rfl⟩ := Option.map_eq_some_iff.mp hx
      have hid : o.fillState.ident.id = x := hwf.stored x o ho
      rw [Option.map_some, Option.getD_some, hid]
      exact (GoMap.mem_iff_lookup _ _).mpr ⟨o, ho⟩

theorem exec_known_ok (hwf : p.store.WellFormed) {u : AsyncExchangeUpdate} (hu : u.orderID = "")
    (hknown : p.store.fillView.reference u ≠ "")
    (h : Exec (sem env) (applyAsyncUpdate u) p a p') : a.2 = none := by
  have hid := reference_mem hwf hu hknown
  obtain ⟨id, t, hx, h⟩ := (exec_bind _ _ _).mp h
  obtain ⟨hreference, hstore⟩ := exec_resolveReference hx
  rw [← hreference, ← hstore] at hid
  rw [← hstore] at hwf
  rw [if_neg (hreference ▸ hknown)] at h
  split at h
  · rename_i hexchange
    obtain ⟨⟨bound, err⟩, q, hbind, h⟩ := h
    obtain ⟨hr, -⟩ := sem_bindExchangeOrderID hwf hexchange hid hbind
    obtain rfl : err = none := hr
    exact exec_applyStatus_ok (sem_wellFormed hbind hwf) (mem_of_sem hbind hid) h
  · exact exec_applyStatus_ok hwf hid h

/-- The ledger gets the fill `applyStep` looks at, and nothing else. -/
theorem exec_known_ledger (hwf : p.store.WellFormed) {u : AsyncExchangeUpdate} (hu : u.orderID = "")
    (hknown : p.store.fillView.reference u ≠ "")
    (h : Exec (sem env) (applyAsyncUpdate u) p a p') :
    p'.store.ledger = p.store.ledger ++ u.step.fill.toList := by
  have hdelivers : Delivers env [u] p p' := ⟨a, p', h, rfl⟩
  have hledger := (delivers_view hknown hwf (reference_mem hwf hu hknown) (by simp) hdelivers).2
  rw [hledger]
  cases hfill : u.step.fill with
  | none => rw [fillsOf_cons_none hfill]; rfl
  | some f => rw [fillsOf_cons_some hfill]; rfl

end Known

/-! ## Messages of the stream -/

namespace BingX

/-- `executionReportEvent`, with the event type. -/
structure StreamReport extends ExecutionReport where
  eventType : String

/-- `userStreamEnvelope`, `data` not yet decoded. -/
structure StreamEnvelope (Raw : Type) where
  event : String
  type : String
  data : Raw

/-- `json.Unmarshal` into the two records and `strings.EqualFold`. Decoding a
report starts from a record and sets the fields it finds there, also when it
fails. -/
structure Decoding (Raw : Type) where
  report : Raw → StreamReport → StreamReport × Bool
  envelope : Raw → Option (StreamEnvelope Raw)
  equalFold : String → String → Bool

def StreamReport.zero : StreamReport :=
  { orderID := "", clientOrderID := "", symbol := "", side := "", status := "", orderQty := ""
    lastPrice := "", lastQty := "", cumulativeQty := "", tradeID := "", eventType := "" }

variable {Raw : Type} (decoding : Decoding Raw) (std : Std) (now : Time)

/-- The report `parseExecutionReport` maps, when it accepts a message. -/
def acceptedReport (raw : Raw) : Option ExecutionReport :=
  let (event, decoded) := decoding.report raw .zero
  if decoded = true ∧ (event.eventType = "executionReport" ∨ event.orderID ≠ "") then
    some event.toExecutionReport
  else
    match decoding.envelope raw with
    | none => none
    | some envelope =>
      if decoding.equalFold envelope.event "executionReport" = false ∧
          decoding.equalFold envelope.type "executionReport" = false then none
      else
        let (event, decoded) := decoding.report envelope.data event
        if decoded = true then some event.toExecutionReport else none

def parseExecutionReport (raw : Raw) : Option AsyncExchangeUpdate :=
  (acceptedReport decoding raw).map (mapExecutionReport std now)

/-! ## Fills and statuses -/

/-- The status text is one of the two that announce a fill. -/
def SaysFilled (event : ExecutionReport) : Prop :=
  std.toUpper event.status = "PARTIALLY_FILLED" ∨ std.toUpper event.status = "FILLED"

/-- The last quantity decodes to a number above zero. -/
def CarriesFill (event : ExecutionReport) : Prop := 0 < std.parseFloat event.lastQty

instance (event : ExecutionReport) : Decidable (SaysFilled std event) := by
  unfold SaysFilled; infer_instance

instance (event : ExecutionReport) : Decidable (CarriesFill std event) := by
  unfold CarriesFill; infer_instance

theorem mapOrderStatus_fill_iff (event : ExecutionReport) :
    (mapOrderStatus std event.status = .partially ∨ mapOrderStatus std event.status = .filled) ↔
      SaysFilled std event := by
  unfold mapOrderStatus SaysFilled
  dsimp only
  generalize std.toUpper event.status = status
  by_cases hnew : status = "NEW"
  · simp [hnew]
  by_cases hpartially : status = "PARTIALLY_FILLED"
  · simp [hpartially]
  by_cases hfilled : status = "FILLED"
  · simp [hfilled]
  rw [if_neg hnew, if_neg hpartially, if_neg hfilled]
  refine iff_of_false ?_ (not_or.mpr ⟨hpartially, hfilled⟩)
  split_ifs <;> simp

variable {std now}

/-- What `applyStep` looks at: a fill that the status announces. -/
theorem mapExecutionReport_fill (event : ExecutionReport) :
    (mapExecutionReport std now event).step.fill =
      if SaysFilled std event ∧ CarriesFill std event then some (reportLedger std now event)
      else none := by
  have hstatus := mapOrderStatus_fill_iff std event
  unfold mapExecutionReport ExchangeStep.fill CarriesFill
  dsimp only
  by_cases hsaid : SaysFilled std event
  · by_cases hcarries : 0 < std.parseFloat event.lastQty
    · simp only [hsaid, hcarries, decide_true, if_true, and_self]
      rcases hstatus.mpr hsaid with h | h <;> rw [h]
    · simp only [hcarries, decide_false, Bool.false_eq_true, if_false, and_false]
      split <;> rfl
  · simp only [hsaid, false_and, if_false]
    obtain ⟨hpartially, hfilled⟩ := not_or.mp (mt hstatus.mp hsaid)
    split
    · exact absurd ‹_› hpartially
    · exact absurd ‹_› hfilled
    · rfl

/-! ## Accounting for reports -/

/-- A fill is in the ledger or there was an error, and a fill that was
announced but not reported is an error. -/
structure Accounted (std : Std) (event : ExecutionReport) (before after : List FillLedgerEntry)
    (err : Option Err) : Prop where
  carried : CarriesFill std event →
    (∃ f, after = before ++ [f] ∧ f.quantity = std.parseFloat event.lastQty) ∨ err.isSome = true
  announced : SaysFilled std event → ¬ CarriesFill std event → err.isSome = true

section Reports

variable {env : Env} {p p' : Plane} {event : ExecutionReport} {a : Order × Option Err}

/-- A report of a known order is accounted for if its two halves agree. -/
theorem accounted_iff (hwf : p.store.WellFormed)
    (hknown : p.store.fillView.reference (mapExecutionReport std now event) ≠ "")
    (h : Exec (sem env) (applyAsyncUpdate (mapExecutionReport std now event)) p a p') :
    Accounted std event p.store.ledger p'.store.ledger a.2 ↔
      (CarriesFill std event ↔ SaysFilled std event) := by
  have hok := exec_known_ok hwf rfl hknown h
  have hledger := exec_known_ledger hwf rfl hknown h
  rw [mapExecutionReport_fill] at hledger
  rw [hok, hledger]
  constructor
  · rintro ⟨hcarried, hannounced⟩
    constructor
    · intro hcarries
      by_contra hsaid
      rcases hcarried hcarries with ⟨f, hf, -⟩ | herr
      · rw [if_neg fun h => hsaid h.1] at hf
        simp at hf
      · cases herr
    · intro hsaid
      by_contra hcarries
      cases hannounced hsaid hcarries
  · intro hagree
    refine ⟨fun hcarries => Or.inl ?_, fun hsaid hcarries => absurd (hagree.mpr hsaid) hcarries⟩
    rw [if_pos ⟨hagree.mp hcarries, hcarries⟩]
    exact ⟨_, rfl, rfl⟩

variable (env)

/-- An accepted report of a known order is accounted for exactly when it
carries a fill if and only if its status says so. -/
theorem reports_accounted_iff {Raw : Type} {decoding : Decoding Raw} {raw : Raw} (std : Std)
    (now : Time) (haccepted : acceptedReport decoding raw = some event)
    (hwf : p.store.WellFormed)
    (hknown : p.store.fillView.reference (mapExecutionReport std now event) ≠ "") :
    (∀ update, parseExecutionReport decoding std now raw = some update →
      ∀ a p', Exec (sem env) (applyAsyncUpdate update) p a p' →
        Accounted std event p.store.ledger p'.store.ledger a.2) ↔
      (CarriesFill std event ↔ SaysFilled std event) := by
  have hparsed : parseExecutionReport decoding std now raw =
      some (mapExecutionReport std now event) := by
    unfold parseExecutionReport
    rw [haccepted, Option.map_some]
  constructor
  · intro h
    obtain ⟨a, p', hexec⟩ :=
      exec_total (sem_total env) (applyAsyncUpdate (mapExecutionReport std now event)) p
    exact (accounted_iff hwf hknown hexec).mp (h _ hparsed a p' hexec)
  · intro hagree update hupdate a p' hexec
    obtain rfl := Option.some.inj (hparsed.symm.trans hupdate)
    exact (accounted_iff hwf hknown hexec).mpr hagree

end Reports

end BingX

namespace Desk

open BingX

/-- Messages that need no decoding. -/
def decoding : Decoding StreamReport where
  report raw _ := (raw, true)
  envelope _ := none
  equalFold s s' := s.toLower == s'.toLower

def message (report : ExecutionReport) : StreamReport :=
  { report with eventType := "executionReport" }

/-- The order was filled, and the rest of it canceled, in one report. -/
def canceledReport : ExecutionReport := { filledReport with status := "CANCELED" }

/-- The order was filled, it is not said by how much. -/
def emptyReport : ExecutionReport := { filledReport with lastQty := "" }

/-- A report of the desk's order whose halves disagree. -/
theorem report_unaccounted {report : ExecutionReport}
    (hknown : live.store.fillView.reference (mapExecutionReport std clock report) ≠ "")
    (hdisagree : ¬(CarriesFill std report ↔ SaysFilled std report)) :
    ¬ ∀ update, parseExecutionReport decoding std clock (message report) = some update →
      ∀ a p', Exec (sem env) (applyAsyncUpdate update) live a p' →
        Accounted std report live.store.ledger p'.store.ledger a.2 := by
  intro h
  obtain ⟨a, p', hexec⟩ :=
    exec_total (sem_total env) (applyAsyncUpdate (mapExecutionReport std clock report)) live
  exact hdisagree ((accounted_iff live_wellFormed hknown hexec).mp (h _ rfl a p' hexec))

/-- The one loses a fill, the other hides that one is missing. -/
theorem reports_unaccounted :
    (¬ ∀ update, parseExecutionReport decoding std clock (message canceledReport) = some update →
      ∀ a p', Exec (sem env) (applyAsyncUpdate update) live a p' →
        Accounted std canceledReport live.store.ledger p'.store.ledger a.2) ∧
    ¬ ∀ update, parseExecutionReport decoding std clock (message emptyReport) = some update →
      ∀ a p', Exec (sem env) (applyAsyncUpdate update) live a p' →
        Accounted std emptyReport live.store.ledger p'.store.ledger a.2 :=
  ⟨report_unaccounted (by decide +kernel) (by decide +kernel),
    report_unaccounted (by decide +kernel) (by decide +kernel)⟩

theorem reports_accounted_iff_filled :
    (∀ update, parseExecutionReport decoding std clock (message filledReport) = some update →
      ∀ a p', Exec (sem env) (applyAsyncUpdate update) live a p' →
        Accounted std filledReport live.store.ledger p'.store.ledger a.2) ↔
      (CarriesFill std filledReport ↔ SaysFilled std filledReport) :=
  reports_accounted_iff env std clock rfl live_wellFormed (by decide +kernel)

end Desk

end RealTimeTrading.ControlPlane
