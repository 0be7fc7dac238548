/-
RealTimeTrading.ControlPlane.BingX.Verdict — what the report of
`Reconcile` says about the store it found.

`Matched` is set when the report is made and never cleared, so a run
without error reports a match whatever it finds. And only the positions
the exchange lists are compared. The report is right exactly when there
is nothing to report (`verdict_sound_iff`).
-/
import RealTimeTrading.ControlPlane.BingX.Convergence
import RealTimeTrading.ControlPlane.LedgerCheck

namespace RealTimeTrading.ControlPlane

/-! ## Stores the program can have -/

namespace Store

/-- A position is stored under its own symbol. -/
def PositionsNamed (s : Store) : Prop :=
  ∀ symbol p, s.positions.lookup symbol = some p → p.symbol = symbol

theorem PositionsNamed.insert {s s' : Store} (h : s.PositionsNamed) {symbol : Symbol}
    {p : Position} (hp : p.symbol = symbol) (heq : s'.positions = s.positions.insert symbol p) :
    s'.PositionsNamed := by
  intro x q hq
  rw [heq, GoMap.lookup_insert_ite] at hq
  split at hq
  · rename_i hx
    rw [← Option.some.inj hq, hp, hx]
  · exact h x q hq

theorem PositionsNamed.of_positions {s s' : Store} (h : s.PositionsNamed)
    (heq : s'.positions = s.positions) : s'.PositionsNamed := by
  intro x q hq
  exact h x q (heq ▸ hq)

/-- A fill writes the position under the symbol of its order. -/
theorem fillPosition_symbol {s : Store} (h : s.PositionsNamed) (now : Time) (symbol : Symbol)
    (side : Side) (fill : FillLedgerEntry) :
    (fillPosition now symbol side fill ((s.positions.lookup symbol).getD default)).symbol =
      symbol := by
  unfold fillPosition
  generalize (if side = .sell then -fill.quantity else fill.quantity) = signed
  dsimp only
  split
  · rfl
  · split
    · rfl
    · rename_i hopen
      cases hlook : s.positions.lookup symbol with
      | none =>
        rw [hlook] at hopen
        exact absurd (Or.inl rfl) hopen
      | some p => exact h symbol p hlook

theorem amend_positions (id : OrderID) (f : Order → Order) (s : Store) :
    (s.amend id f).2.positions = s.positions := by
  unfold amend
  split <;> rfl

theorem Reached.positionsNamed {P : StoreCall → Prop} {s : Store} (h : Store.Reached P s) :
    s.PositionsNamed := by
  induction h with
  | new => exact fun symbol p hp => by simp [newStore] at hp
  | @call s c _ _ ih =>
    cases c with
    | reserveOrder now o =>
      refine ih.of_positions ?_
      simp only [StoreCall.apply, reserveOrder]
      split
      · rfl
      · exact bindExchangeID_positions _ _ _
    | updateOrder now o => exact ih.of_positions (bindExchangeID_positions _ _ _)
    | markOrderSent now id t => exact ih.of_positions (amend_positions _ _ _)
    | markOrderAck now id t => exact ih.of_positions (amend_positions _ _ _)
    | cancelOrder now id reason t => exact ih.of_positions (amend_positions _ _ _)
    | replaceOrderPrice now id price =>
      refine ih.of_positions ?_
      simp only [StoreCall.apply, replaceOrderPrice]
      split
      · rfl
      · split <;> rfl
    | applyExternalFill now id fill event =>
      simp only [StoreCall.apply, applyExternalFill]
      split
      · exact ih
      · exact ih.insert (fillPosition_symbol ih _ _ _ _) rfl
    | bindExchangeOrderID now id x =>
      refine ih.of_positions ?_
      simp only [StoreCall.apply, bindExchangeOrderID]
      split
      · rfl
      · exact bindExchangeID_positions _ _ _
    | upsertOrder now o =>
      refine ih.of_positions ?_
      simp only [StoreCall.apply, upsertOrder]
      split <;> exact bindExchangeID_positions _ _ _
    | setPosition p => exact ih.insert rfl rfl
    | setAccountState | appendReconciliationReport => exact ih

end Store

namespace BingX

open Store

theorem sound_of_reached {s : Store} (h : s.Reached StoreCall.Issued) : Sound s := by
  induction h with
  | new => exact newStore_sound
  | @call s c hreached hc ih =>
    refine ⟨StoreCall.wellFormed hreached.wellFormed c, ?_⟩
    cases c with
    | reserveOrder now o =>
      have hkey : "" ≠ o.idempotencyKey := (hc.keyed now o rfl).symm
      simp only [StoreCall.apply, Store.reserveOrder]
      split
      · exact ih.unkeyed
      · rw [bindExchangeID_idempotency, reserveKey, GoMap.lookup_insert_ite, if_neg hkey]
        exact ih.unkeyed
    | updateOrder now o =>
      simp only [StoreCall.apply, Store.updateOrder, bindExchangeID_idempotency]
      exact ih.unkeyed
    | markOrderSent | markOrderAck | cancelOrder =>
      simp only [StoreCall.apply, Store.markOrderSent, Store.markOrderAck, Store.cancelOrder, amend]
      split <;> exact ih.unkeyed
    | replaceOrderPrice now id price =>
      simp only [StoreCall.apply, Store.replaceOrderPrice]
      split
      · exact ih.unkeyed
      · split <;> exact ih.unkeyed
    | applyExternalFill now id fill event => exact (ih.applyExternalFill now id fill event).unkeyed
    | bindExchangeOrderID now id x =>
      simp only [StoreCall.apply, Store.bindExchangeOrderID]
      split
      · exact ih.unkeyed
      · rw [bindExchangeID_idempotency]
        exact ih.unkeyed
    | upsertOrder now o => exact (ih.upsertOrder now o).unkeyed
    | setPosition | setAccountState | appendReconciliationReport => exact ih.unkeyed

/-! ## Reconciliation issues such calls -/

theorem fallbackID_ne_empty (now : Time) (primary fallback : String) :
    fallbackID now primary fallback ≠ "" := by
  unfold fallbackID
  split
  · assumption
  · split
    · assumption
    · intro h
      have hlength := congrArg (fun s => s.toList.length) h
      simp [String.toList_append] at hlength

/-- The order the step enters has a name. -/
def BootStep.EntersNamed : BootStep → Prop
  | .order _ o => o.id ≠ ""
  | .position _ | .fill _ _ => True

theorem reached_setPosition {s : Store} (h : s.Reached StoreCall.Issued) (p : Position) :
    (s.setPosition p).Reached StoreCall.Issued :=
  h.call (c := .setPosition p) ⟨(fun _ horder => nomatch horder), fun _ _ heq => nomatch heq⟩

theorem reached_setAccountState {s : Store} (h : s.Reached StoreCall.Issued) (a : AccountState) :
    (s.setAccountState a).Reached StoreCall.Issued :=
  h.call (c := .setAccountState a) ⟨(fun _ horder => nomatch horder), fun _ _ heq => nomatch heq⟩

theorem reached_upsertOrder {s : Store} (h : s.Reached StoreCall.Issued) (now : Time) {o : Order}
    (hid : o.id ≠ "") : (s.upsertOrder now o).Reached StoreCall.Issued := by
  refine h.call (c := .upsertOrder now o) ⟨fun order horder => ?_, fun _ _ heq => nomatch heq⟩
  rw [← Option.some.inj horder]
  exact hid

theorem reached_applyExternalFill {s : Store} (h : s.Reached StoreCall.Issued) (now : Time)
    (id : OrderID) (fill : FillLedgerEntry) (event : ExecutionEvent) :
    (s.applyExternalFill now id fill event).2.Reached StoreCall.Issued :=
  h.call (c := .applyExternalFill now id fill event)
    ⟨(fun _ horder => nomatch horder), fun _ _ heq => nomatch heq⟩

theorem reached_runSteps {steps : List BootStep} {s : Store} (h : s.Reached StoreCall.Issued)
    (hnamed : ∀ step ∈ steps, step.EntersNamed) : (runSteps steps s).Reached StoreCall.Issued := by
  induction steps generalizing s with
  | nil => exact h
  | cons step rest ih =>
    refine ih ?_ fun step hstep => hnamed step (List.mem_cons_of_mem _ hstep)
    have hfirst := hnamed step List.mem_cons_self
    cases step with
    | position p => exact reached_setPosition h p
    | order now o => exact reached_upsertOrder h now hfirst
    | fill now f =>
      simp only [BootStep.apply]
      split
      · refine reached_applyExternalFill ?_ _ _ _ _
        unfold adopt
        split
        · exact h
        · exact reached_upsertOrder h now (fallbackID_ne_empty _ _ _)
      · exact h

theorem symbolSteps_enterNamed (std : Std) (clock : Nat → Time) (replies : Replies)
    (symbols : List Symbol) (n : Nat) :
    ∀ step ∈ symbolSteps std clock replies symbols n, step.EntersNamed := by
  induction symbols generalizing n with
  | nil => exact fun step hstep => nomatch hstep
  | cons symbol rest ih =>
    intro step hstep
    rcases List.mem_append.mp hstep with hstep | hstep
    · rcases List.mem_append.mp hstep with hstep | hstep
      · obtain ⟨row, -, rfl⟩ := List.mem_map.mp hstep
        exact fallbackID_ne_empty _ _ _
      · obtain ⟨row, -, rfl⟩ := List.mem_map.mp hstep
        trivial
    · exact ih _ step hstep

/-- A run of `Reconcile` without error leaves a store that such calls lead to. -/
theorem reached_reconcile {std : Std} {clock : Nat → Time} {replies : Replies}
    {listed : List Order} {s : Store} {out : Boot} (h : s.Reached StoreCall.Issued)
    (hok : reconcile std clock replies listed s = (out, none)) :
    out.store.Reached StoreCall.Issued := by
  obtain ⟨account, report, hstore⟩ := reconcile_store hok
  have hnamed : ∀ step ∈ (reportedPositions std clock replies).map BootStep.position,
      step.EntersNamed := by
    intro step hstep
    obtain ⟨p, -, rfl⟩ := List.mem_map.mp hstep
    trivial
  have hpositions := reached_runSteps (reached_setAccountState h account) hnamed
  have hrows := reached_runSteps hpositions (symbolSteps_enterNamed std clock replies
    (askedSymbols std clock replies listed) (1 + (reportedPositions std clock replies).length))
  rw [hstore]
  exact hrows.call (c := .appendReconciliationReport report)
    ⟨(fun _ horder => nomatch horder), fun _ _ heq => nomatch heq⟩

/-! ## Positions -/

/-- The exchange reports a size or price other than the one held. -/
def Moved (held position : Position) : Prop :=
  held.size ≠ position.size ∨ held.avgPrice ≠ position.avgPrice

instance (held position : Position) : Decidable (Moved held position) := by
  unfold Moved; infer_instance

/-- The symbols of the rows that count as drift, in order: each row is
compared with what the rows before it left. -/
def drifts : List Position → Store → List Symbol
  | [], _ => []
  | p :: rest, s =>
    if (s.position p.symbol).symbol ≠ "" ∧ Moved (s.position p.symbol) p then
      p.symbol :: drifts rest (s.setPosition p)
    else drifts rest (s.setPosition p)

/-- Only the positions of the store matter. -/
theorem drifts_congr (rows : List Position) {s s' : Store} (h : s.positions = s'.positions) :
    drifts rows s = drifts rows s' := by
  induction rows generalizing s s' with
  | nil => rfl
  | cons p rest ih =>
    have hposition : s.position p.symbol = s'.position p.symbol := by
      rw [Store.position, Store.position, h]
    have hrest : (s.setPosition p).positions = (s'.setPosition p).positions := by
      rw [Store.setPosition, Store.setPosition, h]
    rw [drifts, drifts, hposition, ih hrest]

/-- Every row with a symbol agrees with the record of the symbol, if there is
one, and with the other rows of the symbol. -/
structure Steady (rows : List Position) (s : Store) : Prop where
  held : ∀ p ∈ rows, p.symbol ≠ "" → ∀ held, s.positions.lookup p.symbol = some held →
    ¬ Moved held p
  rows : ∀ p ∈ rows, p.symbol ≠ "" → ∀ q ∈ rows, q.symbol = p.symbol → ¬ Moved q p

theorem not_moved_iff {held position : Position} :
    ¬ Moved held position ↔ held.size = position.size ∧ held.avgPrice = position.avgPrice := by
  simp [Moved]

/-- No row drifts exactly if the rows are steady. -/
theorem drifts_eq_nil_iff (rows : List Position) {s : Store} (h : s.PositionsNamed) :
    drifts rows s = [] ↔ Steady rows s := by
  induction rows generalizing s with
  | nil => exact iff_of_true rfl ⟨by simp, by simp⟩
  | cons p rest ih =>
    have hnext : (s.setPosition p).PositionsNamed := h.insert rfl rfl
    have hset : ∀ x, (s.setPosition p).positions.lookup x =
        if x = p.symbol then some p else s.positions.lookup x :=
      fun x => GoMap.lookup_insert_ite _ _ _ _
    have hrow : ¬ ((s.position p.symbol).symbol ≠ "" ∧ Moved (s.position p.symbol) p) ↔
        (p.symbol ≠ "" → ∀ held, s.positions.lookup p.symbol = some held → ¬ Moved held p) := by
      rw [Store.position]
      cases hlook : s.positions.lookup p.symbol with
      | none => simp [default]
      | some held =>
        rw [Option.getD_some, h _ held hlook]
        simp
    have hiff : drifts (p :: rest) s = [] ↔
        (p.symbol ≠ "" → ∀ held, s.positions.lookup p.symbol = some held → ¬ Moved held p) ∧
          Steady rest (s.setPosition p) := by
      rw [← hrow, ← ih hnext, drifts]
      split
      · rename_i hdrift
        exact iff_of_false (by simp) fun hno => hno.1 hdrift
      · rename_i hsteady
        exact (and_iff_right hsteady).symm
    rw [hiff]
    constructor
    · rintro ⟨hfirst, hrest⟩
      constructor
      · intro r hr hnamed held hheld
        rcases List.mem_cons.mp hr with rfl | hr
        · exact hfirst hnamed held hheld
        · by_cases hsame : r.symbol = p.symbol
          · -- the record agrees with the first row, and that row with this one
            have hfirst' := not_moved_iff.mp (hfirst (hsame ▸ hnamed) held (hsame ▸ hheld))
            have hr' := not_moved_iff.mp (hrest.held r hr hnamed p (by rw [hset, if_pos hsame]))
            exact not_moved_iff.mpr ⟨hfirst'.1.trans hr'.1, hfirst'.2.trans hr'.2⟩
          · exact hrest.held r hr hnamed held (by rw [hset, if_neg hsame, hheld])
      · intro r hr hnamed q hq hsame
        have hwith : ∀ t ∈ rest, t.symbol = p.symbol → p.symbol ≠ "" → ¬ Moved p t :=
          fun t ht heq hne => hrest.held t ht (heq ▸ hne) p (by rw [hset, if_pos heq])
        rcases List.mem_cons.mp hr with rfl | hr' <;> rcases List.mem_cons.mp hq with rfl | hq'
        · exact not_moved_iff.mpr ⟨rfl, rfl⟩
        · have hrow := not_moved_iff.mp (hwith q hq' hsame hnamed)
          exact not_moved_iff.mpr ⟨hrow.1.symm, hrow.2.symm⟩
        · exact hwith r hr' hsame.symm (hsame ▸ hnamed)
        · exact hrest.rows r hr' hnamed q hq' hsame
    · intro hsteady
      refine ⟨hsteady.held p List.mem_cons_self, ?_, ?_⟩
      · intro r hr hnamed held hheld
        rw [hset] at hheld
        split at hheld
        · rename_i hsame
          rw [← Option.some.inj hheld]
          exact hsteady.rows r (List.mem_cons_of_mem _ hr) hnamed p List.mem_cons_self hsame.symm
        · exact hsteady.held r (List.mem_cons_of_mem _ hr) hnamed held hheld
      · intro r hr hnamed q hq hsame
        exact hsteady.rows r (List.mem_cons_of_mem _ hr) hnamed q (List.mem_cons_of_mem _ hq) hsame

def driftDetail (symbol : Symbol) : String := "reconciled position drift on " ++ symbol

/-- What the rows of a reply make of the report: nothing is unmatched. -/
structure Reports (driftCount : Nat) (details : List String) (b b' : Boot) : Prop where
  matched : b'.report.matched = b.report.matched
  positionDrift : b'.report.positionDrift = b.report.positionDrift + driftCount
  details : b'.report.details = b.report.details ++ details

namespace Reports

variable {b b' b'' : Boot} {n n' : Nat} {l l' : List String}

theorem trans (h : Reports n l b b') (h' : Reports n' l' b' b'') :
    Reports (n + n') (l ++ l') b b'' where
  matched := h'.matched.trans h.matched
  positionDrift := by rw [h'.positionDrift, h.positionDrift, Nat.add_assoc]
  details := by rw [h'.details, h.details, List.append_assoc]

end Reports

theorem reconcilePosition_report (p : Position) (b : Boot) :
    (reconcilePosition p b).report =
      if (b.store.position p.symbol).symbol ≠ "" ∧ Moved (b.store.position p.symbol) p then
        { b.report with
          positionDrift := b.report.positionDrift + 1
          details := b.report.details ++ [driftDetail p.symbol] }
      else b.report := rfl

theorem eachRow_positions (clock : Nat → Time) (rows : List Position) (b : Boot) :
    Reports (drifts rows b.store).length ((drifts rows b.store).map driftDetail) b
      (eachRow clock (fun _ => reconcilePosition) rows b) := by
  induction rows generalizing b with
  | nil => exact ⟨rfl, rfl, (List.append_nil _).symm⟩
  | cons p rest ih =>
    have hrest := ih (reconcilePosition p { b with reads := b.reads + 1 })
    have hstore : (reconcilePosition p { b with reads := b.reads + 1 }).store =
        b.store.setPosition p := rfl
    rw [hstore] at hrest
    unfold drifts
    by_cases hdrift : (b.store.position p.symbol).symbol ≠ "" ∧ Moved (b.store.position p.symbol) p
    · have hrow : Reports 1 [driftDetail p.symbol] b
          (reconcilePosition p { b with reads := b.reads + 1 }) := by
        constructor <;> rw [reconcilePosition_report, if_pos hdrift]
      rw [if_pos hdrift, List.length_cons, Nat.add_comm]
      exact hrow.trans hrest
    · have hrow : Reports 0 [] b (reconcilePosition p { b with reads := b.reads + 1 }) := by
        constructor <;> rw [reconcilePosition_report, if_neg hdrift]
        · rfl
        · exact (List.append_nil _).symm
      rw [if_neg hdrift, ← Nat.zero_add (drifts rest _).length]
      exact hrow.trans hrest

/-! ## Orders and fills -/

/-- Two texts that differ at a place within their prefixes. -/
theorem append_ne_append {p q a x : String} {i : Nat} (hp : i < p.toList.length)
    (hq : i < q.toList.length) (hne : p.toList[i]? ≠ q.toList[i]?) : p ++ a ≠ q ++ x := by
  intro h
  have hchar := congrArg (fun s => s.toList[i]?) h
  simp only [String.toList_append] at hchar
  rw [List.getElem?_append_left hp, List.getElem?_append_left hq] at hchar
  exact hne hchar

/-- No drift is reported, and every detail is about something else. -/
def Silent (b b' : Boot) : Prop :=
  ∃ details, Reports 0 details b b' ∧ ∀ d ∈ details, ∀ symbol, d ≠ driftDetail symbol

namespace Silent

variable {b b' b'' : Boot}

theorem of_report (h : b'.report.matched = b.report.matched)
    (h' : b'.report.positionDrift = b.report.positionDrift)
    (h'' : b'.report.details = b.report.details) : Silent b b' :=
  ⟨[], ⟨h, h', h''.trans (List.append_nil _).symm⟩, by simp⟩

theorem trans (h : Silent b b') (h' : Silent b' b'') : Silent b b'' := by
  obtain ⟨l, hl, hother⟩ := h
  obtain ⟨l', hl', hother'⟩ := h'
  exact ⟨l ++ l', hl.trans hl', fun d hd => (List.mem_append.mp hd).elim (hother d) (hother' d)⟩

theorem eachRow {A : Type} {f : Time → A → Boot → Boot} (hf : ∀ now row b, Silent b (f now row b))
    (clock : Nat → Time) (rows : List A) (b : Boot) : Silent b (eachRow clock f rows b) := by
  induction rows generalizing b with
  | nil => exact of_report rfl rfl rfl
  | cons row rest ih =>
    have hread : Silent b { b with reads := b.reads + 1 } := of_report rfl rfl rfl
    exact (hread.trans (hf _ row _)).trans (ih _)

end Silent

theorem silent_reconcileOrder (now : Time) (order : Order) (b : Boot) :
    Silent b (reconcileOrder now order b) := by
  unfold reconcileOrder
  dsimp only
  split
  · refine ⟨["reconciled orphan order " ++ order.exchangeOrderID], ⟨rfl, rfl, rfl⟩, ?_⟩
    simp only [List.mem_singleton, forall_eq]
    exact fun symbol => append_ne_append (i := 11) (by decide) (by decide) (by decide)
  · exact .of_report rfl rfl rfl

theorem silent_importFill (now : Time) (fill : FillLedgerEntry) (b : Boot) :
    Silent b (importFill now fill b) := by
  unfold importFill
  split
  · refine ⟨["reconciled missing fill " ++ fill.fillID], ⟨rfl, rfl, rfl⟩, ?_⟩
    simp only [List.mem_singleton, forall_eq]
    exact fun symbol => append_ne_append (i := 11) (by decide) (by decide) (by decide)
  · exact .of_report rfl rfl rfl

section Routine

variable {std : Std} {clock : Nat → Time} {replies : Replies}

theorem silent_reconcileSymbols {symbols : List Symbol} {b b' : Boot}
    (hok : reconcileSymbols std clock replies symbols b = (b', none)) : Silent b b' := by
  induction symbols generalizing b with
  | nil =>
    cases hok
    exact .of_report rfl rfl rfl
  | cons symbol rest ih =>
    unfold reconcileSymbols at hok
    split at hok
    · cases hok
    · rename_i orders _
      dsimp only at hok
      split at hok
      · cases hok
      · rename_i fills _
        have horders := Silent.eachRow
          (fun now row b => silent_reconcileOrder now (mapOrder std now row) b) clock orders b
        have hfills := Silent.eachRow
          (fun now row b => silent_importFill now (mapFill std now row) b) clock fills
          (BingX.eachRow clock (fun now row => reconcileOrder now (mapOrder std now row)) orders b)
        exact (horders.trans hfills).trans (ih hok)

/-- The report of a run without error: it says matched, and its drift is that
of the listed positions. -/
theorem reconcile_report {listed : List Order} {s : Store} {out : Boot}
    (hok : reconcile std clock replies listed s = (out, none)) :
    out.report.matched = true ∧
      out.report.positionDrift = (drifts (reportedPositions std clock replies) s).length ∧
      ∀ symbol, driftDetail symbol ∈ out.report.details ↔
        symbol ∈ drifts (reportedPositions std clock replies) s := by
  unfold reconcile at hok
  dsimp only at hok
  split at hok
  · cases hok
  · rename_i account _
    split at hok
    · cases hok
    · rename_i positions hpositions
      split at hok
      · cases hok
      · rename_i b' hsymbols
        obtain rfl : finish b' = out := congrArg Prod.fst hok
        have hreported : reportedPositions std clock replies =
            positions.map (mapPosition std (clock 0)) := by
          simp [reportedPositions, hpositions, Except.toOption]
        rw [hreported]
        have hpos := eachRow_positions clock (positions.map (mapPosition std (clock 0)))
          ⟨s.setAccountState account, ⟨true, 0, 0, 0, clock 0, []⟩, 1⟩
        have hdrifts : drifts (positions.map (mapPosition std (clock 0)))
            (s.setAccountState account) =
              drifts (positions.map (mapPosition std (clock 0))) s := drifts_congr _ rfl
        dsimp only at hpos
        rw [hdrifts] at hpos
        obtain ⟨details, hrows, hother⟩ := silent_reconcileSymbols hsymbols
        have hall := hpos.trans hrows
        have hmatched : b'.report.matched = true := hall.matched
        have hfinish : (finish b').report = b'.report := by
          unfold finish
          dsimp only
          split
          · rw [← hmatched]
          · rfl
        rw [hfinish]
        refine ⟨hmatched, by simpa using hall.positionDrift, fun symbol => ?_⟩
        rw [hall.details]
        constructor
        · intro hmem
          rcases List.mem_append.mp hmem with hmem | hmem
          · cases hmem
          · rcases List.mem_append.mp hmem with hmem | hmem
            · obtain ⟨x, hx, heq⟩ := List.mem_map.mp hmem
              rwa [← (String.append_right_inj _).mp heq]
            · exact absurd rfl (hother _ hmem symbol)
        · intro hdrift
          exact List.mem_append_right _ (List.mem_append_left _ (List.mem_map_of_mem hdrift))

end Routine

/-! ## Records -/

theorem upsertOrder_executions (now : Time) (o : Order) (s : Store) :
    (s.upsertOrder now o).executions = s.executions := by
  have hbind : ∀ (x : String) (id : OrderID) (s : Store),
      (s.bindExchangeID x id).executions = s.executions := by
    intro x id s
    unfold bindExchangeID
    split <;> rfl
  unfold Store.upsertOrder
  dsimp only
  split <;> exact hbind _ _ _

theorem adopt_executions (now : Time) (fill : FillLedgerEntry) (s : Store) :
    (adopt now fill s).2.executions = s.executions := by
  unfold adopt
  split
  · rfl
  · exact upsertOrder_executions _ _ _

/-- From `s` to `s'` fills were imported, each with its event: of the orders
named, those for which the ledger held no quantity. -/
structure Added (ids : List OrderID) (s s' : Store) : Prop where
  sound : Sound s'
  records : ∃ fills : List FillLedgerEntry, s'.ledger = s.ledger ++ fills ∧
    s'.executions = s.executions ++ fills.map reconciledEvent ∧
    ∀ x, x ∈ fills.map (·.orderID) ↔ x ∈ ids ∧ qtyOf x s.ledger = 0

namespace Added

variable {s s' s'' : Store} {ids ids' : List OrderID}

theorem of_frame (h : Sound s') (hledger : s'.ledger = s.ledger)
    (hexecutions : s'.executions = s.executions) : Added [] s s' :=
  ⟨h, [], by simp [hledger], by simp [hexecutions], by simp⟩

theorem trans (h : Added ids s s') (h' : Added ids' s' s'') : Added (ids ++ ids') s s'' := by
  obtain ⟨fills, hledger, hexecutions, hids⟩ := h.records
  obtain ⟨fills', hledger', hexecutions', hids'⟩ := h'.records
  refine ⟨h'.sound, fills ++ fills', ?_, ?_, fun x => ?_⟩
  · rw [hledger', hledger, List.append_assoc]
  · rw [hexecutions', hexecutions, List.map_append, List.append_assoc]
  · rw [List.map_append, List.mem_append, List.mem_append]
    by_cases hfirst : x ∈ fills.map (·.orderID)
    · obtain ⟨hx, hzero⟩ := (hids x).mp hfirst
      exact iff_of_true (Or.inl hfirst) ⟨Or.inl hx, hzero⟩
    · -- nothing was imported for `x` so far, so the ledger still says the same of it
      have hsame : qtyOf x s'.ledger = qtyOf x s.ledger := by
        rw [hledger, qtyOf_append, show qtyOf x fills = 0 from Data.totalOf_eq_zero hfirst,
          add_zero]
      rw [hids', hsame]
      constructor
      · rintro (hx | ⟨hx, hzero⟩)
        · exact absurd hx hfirst
        · exact ⟨Or.inr hx, hzero⟩
      · rintro ⟨hx | hx, hzero⟩
        · exact absurd ((hids x).mpr ⟨hx, hzero⟩) hfirst
        · exact Or.inr ⟨hx, hzero⟩

theorem importInto (h : Sound s) (now : Time) {fill : FillLedgerEntry}
    (hzero : qtyOf fill.orderID s.ledger = 0) :
    Added [fill.orderID] s (importInto now fill s) := by
  obtain ⟨o, ho⟩ := (GoMap.mem_iff_lookup _ _).mp (adopt_resolves h now fill)
  refine ⟨(adopt_sound h now fill).applyExternalFill _ _ _ _, [fill], ?_, ?_, fun x => ?_⟩
  · simp only [BingX.importInto, Store.applyExternalFill, ho]
    rw [adopt_ledger]
  · simp only [BingX.importInto, Store.applyExternalFill, ho]
    rw [adopt_executions]
    rfl
  · simp only [List.map_cons, List.map_nil, List.mem_singleton]
    exact ⟨fun hx => ⟨hx, hx ▸ hzero⟩, fun hx => hx.1⟩

end Added

/-- The orders whose fills these steps handle. -/
def fillIDs (steps : List BootStep) : List OrderID :=
  steps.filterMap fun step => match step with
    | .fill _ fill => some fill.orderID
    | .position _ | .order _ _ => none

theorem added_runSteps (steps : List BootStep) {s : Store} (h : Sound s) :
    Added (fillIDs steps) s (runSteps steps s) := by
  induction steps generalizing s with
  | nil => exact .of_frame h rfl rfl
  | cons step rest ih =>
    have hstep : Added (fillIDs [step]) s (step.apply s) := by
      cases step with
      | position p => exact .of_frame (h.setPosition p) rfl rfl
      | order now o =>
        exact .of_frame (h.upsertOrder now o) (upsertOrder_ledger now o s)
          (upsertOrder_executions now o s)
      | fill now f =>
        simp only [BootStep.apply]
        split
        · rename_i hmissing
          exact Added.importInto h now ((isMissing_iff _ _).mp hmissing)
        · rename_i hheld
          have hne : qtyOf f.orderID s.ledger ≠ 0 :=
            fun hzero => hheld ((isMissing_iff _ _).mpr hzero)
          refine ⟨h, [], by simp, by simp, fun x => ?_⟩
          simp only [fillIDs, List.filterMap_cons, List.filterMap_nil, List.map_nil,
            List.not_mem_nil, List.mem_singleton, false_iff, not_and]
          rintro rfl
          exact hne
    have hids : fillIDs (step :: rest) = fillIDs [step] ++ fillIDs rest := by
      rw [fillIDs, fillIDs, fillIDs, ← List.filterMap_append]
      rfl
    rw [hids]
    exact hstep.trans (ih hstep.sound)

theorem fillIDs_symbolSteps (std : Std) (clock : Nat → Time) (replies : Replies)
    (symbols : List Symbol) (n : Nat) :
    fillIDs (symbolSteps std clock replies symbols n) =
      (reportedFills std replies symbols).map (·.orderID) := by
  have horders : ∀ (rows : List OrderReply) (n : Nat),
      fillIDs ((stamped clock n rows).map (orderStep std)) = [] := by
    intro rows n
    rw [fillIDs, List.filterMap_map, List.filterMap_eq_nil_iff]
    exact fun row _ => rfl
  have hfills : ∀ (rows : List FillRaw) (n : Nat),
      fillIDs ((stamped clock n rows).map (fillStep std)) = rows.map (·.orderID) := by
    intro rows
    induction rows with
    | nil => exact fun n => rfl
    | cons row rest ih =>
      intro n
      exact congrArg (row.orderID :: ·) (ih (n + 1))
  induction symbols generalizing n with
  | nil => rfl
  | cons symbol rest ih =>
    unfold symbolSteps
    dsimp only
    have happend : ∀ l l' : List BootStep, fillIDs (l ++ l') = fillIDs l ++ fillIDs l' :=
      fun l l' => List.filterMap_append
    rw [happend, happend, horders, hfills, ih, List.nil_append]
    simp [reportedFills]

section Routine

variable {std : Std} {clock : Nat → Time} {replies : Replies}

/-- A run without error imports fills of the orders reported that the ledger
held no quantity for. -/
theorem reconcile_added {listed : List Order} {s : Store} {out : Boot} (h : Sound s)
    (hok : reconcile std clock replies listed s = (out, none)) :
    Added ((reportedFills std replies (askedSymbols std clock replies listed)).map (·.orderID)) s
      out.store := by
  obtain ⟨account, report, hstore⟩ := reconcile_store hok
  have haccount : Added [] s (s.setAccountState account) :=
    .of_frame (h.setAccountState account) rfl rfl
  have hpositions : Added [] (s.setAccountState account)
      (runSteps ((reportedPositions std clock replies).map .position)
        (s.setAccountState account)) := by
    have hadded := added_runSteps ((reportedPositions std clock replies).map .position)
      haccount.sound
    have hnone : fillIDs ((reportedPositions std clock replies).map .position) = [] := by
      rw [fillIDs, List.filterMap_map, List.filterMap_eq_nil_iff]
      exact fun row _ => rfl
    rwa [hnone] at hadded
  have hrows := (haccount.trans hpositions).trans
    (added_runSteps (rowSteps std clock replies listed) hpositions.sound)
  rw [rowSteps, fillIDs_symbolSteps] at hrows
  have hreport := hrows.trans
    (.of_frame (hrows.sound.appendReconciliationReport report) rfl rfl)
  rw [hstore, rowSteps]
  simpa only [List.nil_append, List.append_nil] using hreport

end Routine

theorem discrepancy_added {ids : List OrderID} {s s' : Store} (h : Added ids s s') (x : OrderID) :
    s'.discrepancy x = s.discrepancy x := by
  obtain ⟨fills, hledger, hexecutions, -⟩ := h.records
  have hpaired : List.Forall₂ Paired fills (fills.map reconciledEvent) := by
    rw [List.forall₂_map_right_iff, List.forall₂_same]
    exact fun fill _ => ⟨rfl, rfl⟩
  rw [discrepancy, discrepancy, hledger, hexecutions, Data.totalOf_append, Data.totalOf_append,
    totalOf_paired hpaired, add_sub_add_right_eq_sub]

/-- What the check will find once fills of these orders are imported where the
ledger holds none: as many ids on both sides, and the events agree. -/
def WillMatch (s : Store) (ids : List OrderID) : Prop :=
  (s.ledgerIDs ++ ids.filter fun x => decide (qtyOf x s.ledger = 0)).toFinset.card =
      (s.eventIDs ++ ids.filter fun x => decide (qtyOf x s.ledger = 0)).toFinset.card ∧
    ∀ x ∈ s.eventIDs, s.discrepancy x ≤ 1e-9

theorem isMatched_added_iff {ids : List OrderID} {s s' : Store} (h : Added ids s s') :
    s'.reconciliation.isMatched = true ↔ WillMatch s ids := by
  obtain ⟨fills, hledger, hexecutions, hids⟩ := h.records
  have hledgerIDs : s'.ledgerIDs = s.ledgerIDs ++ fills.map (·.orderID) := by
    rw [ledgerIDs, hledger, List.map_append]
    rfl
  have heventIDs : s'.eventIDs = s.eventIDs ++ fills.map (·.orderID) := by
    rw [eventIDs, hexecutions, List.map_append, List.map_map]
    rfl
  have hset : (fills.map (·.orderID)).toFinset =
      (ids.filter fun x => decide (qtyOf x s.ledger = 0)).toFinset := by
    ext x
    rw [List.mem_toFinset, hids, List.mem_toFinset, List.mem_filter, decide_eq_true_eq]
  rw [isMatched_iff, hledgerIDs, heventIDs, WillMatch, List.toFinset_append, List.toFinset_append,
    List.toFinset_append, List.toFinset_append, hset]
  refine and_congr_right fun _ => ?_
  constructor
  · intro hall x hx
    rw [← discrepancy_added h]
    exact hall x (List.mem_append_left _ hx)
  · intro hall x hx
    rw [discrepancy_added h]
    by_cases hevent : x ∈ s.eventIDs
    · exact hall x hevent
    · -- imported without an event before: neither side held anything
      have himported := (List.mem_append.mp hx).resolve_left hevent
      have hzero := ((hids x).mp himported).2
      rw [discrepancy, Data.totalOf_eq_zero hevent,
        show Data.totalOf (·.orderID) (·.quantity) x s.ledger = 0 from hzero]
      norm_num

/-! ## The verdict -/

/-- The exchange lists the symbol, and every row of it as the position held. -/
def ListsAs (rows : List Position) (symbol : Symbol) (held : Position) : Prop :=
  symbol ∈ rows.map (·.symbol) ∧ ∀ p ∈ rows, p.symbol = symbol → ¬ Moved held p

/-- The report is right: matched means no drift and a store that matches, and
every open position that was not as the exchange had it is counted as drift. -/
structure VerdictSound (rows : List Position) (s : Store) (out : Boot) : Prop where
  verdict : out.report.matched = true →
    out.report.positionDrift = 0 ∧ out.store.reconciliation.isMatched = true
  counted : ∀ symbol, (s.position symbol).size ≠ 0 →
    ¬ ListsAs rows symbol (s.position symbol) → driftDetail symbol ∈ out.report.details

/-- The report of a run without error is right exactly when there was nothing
to report. -/
theorem verdict_sound_iff {std : Std} {clock : Nat → Time} {replies : Replies}
    {listed : List Order} {s : Store} {out : Boot} (hs : s.Reached StoreCall.Issued)
    (hok : reconcile std clock replies listed s = (out, none)) :
    VerdictSound (reportedPositions std clock replies) s out ↔
      Steady (reportedPositions std clock replies) s ∧
        (∀ symbol, (s.position symbol).size ≠ 0 →
          ListsAs (reportedPositions std clock replies) symbol (s.position symbol)) ∧
        WillMatch s ((reportedFills std replies (askedSymbols std clock replies listed)).map
          (·.orderID)) := by
  obtain ⟨hmatched, hcount, hdetails⟩ := reconcile_report hok
  have hsteady := drifts_eq_nil_iff (reportedPositions std clock replies) hs.positionsNamed
  have hledger := isMatched_added_iff (reconcile_added (sound_of_reached hs) hok)
  constructor
  · rintro ⟨hverdict, hcounted⟩
    obtain ⟨hnone, hreconciled⟩ := hverdict hmatched
    rw [hcount, List.length_eq_zero_iff] at hnone
    refine ⟨hsteady.mp hnone, fun symbol hopen => ?_, hledger.mp hreconciled⟩
    by_contra hdiffers
    have hdrift := (hdetails symbol).mp (hcounted symbol hopen hdiffers)
    rw [hnone] at hdrift
    cases hdrift
  · rintro ⟨hrows, hlisted, hwill⟩
    refine ⟨fun _ => ⟨?_, hledger.mpr hwill⟩, fun symbol hopen hdiffers => ?_⟩
    · rw [hcount, hsteady.mpr hrows, List.length_nil]
    · exact absurd (hlisted symbol hopen) hdiffers

/-! ## A mismatch reported as a match -/

section OneFill

open BootDesk RealTimeTrading.ControlPlane.Desk

theorem drifted_reached : drifted.Reached StoreCall.Issued := by
  refine Reached.call (c := .setPosition { symbol := "BTCUSDT", size := 2, avgPrice := 95 }) .new
    ⟨fun order horder => ?_, fun now order heq => ?_⟩
  · cases horder
  · cases heq

/-- The store is long 2 at 95 and the exchange 1 at 100: the report counts the
drift and says matched. -/
theorem drift_reported_matched : ¬ ∀ (std : Std) (clock : Nat → Time) (replies : Replies)
    (listed : List Order) (s : Store) (out : Boot), s.Reached StoreCall.Issued →
    reconcile std clock replies listed s = (out, none) →
    VerdictSound (reportedPositions std clock replies) s out := by
  intro hall
  obtain ⟨hverdict, -⟩ := hall std (fun _ => clock) oneFill [] drifted reconciled.1 drifted_reached
    reconciled_returns
  obtain ⟨hnone, -⟩ := hverdict (by decide +kernel)
  exact absurd hnone (by decide +kernel)

theorem verdict_sound_iff_oneFill :
    VerdictSound (reportedPositions std (fun _ => clock) oneFill) drifted reconciled.1 ↔
      Steady (reportedPositions std (fun _ => clock) oneFill) drifted ∧
        (∀ symbol, (drifted.position symbol).size ≠ 0 →
          ListsAs (reportedPositions std (fun _ => clock) oneFill) symbol
            (drifted.position symbol)) ∧
        WillMatch drifted
          ((reportedFills std oneFill (askedSymbols std (fun _ => clock) oneFill [])).map
            (·.orderID)) :=
  verdict_sound_iff drifted_reached reconciled_returns

end OneFill

end BingX

end RealTimeTrading.ControlPlane
