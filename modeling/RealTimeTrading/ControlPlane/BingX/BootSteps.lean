/-
RealTimeTrading.ControlPlane.BingX.BootSteps — `Reconcile` as a list of
steps on the store.

Which rows are handled, in which order and at which readings of the
clock, depends on the replies alone. So a run that returns without error
is a fold of `BootStep.apply` over a list fixed beforehand
(`reconcile_store`): first the positions, then the rows of each symbol.
-/
import RealTimeTrading.ControlPlane.BingX.FillImport

namespace RealTimeTrading.ControlPlane.BingX

open RealTimeTrading.ControlPlane Store

/-! ## Steps -/

inductive BootStep where
  | position (position : Position)
  | order (now : Time) (order : Order)
  | fill (now : Time) (fill : FillLedgerEntry)

/-- The fill applied to the order it was found or made for. -/
def importInto (now : Time) (fill : FillLedgerEntry) (s : Store) : Store :=
  ((adopt now fill s).2.applyExternalFill now (adopt now fill s).1.id fill (reconciledEvent fill)).2

def BootStep.apply (s : Store) : BootStep → Store
  | .position p => s.setPosition p
  | .order now o => s.upsertOrder now o
  | .fill now f => if isMissing s f.orderID then importInto now f s else s

def runSteps (steps : List BootStep) (s : Store) : Store := steps.foldl BootStep.apply s

@[simp] theorem runSteps_nil (s : Store) : runSteps [] s = s := rfl

@[simp] theorem runSteps_cons (step : BootStep) (rest : List BootStep) (s : Store) :
    runSteps (step :: rest) s = runSteps rest (step.apply s) := rfl

@[simp] theorem runSteps_append (steps rest : List BootStep) (s : Store) :
    runSteps (steps ++ rest) s = runSteps rest (runSteps steps s) := List.foldl_append

/-! ## The steps of the replies -/

/-- The rows of a reply with the readings of the clock they are handled at. -/
def stamped {A : Type} (clock : Nat → Time) : Nat → List A → List (Time × A)
  | _, [] => []
  | n, row :: rest => (clock n, row) :: stamped clock (n + 1) rest

/-- Steps that do not look at the clock. -/
theorem stamped_snd {A B : Type} (clock : Nat → Time) (n : Nat) (f : A → B) (rows : List A) :
    (stamped clock n rows).map (fun row => f row.2) = rows.map f := by
  induction rows generalizing n with
  | nil => rfl
  | cons row rest ih => rw [stamped, List.map_cons, List.map_cons, ih]

def orderStep (std : Std) (row : Time × OrderReply) : BootStep :=
  .order row.1 (mapOrder std row.1 row.2)

def fillStep (std : Std) (row : Time × FillRaw) : BootStep :=
  .fill row.1 (mapFill std row.1 row.2)

/-- The rows the replies hold for `symbols`, from the `n`-th reading on. -/
def symbolSteps (std : Std) (clock : Nat → Time) (replies : Replies) :
    List Symbol → Nat → List BootStep
  | [], _ => []
  | symbol :: rest, n =>
    let orders := (replies.openOrders (std.toUpper symbol)).toOption.getD []
    let fills := (replies.fills (std.toUpper symbol)).toOption.getD []
    (stamped clock n orders).map (orderStep std) ++
      (stamped clock (n + orders.length) fills).map (fillStep std) ++
      symbolSteps std clock replies rest (n + orders.length + fills.length)

def reportedPositions (std : Std) (clock : Nat → Time) (replies : Replies) : List Position :=
  (replies.positions.toOption.getD []).map (mapPosition std (clock 0))

/-- The steps after the positions. -/
def rowSteps (std : Std) (clock : Nat → Time) (replies : Replies) (listed : List Order) :
    List BootStep :=
  symbolSteps std clock replies (askedSymbols std clock replies listed)
    (1 + (reportedPositions std clock replies).length)

/-! ## The routine runs them -/

section Routine

variable {std : Std} {clock : Nat → Time} {replies : Replies}

theorem eachRow_store {A : Type} (clock : Nat → Time) {f : Time → A → Boot → Boot}
    (step : Time × A → BootStep)
    (hstore : ∀ now row b, (f now row b).store = (step (now, row)).apply b.store)
    (hreads : ∀ now row b, (f now row b).reads = b.reads) (rows : List A) (b : Boot) :
    (eachRow clock f rows b).store = runSteps ((stamped clock b.reads rows).map step) b.store ∧
      (eachRow clock f rows b).reads = b.reads + rows.length := by
  induction rows generalizing b with
  | nil => exact ⟨rfl, rfl⟩
  | cons row rest ih =>
    obtain ⟨hs, hr⟩ := ih (f (clock b.reads) row { b with reads := b.reads + 1 })
    rw [hreads] at hs hr
    rw [hstore] at hs
    refine ⟨hs, hr.trans ?_⟩
    rw [List.length_cons, Nat.add_assoc, Nat.add_comm 1]

theorem reconcileOrder_store (now : Time) (row : OrderReply) (b : Boot) :
    (reconcileOrder now (mapOrder std now row) b).store =
      (orderStep std (now, row)).apply b.store := rfl

theorem importFill_store (now : Time) (row : FillRaw) (b : Boot) :
    (importFill now (mapFill std now row) b).store = (fillStep std (now, row)).apply b.store := by
  unfold importFill fillStep BootStep.apply importInto
  dsimp only
  split <;> rfl

theorem importFill_reads (now : Time) (fill : FillLedgerEntry) (b : Boot) :
    (importFill now fill b).reads = b.reads := by
  unfold importFill
  split <;> rfl

theorem reconcileSymbols_store {symbols : List Symbol} {b b' : Boot}
    (hok : reconcileSymbols std clock replies symbols b = (b', none)) :
    b'.store = runSteps (symbolSteps std clock replies symbols b.reads) b.store := by
  induction symbols generalizing b with
  | nil =>
    cases hok
    rfl
  | cons symbol rest ih =>
    unfold reconcileSymbols at hok
    split at hok
    · cases hok
    · rename_i orders horders
      dsimp only at hok
      split at hok
      · cases hok
      · rename_i fills hfills
        obtain ⟨hs, hr⟩ := eachRow_store clock (orderStep std)
          reconcileOrder_store (fun _ _ _ => rfl) orders b
        obtain ⟨hs', hr'⟩ := eachRow_store clock (fillStep std)
          importFill_store (fun _ _ _ => importFill_reads _ _ _) fills
          (eachRow clock (fun now row => reconcileOrder now (mapOrder std now row)) orders b)
        have hrest := ih hok
        rw [hs', hr', hs, hr] at hrest
        rw [hrest]
        simp [symbolSteps, horders, hfills, Except.toOption]

theorem finish_store (b : Boot) :
    ∃ report, (finish b).store = b.store.appendReconciliationReport report :=
  ⟨_, rfl⟩

/-- A run that returns without error is a run of its steps; the account is
set before them and the report is stored after them. -/
theorem reconcile_store {listed : List Order} {s : Store} {out : Boot}
    (hok : reconcile std clock replies listed s = (out, none)) :
    ∃ account report, out.store =
      (runSteps (rowSteps std clock replies listed)
        (runSteps ((reportedPositions std clock replies).map .position)
          (s.setAccountState account))).appendReconciliationReport report := by
  unfold reconcile at hok
  dsimp only at hok
  split at hok
  · cases hok
  · rename_i account _
    split at hok
    · cases hok
    · rename_i positions hpositions
      split at hok
      · cases hok
      · rename_i b' hsymbols
        obtain rfl : finish b' = out := congrArg Prod.fst hok
        obtain ⟨report, hreport⟩ := finish_store b'
        have hreported : reportedPositions std clock replies =
            positions.map (mapPosition std (clock 0)) := by
          simp [reportedPositions, hpositions, Except.toOption]
        have hasked : askedSymbols std clock replies listed =
            activeSymbols (positions.map (mapPosition std (clock 0))) listed := by
          simp [askedSymbols, hpositions, Except.toOption]
        obtain ⟨hs, hr⟩ := eachRow_store clock (fun row => BootStep.position row.2)
          (f := fun _ => reconcilePosition) (fun _ _ _ => rfl) (fun _ _ _ => rfl)
          (positions.map (mapPosition std (clock 0)))
          ⟨s.setAccountState account, ⟨true, 0, 0, 0, clock 0, []⟩, 1⟩
        refine ⟨account, report, ?_⟩
        rw [hreport, reconcileSymbols_store hsymbols, hs, hr, rowSteps, hreported, hasked,
          stamped_snd]

end Routine

end RealTimeTrading.ControlPlane.BingX
