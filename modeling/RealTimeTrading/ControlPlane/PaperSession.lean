/-
RealTimeTrading.ControlPlane.PaperSession — paper trading from an empty
store.

`Squared` is the state of the books after some submissions, one at a
time: every order is filled, every position is what the fills on its
symbol add up to, and the records are the fills that were sent. A refused
submission leaves the books alone, and an admitted one adds its order
(`Squared.submit`).
-/
import RealTimeTrading.ControlPlane.PositionLimit

namespace RealTimeTrading.ControlPlane

open RealTimeTrading.Concurrency

/-! ## Net positions -/

/-- What the fills on a symbol add up to, as they move the position. -/
def net (symbol : Symbol) (fills : List FillLedgerEntry) : ℚ :=
  Data.totalOf (·.symbol) (fun fill => fill.side.signed fill.quantity) symbol fills

/-- Not nothing, and still closed. -/
def Dust (size : ℚ) : Prop := 0 < |size| ∧ |size| < 1e-12

instance (size : ℚ) : Decidable (Dust size) := inferInstanceAs (Decidable (_ ∧ _))

/-- No fill leaves dust in the position on its symbol. -/
def Clear (fills : List FillLedgerEntry) : Prop :=
  ∀ i, (h : i < fills.length) → ¬ Dust (net fills[i].symbol (fills.take (i + 1)))

instance (fills : List FillLedgerEntry) : Decidable (Clear fills) := Nat.decidableBallLT _ _

theorem Clear.split {fills pre post : List FillLedgerEntry} {fill : FillLedgerEntry}
    (h : Clear fills) (hfills : fills = pre ++ fill :: post) :
    ¬ Dust (net fill.symbol (pre ++ [fill])) := by
  subst hfills
  have hlast := h pre.length (by simp)
  rw [List.getElem_append_right (Nat.le_refl _)] at hlast
  simpa [List.take_append, List.take_of_length_le (Nat.le_succ pre.length)] using hlast

theorem Clear.left {fills more : List FillLedgerEntry} (h : Clear (fills ++ more)) :
    Clear fills := by
  intro i hi
  have hlast := h i (by rw [List.length_append]; omega)
  rwa [List.getElem_append_left hi, List.take_append_of_le_length (by omega)] at hlast

theorem settle_of_clear {size : ℚ} (h : ¬ Dust size) : settle size = size := by
  unfold settle
  split
  · rename_i hsmall
    have hzero : ¬ 0 < |size| := fun hpos => h ⟨hpos, hsmall⟩
    exact (abs_nonpos_iff.mp (not_lt.mp hzero)).symm
  · rfl

theorem net_append (symbol : Symbol) (fills more : List FillLedgerEntry) :
    net symbol (fills ++ more) = net symbol fills + net symbol more := Data.totalOf_append _ _ _

theorem Side.signed_add (side : Side) (x y : ℚ) :
    side.signed (x + y) = side.signed x + side.signed y := by
  unfold Side.signed
  split
  · exact neg_add x y
  · rfl

theorem Side.signed_zero (side : Side) : side.signed 0 = 0 := by
  unfold Side.signed
  split
  · exact neg_zero
  · rfl

/-- The fills of one order add up to its size, on its symbol. -/
theorem net_same {symbol : Symbol} {side : Side} {fills : List FillLedgerEntry}
    (h : ∀ fill ∈ fills, fill.symbol = symbol ∧ fill.side = side) (x : Symbol) :
    net x fills = if symbol = x then side.signed (fills.map (·.quantity)).sum else 0 := by
  induction fills with
  | nil =>
    rw [List.map_nil, List.sum_nil, Side.signed_zero, ite_self]
    rfl
  | cons fill rest ih =>
    obtain ⟨⟨rfl, rfl⟩, hrest⟩ := List.forall_mem_cons.mp h
    rw [net, Data.totalOf_cons, ← net, ih hrest, List.map_cons, List.sum_cons, Side.signed_add]
    split
    · rfl
    · exact add_zero 0

/-- Fills that leave no dust move the position by what they add up to. -/
theorem filledBy_clear {symbol : Symbol} {side : Side} {fills before : List FillLedgerEntry}
    (h : ∀ fill ∈ fills, fill.symbol = symbol ∧ fill.side = side)
    (hclear : Clear (before ++ fills)) :
    filledBy side (net symbol before) fills = net symbol (before ++ fills) := by
  induction fills generalizing before with
  | nil => rw [List.append_nil]; rfl
  | cons fill rest ih =>
    obtain ⟨⟨rfl, rfl⟩, hrest⟩ := List.forall_mem_cons.mp h
    have hlast : net fill.symbol (before ++ [fill]) =
        net fill.symbol before + fill.side.signed fill.quantity := by
      rw [net_append]
      simp [net]
    have hsettled := settle_of_clear (hclear.split rfl)
    have hcons : before ++ fill :: rest = before ++ [fill] ++ rest := by simp
    rw [hcons] at hclear ⊢
    rw [← ih hrest hclear, filledBy, List.foldl_cons, ← hlast, hsettled]
    rfl

/-! ## One submission -/

namespace Submission

variable (exp : ℚ → ℚ) (x : Submission)

instance : Decidable (x.Admitted exp) := inferInstanceAs (Decidable (_ ∧ _))

/-- The fills the exchange sent. -/
def sent : List FillLedgerEntry := sentFills x.log

/-- The size of the order. -/
def size : ℚ := (scaledRequest (x.decision exp) x.req).size

/-- What an admitted order adds to the position on a symbol. -/
def signedSize (symbol : Symbol) : ℚ :=
  if x.Admitted exp ∧ x.req.symbol = symbol then x.req.side.signed (x.size exp) else 0

/-- The order of the submission, all of it filled at its limit price, or at 1. -/
structure Completed (o : Order) : Prop where
  key : o.idempotencyKey = x.req.idempotencyKey
  symbol : o.symbol = x.req.symbol
  side : o.side = x.req.side
  size : o.size = x.size exp
  status : o.status = .filled
  filled : o.filled = o.size
  price : o.weightedAvgFillPrice = x.req.price.getD 1

variable {exp x}

theorem size_pos (hadmitted : x.Admitted exp) : 0 < x.size exp := x.scaled_pos hadmitted

/-- A submission that is not admitted leaves the store alone. -/
theorem refused (hx : x.OnPaper exp) (h : ¬ x.Admitted exp) :
    x.after.store = x.before.store ∧ x.sent = [] := by
  by_cases hkey : x.req.idempotencyKey = ""
  · have hlogged := hx.logged
    unfold submit at hlogged
    obtain ⟨started, _, _, hlog, rfl, hchecked⟩ := logged_call.mp hlogged
    dsimp only at hchecked
    rw [if_pos hkey] at hchecked
    obtain ⟨rfl, -, hafter⟩ := hchecked
    exact ⟨by rw [hafter], by rw [sent, hlog]; rfl⟩
  · obtain ⟨started, requestAt, risk, rest, hlog, hrest⟩ := x.checked hx hkey
    rw [if_neg fun hallowed => h ⟨hkey, hallowed⟩] at hrest
    obtain ⟨id, _, _, rfl, hid, hnamed⟩ := logged_call.mp hrest
    obtain ⟨_, _, _, rfl, hemit, rfl, -, hafter⟩ := logged_call.mp hnamed
    refine ⟨?_, by rw [sent, hlog]; rfl⟩
    rw [hafter, sem_reads hemit rfl, sem_reads hid rfl]

/-- An admitted submission under a new key, with no order open, adds its order. -/
theorem adds (hx : x.OnPaper exp) (hadmitted : x.Admitted exp)
    (hwf : x.before.store.WellFormed)
    (hclosed : ∀ id o, x.before.store.orders.lookup id = some o → o.status.isOpen = false)
    (hfree : x.before.store.idempotency.lookup x.req.idempotencyKey = none) :
    ∃ id order, x.before.store.orders.lookup id = none ∧
      order.ident = ⟨id, x.req.idempotencyKey, x.req.symbol, x.req.side, x.size exp⟩ ∧
      order.price = x.req.price ∧
      FilledOnPaper order x.before.store x.log x.after.store := by
  obtain ⟨started, requestAt, risk, rest, hsent, hanswered, hrest⟩ :=
    x.admitted_logged hx hadmitted
  obtain ⟨opened, p₁, log₁, id, order, hperm, hloop, hnew, hident, hprice, ackAt, calls, hcalls,
    hpaired, hfills, hexecuted⟩ := logged_reserveAndSend (p := { x.before with risk := risk }) rfl
      hwf (by rw [scaledRequest_idempotencyKey]; exact hfree) hanswered hrest
  have hnone : opened = [] := by
    refine List.eq_nil_iff_forall_not_mem.mpr fun o ho => ?_
    obtain ⟨⟨y, hy⟩, -, hopen⟩ :=
      (Store.mem_openOrdersBySymbol _ _ _).mp (hperm.mem_iff.mp ho)
    rw [hclosed y o hy] at hopen
    cases hopen
  subst hnone
  obtain ⟨-, -, rfl⟩ := hloop
  simp only [scaledRequest_idempotencyKey, scaledRequest_symbol, scaledRequest_side] at hident
  refine ⟨id, order, hnew, hident, ?_, ackAt, calls, hcalls, hpaired, hsent.trans hfills,
    hexecuted⟩
  rw [hprice, scaledRequest_cases]

/-- An admitted price is the limit, if there is one. -/
theorem reference_price (hadmitted : x.Admitted exp) :
    PaperExchange.reference x.req.price = x.req.price.getD 1 := by
  have hpasses := (Service.evaluate_allowed_iff _ _ _ _ _ _).mp hadmitted.2
  cases hprice : x.req.price with
  | none => rfl
  | some price =>
    have hpos : 0 < price := by
      have hchecked := hpasses.price
      rwa [Service.checkedPrice, hprice] at hchecked
    exact if_pos hpos

end Submission

/-! ## The books -/

/-- The fills the exchange sent, over the submissions. -/
def fillsSent (xs : List Submission) : List FillLedgerEntry := xs.flatMap (·.sent)

/-- The books after these submissions, from an empty store. -/
structure Squared (exp : ℚ → ℚ) (xs : List Submission) (s : Store) : Prop where
  wellFormed : s.WellFormed
  filled : ∀ id o, s.orders.lookup id = some o → o.status = .filled
  completed : ∀ x ∈ xs, x.Admitted exp →
    ∃ o, s.orderByIdempotency x.req.idempotencyKey = some o ∧ x.Completed exp o
  keys : ∀ key id, s.idempotency.lookup key = some id → ∃ x ∈ xs, x.req.idempotencyKey = key
  position : ∀ symbol, (s.position symbol).size = net symbol (fillsSent xs)
  net : ∀ symbol, net symbol (fillsSent xs) = (xs.map (·.signedSize exp symbol)).sum
  ledger : s.ledger = fillsSent xs
  paired : s.RecordsPaired

namespace Squared

variable {exp : ℚ → ℚ} {xs ys : List Submission} {x : Submission}

theorem newStore : Squared exp [] .newStore where
  wellFormed := Store.newStore_wellFormed
  filled _ _ h := by cases h
  completed _ hx := absurd hx List.not_mem_nil
  keys _ _ h := by cases h
  position _ := rfl
  net _ := rfl
  ledger := rfl
  paired := .nil

theorem fillsSent_concat (xs : List Submission) (x : Submission) :
    fillsSent (xs ++ [x]) = fillsSent xs ++ x.sent := by
  simp [fillsSent]

/-- A refused submission leaves the books alone. -/
theorem refused (h : Squared exp xs x.before.store) (hx : x.OnPaper exp)
    (hrefused : ¬ x.Admitted exp) : Squared exp (xs ++ [x]) x.after.store := by
  obtain ⟨hstore, hsent⟩ := x.refused hx hrefused
  have hfills : fillsSent (xs ++ [x]) = fillsSent xs := by
    rw [fillsSent_concat, hsent, List.append_nil]
  rw [hstore]
  constructor
  · exact h.wellFormed
  · exact h.filled
  · intro y hy hadmitted
    rcases List.mem_append.mp hy with hy | hy
    · exact h.completed y hy hadmitted
    · exact absurd (List.mem_singleton.mp hy ▸ hadmitted) hrefused
  · intro key id hkey
    obtain ⟨y, hy, heq⟩ := h.keys key id hkey
    exact ⟨y, List.mem_append_left _ hy, heq⟩
  · rw [hfills]
    exact h.position
  · intro symbol
    rw [hfills, h.net, List.map_append, List.sum_append, List.map_singleton, List.sum_singleton,
      Submission.signedSize, if_neg fun hboth => hrefused hboth.1, add_zero]
  · rw [hfills]
    exact h.ledger
  · exact h.paired

/-- An admitted submission under a new key adds its order to the books. -/
theorem adds (h : Squared exp xs x.before.store) (hx : x.OnPaper exp)
    (hadmitted : x.Admitted exp)
    (hnew : ∀ y ∈ xs, y.req.idempotencyKey ≠ x.req.idempotencyKey)
    (hclear : Clear (fillsSent xs ++ x.sent)) : Squared exp (xs ++ [x]) x.after.store := by
  have hfree : x.before.store.idempotency.lookup x.req.idempotencyKey = none := by
    refine Option.eq_none_iff_forall_ne_some.mpr fun id hid => ?_
    obtain ⟨y, hy, heq⟩ := h.keys _ id hid
    exact hnew y hy heq
  obtain ⟨id, order, hfresh, hident, hprice, hpaper⟩ := x.adds hx hadmitted h.wellFormed
    (fun id o ho => by rw [h.filled id o ho]; rfl) hfree
  have hsize : order.size = x.size exp := congrArg OrderIdent.size hident
  obtain ⟨o, ho, hoident, hstatus, hfilled, havg⟩ :=
    hpaper.order (hsize ▸ x.size_pos hadmitted)
  have hcompleted : x.Completed exp o := by
    have hoident := hoident.trans hident
    exact ⟨congrArg OrderIdent.idempotencyKey hoident, congrArg OrderIdent.symbol hoident,
      congrArg OrderIdent.side hoident, congrArg OrderIdent.size hoident, hstatus, hfilled,
      by rw [havg, hprice, x.reference_price hadmitted]⟩
  obtain ⟨ackAt, calls, hcalls, hpaired, hsent, hexecuted⟩ := hpaper
  rw [hident] at hexecuted
  have hid : order.id = id := congrArg OrderIdent.id hident
  rw [hid] at ho
  have hfills : x.sent = calls.map (·.fill) := hsent
  have hof : ∀ fill ∈ x.sent, fill.symbol = x.req.symbol ∧ fill.side = x.req.side := by
    intro fill hfill
    rw [hfills, hcalls] at hfill
    obtain ⟨-, hsymbol, hside, -⟩ := PaperExchange.fillOf_of_mem hfill
    exact ⟨hsymbol.trans (congrArg OrderIdent.symbol hident),
      hside.trans (congrArg OrderIdent.side hident)⟩
  have hquantity : (x.sent.map (·.quantity)).sum = x.size exp := by
    rw [hfills, hcalls, PaperExchange.buildPaperFills_sum, hsize,
      max_eq_left (x.size_pos hadmitted).le]
  have hnet : ∀ symbol, ControlPlane.net symbol x.sent = x.signedSize exp symbol := by
    intro symbol
    rw [net_same hof, hquantity, Submission.signedSize]
    simp only [hadmitted, true_and]
  constructor
  · exact hexecuted.wellFormed
  · intro y o' ho'
    by_cases hy : y = id
    · subst hy
      obtain rfl := Option.some.inj (ho.symm.trans ho')
      exact hstatus
    · exact h.filled y o' ((hexecuted.others y hy).symm.trans ho')
  · intro y hy hyadmitted
    rw [Store.orderByIdempotency, hexecuted.keys]
    rcases List.mem_append.mp hy with hy | hy
    · -- an earlier order is stored under an id that was taken
      obtain ⟨o', ho', hcompleted'⟩ := h.completed y hy hyadmitted
      refine ⟨o', ?_, hcompleted'⟩
      rw [AList.lookup_insert_ne (hnew y hy)]
      obtain ⟨id', hid', hstored⟩ := Option.bind_eq_some_iff.mp ho'
      have hne : id' ≠ id := by
        rintro rfl
        rw [hfresh] at hstored
        cases hstored
      rw [hid', Option.bind_some, hexecuted.others id' hne]
      exact hstored
    · obtain rfl := List.mem_singleton.mp hy
      refine ⟨o, ?_, hcompleted⟩
      rw [AList.lookup_insert, Option.bind_some]
      exact ho
  · intro key id' hkey
    rw [hexecuted.keys] at hkey
    by_cases hsame : key = x.req.idempotencyKey
    · exact ⟨x, List.mem_append_right _ (List.mem_singleton_self x), hsame.symm⟩
    · rw [AList.lookup_insert_ne hsame] at hkey
      obtain ⟨y, hy, heq⟩ := h.keys key id' hkey
      exact ⟨y, List.mem_append_left _ hy, heq⟩
  · intro symbol
    rw [fillsSent_concat]
    by_cases hsymbol : symbol = x.req.symbol
    · subst hsymbol
      rw [hexecuted.position, h.position, ← hfills]
      exact filledBy_clear hof hclear
    · rw [hexecuted.positions symbol hsymbol, h.position, net_append, hnet,
        Submission.signedSize, if_neg fun hboth => hsymbol hboth.2.symm, add_zero]
  · intro symbol
    rw [fillsSent_concat, net_append, h.net, hnet, List.map_append, List.sum_append,
      List.map_singleton, List.sum_singleton]
  · rw [hexecuted.ledger, h.ledger, fillsSent_concat, hfills]
  · unfold Store.RecordsPaired
    rw [hexecuted.ledger, hexecuted.executions]
    refine List.rel_append h.paired ?_
    rw [List.forall₂_map_left_iff, List.forall₂_map_right_iff, List.forall₂_same]
    exact hpaired

/-- Every sequence of submissions under new keys keeps the books square. -/
theorem session {p p' : Plane} (hsession : Session exp p ys p') (h : Squared exp xs p.store)
    (hkeys : ((xs ++ ys).map (·.req.idempotencyKey)).Nodup)
    (hclear : Clear (fillsSent (xs ++ ys))) : Squared exp (xs ++ ys) p'.store := by
  induction hsession generalizing xs with
  | nil => rwa [List.append_nil]
  | @cons x ys p' hx _ ih =>
    have hcons : xs ++ x :: ys = xs ++ [x] ++ ys := by simp
    rw [hcons] at hkeys hclear ⊢
    refine ih ?_ hkeys hclear
    by_cases hadmitted : x.Admitted exp
    · refine h.adds hx hadmitted (fun y hy heq => ?_) ?_
      · rw [List.map_append, List.map_append] at hkeys
        have hdisjoint := List.disjoint_of_nodup_append (List.nodup_append.mp hkeys).1
        exact hdisjoint (List.mem_map_of_mem hy)
          (List.mem_map.mpr ⟨x, List.mem_singleton_self x, heq.symm⟩)
      · rw [fillsSent, List.flatMap_append] at hclear
        rw [← fillsSent_concat]
        exact hclear.left
    · exact h.refused hx hadmitted

end Squared

/-- Paper trading from an empty store, one submission at a time: every
admitted order is filled, none is left open, the positions are what the
admitted orders add up to, the ledger is the fills sent, and the records
match. -/
theorem paper_session {exp : ℚ → ℚ} {p₀ p' : Plane} {xs : List Submission}
    (hempty : p₀.store = .newStore) (h : Session exp p₀ xs p')
    (hkeys : (xs.map (·.req.idempotencyKey)).Nodup) (hclear : Clear (fillsSent xs)) :
    (∀ x ∈ xs, x.Admitted exp →
      ∃ o, p'.store.orderByIdempotency x.req.idempotencyKey = some o ∧ x.Completed exp o) ∧
    (∀ id o, p'.store.orders.lookup id = some o → o.status.isOpen = false) ∧
    (∀ symbol, (p'.store.position symbol).size = (xs.map (·.signedSize exp symbol)).sum) ∧
    p'.store.ledger = fillsSent xs ∧ p'.store.reconciliation.isMatched = true := by
  have hsquared : Squared exp ([] ++ xs) p'.store :=
    Squared.session h (hempty ▸ .newStore) hkeys hclear
  rw [List.nil_append] at hsquared
  refine ⟨hsquared.completed, fun id o ho => ?_, fun symbol => ?_, hsquared.ledger,
    Store.matched_of_paired hsquared.paired⟩
  · rw [hsquared.filled id o ho]
    rfl
  · rw [hsquared.position, hsquared.net]

namespace Desk

/-- Two units sold. -/
def sold : ExecutionRequest := { request with idempotencyKey := "cid-2", side := .sell, size := 2 }

/-- One unit is bought and then two are sold. -/
theorem paper_session_two : ∃ xs p', Session expCubic plane xs p' ∧
    xs.map (·.req) = [request, sold] ∧ (∀ x ∈ xs, x.Admitted expCubic) ∧
    (∀ x ∈ xs, x.Admitted expCubic →
      ∃ o, p'.store.orderByIdempotency x.req.idempotencyKey = some o ∧ x.Completed expCubic o) ∧
    (∀ id o, p'.store.orders.lookup id = some o → o.status.isOpen = false) ∧
    (∀ symbol, (p'.store.position symbol).size = (xs.map (·.signedSize expCubic symbol)).sum) ∧
    p'.store.ledger = fillsSent xs ∧ p'.store.reconciliation.isMatched = true := by
  have hplayouts : (playout expCubic (paperWorld "id-1") (submit false request) plane).any
      (fun first => admittedIn first.1 &&
        (playout expCubic (paperWorld "id-2") (submit false sold) first.2.2).any
          fun second => admittedIn second.1 &&
            decide (Clear (sentFills first.1 ++ sentFills second.1))) = true := by decide +kernel
  obtain ⟨⟨log₁, result₁, p₁⟩, h₁, hrest⟩ := (Option.any_eq_true _ _).mp hplayouts
  rw [Bool.and_eq_true] at hrest
  obtain ⟨⟨log₂, result₂, p₂⟩, h₂, hclear⟩ := (Option.any_eq_true _ _).mp hrest.2
  rw [Bool.and_eq_true, decide_eq_true_eq] at hclear
  obtain ⟨x, hx, hadmitted, hreqx, hstart, rfl, rfl⟩ :=
    submission_of_playout (by decide) h₁ hrest.1
  obtain ⟨y, hy, hadmitted', hreqy, hbefore, rfl, rfl⟩ :=
    submission_of_playout (by decide) h₂ hclear.1
  have hlast : Session expCubic y.before [y] y.after := .cons hy (.nil _)
  rw [hbefore] at hlast
  have hsession : Session expCubic plane [x, y] y.after := hstart ▸ .cons hx hlast
  refine ⟨[x, y], y.after, hsession, by simp [hreqx, hreqy], by simp [hadmitted, hadmitted'],
    paper_session rfl hsession (by simp [hreqx, hreqy, request, sold]) ?_⟩
  simpa [fillsSent, Submission.sent] using hclear.2

end Desk

end RealTimeTrading.ControlPlane
