/-
RealTimeTrading.ClosedLoop — the trading engine and the control plane,
running together on the paper exchange.

The engine posts its requests to the control plane, and reads the updates
that the control plane puts on its channel, of which some may be lost on the
way. Others may submit requests of their own (`asks`).

Left to themselves the two never trade: an order needs a sample, a sample a
fill, and a fill an order (`never_trades`). With the orders of others, every
fill that reaches the position goes back to a request, and to no more than its
order has of it (`filled_as_asked`); at rest, with everything heard, both
sides have the same position (`settled_agree`).
-/
import RealTimeTrading.ControlPlane.Traded
import RealTimeTrading.Rtts.PipelineFills
import RealTimeTrading.Rtts.PipelineOrders
import RealTimeTrading.Wire.DecisionGate

namespace RealTimeTrading.ClosedLoop

open Concurrency
open ControlPlane (ExecutionRequest ExecutionUpdate Job Op OrderID Plane PlaneConfig PlaneEntry
  PlaneRun Res Store Update code sem told)
open Rtts.Accounting (signedFills)
open Rtts.Pipeline (Chan Msg Setup State Task Trace fillOf network postsIn reported)
open Wire (decodeUpdate encodeUpdate executionRequest receivedUpdate)

/-! ## The two processes -/

/-- Both processes. The engine has read the first `read` updates or passed them over, and
`heard` those of an execution among them. -/
structure Loop where
  engine : Moment Task Chan Msg State
  plane : PlaneConfig
  read : Nat := 0
  heard : List ExecutionUpdate := []

/-- The request is one that others make, or what the control plane is handed of one that
the engine posted. -/
def Asked (setup : Setup) (asks : ExecutionRequest → Prop) (trace : Trace)
    (req : ExecutionRequest) : Prop :=
  asks req ∨ ∃ request now, .request request ∈ postsIn setup trace ∧
    req = executionRequest now request

/-- The control plane against the paper exchange. -/
def paper (exp : ℚ → ℚ) : ControlPlane.Env := ⟨exp, ControlPlane.PaperExchange.exchange⟩

section Run

variable (setup : Setup) (exp : ℚ → ℚ) (asks : ExecutionRequest → Prop) (p₀ : Plane)

/-- The interleavings of the two, with the trace of each. -/
inductive Run : Trace → List PlaneEntry → Loop → Prop
  | init : Run [] [] ⟨(network setup).initial, ⟨p₀, []⟩, 0, []⟩
  | engine {trace tr l act x} (h : Run trace tr l) (hstep : (network setup).Step l.engine act x)
      (hown : ∀ payload, act ≠ .arrive Chan.executionFeed payload) :
      Run (trace ++ [act]) tr { l with engine := x }
  | submit {trace tr l} (req : ExecutionRequest) (h : Run trace tr l)
      (hasked : Asked setup asks trace req) :
      Run trace tr { l with
        plane := ⟨l.plane.shared,
          l.plane.threads ++ [⟨.submit req, code (paper exp) (.submit req)⟩]⟩ }
  | other {trace tr l} (j : Job) (h : Run trace tr l) (hother : ∀ req, j ≠ .submit req)
      (hpaper : j.brought = []) :
      Run trace tr { l with
        plane := ⟨l.plane.shared, l.plane.threads ++ [⟨j, code (paper exp) j⟩]⟩ }
  | call {trace tr l} {i : Nat} {j : Job} {o : Op} {k : Res o → ControlPlane.Gw _} {r : Res o}
      {p : Plane} (h : Run trace tr l) (hi : l.plane.threads[i]? = some ⟨j, .call o k⟩)
      (hsem : sem (paper exp) o l.plane.shared r p) :
      Run trace (tr ++ [⟨i, l.plane.shared, ⟨o, r⟩, p⟩])
        { l with plane := ⟨p, l.plane.threads.set i ⟨j, k r⟩⟩ }
  | hear {trace tr l x} {i : Nat} {update : ExecutionUpdate}
      {payload : Wire.ControlPlaneExecutionUpdate} (h : Run trace tr l) (hi : l.read ≤ i)
      (hupdate : l.plane.shared.updates[i]? = some (.executionUpdate update))
      (hdecoded : decodeUpdate (encodeUpdate update) = some payload)
      (hstep : (network setup).Step l.engine (.arrive Chan.executionFeed payload) x) :
      Run (trace ++ [.arrive .executionFeed payload]) tr
        { l with engine := x, read := i + 1, heard := l.heard ++ [update] }

end Run

section Parts

variable {setup : Setup} {exp : ℚ → ℚ} {asks : ExecutionRequest → Prop} {p₀ : Plane}
  {trace : Trace} {tr : List PlaneEntry} {l : Loop}

/-! ## Each by itself -/

theorem Run.pipeline (h : Run setup exp asks p₀ trace tr l) :
    (network setup).Run trace l.engine := by
  induction h with
  | init => exact .init
  | engine _ hstep _ ih => exact ih.step hstep
  | hear _ _ _ _ hstep ih => exact ih.step hstep
  | submit | other | call => assumption

theorem Run.gateway (h : Run setup exp asks p₀ trace tr l) :
    PlaneRun (paper exp) p₀ tr l.plane := by
  induction h with
  | init => exact .init
  | submit req _ _ ih => exact .start _ ih
  | other j _ _ _ ih => exact .start _ ih
  | call _ hi hsem ih => exact .step ih hi hsem
  | engine | hear => assumption

/-- What was posted stays posted. -/
theorem postsIn_concat (setup : Setup) (trace : Trace) (act : Act Chan Rtts.Pipeline.Env Msg) :
    postsIn setup trace ⊆ postsIn setup (trace ++ [act]) := by
  unfold postsIn Network.received Rtts.posts
  rw [List.filterMap_append, List.filterMap_append, emit_append]
  exact List.subset_append_left _ _

theorem Asked.concat {req : ExecutionRequest} (h : Asked setup asks trace req)
    (act : Act Chan Rtts.Pipeline.Env Msg) : Asked setup asks (trace ++ [act]) req :=
  h.imp_right fun ⟨request, now, hposted, hreq⟩ =>
    ⟨request, now, postsIn_concat setup trace act hposted, hreq⟩

/-- A job is not about an exchange stream, and what is submitted was asked for. -/
structure Job.Known (setup : Setup) (asks : ExecutionRequest → Prop) (trace : Trace) (j : Job) :
    Prop where
  paper : j.brought = []
  asked : ∀ req, j = .submit req → Asked setup asks trace req

theorem Run.known (h : Run setup exp asks p₀ trace tr l) :
    ∀ t ∈ l.plane.threads, Job.Known setup asks trace t.job := by
  have hmore : ∀ {trace : Trace} {j : Job} (act), Job.Known setup asks trace j →
      Job.Known setup asks (trace ++ [act]) j :=
    fun act hj => ⟨hj.paper, fun req hreq => (hj.asked req hreq).concat act⟩
  induction h with
  | init => exact fun t ht => absurd ht List.not_mem_nil
  | engine _ _ _ ih => exact fun t ht => hmore _ (ih t ht)
  | hear _ _ _ _ _ ih => exact fun t ht => hmore _ (ih t ht)
  | submit req _ hasked ih =>
    refine List.forall_mem_append.mpr ⟨ih, List.forall_mem_singleton.mpr ⟨rfl, ?_⟩⟩
    rintro _ ⟨⟩
    exact hasked
  | other j _ hother hpaper ih =>
    exact List.forall_mem_append.mpr ⟨ih, List.forall_mem_singleton.mpr
      ⟨hpaper, fun req hreq => absurd hreq (hother req)⟩⟩
  | call _ hi _ ih =>
    intro t ht
    rcases List.mem_or_eq_of_mem_set ht with hold | rfl
    · exact ih t hold
    · have hj := ih _ (List.mem_of_getElem? hi)
      exact hj

theorem Run.on_paper (h : Run setup exp asks p₀ trace tr l) :
    ∀ t ∈ l.plane.threads, t.job.brought = [] := fun t ht => (h.known t ht).paper

/-! ## What is heard -/

def executed : Update → Option ExecutionUpdate
  | .executionUpdate update => some update
  | _ => none

/-- The updates on a fill. -/
def ofFills (updates : List ExecutionUpdate) : List ExecutionUpdate :=
  updates.filter (·.ledger.isSome)

theorem ofFills_emitted (i : Nat) (p p' : Plane) (update : Update) :
    ofFills (executed update).toList =
      (PlaneEntry.tells ⟨i, p, ⟨.emit update, ()⟩, p'⟩).toList := by
  cases update with
  | executionUpdate update =>
    show List.filter _ [update] = (if update.ledger.isSome then some update else none).toList
    cases hfill : update.ledger.isSome with
    | true => simp [hfill]
    | false => simp [hfill]
  | _ => rfl

/-- What is on the channel was announced. -/
theorem updates_told (hnone : p₀.updates = []) {c : PlaneConfig}
    (h : PlaneRun (paper exp) p₀ tr c) :
    (ofFills (c.shared.updates.filterMap executed)).Sublist (told tr) := by
  refine Concurrency.Run.induct_shared
    (fun tr p => (ofFills (p.updates.filterMap executed)).Sublist (told tr)) ?_ ?_ h
  · rw [hnone]
    exact List.nil_sublist _
  · intro tr p i o r p' hbefore hsem
    rw [ControlPlane.told_concat]
    rcases ControlPlane.sem_updates hsem with hsame | ⟨update, rfl, hadded⟩
    · rw [hsame]
      exact hbefore.trans (List.sublist_append_left _ _)
    · rw [hadded, filterMap_concat, ofFills, List.filter_append]
      exact hbefore.append (ofFills_emitted i p p' update ▸ .refl _)

/-- What is heard was on the channel, in its order, and is what the engine is fed with. -/
structure Heard (trace : Trace) (l : Loop) : Prop where
  read : l.read ≤ l.plane.shared.updates.length
  some : l.heard.Sublist ((l.plane.shared.updates.take l.read).filterMap executed)
  decoded : ∀ update ∈ l.heard, Wire.Readable update
  fed : entered Chan.executionFeed trace = l.heard.map receivedUpdate

theorem updates_prefix {o : Op} {r : Res o} {p p' : Plane} {env : ControlPlane.Env}
    (h : sem env o p r p') : p.updates <+: p'.updates := by
  rcases ControlPlane.sem_updates h with hsame | ⟨update, -, hadded⟩
  · rw [hsame]
  · rw [hadded]
    exact List.prefix_append _ _

/-- No task of the engine sends on its own feed. -/
theorem enters_own {x y : Moment Task Chan Msg State} {act : Act Chan Rtts.Pipeline.Env Msg}
    (h : (network setup).Run trace x) (hstep : (network setup).Step x act y)
    (hown : ∀ payload, act ≠ .arrive Chan.executionFeed payload) :
    act.enters Chan.executionFeed = none := by
  cases hstep with
  | @arrive c m _ =>
    refine on_of_ne (fun hfeed => ?_) m
    subst hfeed
    exact hown m rfl
  | receive => rfl
  | @enqueue t c m rest hpending _ =>
    have hsource : Rtts.Pipeline.source c = some t :=
      h.accounts.own t ⟨c, m⟩ (hpending ▸ List.mem_cons_self)
    refine on_of_ne (fun hfeed => ?_) m
    subst hfeed
    cases hsource
  | drop => rfl

theorem Run.hears (h : Run setup exp asks p₀ trace tr l) : Heard trace l := by
  induction h with
  | init => exact ⟨Nat.zero_le _, List.nil_sublist _, fun _ h => absurd h List.not_mem_nil, rfl⟩
  | submit _ _ _ ih => exact { ih with }
  | other _ _ _ _ ih => exact { ih with }
  | @engine trace tr l act x h hstep hown ih =>
    refine { ih with fed := ?_ }
    rw [Network.entered_concat, enters_own h.pipeline hstep hown, Option.toList_none,
      List.append_nil]
    exact ih.fed
  | @call trace tr l i j o k r p _ _ hsem ih =>
    have hprefix := updates_prefix hsem
    refine { ih with read := ih.read.trans hprefix.length_le, some := ?_ }
    obtain ⟨more, hmore⟩ := hprefix
    show l.heard.Sublist ((p.updates.take l.read).filterMap executed)
    rw [← hmore, List.take_append_of_le_length ih.read]
    exact ih.some
  | @hear trace tr l x i update payload _ hi hupdate hdecoded _ ih =>
    obtain ⟨hreadable, rfl⟩ := Wire.decodeUpdate_eq_some_iff.mp hdecoded
    obtain ⟨hlength, hget⟩ := List.getElem?_eq_some_iff.mp hupdate
    constructor
    · exact hlength
    · show (l.heard ++ [update]).Sublist ((l.plane.shared.updates.take (i + 1)).filterMap executed)
      rw [List.take_add_one, hupdate, Option.toList_some, filterMap_concat]
      exact (ih.some.trans ((List.take_sublist_take_left hi).filterMap _)).append (.refl _)
    · exact List.forall_mem_append.mpr ⟨ih.decoded, List.forall_mem_singleton.mpr hreadable⟩
    · rw [Network.entered_concat, ih.fed, List.map_append]
      rfl

/-! ## The fills that are reported -/

/-- The fill the engine makes of an update. -/
def fillFor (update : ExecutionUpdate) : Option Rtts.FillEvent := fillOf (receivedUpdate update)

/-- What the fill says is what was announced. -/
structure Tells (update : ExecutionUpdate) (duty : ControlPlane.Duty) (fill : Rtts.FillEvent) :
    Prop where
  orderId : fill.orderId = duty.ledger.orderID
  size : fill.filledSize = duty.quantity
  symbol : fill.symbol = update.order.symbol
  side : fill.side = Wire.parseSide (Wire.sideText update.order.side)

theorem fillFor_of_duty {update : ExecutionUpdate} {duty : ControlPlane.Duty}
    (h : update.duty = some duty) :
    ∃ fill, fillFor update = some fill ∧ Tells update duty fill := by
  obtain ⟨hledger, hexecution⟩ := ExecutionUpdate.records_duty h
  unfold fillFor fillOf Wire.handleUpdate
  simp only [receivedUpdate, hledger, hexecution, Option.map_some, Option.some.injEq,
    exists_eq_left']
  exact ⟨rfl, rfl, rfl, rfl⟩

theorem fillFor_bare {update : ExecutionUpdate} (h : update.ledger = none) :
    fillFor update = none := by
  unfold fillFor fillOf Wire.handleUpdate
  simp only [receivedUpdate, h, Option.map_none]

/-- The fills that are reported are among those announced, in order. -/
theorem Run.reports (hnone : p₀.updates = []) (h : Run setup exp asks p₀ trace tr l) :
    (ofFills l.heard).Sublist (told tr) ∧
      reported trace = (ofFills l.heard).filterMap fillFor := by
  have hheard := h.hears
  constructor
  · have hread : (l.plane.shared.updates.take l.read).Sublist l.plane.shared.updates :=
      List.take_sublist _ _
    exact ((hheard.some.trans (hread.filterMap _)).filter _).trans (updates_told hnone h.gateway)
  · rw [reported, hheard.fed, List.filterMap_map, ofFills, List.filterMap_filter]
    refine List.filterMap_congr fun update _ => ?_
    cases hledger : update.ledger with
    | none => exact fillFor_bare hledger
    | some ledger => rfl

/-! ## Left to themselves -/

/-- Nothing was ever ordered. -/
structure Untraded (setup : Setup) (trace : Trace) (l : Loop) : Prop where
  intents : entered Chan.intent trace = []
  posts : postsIn setup trace = []
  fills : reported trace = []
  orders : ∀ id, l.plane.shared.store.orders.lookup id = none

/-- Without fills the pipeline posts nothing. -/
theorem posts_unfilled {x : Moment Task Chan Msg State} (h : (network setup).Run trace x)
    (hunfilled : ∀ payload ∈ entered Chan.executionFeed trace,
      (Wire.handleUpdate payload).2 = none) :
    entered Chan.intent trace = [] ∧ postsIn setup trace = [] := by
  have hmeets := Rtts.Pipeline.meets_unfilled h hunfilled
  constructor
  · exact List.eq_nil_iff_forall_not_mem.mpr fun order horder => hmeets.entered .intent order horder
  · refine List.eq_nil_iff_forall_not_mem.mpr fun post hposted => ?_
    obtain ⟨now, now', sent, profile, htaken, -⟩ := Rtts.Pipeline.taken_of_posted hposted
    refine hmeets.entered .executionAction sent ?_
    rw [h.accounts.queued]
    exact List.mem_append_left _ htaken

/-- A fill is announced only of an order that was submitted. -/
theorem Run.submitted (hnew : p₀.store = .newStore) (h : Run setup exp asks p₀ trace tr l)
    (hunsubmitted : ∀ t ∈ l.plane.threads, ∀ req, t.job ≠ .submit req) :
    (∀ id, l.plane.shared.store.orders.lookup id = none) ∧ told tr = [] := by
  have hnone : ∀ id o, l.plane.shared.store.orders.lookup id ≠ some o := by
    intro id o ho
    obtain ⟨⟨t, ht, req, hreq, -⟩, -⟩ :=
      ControlPlane.run_requested hnew h.gateway h.on_paper ho
    exact hunsubmitted t ht req hreq
  refine ⟨fun id => Option.eq_none_iff_forall_ne_some.mpr (hnone id), ?_⟩
  refine List.eq_nil_iff_forall_not_mem.mpr fun update hupdate => ?_
  obtain ⟨duty, -, htraded⟩ := ControlPlane.run_traded hnew h.gateway h.on_paper hupdate
  obtain ⟨o, ho, -⟩ := htraded.stored
  exact hnone _ o ho

/-- So without orders no update that is heard reports a fill. -/
theorem Run.unfilled (hnew : p₀.store = .newStore) (hnone : p₀.updates = [])
    (h : Run setup exp asks p₀ trace tr l)
    (hunsubmitted : ∀ t ∈ l.plane.threads, ∀ req, t.job ≠ .submit req) :
    ∀ payload ∈ entered Chan.executionFeed trace, (Wire.handleUpdate payload).2 = none := by
  obtain ⟨hsome, -⟩ := h.reports hnone
  rw [(h.submitted hnew hunsubmitted).2] at hsome
  rw [h.hears.fed]
  intro payload hpayload
  obtain ⟨update, hupdate, rfl⟩ := List.mem_map.mp hpayload
  cases hledger : update.ledger with
  | none => exact Option.map_eq_none_iff.mp (fillFor_bare hledger)
  | some ledger =>
    have hmem : update ∈ ofFills l.heard :=
      List.mem_filter.mpr ⟨hupdate, by rw [hledger]; rfl⟩
    exact absurd (hsome.subset hmem) List.not_mem_nil

theorem Run.unsubmitted (hnew : p₀.store = .newStore) (hnone : p₀.updates = [])
    (h : Run setup exp (fun _ => False) p₀ trace tr l) :
    ∀ t ∈ l.plane.threads, ∀ req, t.job ≠ .submit req := by
  induction h with
  | init => exact fun t ht => absurd ht List.not_mem_nil
  | engine _ _ _ ih => exact ih
  | hear _ _ _ _ _ ih => exact ih
  | submit req h hasked ih =>
    obtain hfalse | ⟨request, now, hposted, -⟩ := hasked
    · exact hfalse.elim
    · rw [(posts_unfilled h.pipeline (h.unfilled hnew hnone ih)).2] at hposted
      cases hposted
  | other j _ hother _ ih =>
    exact List.forall_mem_append.mpr ⟨ih, List.forall_mem_singleton.mpr hother⟩
  | call _ hi _ ih =>
    intro t ht
    rcases List.mem_or_eq_of_mem_set ht with hold | rfl
    · exact ih t hold
    · have hj := ih _ (List.mem_of_getElem? hi)
      exact hj

/-- Started without orders, and with nobody else to submit any, the engine and the control
plane never trade: no intent is made, nothing posted, no order stored and no fill reported,
whatever the market does and in whichever order the two run. -/
theorem never_trades (setup : Setup) (exp : ℚ → ℚ) (p₀ : Plane) (hnew : p₀.store = .newStore)
    (hnone : p₀.updates = []) (trace : Trace) (tr : List PlaneEntry) (l : Loop)
    (h : Run setup exp (fun _ => False) p₀ trace tr l) : Untraded setup trace l := by
  have hunsubmitted := h.unsubmitted hnew hnone
  have hunfilled := h.unfilled hnew hnone hunsubmitted
  obtain ⟨hintents, hposts⟩ := posts_unfilled h.pipeline hunfilled
  obtain ⟨horders, htold⟩ := h.submitted hnew hunsubmitted
  obtain ⟨hsome, hreported⟩ := h.reports hnone
  refine ⟨hintents, hposts, ?_, horders⟩
  rw [htold, List.sublist_nil] at hsome
  rw [hreported, hsome, List.filterMap_nil]

end Parts

/-- A run of the engine that hears nothing from the control plane. -/
theorem Run.of_pipeline {setup : Setup} (exp : ℚ → ℚ) (asks : ExecutionRequest → Prop) (p₀ : Plane)
    {trace : Trace} {x : Moment Task Chan Msg State} (h : (network setup).Run trace x)
    (hown : ∀ payload, .arrive Chan.executionFeed payload ∉ trace) :
    Run setup exp asks p₀ trace [] ⟨x, ⟨p₀, []⟩, 0, []⟩ := by
  induction h with
  | init => exact .init
  | step _ hstep ih =>
    refine (ih fun payload hmem => hown payload (List.mem_append_left _ hmem)).engine hstep ?_
    rintro payload rfl
    exact hown payload (List.mem_append_right _ List.mem_cons_self)

/-- A quote has come through to its decision, and the kill switch been turned off. -/
theorem never_trades_shown : ∃ more l,
    Untraded Rtts.Pipeline.shipped (Rtts.Pipeline.shown ++ more) l ∧
      taken Chan.decision (Rtts.Pipeline.shown ++ more) ≠ [] := by
  obtain ⟨more, x, hrun, -, hsilent, hdecided⟩ := Rtts.Pipeline.run_shown
  have hown : ∀ payload,
      .arrive Chan.executionFeed payload ∉ Rtts.Pipeline.shown ++ more := by
    intro payload hmem
    rcases List.mem_append.mp hmem with hshown | hmore
    · simp [Rtts.Pipeline.shown] at hshown
    · cases hsilent _ hmore
  have hloop := (Run.of_pipeline id (fun _ => False) ControlPlane.Desk.plane hrun hown).other
    (.killSwitch false) (fun _ h => by cases h) rfl
  exact ⟨more, _, never_trades Rtts.Pipeline.shipped id ControlPlane.Desk.plane rfl rfl _ [] _
    hloop, hdecided⟩

section Parts

variable {setup : Setup} {exp : ℚ → ℚ} {asks : ExecutionRequest → Prop} {p₀ : Plane}
  {trace : Trace} {tr : List PlaneEntry} {l : Loop}

/-! ## Fills and requests -/

/-- What was filled of an order, in these fills. -/
def filledOf (id : String) (fills : List Rtts.FillEvent) : ℚ :=
  ((fills.filter (·.orderId = id)).map (·.filledSize)).sum

/-- The fill goes back to a request, by way of the one order of its key. -/
structure Traced (setup : Setup) (asks : ExecutionRequest → Prop) (trace : Trace) (s : Store)
    (fill : Rtts.FillEvent) (order : ControlPlane.Order) (req : ExecutionRequest) : Prop where
  asked : Asked setup asks trace req
  stored : s.orders.lookup fill.orderId = some order
  key : order.idempotencyKey = req.idempotencyKey
  only : s.idempotency.lookup req.idempotencyKey = some fill.orderId
  symbol : fill.symbol = req.symbol
  side : fill.side = Wire.parseSide (Wire.sideText req.side)
  positive : 0 < fill.filledSize
  size : |order.size| ≤ |req.size|
  within : filledOf fill.orderId (taken Chan.fill trace) ≤ order.size

theorem told_fill (hnew : p₀.store = .newStore) (h : Run setup exp asks p₀ trace tr l)
    {update : ExecutionUpdate} (hupdate : update ∈ told tr) :
    ∃ fill duty, fillFor update = some fill ∧ Tells update duty fill ∧
      update.Traded l.plane.shared.store duty := by
  obtain ⟨duty, hduty, htraded⟩ := ControlPlane.run_traded hnew h.gateway h.on_paper hupdate
  obtain ⟨fill, hfill, htells⟩ := fillFor_of_duty hduty
  exact ⟨fill, duty, hfill, htells, htraded⟩

/-- What the position takes is some of what was announced. -/
theorem taken_sublist_told (hnone : p₀.updates = []) (h : Run setup exp asks p₀ trace tr l) :
    (taken Chan.fill trace).Sublist ((told tr).filterMap fillFor) := by
  obtain ⟨hsome, hreported⟩ := h.reports hnone
  have hordered := (Rtts.Pipeline.taken_fill_sublist h.pipeline)
  rw [hreported] at hordered
  exact hordered.trans (hsome.filterMap _)

theorem told_positive (hnew : p₀.store = .newStore) (h : Run setup exp asks p₀ trace tr l) :
    ∀ fill ∈ (told tr).filterMap fillFor, 0 < fill.filledSize := by
  intro fill hfill
  obtain ⟨update, hupdate, hmade⟩ := List.mem_filterMap.mp hfill
  obtain ⟨fill', duty, hfill', htells, htraded⟩ := told_fill hnew h hupdate
  obtain rfl := Option.some.inj (hfill'.symm.trans hmade)
  exact htells.size ▸ htraded.positive

/-- No more of an order is taken than its size. -/
theorem taken_within (hnew : p₀.store = .newStore) (hnone : p₀.updates = [])
    (h : Run setup exp asks p₀ trace tr l) {id : OrderID} {o : ControlPlane.Order}
    (ho : l.plane.shared.store.orders.lookup id = some o) :
    filledOf id (taken Chan.fill trace) ≤ max o.size 0 := by
  have hsome := (taken_sublist_told hnone h).filter (·.orderId = id)
  refine le_trans (Data.sum_map_le_of_subperm hsome.subperm
    fun fill hfill => (told_positive hnew h fill (List.mem_filter.mp hfill).1).le) ?_
  rw [map_filter_filterMap fun update hupdate => ?_]
  · exact ControlPlane.told_within hnew h.gateway h.on_paper ho
  · obtain ⟨fill, duty, hfill, htells, htraded⟩ := told_fill hnew h hupdate
    refine ⟨fill, hfill, by rw [htells.orderId, htraded.record], ?_⟩
    rw [ExecutionUpdate.quantity, htraded.ledger, htells.size]
    rfl

/-- In every run, every fill the position takes goes back to a request that was posted by
the engine or made by others: the request of the one order there is under its key, of its
symbol and side. All fills taken of that order are within its size, and that within the
request's. -/
theorem filled_as_asked (setup : Setup) (exp : ℚ → ℚ) (asks : ExecutionRequest → Prop)
    (p₀ : Plane) (hnew : p₀.store = .newStore) (hnone : p₀.updates = []) (trace : Trace)
    (tr : List PlaneEntry) (l : Loop) (h : Run setup exp asks p₀ trace tr l) :
    ∀ fill ∈ taken Chan.fill trace, ∃ order req,
      Traced setup asks trace l.plane.shared.store fill order req := by
  intro fill hfill
  obtain ⟨update, hupdate, hmade⟩ :=
    List.mem_filterMap.mp ((taken_sublist_told hnone h).subset hfill)
  obtain ⟨fill', duty, hfill', htells, htraded⟩ := told_fill hnew h hupdate
  obtain rfl := Option.some.inj (hfill'.symm.trans hmade)
  obtain ⟨order, horder, hident⟩ := htraded.stored
  have hid : fill'.orderId = update.order.id := htells.orderId.trans htraded.record
  have hstored : l.plane.shared.store.orders.lookup fill'.orderId = some order := hid ▸ horder
  obtain ⟨⟨t, ht, req, hreq, hwithin⟩, hreserved⟩ :=
    ControlPlane.run_requested hnew h.gateway h.on_paper hstored
  have hkey : order.idempotencyKey = req.idempotencyKey := hwithin.made.idempotencyKey
  have hsymbol : update.order.symbol = req.symbol :=
    (congrArg ControlPlane.OrderIdent.symbol hident).symm.trans hwithin.made.symbol
  have hside : update.order.side = req.side :=
    (congrArg ControlPlane.OrderIdent.side hident).symm.trans hwithin.made.side
  have hpos : 0 < fill'.filledSize := htells.size ▸ htraded.positive
  have hfilled : fill'.filledSize ≤ filledOf fill'.orderId (taken Chan.fill trace) := by
    refine List.single_le_sum (List.forall_mem_map.mpr fun other hother => ?_) _
      (List.mem_map_of_mem (List.mem_filter.mpr ⟨hfill, by simp⟩))
    have hmem := (taken_sublist_told hnone h).subset (List.mem_filter.mp hother).1
    exact (told_positive hnew h other hmem).le
  have htaken := taken_within hnew hnone h hstored
  refine ⟨order, req, {
    asked := (h.known t ht).asked req hreq
    stored := hstored
    key := hkey
    only := hkey ▸ hreserved
    symbol := htells.symbol.trans hsymbol
    side := hside ▸ htells.side
    positive := hpos
    size := hwithin.size
    within := htaken.trans (max_le le_rfl ?_) }⟩
  -- the order is of more than nothing, for this fill is
  by_contra hnot
  rw [max_eq_right (not_le.mp hnot).le] at htaken
  exact absurd (hfilled.trans htaken) (not_le.mpr hpos)

/-! ## At rest -/

/-- The order is to buy or to sell. -/
def Sided (side : ControlPlane.Side) : Prop := ∃ known, side = Wire.goSide known

theorem parseSide_goSide (side : Rtts.Side) :
    Wire.parseSide (Wire.sideText (Wire.goSide side)) = side := by
  cases side with
  | buy => rfl
  | sell => rfl

theorem sided_posted {request : Rtts.ControlPlaneExecutionRequest}
    (h : .request request ∈ postsIn setup trace) (now : ControlPlane.Time) :
    Sided (executionRequest now request).side := by
  obtain ⟨now, now', sent, profile, -, hpost⟩ := Rtts.Pipeline.taken_of_posted h
  have hlabel : ∃ side, request.side = Rtts.sideLabel side := by
    cases sent with
    | submit intent key =>
      unfold Rtts.handleInstruction at hpost
      dsimp only at hpost
      split_ifs at hpost
      rw [← Rtts.Post.request.inj (Option.some.inj hpost)]
      exact ⟨_, rfl⟩
    | exitPosition orderId symbol side size price reason =>
      rw [← Rtts.Post.request.inj (Option.some.inj hpost)]
      exact ⟨_, rfl⟩
    | cancel | replace | switchStrategy | abort => cases hpost
  obtain ⟨side, hside⟩ := hlabel
  refine ⟨side, ?_⟩
  rw [Wire.executionRequest_eq]
  show ControlPlane.Side.ofString request.side = _
  rw [hside]
  cases side with
  | buy => rfl
  | sell => rfl

/-- Every order there ever is buys or sells, if those of others do. -/
theorem Run.sided (hnew : p₀.store = .newStore) (hasks : ∀ req, asks req → Sided req.side)
    (h : Run setup exp asks p₀ trace tr l) {e : PlaneEntry} (he : e ∈ tr) {id : OrderID}
    {order : ControlPlane.Order} (horder : e.pre.store.orders.lookup id = some order) :
    Sided order.side := by
  obtain ⟨o, ho, hident⟩ := (ControlPlane.run_holds (hnew ▸ Store.newStore_wellFormed)
    h.gateway he).1 id order horder
  obtain ⟨⟨t, ht, req, hreq, hwithin⟩, -⟩ :=
    ControlPlane.run_requested hnew h.gateway h.on_paper ho
  have hside : order.side = req.side :=
    (congrArg ControlPlane.OrderIdent.side hident).symm.trans hwithin.made.side
  rw [hside]
  rcases (h.known t ht).asked req hreq with hother | ⟨request, now, hposted, rfl⟩
  · exact hasks req hother
  · exact sided_posted hposted now

/-- What the control plane applied, as the engine would book it. -/
def booked (tr : List PlaneEntry) : List Rtts.Accounting.FillLedgerEntry :=
  ((ControlPlane.applied tr).filterMap fillFor).map (·.ledgerEntry)

theorem booked_concat (tr : List PlaneEntry) (e : PlaneEntry) :
    booked (tr ++ [e]) = booked tr ++
      ((e.owes.bind fillFor).map (·.ledgerEntry)).toList := by
  unfold booked
  rw [ControlPlane.applied_concat, List.filterMap_append, List.map_append]
  cases e.owes with
  | none => rfl
  | some update =>
    rw [Option.toList_some, Option.bind_some]
    cases hfill : fillFor update with
    | none => rw [List.filterMap_cons_none hfill]; rfl
    | some fill => rw [List.filterMap_cons_some hfill]; rfl

theorem fillRun_step {fills : List Rtts.Accounting.FillLedgerEntry} {e : PlaneEntry}
    (hsided : ∀ id order, e.pre.store.orders.lookup id = some order → Sided order.side)
    (hsem : sem (paper exp) e.event.1 e.pre e.event.2 e.post)
    (h : Wire.FillRun (paper exp) fills e.pre) :
    Wire.FillRun (paper exp) (fills ++ ((e.owes.bind fillFor).map (·.ledgerEntry)).toList)
      e.post := by
  obtain ⟨tid, p, ⟨o, r⟩, p'⟩ := e
  cases o with
  | applyExternalFill id ledger execution =>
    obtain ⟨updated, position, _ | err⟩ := r
    · rcases ControlPlane.sem_applyExternalFill hsem with
        ⟨hne, -⟩ | ⟨-, now, stored, hstored, hfilled, -⟩
      · exact absurd rfl hne
      · let update := ControlPlane.executionUpdate updated (some ledger) (some execution)
          (some position)
        obtain ⟨fill, hfill, htells⟩ := fillFor_of_duty
          (show update.duty = some ⟨updated.id, ledger, execution⟩ from rfl)
        show Wire.FillRun _ (fills ++ ((fillFor update).map (·.ledgerEntry)).toList) p'
        rw [hfill]
        have hupdated : updated = Store.fillOrder now ledger execution stored := hfilled
        obtain ⟨side, hside⟩ := hsided _ _ hstored
        refine h.fill hstored ?_ ?_ ?_ hsem
        · show stored.symbol = fill.symbol
          rw [htells.symbol]
          show stored.symbol = updated.symbol
          rw [hupdated]
          rfl
        · show stored.side = Wire.goSide fill.side
          rw [htells.side]
          show stored.side = Wire.goSide (Wire.parseSide (Wire.sideText updated.side))
          rw [hupdated]
          show stored.side = Wire.goSide (Wire.parseSide (Wire.sideText stored.side))
          rw [hside, parseSide_goSide]
        · exact htells.size.symm
    · rcases ControlPlane.sem_applyExternalFill hsem with ⟨-, hsame⟩ | ⟨hnone, -⟩
      · obtain rfl : p' = p := hsame
        show Wire.FillRun _ (fills ++ []) p'
        rw [List.append_nil]
        exact h
      · cases hnone
  | _ =>
    show Wire.FillRun _ (fills ++ []) p'
    rw [List.append_nil]
    exact h.call (fun _ _ _ hfill => by cases hfill) hsem

/-- A control plane that applies these fills among its other calls. -/
theorem Run.fillRun (hnew : p₀.store = .newStore) (hasks : ∀ req, asks req → Sided req.side)
    (h : Run setup exp asks p₀ trace tr l) :
    Wire.FillRun (paper exp) (booked tr) l.plane.shared := by
  refine (Concurrency.Run.induct_trace (fun tr p => Wire.FillRun (paper exp) (booked tr) p)
    (.start hnew) h.gateway (fun pre e post hsplit hbefore => ?_)).1
  have he : e ∈ tr := hsplit ▸ List.mem_append_right _ List.mem_cons_self
  rw [booked_concat]
  exact fillRun_step (fun id order horder => h.sided hnew hasks he horder)
    (ControlPlane.run_sem h.gateway he) hbefore

/-- Everything has come to rest, and all that was announced has been heard. -/
structure Settled (trace : Trace) (tr : List PlaneEntry) (l : Loop) : Prop where
  quiet : Network.Quiet l.engine
  kept : ∀ fill, .drop Chan.fill fill ∉ trace
  returned : ∀ t ∈ l.plane.threads, ∃ result, t.prog = .ret result
  heard : ofFills l.heard = told tr

/-- Once settled, both sides have booked the same fills. -/
theorem Settled.booked_perm (h : Settled trace tr l) (hnew : p₀.store = .newStore)
    (hnone : p₀.updates = []) (hrun : Run setup exp asks p₀ trace tr l) :
    ((taken Chan.fill trace).map (·.ledgerEntry)).Perm (booked tr) := by
  rw [Rtts.Pipeline.taken_fill_of_quiet hrun.pipeline h.quiet h.kept, (hrun.reports hnone).2,
    h.heard]
  exact ((ControlPlane.told_perm_applied hnew hrun.gateway hrun.on_paper
    h.returned).filterMap _).map _

theorem Run.positions_of_perm (hrun : Run setup exp asks p₀ trace tr l)
    (hnew : p₀.store = .newStore) (hasks : ∀ req, asks req → Sided req.side)
    (hperm : ((taken Chan.fill trace).map (·.ledgerEntry)).Perm (booked tr)) {lotSize : ℚ}
    (hsize : Rtts.Accounting.dust < lotSize)
    (hwhole : ∀ fill ∈ taken Chan.fill trace, Rtts.Accounting.WholeLots lotSize fill.filledSize)
    (symbol : String) :
    ((l.engine.state .position).accounting.positionExposure symbol).netQuantity =
      (l.plane.shared.store.position symbol).size := by
  have hentries : ∀ entry ∈ booked tr, Rtts.Accounting.WholeLots lotSize entry.quantity := by
    intro entry hentry
    obtain ⟨fill, hfill, rfl⟩ := List.mem_map.mp (hperm.symm.subset hentry)
    exact hwhole fill hfill
  calc ((l.engine.state .position).accounting.positionExposure symbol).netQuantity
      = signedFills symbol ((taken Chan.fill trace).map (·.ledgerEntry)) :=
        Rtts.Pipeline.netQuantity_position hrun.pipeline hsize hwhole symbol
    _ = signedFills symbol (booked tr) :=
        Rtts.Accounting.AccountingEngine.signedFills_perm symbol hperm
    _ = (l.plane.shared.store.position symbol).size :=
        ((hrun.fillRun hnew hasks).position hsize hentries symbol).symm

/-- Once settled, the engine has the same position in every symbol as the control plane. -/
theorem settled_agree (setup : Setup) (exp : ℚ → ℚ) (asks : ExecutionRequest → Prop)
    (p₀ : Plane) (hnew : p₀.store = .newStore) (hnone : p₀.updates = [])
    (hasks : ∀ req, asks req → Sided req.side) (trace : Trace) (tr : List PlaneEntry) (l : Loop)
    (h : Run setup exp asks p₀ trace tr l) (hsettled : Settled trace tr l) {lotSize : ℚ}
    (hsize : Rtts.Accounting.dust < lotSize)
    (hwhole : ∀ fill ∈ taken Chan.fill trace, Rtts.Accounting.WholeLots lotSize fill.filledSize)
    (symbol : String) :
    ((l.engine.state .position).accounting.positionExposure symbol).netQuantity =
      (l.plane.shared.store.position symbol).size := by
  have hperm := hsettled.booked_perm hnew hnone h
  exact h.positions_of_perm hnew hasks hperm hsize hwhole symbol

/-! ## Two runs put together -/

/-- The control plane by itself, with the requests of others. -/
theorem Run.of_gateway (setup : Setup) {c : PlaneConfig} (h : PlaneRun (paper exp) p₀ tr c)
    (hjobs : ∀ t ∈ c.threads, ∃ req, t.job = .submit req ∧ asks req) :
    Run setup exp asks p₀ [] tr ⟨(network setup).initial, c, 0, []⟩ := by
  induction h with
  | init => exact .init
  | @start tr p ts j h ih =>
    obtain ⟨hbefore, hlast⟩ := List.forall_mem_append.mp hjobs
    obtain ⟨req, hreq, hasks⟩ := hlast _ (List.mem_singleton_self _)
    obtain rfl : j = .submit req := hreq
    exact .submit req (ih hbefore) (.inl hasks)
  | @step tr p ts i j o k r p' h hi hsem ih =>
    exact .call (ih (jobs_before (fun j => ∃ req, j = .submit req ∧ asks req) hi hjobs)) hi hsem

/-- An engine that is fed with some of the first `n` updates of a control plane. -/
theorem Run.of_runs {c : PlaneConfig} (h : PlaneRun (paper exp) p₀ tr c)
    (hjobs : ∀ t ∈ c.threads, ∃ req, t.job = .submit req ∧ asks req)
    {x : Moment Task Chan Msg State} (hx : (network setup).Run trace x) :
    ∀ (n : Nat) (heard : List ExecutionUpdate),
      entered Chan.executionFeed trace = heard.map receivedUpdate →
      (∀ update ∈ heard, Wire.Readable update) →
      (heard.map Update.executionUpdate).Sublist (c.shared.updates.take n) →
      ∃ read ≤ n, Run setup exp asks p₀ trace tr ⟨x, c, read, heard⟩ := by
  induction hx with
  | init =>
    intro n heard hfed _ _
    obtain rfl := List.map_eq_nil_iff.mp hfed.symm
    exact ⟨0, Nat.zero_le _, .of_gateway setup h hjobs⟩
  | @step trace x act y hx hstep ih =>
    intro n heard hfed hreadable hsome
    rw [Network.entered_concat] at hfed
    by_cases hfeed : ∃ payload, act = .arrive Chan.executionFeed payload
    · obtain ⟨payload, rfl⟩ := hfeed
      obtain ⟨earlier, last, rfl, hearlier, hlast⟩ := List.append_eq_map_iff.mp hfed
      obtain ⟨update, rfl, hpayload⟩ := List.map_eq_singleton_iff.mp hlast
      obtain ⟨hreadable, hread⟩ := List.forall_mem_append.mp hreadable
      -- the last update lies behind the others
      rw [List.map_append, List.append_sublist_iff] at hsome
      obtain ⟨front, back, hparts, hfront, hback⟩ := hsome
      obtain ⟨before, after, rfl⟩ := List.append_of_mem (List.singleton_sublist.mp hback)
      have hprefix : front <+: c.shared.updates :=
        ⟨_, by rw [← List.append_assoc, ← hparts, List.take_append_drop]⟩
      rw [List.prefix_iff_eq_take.mp hprefix] at hfront
      obtain ⟨read, hle, hrun⟩ := ih front.length earlier hearlier.symm hreadable hfront
      have hget : (c.shared.updates.take n)[front.length + before.length]? =
          some (.executionUpdate update) := by
        rw [hparts, List.getElem?_append_right (Nat.le_add_right _ _), Nat.add_sub_cancel_left,
          List.getElem?_append_right le_rfl, Nat.sub_self]
        rfl
      obtain ⟨hlt, -⟩ := List.getElem?_eq_some_iff.mp hget
      have hn : front.length + before.length < n :=
        hlt.trans_le (List.length_take_le _ _)
      rw [List.getElem?_take_of_lt hn] at hget
      have hdecoded : decodeUpdate (encodeUpdate update) = some payload :=
        Wire.decodeUpdate_eq_some_iff.mpr ⟨hread update (List.mem_singleton_self _), hpayload⟩
      exact ⟨_, hn, hrun.hear (hle.trans (Nat.le_add_right _ _)) hget hdecoded hstep⟩
    · have hown : ∀ payload, act ≠ .arrive Chan.executionFeed payload := fun payload hact =>
        hfeed ⟨payload, hact⟩
      rw [enters_own hx hstep hown, Option.toList_none, List.append_nil] at hfed
      obtain ⟨read, hread, hrun⟩ := ih n heard hfed hreadable hsome
      exact ⟨read, hread, hrun.engine hstep hown⟩

end Parts

/-! ## One order of others -/

open ControlPlane (playout submit)
open ControlPlane.Desk (clock expCubic paperWorld request)
open Rtts.Pipeline (quote shipped)

/-- The desk, once the market has a price. -/
def quoted : Plane :=
  { ControlPlane.Desk.plane with
    risk := ControlPlane.Desk.plane.risk.observeMarket clock .newStore
      ⟨"BTCUSDT", clock, 100, 1, 100, 101⟩ }

/-- An order at the market, filled at once. -/
def bought : ExecutionRequest := { request with price := none }

/-- The update is on a fill of more than dust, can be read, and is all that is announced. -/
def soleFill (log : List (Event Op Res)) (updates : List Update) (update : ExecutionUpdate) :
    Prop :=
  Wire.Readable update ∧ (∃ duty ∈ update.duty, Rtts.Accounting.dust < duty.quantity) ∧
    updates[5]? = some (.executionUpdate update) ∧
    log.filterMap (fun event => PlaneEntry.tells ⟨0, quoted, event, quoted⟩) = [update]

instance (log : List (Event Op Res)) (updates : List Update) (update : ExecutionUpdate) :
    Decidable (soleFill log updates update) := by
  unfold soleFill
  infer_instance

theorem bought_announced :
    (playout expCubic (paperWorld "id-1") (submit false bought) quoted).any (fun x =>
      x.1.any fun event => (Wire.Desk.announcedBy event).any fun update =>
        decide (soleFill x.1 x.2.2.updates update)) = true := by
  decide +kernel

/-- What the engine does about a fill. -/
def fillActs (payload : Wire.ControlPlaneExecutionUpdate) (fill : Wire.FillEvent) : Trace :=
  [.arrive .executionFeed payload, .receive .executionFeed payload default,
    .enqueue .controllerExec (Wire.controllerView payload),
    .enqueue .truthFill (Rtts.Pipeline.truthFill fill), .enqueue .fill fill.forPosition,
    .receive .controllerExec (Wire.controllerView payload) default,
    .receive .truthFill (Rtts.Pipeline.truthFill fill) default,
    .receive .fill fill.forPosition default]

theorem run_fillActs {update : ExecutionUpdate} {ledger : ControlPlane.FillLedgerEntry}
    {execution : ControlPlane.ExecutionEvent} (hledger : update.ledger = some ledger)
    (hexecution : update.execution = some execution) :
    ∃ x, (network shipped).Run (fillActs (receivedUpdate update)
      (Wire.fillView (receivedUpdate update) (Wire.receivedLedgerEntry ledger)
        (Wire.receivedEvent execution))) x ∧ Network.Quiet x := by
  obtain ⟨⟩ := update
  obtain rfl := hledger
  obtain rfl := hexecution
  have hroom : 0 < (network shipped).capacity := by decide
  refine ⟨_, ((((((((Network.Run.init.step (.arrive _ rfl)).step (.receive default rfl rfl)).step
    (.enqueue (t := .external) rfl (by exact hroom))).step
    (.enqueue (t := .external) rfl (by exact hroom))).step
    (.enqueue (t := .external) rfl (by exact hroom))).step (.receive default rfl rfl)).step
    (.receive default rfl rfl)).step (.receive default rfl rfl)), ?_⟩
  constructor
  · intro t
    cases t <;> rfl
  · intro c
    cases c <;> rfl

/-- The order is filled, the engine hears of it, and all comes to rest. -/
theorem run_bought : ∃ trace tr l fill,
    Run shipped expCubic (· = bought) quoted trace tr l ∧ Settled trace tr l ∧
      taken Chan.fill trace = [fill] ∧ Rtts.Accounting.dust < fill.filledSize := by
  obtain ⟨⟨log, result, p⟩, hplay, hany⟩ := (Option.any_eq_true _ _).mp bought_announced
  obtain ⟨event, -, hannounced⟩ := List.any_eq_true.mp hany
  obtain ⟨update, -, hsole⟩ := (Option.any_eq_true _ _).mp hannounced
  obtain ⟨hreadable, ⟨duty, hduty, hsize⟩, hupdate, htold⟩ := of_decide_eq_true hsole
  obtain ⟨tr, hrun, rfl⟩ := ControlPlane.Desk.paper_run hplay
  obtain ⟨hledger, hexecution⟩ := ExecutionUpdate.records_duty hduty
  obtain ⟨x, hx, hquiet⟩ := run_fillActs hledger hexecution
  have hsome : ([update].map Update.executionUpdate).Sublist (p.updates.take 6) := by
    rw [List.map_singleton, List.singleton_sublist]
    exact List.mem_of_getElem? (i := 5) (by rw [List.getElem?_take_of_lt (by decide), hupdate])
  have hjobs : ∀ t ∈ [(⟨.submit bought, .ret result⟩ : Thread Op Res Job _)],
      ∃ req, t.job = .submit req ∧ req = bought := List.forall_mem_singleton.mpr ⟨bought, rfl, rfl⟩
  obtain ⟨read, -, hloop⟩ := Run.of_runs hrun hjobs hx 6 [update] rfl
    (List.forall_mem_singleton.mpr hreadable) hsome
  refine ⟨_, tr, _, _, hloop, ⟨hquiet, ?_, List.forall_mem_singleton.mpr ⟨result, rfl⟩, ?_⟩, rfl,
    hsize⟩
  · simp [fillActs]
  · rw [List.filterMap_map] at htold
    show ofFills [update] = told tr
    rw [show told tr = [update] from htold]
    exact List.filter_eq_self.mpr (List.forall_mem_singleton.mpr (by rw [hledger]; rfl))

theorem filled_as_asked_bought : ∃ (trace : Trace) (l : Loop) (fill : Rtts.FillEvent)
    (order : ControlPlane.Order) (req : ExecutionRequest),
    Traced shipped (· = bought) trace l.plane.shared.store fill order req := by
  obtain ⟨trace, tr, l, fill, hrun, -, htaken, -⟩ := run_bought
  obtain ⟨order, req, htraced⟩ := filled_as_asked shipped expCubic (· = bought) quoted rfl rfl trace
    tr l hrun fill (by rw [htaken]; exact List.mem_singleton_self _)
  exact ⟨trace, l, fill, order, req, htraced⟩

theorem settled_agree_bought : ∃ l : Loop,
    ((l.engine.state .position).accounting.positionExposure "BTCUSDT").netQuantity =
      (l.plane.shared.store.position "BTCUSDT").size := by
  obtain ⟨trace, tr, l, fill, hrun, hsettled, htaken, hsize⟩ := run_bought
  refine ⟨l, settled_agree shipped expCubic (· = bought) quoted rfl rfl ?_ trace tr l hrun hsettled
    hsize (fun other hother => ?_) "BTCUSDT"⟩
  · rintro req rfl
    exact ⟨.buy, rfl⟩
  · rw [htaken] at hother
    obtain rfl := List.mem_singleton.mp hother
    exact ⟨1, by decide, by rw [Nat.cast_one, one_mul]⟩

end RealTimeTrading.ClosedLoop
