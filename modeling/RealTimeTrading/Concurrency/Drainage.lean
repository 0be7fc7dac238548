/-
RealTimeTrading.Concurrency.Drainage — channels that run dry.

Tasks that wait for room in each other's channels can block one another,
but not where the channels they wait on lead down (`exists_silent`). Where
every message leads to messages of a lower level only, silence from outside
ends all activity (`wellFounded_silent`). Together: the network always comes
to rest, and only with nothing left anywhere (`drains`).
-/
import Mathlib.Algebra.BigOperators.Group.Finset.Basic
import Mathlib.Algebra.BigOperators.Group.Multiset.Basic
import Mathlib.Logic.Hydra
import Mathlib.Logic.Relation
import Mathlib.Tactic.Abel
import RealTimeTrading.Concurrency.Channels

namespace RealTimeTrading.Concurrency.Network

variable {Task Chan Env : Type} {Msg : Chan → Type} {State : Task → Type}

/-- Nothing is on its way. -/
structure Quiet (x : Moment Task Chan Msg State) : Prop where
  pending : ∀ t, x.pending t = []
  queue : ∀ c, x.queue c = []

/-- A step that is not an arrival. -/
def Silent [DecidableEq Task] [DecidableEq Chan] (N : Network Task Chan Env Msg State)
    (x y : Moment Task Chan Msg State) : Prop :=
  ∃ a, N.Step x a y ∧ a.isArrival = false

/-! ## Nothing blocks for good -/

section Progress

variable [DecidableEq Task] [DecidableEq Chan] {N : Network Task Chan Env Msg State}
  {x : Moment Task Chan Msg State}

/-- The channels a sender waits on lead from a task to a lower one. -/
def LeadsDown (N : Network Task Chan Env Msg State) (rank : Task → Nat) : Prop :=
  ∀ c t, N.source c = some t → N.sending c = .waits → rank (N.target c) < rank t

theorem exists_silent_receive [Inhabited Env] {c : Chan} (hidle : x.pending (N.target c) = [])
    (hqueue : x.queue c ≠ []) : ∃ y, N.Silent x y := by
  obtain ⟨m, rest, hm⟩ := List.exists_cons_of_ne_nil hqueue
  exact ⟨_, _, .receive default hidle hm, rfl⟩

/-- A task that has something to send can do so, or some task below it can go on. -/
theorem exists_silent_send [Inhabited Env] {rank : Task → Nat} (hdown : LeadsDown N rank)
    (hcapacity : 0 < N.capacity) (hown : ∀ t, ∀ m ∈ x.pending t, N.source m.1 = some t) (t : Task)
    (ht : x.pending t ≠ []) : ∃ y, N.Silent x y := by
  induction hrank : rank t using Nat.strongRecOn generalizing t with
  | ind n ih =>
    obtain ⟨⟨c, m⟩, rest, hpending⟩ := List.exists_cons_of_ne_nil ht
    have hc : N.source c = some t := hown t ⟨c, m⟩ (hpending ▸ List.mem_cons_self)
    by_cases hroom : (x.queue c).length < N.capacity
    · exact ⟨_, _, .enqueue hpending hroom, rfl⟩
    · cases hsending : N.sending c with
      | drops => exact ⟨_, _, .drop hpending (Nat.le_of_not_lt hroom) hsending, rfl⟩
      | waits =>
        -- The channel is full, so its receiver has something to do, or is itself about to send.
        by_cases hidle : x.pending (N.target c) = []
        · refine exists_silent_receive hidle fun hempty => hroom ?_
          rw [hempty]
          exact hcapacity
        · exact ih _ (hrank ▸ hdown c t hc hsending) (N.target c) hidle rfl

/-- As long as anything is on its way, some task can go on. -/
theorem exists_silent [Inhabited Env] {rank : Task → Nat} (hdown : LeadsDown N rank)
    (hcapacity : 0 < N.capacity) (hown : ∀ t, ∀ m ∈ x.pending t, N.source m.1 = some t)
    (hbusy : ¬ Quiet x) : ∃ y, N.Silent x y := by
  by_cases hpending : ∀ t, x.pending t = []
  · have hqueue : ∃ c, x.queue c ≠ [] := by
      by_contra hnone
      exact hbusy ⟨hpending, fun c => by_contra fun hc => hnone ⟨c, hc⟩⟩
    obtain ⟨c, hc⟩ := hqueue
    exact exists_silent_receive (hpending _) hc
  · obtain ⟨t, ht⟩ := not_forall.mp hpending
    exact exists_silent_send hdown hcapacity hown t ht

end Progress

/-! ## Weights -/

section Weights

/-- A sum over a family of which one member is replaced. -/
theorem sum_replaced {I : Type} [Fintype I] [DecidableEq I] {B : I → Type} {M : Type}
    [AddCommMonoid M] (f : (i : I) → B i → M) (g : (i : I) → B i) (i : I) (b : B i) :
    ∑ j, f j (Function.update g i b j) + f i (g i) = ∑ j, f j (g j) + f i b := by
  have hothers : ∑ j ∈ Finset.univ.erase i, f j (Function.update g i b j) =
      ∑ j ∈ Finset.univ.erase i, f j (g j) := by
    refine Finset.sum_congr rfl fun j hj => ?_
    rw [Function.update_of_ne (Finset.ne_of_mem_erase hj)]
  rw [← Finset.add_sum_erase _ _ (Finset.mem_univ i), hothers, Function.update_self,
    ← Finset.add_sum_erase _ (fun j => f j (g j)) (Finset.mem_univ i)]
  abel

variable (level : Chan → Nat)

/-- What messages still to send weigh: each a little more than once it is sent. -/
def sendWeight (messages : List (Σ c, Msg c)) : Multiset Nat :=
  (messages.map fun m => 2 * level m.1 + 1 : List Nat)

def queueWeight (c : Chan) (messages : List (Msg c)) : Multiset Nat :=
  Multiset.replicate messages.length (2 * level c)

theorem sendWeight_cons (m : Σ c, Msg c) (rest : List (Σ c, Msg c)) :
    sendWeight level (m :: rest) = {2 * level m.1 + 1} + sendWeight level rest := rfl

theorem queueWeight_cons (c : Chan) (m : Msg c) (rest : List (Msg c)) :
    queueWeight level c (m :: rest) = {2 * level c} + queueWeight level c rest := by
  unfold queueWeight
  rw [List.length_cons, Multiset.replicate_succ, Multiset.singleton_add]

theorem queueWeight_concat (c : Chan) (rest : List (Msg c)) (m : Msg c) :
    queueWeight level c (rest ++ [m]) = {2 * level c} + queueWeight level c rest := by
  unfold queueWeight
  rw [List.length_append, List.length_singleton, Multiset.replicate_succ, Multiset.singleton_add]

section Pending

variable [Fintype Task] [DecidableEq Task] {pending : Task → List (Σ c, Msg c)} {t : Task}

theorem sendWeight_sent {m : Σ c, Msg c} {rest : List (Σ c, Msg c)}
    (hpending : pending t = m :: rest) :
    ∑ u, sendWeight level (Function.update pending t rest u) + {2 * level m.1 + 1} =
      ∑ u, sendWeight level (pending u) := by
  have hsum := sum_replaced (fun _ : Task => sendWeight level) pending t rest
  rw [hpending, sendWeight_cons, ← add_assoc] at hsum
  exact add_right_cancel hsum

theorem sendWeight_reacted (messages : List (Σ c, Msg c)) (hidle : pending t = []) :
    ∑ u, sendWeight level (Function.update pending t messages u) =
      ∑ u, sendWeight level (pending u) + sendWeight level messages := by
  have hsum := sum_replaced (fun _ : Task => sendWeight level) pending t messages
  rw [hidle] at hsum
  exact (add_zero _).symm.trans hsum

end Pending

section Queues

variable [Fintype Chan] [DecidableEq Chan] {queue : (c : Chan) → List (Msg c)} {c : Chan}

theorem queueWeight_entered (m : Msg c) :
    ∑ d, queueWeight level d (Function.update queue c (queue c ++ [m]) d) =
      ∑ d, queueWeight level d (queue d) + {2 * level c} := by
  have hsum := sum_replaced (queueWeight level) queue c (queue c ++ [m])
  rw [queueWeight_concat, ← add_assoc] at hsum
  exact add_right_cancel hsum

theorem queueWeight_taken {m : Msg c} {rest : List (Msg c)} (hqueue : queue c = m :: rest) :
    ∑ d, queueWeight level d (Function.update queue c rest d) + {2 * level c} =
      ∑ d, queueWeight level d (queue d) := by
  have hsum := sum_replaced (queueWeight level) queue c rest
  rw [hqueue, queueWeight_cons, ← add_assoc] at hsum
  exact add_right_cancel hsum

end Queues

end Weights

/-! ## Activity ends -/

section Termination

variable [DecidableEq Task] [DecidableEq Chan] [Fintype Task] [Fintype Chan]
  {N : Network Task Chan Env Msg State} {x y : Moment Task Chan Msg State} {level : Chan → Nat}

/-- All that is on its way, each message with its level. -/
def weight (level : Chan → Nat) (x : Moment Task Chan Msg State) : Multiset Nat :=
  ∑ t, sendWeight level (x.pending t) + ∑ c, queueWeight level c (x.queue c)

/-- A message leads to messages of lower channels only. -/
def Descends (N : Network Task Chan Env Msg State) (level : Chan → Nat) : Prop :=
  ∀ t s received, ∀ m ∈ (N.react t s received).1, level m.1 < level received.2.1

/-- A silent step replaces one message by finitely many lower ones. -/
theorem weight_silent (hlevel : Descends N level) (h : N.Silent x y) :
    Relation.CutExpand (· < ·) (weight level y) (weight level x) := by
  obtain ⟨a, hstep, hsilent⟩ := h
  cases hstep with
  | arrive m houtside => cases hsilent
  | @receive c m rest env hidle hqueue =>
    refine ⟨sendWeight level (N.reaction x c m env).1, 2 * level c, fun w hw => ?_, ?_⟩
    · obtain ⟨m', hm', rfl⟩ := List.mem_map.mp hw
      have hlower := hlevel _ _ _ m' hm'
      dsimp only at hlower
      omega
    · unfold weight
      dsimp only
      rw [sendWeight_reacted level _ hidle, add_assoc, queueWeight_taken level hqueue]
      abel
  | @enqueue t c m rest hpending hroom =>
    refine ⟨{2 * level c}, 2 * level c + 1, fun w hw => ?_, ?_⟩
    · rw [Multiset.mem_singleton.mp hw]
      exact Nat.lt_succ_self _
    · unfold weight
      dsimp only
      rw [queueWeight_entered, ← sendWeight_sent level hpending]
      abel
  | @drop t c m rest hpending hfull hdrops =>
    refine ⟨0, 2 * level c + 1, fun w hw => absurd hw (Multiset.notMem_zero w), ?_⟩
    unfold weight
    dsimp only
    rw [← sendWeight_sent level hpending]
    abel

/-- Without arrivals no run goes on for ever. -/
theorem wellFounded_silent (hlevel : Descends N level) :
    WellFounded fun y x : Moment Task Chan Msg State => N.Silent x y :=
  Subrelation.wf (weight_silent hlevel) (InvImage.wf (weight level) wellFounded_lt.cutExpand)

/-- Left alone, a network comes to rest. -/
theorem Run.drains [Inhabited Env] {rank : Task → Nat} (hdown : LeadsDown N rank)
    (hcapacity : 0 < N.capacity) (hlevel : Descends N level) {trace : List (Act Chan Env Msg)}
    (h : N.Run trace x) :
    ∃ more y, N.Run (trace ++ more) y ∧ (∀ a ∈ more, a.isArrival = false) ∧ Quiet y := by
  induction x using (wellFounded_silent hlevel).induction generalizing trace with
  | _ x ih =>
    by_cases hquiet : Quiet x
    · exact ⟨[], x, by rwa [List.append_nil], by simp, hquiet⟩
    · obtain ⟨y, a, hstep, hsilent⟩ := exists_silent hdown hcapacity h.accounts.own hquiet
      obtain ⟨more, z, hrun, hmore, hz⟩ := ih y ⟨a, hstep, hsilent⟩ (.step h hstep)
      refine ⟨a :: more, z, ?_, ?_, hz⟩
      · rwa [List.append_assoc, List.singleton_append] at hrun
      · exact List.forall_mem_cons.mpr ⟨hsilent, hmore⟩

omit [Fintype Task] [Fintype Chan] in
/-- At rest, a channel whose sender waits has delivered everything. -/
theorem Run.taken_of_quiet {trace : List (Act Chan Env Msg)} (h : N.Run trace x) (hquiet : Quiet x)
    {c : Chan} {t : Task} (hc : N.source c = some t) (hwaits : N.sending c = .waits) :
    taken c trace = N.emitted t c trace := by
  have hall := h.taken_prefix hc hwaits
  rwa [hquiet.queue, hquiet.pending, List.filterMap_nil, List.append_nil, List.append_nil] at hall

omit [Fintype Task] [Fintype Chan] in
/-- So has one on which nothing was dropped. -/
theorem Run.taken_of_kept {trace : List (Act Chan Env Msg)} (h : N.Run trace x) (hquiet : Quiet x)
    {c : Chan} {t : Task} (hc : N.source c = some t) (hkept : ∀ m, .drop c m ∉ trace) :
    taken c trace = N.emitted t c trace :=
  (h.waiting hkept).taken_of_quiet hquiet hc (Function.update_self ..)

/-! ## Nothing is dropped -/

omit [Fintype Task] [Fintype Chan] in
theorem emitted_isPrefixOf (t : Task) (c : Chan) (trace more : List (Act Chan Env Msg)) :
    N.emitted t c trace <+: N.emitted t c (trace ++ more) := by
  unfold emitted alone received
  rw [List.filterMap_append, emit_append, List.filterMap_append]
  exact List.prefix_append _ _

omit [Fintype Task] [Fintype Chan] in
/-- A channel that has room for all that is ever sent on it drops nothing. -/
theorem Run.kept_of_few {trace : List (Act Chan Env Msg)} (h : N.Run trace x) {c : Chan} {t : Task}
    (hc : N.source c = some t) (hfew : (N.emitted t c trace).length < N.capacity) (m : Msg c) :
    .drop c m ∉ trace := by
  induction h with
  | init => exact List.not_mem_nil
  | @step trace x a y h hstep ih =>
    have hless := (emitted_isPrefixOf (N := N) t c trace [a]).length_le
    intro hdrop
    rcases List.mem_append.mp hdrop with hbefore | hnow
    · exact ih (hless.trans_lt hfew) hbefore
    · obtain rfl := List.mem_singleton.mp hnow
      cases hstep with
      | drop _ hfull _ =>
        have hqueued := congrArg List.length (h.accounts.queued c)
        have hsent := (h.accounts.sent c t hc).length_le
        rw [List.length_append] at hqueued hsent
        omega

omit [Fintype Task] [Fintype Chan] in
/-- Nothing is sent on a channel from outside. -/
theorem Run.enqueue_notMem {trace : List (Act Chan Env Msg)} (h : N.Run trace x) {c : Chan}
    (hc : N.source c = none) (m : Msg c) : .enqueue c m ∉ trace := by
  induction h with
  | init => exact List.not_mem_nil
  | @step trace x a y h hstep ih =>
    intro hsend
    rcases List.mem_append.mp hsend with hbefore | hnow
    · exact ih hbefore
    · obtain rfl := List.mem_singleton.mp hnow
      cases hstep with
      | @enqueue t _ _ rest hpending _ =>
        have hown := h.accounts.own t ⟨c, m⟩ (hpending ▸ List.mem_cons_self)
        rw [hc] at hown
        cases hown

omit [Fintype Task] [Fintype Chan] in
/-- Where nothing arrives, nothing enters from outside. -/
theorem Run.entered_of_silent {trace more : List (Act Chan Env Msg)} (h : N.Run (trace ++ more) x)
    (hsilent : ∀ a ∈ more, a.isArrival = false) {c : Chan} (hc : N.source c = none) :
    entered c (trace ++ more) = entered c trace := by
  have hnone : entered c more = [] := by
    refine List.filterMap_eq_nil_iff.mpr fun a ha => ?_
    cases a with
    | arrive d m => cases hsilent _ ha
    | receive d m env => rfl
    | drop d m => rfl
    | enqueue d m =>
      refine on_of_ne (fun hd => ?_) m
      subst hd
      exact h.enqueue_notMem hc m (List.mem_append_right _ ha)
  have happend : entered c (trace ++ more) = entered c trace ++ entered c more :=
    List.filterMap_append
  rw [happend, hnone, List.append_nil]

end Termination

end RealTimeTrading.Concurrency.Network
