/-
RealTimeTrading.Concurrency.Contracts — what tasks may rely on of each
other's messages.

A contract says of each channel which messages may be on it, and of each
task what holds of its state. A network keeps it if every task does by
itself: told what its channels promise, it keeps its own state and sends
what the contract allows (`Contract.Kept`). Then the contract holds in every run
in which what comes from outside meets it (`Run.meets`), circles of
channels included.
-/
import RealTimeTrading.Concurrency.Channels

namespace RealTimeTrading.Concurrency

/-- What holds of the states, and what may be said on each channel. -/
structure Contract (Task Chan : Type) (Msg : Chan → Type) (State : Task → Type) where
  holds : (t : Task) → State t → Prop
  allows : (c : Chan) → Msg c → Prop

namespace Network

variable {Task Chan Env : Type} {Msg : Chan → Type} {State : Task → Type}

/-- Each task keeps the contract by itself. -/
structure Keeps (N : Network Task Chan Env Msg State) (K : Contract Task Chan Msg State) :
    Prop where
  start : ∀ t, K.holds t (N.start t)
  state : ∀ c s env m, K.holds (N.target c) s → K.allows c m →
    K.holds (N.target c) (N.react (N.target c) s (env, ⟨c, m⟩)).2
  sent : ∀ c s env m, K.holds (N.target c) s → K.allows c m →
    ∀ o ∈ (N.react (N.target c) s (env, ⟨c, m⟩)).1, K.allows o.1 o.2

variable [DecidableEq Task] [DecidableEq Chan] {N : Network Task Chan Env Msg State}
  {K : Contract Task Chan Msg State} {trace : List (Act Chan Env Msg)}
  {x y : Moment Task Chan Msg State}

/-- The contract holds of all states, and of all that is or ever was on its way. -/
structure Meets (K : Contract Task Chan Msg State) (trace : List (Act Chan Env Msg))
    (x : Moment Task Chan Msg State) : Prop where
  state : ∀ t, K.holds t (x.state t)
  pending : ∀ t, ∀ m ∈ x.pending t, K.allows m.1 m.2
  entered : ∀ c, ∀ m ∈ entered c trace, K.allows c m

/-- What comes from outside meets the contract. -/
def Admits (N : Network Task Chan Env Msg State) (K : Contract Task Chan Msg State)
    (trace : List (Act Chan Env Msg)) : Prop :=
  ∀ c, N.source c = none → ∀ m ∈ entered c trace, K.allows c m

omit [DecidableEq Task] in
theorem allows_on {c d : Chan} {m : Msg d} {m' : Msg c} (hm : m' ∈ on c ⟨d, m⟩)
    (h : K.allows d m) : K.allows c m' := by
  by_cases hd : d = c
  · subst hd
    rw [on_self] at hm
    obtain rfl := Option.some.inj hm
    exact h
  · rw [on_of_ne hd] at hm
    cases hm

omit [DecidableEq Task] in
/-- A trace goes on with a line that enters nothing that is not allowed. -/
theorem allows_entered {a : Act Chan Env Msg} (h : ∀ c, ∀ m ∈ entered c trace, K.allows c m)
    (ha : ∀ c, ∀ m ∈ a.enters c, K.allows c m) (c : Chan) (m : Msg c)
    (hm : m ∈ entered c (trace ++ [a])) : K.allows c m := by
  rw [entered_concat, List.mem_append] at hm
  rcases hm with hbefore | hhere
  · exact h c m hbefore
  · exact ha c m (Option.mem_toList.mp hhere)

theorem Meets.receive (hkept : N.Keeps K) (h : Meets K trace x) {c : Chan} {m : Msg c}
    (env : Env) (hm : K.allows c m) (rest : List (Msg c)) :
    Meets K (trace ++ [.receive c m env])
      { state := Function.update x.state (N.target c) (N.reaction x c m env).2
        pending := Function.update x.pending (N.target c) (N.reaction x c m env).1
        queue := Function.update x.queue c rest } where
  state t := by
    dsimp only
    by_cases ht : t = N.target c
    · subst ht
      rw [Function.update_self]
      exact hkept.state c _ env m (h.state _) hm
    · rw [Function.update_of_ne ht]
      exact h.state t
  pending t := by
    dsimp only
    by_cases ht : t = N.target c
    · subst ht
      rw [Function.update_self]
      exact hkept.sent c _ env m (h.state _) hm
    · rw [Function.update_of_ne ht]
      exact h.pending t
  entered := allows_entered h.entered fun d m' hm' => nomatch hm'

/-- Sending on leaves less to send. -/
theorem Meets.sent (h : Meets K trace x) {t : Task} {c : Chan} {m : Msg c}
    {rest : List (Σ c, Msg c)} (hpending : x.pending t = ⟨c, m⟩ :: rest) :
    K.allows c m ∧ ∀ u, ∀ m' ∈ Function.update x.pending t rest u, K.allows m'.1 m'.2 := by
  refine ⟨h.pending t ⟨c, m⟩ (hpending ▸ List.mem_cons_self), fun u m' hm' => ?_⟩
  by_cases hu : u = t
  · subst hu
    rw [Function.update_self] at hm'
    exact h.pending u m' (hpending ▸ List.mem_cons_of_mem _ hm')
  · rw [Function.update_of_ne hu] at hm'
    exact h.pending u m' hm'

theorem Meets.step (hkept : N.Keeps K) (h : Meets K trace x) (haccounts : Accounts N trace x)
    {a : Act Chan Env Msg} (hstep : N.Step x a y) (hoff : N.Admits K (trace ++ [a])) :
    Meets K (trace ++ [a]) y := by
  cases hstep with
  | @arrive c m houtside =>
    refine ⟨h.state, h.pending, allows_entered h.entered fun d m' hm' => allows_on hm' ?_⟩
    refine hoff c houtside m ?_
    rw [entered_concat, Act.enters, on_self]
    exact List.mem_append_right _ (List.mem_singleton_self m)
  | @receive c m rest env hidle hqueue =>
    refine h.receive hkept env (h.entered c m ?_) rest
    rw [haccounts.queued c, hqueue]
    exact List.mem_append_right _ List.mem_cons_self
  | @enqueue t c m rest hpending hroom =>
    obtain ⟨hm, hrest⟩ := h.sent hpending
    exact ⟨h.state, hrest, allows_entered h.entered fun d m' hm' => allows_on hm' hm⟩
  | @drop t c m rest hpending hfull hdrops =>
    refine ⟨h.state, (h.sent hpending).2, allows_entered h.entered fun d m' hm' => ?_⟩
    cases hm'

omit [DecidableEq Task] in
theorem Admits.before {a : Act Chan Env Msg} (h : N.Admits K (trace ++ [a])) :
    N.Admits K trace := by
  intro c hc m hm
  refine h c hc m ?_
  rw [entered_concat]
  exact List.mem_append_left _ hm

/-- A contract that every task keeps holds in every run. -/
theorem Run.meets (hkept : N.Keeps K) (h : N.Run trace x) (hoff : N.Admits K trace) :
    Meets K trace x := by
  induction h with
  | init => exact ⟨hkept.start, fun _ _ hm => absurd hm List.not_mem_nil,
      fun _ _ hm => absurd hm List.not_mem_nil⟩
  | step hrun hstep ih => exact (ih hoff.before).step hkept hrun.accounts hstep hoff

/-- So it does of every message a task takes. -/
theorem Run.allows_taken (hkept : N.Keeps K) (h : N.Run trace x) (hoff : N.Admits K trace)
    {c : Chan} {m : Msg c} (hm : m ∈ taken c trace) : K.allows c m := by
  refine (h.meets hkept hoff).entered c m ?_
  rw [h.accounts.queued c]
  exact List.mem_append_left _ hm

end Network

end RealTimeTrading.Concurrency
