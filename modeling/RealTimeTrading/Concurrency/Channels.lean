/-
RealTimeTrading.Concurrency.Channels — tasks that talk over bounded
channels.

A task receives from several channels and answers each message with
messages it then sends one after the other. A channel has one sender. Where
it is full the sender waits for room, or drops the message. Channels
without a sender are fed from outside. `Run` is an arbitrary interleaving.

What a task does depends on what it has received alone, so it runs as the
machine it would be by itself (`Accounts.state`). A channel on which the
sender waits carries all that machine emits there, in order, and the
receiver has taken a first part of it (`Run.taken_prefix`); a channel on
which it drops carries some of it, in order (`Run.taken_sublist`), and all
of it for as long as there was room (`Run.waiting`).
-/
import Mathlib.Logic.Function.Basic
import RealTimeTrading.Concurrency.Emitting

namespace RealTimeTrading.Concurrency

/-- What a sender does where the channel is full. -/
inductive Sending where
  | waits
  | drops
  deriving DecidableEq, Repr

variable {Task Chan Env : Type} {Msg : Chan → Type} {State : Task → Type}

/-- Tasks, the channels between them, and what each task makes of a message.
`Env` is what a task reads besides, the clock for instance. -/
structure Network (Task Chan Env : Type) (Msg : Chan → Type) (State : Task → Type) where
  source : Chan → Option Task
  target : Chan → Task
  sending : Chan → Sending
  capacity : Nat
  start : (t : Task) → State t
  react : (t : Task) → State t → Env × (Σ c, Msg c) → List (Σ c, Msg c) × State t
  /-- A task sends on its own channels only. -/
  own : ∀ t s received, ∀ m ∈ (react t s received).1, source m.1 = some t

/-- The states of the tasks, what each has still to send, and what waits in the channels. -/
structure Moment (Task Chan : Type) (Msg : Chan → Type) (State : Task → Type) where
  state : (t : Task) → State t
  pending : Task → List (Σ c, Msg c)
  queue : (c : Chan) → List (Msg c)

/-- One line of a trace. -/
inductive Act (Chan Env : Type) (Msg : Chan → Type) where
  | arrive (c : Chan) (m : Msg c)
  | receive (c : Chan) (m : Msg c) (env : Env)
  | enqueue (c : Chan) (m : Msg c)
  | drop (c : Chan) (m : Msg c)

/-- Something comes from outside. -/
def Act.isArrival : Act Chan Env Msg → Bool
  | .arrive _ _ => true
  | _ => false

variable [DecidableEq Task] [DecidableEq Chan]

/-- The message, if it is one for this channel. -/
def on (c : Chan) (m : Σ c, Msg c) : Option (Msg c) :=
  if h : m.1 = c then some (h ▸ m.2) else none

@[simp] theorem on_self (c : Chan) (m : Msg c) : on c ⟨c, m⟩ = some m := dif_pos rfl

theorem on_of_ne {c d : Chan} (h : d ≠ c) (m : Msg d) : on c ⟨d, m⟩ = none := dif_neg h

namespace Network

variable (N : Network Task Chan Env Msg State)

def initial : Moment Task Chan Msg State :=
  { state := N.start, pending := fun _ => [], queue := fun _ => [] }

/-- What the receiver of a channel makes of a message on it. -/
def reaction (x : Moment Task Chan Msg State) (c : Chan) (m : Msg c) (env : Env) :
    List (Σ c, Msg c) × State (N.target c) :=
  N.react (N.target c) (x.state (N.target c)) (env, ⟨c, m⟩)

/-- One step of one task, or an arrival. A task receives only when it has
sent all it had to send. -/
inductive Step : Moment Task Chan Msg State → Act Chan Env Msg → Moment Task Chan Msg State → Prop
  | arrive {x} {c : Chan} (m : Msg c) (houtside : N.source c = none) :
    Step x (.arrive c m) { x with queue := Function.update x.queue c (x.queue c ++ [m]) }
  | receive {x} {c : Chan} {m : Msg c} {rest : List (Msg c)} (env : Env)
      (hidle : x.pending (N.target c) = []) (hqueue : x.queue c = m :: rest) :
    Step x (.receive c m env)
      { state := Function.update x.state (N.target c) (N.reaction x c m env).2
        pending := Function.update x.pending (N.target c) (N.reaction x c m env).1
        queue := Function.update x.queue c rest }
  | enqueue {x} {t : Task} {c : Chan} {m : Msg c} {rest : List (Σ c, Msg c)}
      (hpending : x.pending t = ⟨c, m⟩ :: rest) (hroom : (x.queue c).length < N.capacity) :
    Step x (.enqueue c m)
      { x with
        pending := Function.update x.pending t rest
        queue := Function.update x.queue c (x.queue c ++ [m]) }
  | drop {x} {t : Task} {c : Chan} {m : Msg c} {rest : List (Σ c, Msg c)}
      (hpending : x.pending t = ⟨c, m⟩ :: rest) (hfull : N.capacity ≤ (x.queue c).length)
      (hdrops : N.sending c = .drops) :
    Step x (.drop c m) { x with pending := Function.update x.pending t rest }

/-- The interleavings of the tasks and of what comes from outside. -/
inductive Run : List (Act Chan Env Msg) → Moment Task Chan Msg State → Prop where
  | init : Run [] N.initial
  | step {trace x a y} (h : Run trace x) (hstep : N.Step x a y) : Run (trace ++ [a]) y

/-! ## Reading a trace -/

/-- What this line has a task receive. -/
def receivedBy (t : Task) : Act Chan Env Msg → Option (Env × (Σ c, Msg c))
  | .receive c m env => if N.target c = t then some (env, ⟨c, m⟩) else none
  | _ => none

/-- What a task has received, in order. -/
def received (t : Task) (trace : List (Act Chan Env Msg)) : List (Env × (Σ c, Msg c)) :=
  trace.filterMap (N.receivedBy t)

/-- The task as a machine by itself, on what it has received. -/
def alone (t : Task) (trace : List (Act Chan Env Msg)) : List (Σ c, Msg c) × State t :=
  emit (N.react t) (N.start t) (N.received t trace)

/-- What that machine emits on a channel. -/
def emitted (t : Task) (c : Chan) (trace : List (Act Chan Env Msg)) : List (Msg c) :=
  (N.alone t trace).1.filterMap (on c)

end Network

/-- What this line puts into a channel. -/
def Act.enters (c : Chan) : Act Chan Env Msg → Option (Msg c)
  | .arrive d m => on c ⟨d, m⟩
  | .enqueue d m => on c ⟨d, m⟩
  | .receive _ _ _ => none
  | .drop _ _ => none

/-- What this line takes out of it. -/
def Act.takes (c : Chan) : Act Chan Env Msg → Option (Msg c)
  | .receive d m _ => on c ⟨d, m⟩
  | .arrive _ _ => none
  | .enqueue _ _ => none
  | .drop _ _ => none

def entered (c : Chan) (trace : List (Act Chan Env Msg)) : List (Msg c) :=
  trace.filterMap (Act.enters c)

def taken (c : Chan) (trace : List (Act Chan Env Msg)) : List (Msg c) :=
  trace.filterMap (Act.takes c)

namespace Network

section Reading

variable {N : Network Task Chan Env Msg State} {trace : List (Act Chan Env Msg)} {t : Task}

theorem entered_concat (c : Chan) (trace : List (Act Chan Env Msg)) (a : Act Chan Env Msg) :
    entered c (trace ++ [a]) = entered c trace ++ (a.enters c).toList :=
  filterMap_concat (Act.enters c) trace a

theorem taken_concat (c : Chan) (trace : List (Act Chan Env Msg)) (a : Act Chan Env Msg) :
    taken c (trace ++ [a]) = taken c trace ++ (a.takes c).toList :=
  filterMap_concat (Act.takes c) trace a

omit [DecidableEq Chan] in
/-- A line that has the task receive nothing leaves it as it was. -/
theorem alone_concat_of_none {a : Act Chan Env Msg} (h : N.receivedBy t a = none) :
    N.alone t (trace ++ [a]) = N.alone t trace := by
  unfold alone received
  rw [filterMap_concat, h, Option.toList_none, List.append_nil]

omit [DecidableEq Chan] in
theorem alone_concat_receive (c : Chan) (m : Msg c) (env : Env) :
    N.alone (N.target c) (trace ++ [.receive c m env]) =
      ((N.alone (N.target c) trace).1 ++
          (N.react (N.target c) (N.alone (N.target c) trace).2 (env, ⟨c, m⟩)).1,
        (N.react (N.target c) (N.alone (N.target c) trace).2 (env, ⟨c, m⟩)).2) := by
  have hline : N.receivedBy (N.target c) (.receive c m env) = some (env, ⟨c, m⟩) := if_pos rfl
  unfold alone received
  rw [filterMap_concat, hline, Option.toList_some, emit_append, emit_cons, emit_nil,
    List.append_nil]

/-- A channel's messages are taken by its receiver alone. -/
theorem taken_eq (N : Network Task Chan Env Msg State) (c : Chan)
    (trace : List (Act Chan Env Msg)) :
    taken c trace = (N.received (N.target c) trace).filterMap fun r => on c r.2 := by
  unfold taken received
  rw [List.filterMap_filterMap]
  refine congrArg (List.filterMap · trace) (funext fun a => ?_)
  cases a with
  | receive d m env =>
    by_cases hd : d = c
    · subst hd
      simp only [Act.takes, receivedBy, if_true, Option.bind_some]
    · simp only [Act.takes, receivedBy, on_of_ne hd]
      split
      · exact (on_of_ne hd m).symm
      · rfl
  | arrive d m => rfl
  | enqueue d m => rfl
  | drop d m => rfl

end Reading

/-! ## What a run keeps -/

/-- How a moment comes of its trace. -/
structure Accounts (N : Network Task Chan Env Msg State) (trace : List (Act Chan Env Msg))
    (x : Moment Task Chan Msg State) : Prop where
  state : ∀ t, x.state t = (N.alone t trace).2
  own : ∀ t, ∀ m ∈ x.pending t, N.source m.1 = some t
  queued : ∀ c, entered c trace = taken c trace ++ x.queue c
  room : ∀ c, N.source c ≠ none → (x.queue c).length ≤ N.capacity
  sent : ∀ c t, N.source c = some t →
    (entered c trace ++ (x.pending t).filterMap (on c)).Sublist (N.emitted t c trace)
  waited : ∀ c t, N.source c = some t → N.sending c = .waits →
    entered c trace ++ (x.pending t).filterMap (on c) = N.emitted t c trace

section Keeping

variable {N : Network Task Chan Env Msg State} {trace : List (Act Chan Env Msg)}
  {x y : Moment Task Chan Msg State}

theorem accounts_initial (N : Network Task Chan Env Msg State) : Accounts N [] N.initial where
  state _ := rfl
  own _ _ h := absurd h List.not_mem_nil
  queued _ := rfl
  room _ _ := Nat.zero_le _
  sent _ _ _ := List.Sublist.refl _
  waited _ _ _ _ := rfl

/-- A message put into a channel shows behind the others. -/
theorem update_append (queue : (c : Chan) → List (Msg c)) (c : Chan) (m : Msg c) (d : Chan) :
    Function.update queue c (queue c ++ [m]) d = queue d ++ (on d ⟨c, m⟩).toList := by
  by_cases h : d = c
  · subst h
    rw [Function.update_self, on_self, Option.toList_some]
  · rw [Function.update_of_ne h, on_of_ne (Ne.symm h), Option.toList_none, List.append_nil]

theorem Accounts.arrive (h : Accounts N trace x) {c : Chan} (m : Msg c)
    (houtside : N.source c = none) :
    Accounts N (trace ++ [.arrive c m])
      { x with queue := Function.update x.queue c (x.queue c ++ [m]) } := by
  have halone : ∀ t, N.alone t (trace ++ [.arrive c m]) = N.alone t trace := fun t =>
    alone_concat_of_none rfl
  have hnone : ∀ d t, N.source d = some t → on d ⟨c, m⟩ = none := by
    intro d t hd
    refine on_of_ne (fun hcd => ?_) m
    rw [← hcd, houtside] at hd
    cases hd
  have hsame : ∀ d t, N.source d = some t →
      entered d (trace ++ [.arrive c m]) = entered d trace := by
    intro d t hd
    rw [entered_concat, Act.enters, hnone d t hd, Option.toList_none, List.append_nil]
  refine ⟨fun t => (h.state t).trans (by rw [halone]), h.own, fun d => ?_, fun d hd => ?_,
    fun d t hd => ?_, fun d t hd hwaits => ?_⟩
  · dsimp only
    rw [entered_concat, taken_concat, update_append, Act.takes, Option.toList_none,
      List.append_nil, ← List.append_assoc, ← h.queued d, Act.enters]
  · obtain ⟨t, ht⟩ := Option.ne_none_iff_exists'.mp hd
    dsimp only
    rw [update_append, hnone d t ht, Option.toList_none, List.append_nil]
    exact h.room d hd
  · rw [hsame d t hd, emitted, halone]
    exact h.sent d t hd
  · rw [hsame d t hd, emitted, halone]
    exact h.waited d t hd hwaits

/-- What a task that has sent everything does with its next message. -/
theorem Accounts.receive (h : Accounts N trace x) {c : Chan} {m : Msg c} {rest : List (Msg c)}
    (env : Env) (hidle : x.pending (N.target c) = []) (hqueue : x.queue c = m :: rest) :
    Accounts N (trace ++ [.receive c m env])
      { state := Function.update x.state (N.target c) (N.reaction x c m env).2
        pending := Function.update x.pending (N.target c) (N.reaction x c m env).1
        queue := Function.update x.queue c rest } := by
  have hself : N.alone (N.target c) (trace ++ [.receive c m env]) = _ :=
    alone_concat_receive c m env
  rw [← h.state] at hself
  have hother : ∀ t, t ≠ N.target c →
      N.alone t (trace ++ [.receive c m env]) = N.alone t trace := fun t ht =>
    alone_concat_of_none (if_neg (Ne.symm ht))
  have hentered : ∀ d, entered d (trace ++ [.receive c m env]) = entered d trace := by
    intro d
    rw [entered_concat, Act.enters, Option.toList_none, List.append_nil]
  have hsent : ∀ d, N.emitted (N.target c) d (trace ++ [.receive c m env]) =
      N.emitted (N.target c) d trace ++ (N.reaction x c m env).1.filterMap (on d) := by
    intro d
    rw [emitted, hself, List.filterMap_append]
    rfl
  refine ⟨fun t => ?_, fun t => ?_, fun d => ?_, fun d hd => ?_, fun d t hd => ?_,
    fun d t hd hwaits => ?_⟩
  · by_cases ht : t = N.target c
    · subst ht
      rw [hself]
      exact Function.update_self _ _ _
    · rw [hother t ht]
      exact (Function.update_of_ne ht _ _).trans (h.state t)
  · dsimp only
    by_cases ht : t = N.target c
    · subst ht
      rw [Function.update_self]
      exact N.own _ _ _
    · rw [Function.update_of_ne ht]
      exact h.own t
  · dsimp only
    rw [hentered, taken_concat, h.queued d, Act.takes]
    by_cases hd : d = c
    · subst hd
      rw [hqueue, Function.update_self, on_self, Option.toList_some, List.append_assoc]
      rfl
    · rw [Function.update_of_ne hd, on_of_ne (Ne.symm hd), Option.toList_none, List.append_nil]
  · dsimp only
    by_cases hdc : d = c
    · subst hdc
      have hroom := h.room d hd
      rw [hqueue, List.length_cons] at hroom
      rw [Function.update_self]
      exact Nat.le_of_succ_le hroom
    · rw [Function.update_of_ne hdc]
      exact h.room d hd
  · dsimp only
    have hbefore := h.sent d t hd
    by_cases ht : t = N.target c
    · subst ht
      rw [hidle, List.filterMap_nil, List.append_nil] at hbefore
      rw [hentered, hsent, Function.update_self]
      exact hbefore.append (List.Sublist.refl _)
    · rw [hentered, emitted, hother t ht, Function.update_of_ne ht]
      exact hbefore
  · dsimp only
    have hbefore := h.waited d t hd hwaits
    by_cases ht : t = N.target c
    · subst ht
      rw [hidle, List.filterMap_nil, List.append_nil] at hbefore
      rw [hentered, hsent, Function.update_self, hbefore]
    · rw [hentered, emitted, hother t ht, Function.update_of_ne ht]
      exact hbefore

/-- Sending moves the first message a task has to send to the end of its channel. -/
theorem Accounts.enqueue (h : Accounts N trace x) {t : Task} {c : Chan} {m : Msg c}
    {rest : List (Σ c, Msg c)} (hpending : x.pending t = ⟨c, m⟩ :: rest)
    (hroom : (x.queue c).length < N.capacity) :
    Accounts N (trace ++ [.enqueue c m])
      { x with
        pending := Function.update x.pending t rest
        queue := Function.update x.queue c (x.queue c ++ [m]) } := by
  have halone : ∀ u, N.alone u (trace ++ [.enqueue c m]) = N.alone u trace := fun u =>
    alone_concat_of_none rfl
  have hc : N.source c = some t := h.own t ⟨c, m⟩ (hpending ▸ List.mem_cons_self)
  have hmoved : ∀ d u, N.source d = some u →
      entered d (trace ++ [.enqueue c m]) ++
          (Function.update x.pending t rest u).filterMap (on d) =
        entered d trace ++ (x.pending u).filterMap (on d) := by
    intro d u hd
    rw [entered_concat, Act.enters, List.append_assoc]
    by_cases hu : u = t
    · subst hu
      rw [hpending, Function.update_self, List.filterMap_cons]
      cases hm : on d ⟨c, m⟩ <;> rfl
    · have hne : c ≠ d := by
        rintro rfl
        exact hu (Option.some.inj (hd.symm.trans hc))
      rw [Function.update_of_ne hu, on_of_ne hne, Option.toList_none, List.nil_append]
  refine ⟨fun u => (h.state u).trans (by rw [halone]), fun u => ?_, fun d => ?_, fun d hd => ?_,
    fun d u hd => ?_, fun d u hd hwaits => ?_⟩
  · dsimp only
    by_cases hu : u = t
    · subst hu
      rw [Function.update_self]
      exact fun m' hm' => h.own u m' (hpending ▸ List.mem_cons_of_mem _ hm')
    · rw [Function.update_of_ne hu]
      exact h.own u
  · dsimp only
    rw [entered_concat, taken_concat, update_append, Act.takes, Option.toList_none,
      List.append_nil, ← List.append_assoc, ← h.queued d, Act.enters]
  · dsimp only
    by_cases hdc : d = c
    · subst hdc
      rw [Function.update_self, List.length_append, List.length_singleton]
      exact hroom
    · rw [Function.update_of_ne hdc]
      exact h.room d hd
  · dsimp only
    rw [hmoved d u hd, emitted, halone]
    exact h.sent d u hd
  · dsimp only
    rw [hmoved d u hd, emitted, halone]
    exact h.waited d u hd hwaits

/-- Dropping takes the first message a task has to send away. -/
theorem Accounts.drop (h : Accounts N trace x) {t : Task} {c : Chan} {m : Msg c}
    {rest : List (Σ c, Msg c)} (hpending : x.pending t = ⟨c, m⟩ :: rest)
    (hdrops : N.sending c = .drops) :
    Accounts N (trace ++ [.drop c m])
      { x with pending := Function.update x.pending t rest } := by
  have halone : ∀ u, N.alone u (trace ++ [.drop c m]) = N.alone u trace := fun u =>
    alone_concat_of_none rfl
  have hentered : ∀ d, entered d (trace ++ [.drop c m]) = entered d trace := by
    intro d
    rw [entered_concat, Act.enters, Option.toList_none, List.append_nil]
  have hfewer : ∀ d u, ((Function.update x.pending t rest u).filterMap (on d)).Sublist
      ((x.pending u).filterMap (on d)) := by
    intro d u
    by_cases hu : u = t
    · subst hu
      rw [hpending, Function.update_self]
      exact (List.sublist_cons_self _ _).filterMap _
    · rw [Function.update_of_ne hu]
  refine ⟨fun u => (h.state u).trans (by rw [halone]), fun u => ?_, fun d => ?_, h.room,
    fun d u hd => ?_, fun d u hd hwaits => ?_⟩
  · dsimp only
    by_cases hu : u = t
    · subst hu
      rw [Function.update_self]
      exact fun m' hm' => h.own u m' (hpending ▸ List.mem_cons_of_mem _ hm')
    · rw [Function.update_of_ne hu]
      exact h.own u
  · rw [hentered, taken_concat, Act.takes, Option.toList_none, List.append_nil]
    exact h.queued d
  · dsimp only
    rw [hentered, emitted, halone]
    exact ((List.Sublist.refl _).append (hfewer d u)).trans (h.sent d u hd)
  · dsimp only
    have hne : c ≠ d := by
      rintro rfl
      rw [hdrops] at hwaits
      cases hwaits
    have hbefore := h.waited d u hd hwaits
    rw [hentered, emitted, halone]
    by_cases hu : u = t
    · subst hu
      rw [hpending, List.filterMap_cons_none (on_of_ne hne m)] at hbefore
      rw [Function.update_self]
      exact hbefore
    · rw [Function.update_of_ne hu]
      exact hbefore

theorem Accounts.step (h : Accounts N trace x) {a : Act Chan Env Msg} (hstep : N.Step x a y) :
    Accounts N (trace ++ [a]) y := by
  cases hstep with
  | arrive m houtside => exact h.arrive m houtside
  | receive env hidle hqueue => exact h.receive env hidle hqueue
  | enqueue hpending hroom => exact h.enqueue hpending hroom
  | drop hpending hfull hdrops => exact h.drop hpending hdrops

theorem Run.accounts (h : N.Run trace x) : Accounts N trace x := by
  induction h with
  | init => exact accounts_initial N
  | step _ hstep ih => exact ih.step hstep

/-- On a channel whose sender waits, the receiver has taken a first part of
what the sender emits there, and the rest is on its way. -/
theorem Run.taken_prefix (h : N.Run trace x) {c : Chan} {t : Task} (hc : N.source c = some t)
    (hwaits : N.sending c = .waits) :
    taken c trace ++ (x.queue c ++ (x.pending t).filterMap (on c)) = N.emitted t c trace := by
  have haccounts := h.accounts
  rw [← List.append_assoc, ← haccounts.queued, haccounts.waited c t hc hwaits]

/-- On any other it has taken some of it, in order. -/
theorem Run.taken_sublist (h : N.Run trace x) {c : Chan} {t : Task} (hc : N.source c = some t) :
    (taken c trace).Sublist (N.emitted t c trace) := by
  have haccounts := h.accounts
  refine List.Sublist.trans ?_ (haccounts.sent c t hc)
  rw [haccounts.queued, List.append_assoc]
  exact List.sublist_append_left _ _

/-- The network whose sender on this channel waits for room. -/
def waiting (N : Network Task Chan Env Msg State) (c : Chan) : Network Task Chan Env Msg State :=
  { N with sending := Function.update N.sending c .waits }

/-- As long as nothing is dropped there, one cannot tell whether it would. -/
theorem Run.waiting {c : Chan} (h : N.Run trace x) (hkept : ∀ m, .drop c m ∉ trace) :
    (N.waiting c).Run trace x := by
  induction h with
  | init => exact .init
  | @step trace x a y _ hstep ih =>
    have hbefore := ih fun m hm => hkept m (List.mem_append_left _ hm)
    refine .step hbefore ?_
    cases hstep with
    | arrive m houtside => exact .arrive m houtside
    | receive env hidle hqueue => exact .receive env hidle hqueue
    | enqueue hpending hroom => exact .enqueue hpending hroom
    | @drop t d m rest hpending hfull hdrops =>
      have hother : d ≠ c := by
        rintro rfl
        exact hkept m (List.mem_append_right _ (List.mem_singleton_self _))
      exact .drop hpending hfull ((Function.update_of_ne hother _ _).trans hdrops)

end Keeping

end Network

end RealTimeTrading.Concurrency
