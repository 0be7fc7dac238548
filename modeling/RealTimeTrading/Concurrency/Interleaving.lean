/-
RealTimeTrading.Concurrency.Interleaving — any number of programs over
one shared state, one atomic operation at a time.

A `System` gives every atomic operation its meaning on the shared state
and every kind of job its program. `Run` is an arbitrary interleaving:
at any moment a new job may start, or any thread may perform the call it
is waiting on. The trace records each performed call with the state it
was performed in and the state it left, so that a property of a run is a
property of its trace.

The rule used everywhere above is `Discipline.rely_guarantee`: if every
job's program conforms to a protocol, and each allowed call both keeps an
invariant of (trace, ghost values, shared state) and returns what the
protocol relies on, then the invariant holds in every run, and at every
line of its trace.
-/
import RealTimeTrading.Concurrency.Program

namespace RealTimeTrading.Concurrency

variable {Op : Type} {Res : Op → Type} {σ Job α G : Type}

/-- A performed call with its result. -/
abbrev Event (Op : Type) (Res : Op → Type) : Type := (o : Op) × Res o

/-- One line of a trace: who called what, in which state, leaving which. -/
structure Entry (Op : Type) (Res : Op → Type) (σ : Type) where
  tid : Nat
  pre : σ
  event : Event Op Res
  post : σ

structure Thread (Op : Type) (Res : Op → Type) (Job α : Type) where
  job : Job
  prog : Prog Op Res α

structure Config (Op : Type) (Res : Op → Type) (σ Job α : Type) where
  shared : σ
  threads : List (Thread Op Res Job α)

/-- What the operations do to the shared state, and what each job runs. -/
structure System (Op : Type) (Res : Op → Type) (σ Job α : Type) where
  sem : (o : Op) → σ → Res o → σ → Prop
  code : Job → Prog Op Res α

/-- The interleavings of a system from shared state `s₀`, no thread running. -/
inductive Run (S : System Op Res σ Job α) (s₀ : σ) :
    List (Entry Op Res σ) → Config Op Res σ Job α → Prop where
  | init : Run S s₀ [] ⟨s₀, []⟩
  | start {tr s ts} (j : Job) (h : Run S s₀ tr ⟨s, ts⟩) : Run S s₀ tr ⟨s, ts ++ [⟨j, S.code j⟩]⟩
  | step {tr s ts} {i : Nat} {j : Job} {o : Op} {k : Res o → Prog Op Res α} {r : Res o} {s' : σ}
      (h : Run S s₀ tr ⟨s, ts⟩) (hi : ts[i]? = some ⟨j, .call o k⟩) (hs : S.sem o s r s') :
      Run S s₀ (tr ++ [⟨i, s, ⟨o, r⟩, s'⟩]) ⟨s', ts.set i ⟨j, k r⟩⟩

namespace Run

variable {S : System Op Res σ Job α} {s₀ : σ} {tr : List (Entry Op Res σ)}
  {c : Config Op Res σ Job α}

/-! ## Invariants of the shared state -/

/-- A property of trace and shared state that every atomic operation keeps. -/
theorem induct_shared (P : List (Entry Op Res σ) → σ → Prop) (h0 : P [] s₀)
    (hstep : ∀ tr s i o r s', P tr s → S.sem o s r s' → P (tr ++ [⟨i, s, ⟨o, r⟩, s'⟩]) s')
    (hrun : Run S s₀ tr c) : P tr c.shared := by
  induction hrun with
  | init => exact h0
  | start j _ ih => exact ih
  | step _ _ hs ih => exact hstep _ _ _ _ _ _ ih hs

/-- The state after a prefix of the trace is the state before the next line;
the last line leaves the shared state. A relation that is reflexive,
transitive and kept by every listed step links any recorded state to the end. -/
theorem related_to_end (R : σ → σ → Prop) (hrefl : ∀ s, R s s)
    (htrans : ∀ a b c, R a b → R b c → R a c) (hrun : Run S s₀ tr c)
    (hR : ∀ e ∈ tr, R e.pre e.post) : ∀ e ∈ tr, R e.pre c.shared ∧ R e.post c.shared := by
  induction hrun with
  | init => simp
  | start j _ ih => exact ih hR
  | @step tr s ts i j o k r s' _ _ _ ih =>
    have hlast : R s s' := hR ⟨i, s, ⟨o, r⟩, s'⟩ (by simp)
    intro e he
    rcases List.mem_append.mp he with he | he
    · obtain ⟨h1, h2⟩ := ih (fun e he => hR e (List.mem_append_left _ he)) e he
      exact ⟨htrans _ _ _ h1 hlast, htrans _ _ _ h2 hlast⟩
    · rw [List.mem_singleton.mp he]; exact ⟨hlast, hrefl _⟩

/-! ## Prefixes of a trace -/

/-- A split of `tr ++ [a]` is a split of `tr`, or the one at `a`. -/
theorem split_concat {A : Type} {tr pre post : List A} {a e : A}
    (h : tr ++ [a] = pre ++ e :: post) :
    (tr = pre ∧ a = e ∧ post = []) ∨ ∃ post', post = post' ++ [a] ∧ tr = pre ++ e :: post' := by
  rcases List.eq_nil_or_concat post with rfl | ⟨post', b, rfl⟩
  · have := List.append_inj' h rfl
    exact Or.inl ⟨this.1, List.singleton_inj.mp this.2, rfl⟩
  · rw [List.concat_eq_append, ← List.cons_append, ← List.append_assoc] at h
    have := List.append_inj' h rfl
    rw [List.singleton_inj.mp this.2]
    exact Or.inr ⟨post', List.concat_eq_append, this.1⟩

/-- What holds at the start and is kept by every line of the trace holds
before and after each line, and at the end. -/
theorem induct_trace (Q : List (Entry Op Res σ) → σ → Prop) (h0 : Q [] s₀) (hrun : Run S s₀ tr c)
    (hstep : ∀ pre e post, tr = pre ++ e :: post → Q pre e.pre → Q (pre ++ [e]) e.post) :
    Q tr c.shared ∧
      ∀ pre e post, tr = pre ++ e :: post → Q pre e.pre ∧ Q (pre ++ [e]) e.post := by
  induction hrun with
  | init => exact ⟨h0, fun pre e post h => absurd h (by simp)⟩
  | start j _ ih => exact ih hstep
  | @step tr s ts i j o k r s' _ _ _ ih =>
    obtain ⟨hend, hall⟩ := ih fun pre e post h hQ =>
      hstep pre e (post ++ [⟨i, s, ⟨o, r⟩, s'⟩]) (by simp [h]) hQ
    have hlast : Q (tr ++ [⟨i, s, ⟨o, r⟩, s'⟩]) s' :=
      hstep tr ⟨i, s, ⟨o, r⟩, s'⟩ [] rfl hend
    refine ⟨hlast, fun pre e post h => ?_⟩
    rcases split_concat h with ⟨rfl, rfl, rfl⟩ | ⟨post', rfl, h'⟩
    · exact ⟨hend, hlast⟩
    · exact hall pre e post' h'

/-- Where every job issues only calls of one kind, no trace has another. -/
theorem only {kind : Op → Prop} (hcode : ∀ j, (S.code j).Only kind) (hrun : Run S s₀ tr c) :
    (∀ e ∈ tr, kind e.event.1) ∧ ∀ t ∈ c.threads, t.prog.Only kind := by
  induction hrun with
  | init => exact ⟨by simp, by simp⟩
  | start j _ ih =>
    refine ⟨ih.1, fun t ht => ?_⟩
    rcases List.mem_append.mp ht with ht | ht
    · exact ih.2 t ht
    · rw [List.mem_singleton.mp ht]
      exact hcode j
  | step _ hi _ ih =>
    obtain ⟨hkind, hrest⟩ := ih.2 _ (List.mem_of_getElem? hi)
    constructor
    · intro e he
      rcases List.mem_append.mp he with he | he
      · exact ih.1 e he
      · rw [List.mem_singleton.mp he]
        exact hkind
    · intro t ht
      rcases List.mem_or_eq_of_mem_set ht with ht | rfl
      · exact ih.2 t ht
      · exact hrest _

end Run

/-! ## Rely and guarantee -/

/-- A protocol all the jobs of a system follow, with the job each ghost value
belongs to and what holds when a job's program returns. -/
structure Discipline (S : System Op Res σ Job α) (G : Type) where
  protocol : Protocol Op Res G
  jobOf : G → Job
  init : Job → G
  post : G → α → Prop
  jobOf_init : ∀ j, jobOf (init j) = j
  jobOf_next : ∀ g o r, jobOf (protocol.next g o r) = jobOf g
  code : ∀ j, (S.code j).Conforms protocol post (init j)

namespace Discipline

variable {S : System Op Res σ Job α} {s₀ : σ} {tr : List (Entry Op Res σ)}
  {c : Config Op Res σ Job α} (D : Discipline S G)

/-- The ghost values of the running threads: each is of its thread's job, and
the thread's program still conforms to the protocol from it. -/
def Tracks (gs : List G) (ts : List (Thread Op Res Job α)) : Prop :=
  List.Forall₂ (fun g t => D.jobOf g = t.job ∧ t.prog.Conforms D.protocol D.post g) gs ts

variable {D}

theorem tracks_start {gs : List G} {ts : List (Thread Op Res Job α)} (h : D.Tracks gs ts)
    (j : Job) : D.Tracks (gs ++ [D.init j]) (ts ++ [⟨j, S.code j⟩]) :=
  List.rel_append h (.cons ⟨D.jobOf_init j, D.code j⟩ .nil)

theorem tracks_get {gs : List G} {ts : List (Thread Op Res Job α)} (h : D.Tracks gs ts) {i : Nat}
    {t : Thread Op Res Job α} (hi : ts[i]? = some t) :
    ∃ g, gs[i]? = some g ∧ D.jobOf g = t.job ∧ t.prog.Conforms D.protocol D.post g := by
  induction h generalizing i with
  | nil => simp at hi
  | cons hgt _ ih =>
    cases i with
    | zero =>
      simp only [List.getElem?_cons_zero, Option.some.injEq] at hi
      subst hi
      exact ⟨_, rfl, hgt⟩
    | succ i => exact ih (by simpa using hi)

theorem tracks_set {gs : List G} {ts : List (Thread Op Res Job α)} (h : D.Tracks gs ts) (i : Nat)
    {g : G} {t : Thread Op Res Job α} (hjob : D.jobOf g = t.job)
    (ht : t.prog.Conforms D.protocol D.post g) : D.Tracks (gs.set i g) (ts.set i t) := by
  induction h generalizing i with
  | nil => exact .nil
  | cons hgt hrest ih =>
    cases i with
    | zero => exact .cons ⟨hjob, ht⟩ hrest
    | succ i => exact .cons hgt (ih i)

/-- An invariant of (trace, ghost values, shared state): it holds at first, a
starting job keeps it, and every allowed call keeps it and returns what the
protocol relies on. -/
structure Invariant (D : Discipline S G) (s₀ : σ)
    (P : List (Entry Op Res σ) → List G → σ → Prop) : Prop where
  init : P [] [] s₀
  start : ∀ tr gs s j, P tr gs s → P tr (gs ++ [D.init j]) s
  step : ∀ tr gs s i g o r s', P tr gs s → gs[i]? = some g → D.protocol.allowed g o →
    S.sem o s r s' → D.protocol.returns g o r ∧
      P (tr ++ [⟨i, s, ⟨o, r⟩, s'⟩]) (gs.set i (D.protocol.next g o r)) s'

variable {P : List (Entry Op Res σ) → List G → σ → Prop}

/-- The invariant holds in every run, and every running program still conforms. -/
theorem rely_guarantee (hP : D.Invariant s₀ P) (hrun : Run S s₀ tr c) :
    ∃ gs, P tr gs c.shared ∧ D.Tracks gs c.threads := by
  induction hrun with
  | init => exact ⟨[], hP.init, .nil⟩
  | start j _ ih =>
    obtain ⟨gs, h, ht⟩ := ih
    exact ⟨gs ++ [D.init j], hP.start _ _ _ _ h, tracks_start ht j⟩
  | @step tr s ts i j o k r s' _ hi hs ih =>
    obtain ⟨gs, h, ht⟩ := ih
    obtain ⟨g, hg, hjob, hallowed, hk⟩ := tracks_get ht hi
    obtain ⟨hret, h'⟩ := hP.step _ _ _ _ _ _ _ _ h hg hallowed hs
    exact ⟨_, h', tracks_set ht i ((D.jobOf_next g o r).trans hjob) (hk r hret)⟩

/-- What is known about one line of a trace: the invariant before and after
it, and that its thread's ghost value, of its thread's job, allowed it. -/
structure Guaranteed (D : Discipline S G) (P : List (Entry Op Res σ) → List G → σ → Prop)
    (ts : List (Thread Op Res Job α)) (pre : List (Entry Op Res σ)) (e : Entry Op Res σ)
    (gs : List G) (g : G) : Prop where
  before : P pre gs e.pre
  ghost : gs[e.tid]? = some g
  allowed : D.protocol.allowed g e.event.1
  sem : S.sem e.event.1 e.pre e.event.2 e.post
  returns : D.protocol.returns g e.event.1 e.event.2
  after : P (pre ++ [e]) (gs.set e.tid (D.protocol.next g e.event.1 e.event.2)) e.post
  job : (ts[e.tid]?).map (·.job) = some (D.jobOf g)

theorem Guaranteed.start {ts : List (Thread Op Res Job α)} {pre : List (Entry Op Res σ)}
    {e : Entry Op Res σ} {gs : List G} {g : G} (h : Guaranteed D P ts pre e gs g)
    (t : Thread Op Res Job α) : Guaranteed D P (ts ++ [t]) pre e gs g := by
  refine { h with job := ?_ }
  have hjob := h.job
  rw [Option.map_eq_some_iff] at hjob ⊢
  obtain ⟨u, hu, hj⟩ := hjob
  exact ⟨u, by rw [List.getElem?_append_left (List.getElem?_eq_some_iff.mp hu).1, hu], hj⟩

theorem Guaranteed.step {ts : List (Thread Op Res Job α)} {pre : List (Entry Op Res σ)}
    {e : Entry Op Res σ} {gs : List G} {g : G} (h : Guaranteed D P ts pre e gs g) {i : Nat}
    {t t' : Thread Op Res Job α} (hi : ts[i]? = some t) (hjob : t'.job = t.job) :
    Guaranteed D P (ts.set i t') pre e gs g := by
  refine { h with job := ?_ }
  rw [← h.job, List.getElem?_set]
  by_cases hie : i = e.tid
  · subst hie
    simp only [hi, if_pos, (List.getElem?_eq_some_iff.mp hi).1, Option.map_some, hjob]
  · rw [if_neg hie]

/-- Every line of a trace is guaranteed. -/
theorem guaranteed (hP : D.Invariant s₀ P) (hrun : Run S s₀ tr c) :
    ∀ pre e post, tr = pre ++ e :: post → ∃ gs g, Guaranteed D P c.threads pre e gs g := by
  induction hrun with
  | init => intro pre e post h; simp at h
  | start j _ ih =>
    intro pre e post h
    obtain ⟨gs, g, hg⟩ := ih pre e post h
    exact ⟨gs, g, hg.start _⟩
  | @step tr s ts i j o k r s' hrun hi hs ih =>
    intro pre e post h
    rcases Run.split_concat h with ⟨rfl, rfl, rfl⟩ | ⟨post', rfl, h'⟩
    · obtain ⟨gs, h, ht⟩ := rely_guarantee hP hrun
      obtain ⟨g, hg, hjob, hallowed, hk⟩ := tracks_get ht hi
      obtain ⟨hret, h'⟩ := hP.step _ _ _ _ _ _ _ _ h hg hallowed hs
      have hlen := (List.getElem?_eq_some_iff.mp hi).1
      exact ⟨gs, g, h, hg, hallowed, hs, hret, h', by simp [hlen, hjob]⟩
    · obtain ⟨gs, g, hg⟩ := ih pre e post' h'
      exact ⟨gs, g, hg.step hi rfl⟩

end Discipline

/-! ## Fewer jobs -/

/-- The system that only starts jobs of one kind. -/
def System.among (S : System Op Res σ Job α) (kind : Job → Prop) :
    System Op Res σ {j : Job // kind j} α := ⟨S.sem, fun j => S.code j⟩

/-- The thread, its job without its kind. -/
def Thread.plain {kind : Job → Prop} (t : Thread Op Res {j : Job // kind j} α) :
    Thread Op Res Job α := ⟨t.job, t.prog⟩

/-- A step leaves its thread with its job. -/
theorem jobs_before (kind : Job → Prop) {ts : List (Thread Op Res Job α)} {i : Nat} {j : Job}
    {prog prog' : Prog Op Res α} (hi : ts[i]? = some ⟨j, prog⟩)
    (h : ∀ t ∈ ts.set i ⟨j, prog'⟩, kind t.job) : ∀ t ∈ ts, kind t.job := by
  intro t ht
  obtain ⟨n, hn⟩ := List.mem_iff_getElem?.mp ht
  by_cases hni : n = i
  · subst hni
    obtain rfl := Option.some.inj (hn.symm.trans hi)
    have hj : kind j := h _ (List.mem_set (List.getElem?_eq_some_iff.mp hi).1 _)
    exact hj
  · refine h t (List.mem_of_getElem? (i := n) ?_)
    rw [List.getElem?_set_ne (Ne.symm hni), hn]

/-- A run whose jobs are all of this kind is one of that system. -/
theorem Run.among {S : System Op Res σ Job α} {s₀ : σ} {tr : List (Entry Op Res σ)}
    {c : Config Op Res σ Job α} (kind : Job → Prop) (hrun : Run S s₀ tr c)
    (hkind : ∀ t ∈ c.threads, kind t.job) :
    ∃ ts, Run (S.among kind) s₀ tr ⟨c.shared, ts⟩ ∧ ts.map Thread.plain = c.threads := by
  induction hrun with
  | init => exact ⟨[], .init, rfl⟩
  | start j _ ih =>
    obtain ⟨hbefore, hlast⟩ := List.forall_mem_append.mp hkind
    obtain ⟨ts, hrun, hts⟩ := ih hbefore
    refine ⟨_, .start ⟨j, hlast _ (List.mem_singleton_self _)⟩ hrun, ?_⟩
    rw [List.map_append, hts]
    rfl
  | @step tr s ts i j o k r s' _ hi hs ih =>
    have hbefore : ∀ t ∈ ts, kind t.job := jobs_before kind hi hkind
    obtain ⟨us, hrun, hus⟩ := ih hbefore
    replace hus : us.map Thread.plain = ts := hus
    rw [← hus, List.getElem?_map] at hi
    obtain ⟨u, hu, hplain⟩ := Option.map_eq_some_iff.mp hi
    obtain ⟨⟨j', hj'⟩, prog⟩ := u
    obtain ⟨rfl, rfl⟩ := Thread.mk.inj hplain
    refine ⟨_, .step hrun hu hs, ?_⟩
    rw [List.map_set, hus]
    rfl

/-! ## Updating one ghost value of a pool -/

theorem getElem?_set_cases {gs : List G} {i j : Nat} {g g' : G} (h : (gs.set i g)[j]? = some g') :
    (j = i ∧ g' = g) ∨ (j ≠ i ∧ gs[j]? = some g') := by
  by_cases hij : i = j
  · subst hij
    rw [List.getElem?_set_self'] at h
    obtain ⟨_, -, rfl⟩ := Option.map_eq_some_iff.mp h
    exact Or.inl ⟨rfl, rfl⟩
  · rw [List.getElem?_set_ne hij] at h
    exact Or.inr ⟨Ne.symm hij, h⟩

theorem getElem?_concat_cases {gs : List G} {j : Nat} {g g' : G}
    (h : (gs ++ [g])[j]? = some g') : (j = gs.length ∧ g' = g) ∨ gs[j]? = some g' := by
  rw [List.getElem?_append] at h
  split at h
  · exact Or.inr h
  · obtain ⟨hj, rfl⟩ := List.getElem?_eq_some_iff.mp h
    simp only [List.length_singleton] at hj
    exact Or.inl ⟨by omega, by simp⟩

end RealTimeTrading.Concurrency
