/-
RealTimeTrading.Concurrency.Emitting — machines that answer each input with
a list of outputs.

An output of a run is the answer to one of its inputs, in the state the
earlier inputs led to (`mem_emit_iff`). Facts about all outputs of a run
come down to one step from a state that the invariant describes. A part that
no other part writes to runs as if it were alone (`emit_part`).
-/
import Mathlib.Data.List.Basic
import Mathlib.Data.List.Induction

namespace RealTimeTrading.Concurrency

theorem filterMap_concat {A B : Type} (f : A → Option B) (l : List A) (a : A) :
    (l ++ [a]).filterMap f = l.filterMap f ++ (f a).toList := by
  rw [List.filterMap_append]
  cases h : f a with
  | none => rw [List.filterMap_cons_none h]; rfl
  | some b => rw [List.filterMap_cons_some h]; rfl

/-- A reading that finds no more, and the same, finds a part. -/
theorem filterMap_sublist {A B : Type} {f g : A → Option B} {l : List A}
    (h : ∀ a ∈ l, ∀ b, f a = some b → g a = some b) : (l.filterMap f).Sublist (l.filterMap g) := by
  induction l with
  | nil => exact .slnil
  | cons a l ih =>
    obtain ⟨ha, hl⟩ := List.forall_mem_cons.mp h
    rw [← List.singleton_append, List.filterMap_append, List.filterMap_append]
    refine .append ?_ (ih hl)
    cases hf : f a with
    | none =>
      rw [List.filterMap_cons_none hf]
      exact List.nil_sublist _
    | some b => rw [List.filterMap_cons_some hf, List.filterMap_cons_some (ha b hf)]; rfl

/-- A reading that keeps a property and a value, of all the elements. -/
theorem map_filter_filterMap {A B V : Type} {f : A → Option B} {p : A → Bool} {q : B → Bool}
    {v : A → V} {w : B → V} {l : List A}
    (h : ∀ a ∈ l, ∃ b, f a = some b ∧ q b = p a ∧ w b = v a) :
    ((l.filterMap f).filter q).map w = (l.filter p).map v := by
  induction l with
  | nil => rfl
  | cons a l ih =>
    obtain ⟨⟨b, hb, hq, hw⟩, hl⟩ := List.forall_mem_cons.mp h
    rw [List.filterMap_cons_some hb, List.filter_cons, List.filter_cons, hq]
    split
    · rw [List.map_cons, List.map_cons, ih hl, hw]
    · exact ih hl

section Emitting

variable {S I O : Type} (step : S → I → List O × S)

/-- All outputs of a run, in order, with the state it ends in. -/
def emit : S → List I → List O × S
  | s, [] => ([], s)
  | s, i :: rest =>
    ((step s i).1 ++ (emit (step s i).2 rest).1, (emit (step s i).2 rest).2)

@[simp] theorem emit_nil (s : S) : emit step s [] = ([], s) := rfl

theorem emit_cons (s : S) (i : I) (rest : List I) :
    emit step s (i :: rest) =
      ((step s i).1 ++ (emit step (step s i).2 rest).1, (emit step (step s i).2 rest).2) := rfl

theorem emit_append (s : S) (first second : List I) :
    emit step s (first ++ second) =
      ((emit step s first).1 ++ (emit step (emit step s first).2 second).1,
        (emit step (emit step s first).2 second).2) := by
  induction first generalizing s with
  | nil => rfl
  | cons i rest ih => rw [List.cons_append, emit_cons, ih, emit_cons, List.append_assoc]

variable {step}

theorem mem_emit_iff {s : S} {inputs : List I} {o : O} :
    o ∈ (emit step s inputs).1 ↔
      ∃ before i after, inputs = before ++ i :: after ∧ o ∈ (step (emit step s before).2 i).1 := by
  induction inputs generalizing s with
  | nil => simp
  | cons i rest ih =>
    rw [emit_cons, List.mem_append, ih]
    constructor
    · rintro (hhere | ⟨before, j, after, rfl, hlater⟩)
      · exact ⟨[], i, rest, rfl, hhere⟩
      · exact ⟨i :: before, j, after, rfl, hlater⟩
    · rintro ⟨before, j, after, hsplit, ho⟩
      cases before with
      | nil =>
        obtain ⟨rfl, rfl⟩ := List.cons.inj hsplit
        exact .inl ho
      | cons first before =>
        obtain ⟨rfl, rfl⟩ := List.cons.inj hsplit
        exact .inr ⟨before, j, after, rfl, ho⟩

/-- Where in a run its `n`-th output was made. -/
theorem getElem?_emit {s : S} {inputs : List I} {n : Nat} {o : O}
    (h : (emit step s inputs).1[n]? = some o) :
    ∃ before i after m, inputs = before ++ i :: after ∧ n = (emit step s before).1.length + m ∧
      (step (emit step s before).2 i).1[m]? = some o := by
  induction inputs generalizing s n with
  | nil => cases h
  | cons i rest ih =>
    rw [emit_cons] at h
    rcases Nat.lt_or_ge n (step s i).1.length with hhere | hlater
    · rw [List.getElem?_append_left hhere] at h
      exact ⟨[], i, rest, n, rfl, (Nat.zero_add n).symm, h⟩
    · rw [List.getElem?_append_right hlater] at h
      obtain ⟨before, j, after, m, rfl, hn, ho⟩ := ih h
      refine ⟨i :: before, j, after, m, rfl, ?_, ho⟩
      rw [emit_cons, List.length_append]
      omega

/-- A machine that makes exactly one output of each input. -/
theorem getElem?_emit_one {out : S → I → O} (hone : ∀ s i, (step s i).1 = [out s i]) (s : S)
    (inputs : List I) (n : Nat) :
    (emit step s inputs).1[n]? = inputs[n]?.map (out (emit step s (inputs.take n)).2) := by
  induction inputs generalizing s n with
  | nil => rfl
  | cons i rest ih =>
    rw [emit_cons, hone]
    cases n with
    | zero => rfl
    | succ n => exact ih (step s i).2 n

/-- A machine that shows its outputs through `f`. -/
theorem emit_map {O' : Type} (f : O → O') {step' : S → I → List O' × S}
    (h : ∀ s i, step' s i = ((step s i).1.map f, (step s i).2)) (s : S) (inputs : List I) :
    emit step' s inputs = ((emit step s inputs).1.map f, (emit step s inputs).2) := by
  induction inputs generalizing s with
  | nil => rfl
  | cons i rest ih => rw [emit_cons, emit_cons, h, ih, List.map_append]

/-- A machine that reads its inputs through `f`. -/
theorem emit_comap {J : Type} (f : J → I) (s : S) (inputs : List J) :
    emit (fun s j => step s (f j)) s inputs = emit step s (inputs.map f) := by
  induction inputs generalizing s with
  | nil => rfl
  | cons j rest ih => rw [emit_cons, List.map_cons, emit_cons, ih]

/-- A machine on messages, made of one on what it reads of them. -/
def listen {R P : Type} (read : R → Option I) (step : S → I → List O × S) (write : O → List P)
    (s : S) (r : R) : List P × S :=
  match read r with
  | none => ([], s)
  | some i => ((step s i).1.flatMap write, (step s i).2)

theorem mem_listen {R P : Type} {read : R → Option I} {step : S → I → List O × S}
    {write : O → List P} {s : S} {r : R} {p : P} (h : p ∈ (listen read step write s r).1) :
    ∃ i, read r = some i ∧ ∃ o ∈ (step s i).1, p ∈ write o := by
  unfold listen at h
  cases hread : read r with
  | none =>
    rw [hread] at h
    cases h
  | some i =>
    rw [hread] at h
    exact ⟨i, rfl, List.mem_flatMap.mp h⟩

theorem emit_listen {R P : Type} (read : R → Option I) (step : S → I → List O × S)
    (write : O → List P) (s : S) (messages : List R) :
    emit (listen read step write) s messages =
      ((emit step s (messages.filterMap read)).1.flatMap write,
        (emit step s (messages.filterMap read)).2) := by
  induction messages generalizing s with
  | nil => rfl
  | cons r rest ih =>
    rw [emit_cons, ih]
    cases h : read r with
    | none => simp only [listen, h, List.filterMap_cons_none h, List.nil_append]
    | some i =>
      simp only [listen, h, List.filterMap_cons_some h, emit_cons, List.flatMap_append]

/-- What is read, at each input of a run, of it and of the state before it. -/
def readings {R : Type} (step : S → I → List O × S) (read : S → I → R) : S → List I → List R
  | _, [] => []
  | s, i :: rest => read s i :: readings step read (step s i).2 rest

/-- A part of a machine that is a machine of its own, on readings of the inputs. -/
theorem emit_part {S' R O' P : Type} {step' : S' → R → List O' × S'} {part : S → S'}
    {read : S → I → R} {f : O → P} {g : O' → P}
    (hout : ∀ s i, (step' (part s) (read s i)).1.map g = (step s i).1.map f)
    (hpart : ∀ s i, (step' (part s) (read s i)).2 = part (step s i).2) (s : S) (inputs : List I) :
    (emit step' (part s) (readings step read s inputs)).1.map g = (emit step s inputs).1.map f := by
  induction inputs generalizing s with
  | nil => rfl
  | cons i rest ih =>
    rw [readings, emit_cons, emit_cons, hpart, List.map_append, List.map_append, hout, ih]

/-- What every step keeps holds at the end of a run. -/
theorem emit_invariant {Inv : S → Prop} (hstep : ∀ s i, Inv s → Inv (step s i).2) {s : S}
    (hs : Inv s) (inputs : List I) : Inv (emit step s inputs).2 := by
  induction inputs generalizing s with
  | nil => exact hs
  | cons i rest ih => exact ih (hstep s i hs)

/-- So does what a step answers in a state of the invariant. -/
theorem emit_outputs {Inv : S → Prop} {Ok : O → Prop} (hstep : ∀ s i, Inv s → Inv (step s i).2)
    (hout : ∀ s i, Inv s → ∀ o ∈ (step s i).1, Ok o) {s : S} (hs : Inv s) {inputs : List I} {o : O}
    (ho : o ∈ (emit step s inputs).1) : Ok o := by
  obtain ⟨before, i, after, -, hlast⟩ := mem_emit_iff.mp ho
  exact hout _ i (emit_invariant hstep hs before) o hlast

/-- Outputs are pairwise in relation exactly if those of one step are, and
those of a step with those of any later one. -/
theorem emit_pairwise_iff {R : O → O → Prop} {s : S} {inputs : List I} :
    (emit step s inputs).1.Pairwise R ↔
      (∀ before i after, inputs = before ++ i :: after →
        (step (emit step s before).2 i).1.Pairwise R) ∧
      ∀ before i between j after, inputs = before ++ i :: (between ++ j :: after) →
        ∀ o ∈ (step (emit step s before).2 i).1,
          ∀ o' ∈ (step (emit step s (before ++ i :: between)).2 j).1, R o o' := by
  induction inputs generalizing s with
  | nil => simp
  | cons i rest ih =>
    rw [emit_cons, List.pairwise_append, ih]
    constructor
    · rintro ⟨hhere, ⟨hone, htwo⟩, hacross⟩
      refine ⟨fun before j after hsplit => ?_, fun before j between k after hsplit => ?_⟩
      · cases before with
        | nil =>
          obtain ⟨rfl, rfl⟩ := List.cons.inj hsplit
          exact hhere
        | cons first before =>
          obtain ⟨rfl, rfl⟩ := List.cons.inj hsplit
          exact hone before j after rfl
      · cases before with
        | nil =>
          obtain ⟨rfl, rfl⟩ := List.cons.inj hsplit
          intro o ho o' ho'
          exact hacross o ho o' (mem_emit_iff.mpr ⟨between, k, after, rfl, ho'⟩)
        | cons first before =>
          obtain ⟨rfl, rfl⟩ := List.cons.inj hsplit
          exact htwo before j between k after rfl
    · rintro ⟨hone, htwo⟩
      refine ⟨hone [] i rest rfl, ⟨fun before j after hsplit => ?_,
        fun before j between k after hsplit => ?_⟩, fun o ho o' ho' => ?_⟩
      · exact hone (i :: before) j after (congrArg (i :: ·) hsplit)
      · exact htwo (i :: before) j between k after (congrArg (i :: ·) hsplit)
      · obtain ⟨between, j, after, rfl, hlater⟩ := mem_emit_iff.mp ho'
        exact htwo [] i between j after rfl o ho o' hlater

/-- Outputs of a kind that each use up some of an allowance are no more than it. -/
theorem emit_countP_add_le {Inv : S → Prop} {p : O → Bool} (left : S → Nat)
    (hinv : ∀ s i, Inv s → Inv (step s i).2)
    (hstep : ∀ s i, Inv s → (step s i).1.countP p + left (step s i).2 ≤ left s) {s : S}
    (hs : Inv s) (inputs : List I) :
    (emit step s inputs).1.countP p + left (emit step s inputs).2 ≤ left s := by
  induction inputs generalizing s with
  | nil => simp
  | cons i rest ih =>
    have hhere := hstep s i hs
    have hlater := ih (hinv s i hs)
    simp only [emit_cons, List.countP_append]
    omega

/-- Outputs of a machine that makes at most one at a step, each in relation to
the one before: `Last o s` says that `o` was the last one before `s`. -/
theorem emit_isChain {R : O → O → Prop} {Last : O → S → Prop}
    (hstep : ∀ o s i, Last o s →
      ((step s i).1 = [] ∧ Last o (step s i).2) ∨
        ∃ o', (step s i).1 = [o'] ∧ R o o' ∧ Last o' (step s i).2)
    {o : O} {s : S} (hs : Last o s) (inputs : List I) :
    (o :: (emit step s inputs).1).IsChain R := by
  induction inputs generalizing o s with
  | nil => exact .singleton o
  | cons i rest ih =>
    rw [emit_cons]
    rcases hstep o s i hs with ⟨hquiet, hlast⟩ | ⟨o', hone, hrel, hlast⟩
    · rw [hquiet]
      exact ih hlast
    · rw [hone]
      exact .cons_cons hrel (ih hlast)

/-- The same for the first output as well, which has none before it. -/
theorem emit_preceded {R : Option O → O → Prop} {Last : Option O → S → Prop}
    (hstep : ∀ o s i, Last o s →
      ((step s i).1 = [] ∧ Last o (step s i).2) ∨
        ∃ o', (step s i).1 = [o'] ∧ R o o' ∧ Last (some o') (step s i).2)
    {o : Option O} {s : S} (hs : Last o s) {inputs : List I} {before after : List O} {o' : O}
    (h : (emit step s inputs).1 = before ++ o' :: after) : R (before.getLast?.or o) o' := by
  induction inputs generalizing o s before with
  | nil => simp at h
  | cons i rest ih =>
    rw [emit_cons] at h
    rcases hstep o s i hs with ⟨hquiet, hlast⟩ | ⟨first, hone, hrel, hlast⟩
    · rw [hquiet] at h
      exact ih hlast h
    · rw [hone] at h
      cases before with
      | nil =>
        obtain ⟨rfl, -⟩ := List.cons.inj h
        exact hrel
      | cons b before =>
        obtain ⟨rfl, hrest⟩ := List.cons.inj h
        have hlater := ih hlast hrest
        rw [List.getLast?_cons]
        cases hbefore : before.getLast? with
        | none => simpa [hbefore] using hlater
        | some last => simpa [hbefore] using hlater

/-- Where each `q` directly follows a `p` there are no more of them. -/
theorem countP_le_of_preceded {p q : O → Bool} (hone : ∀ o, q o = true → p o = false)
    {l : List O} (h : ∀ before o after, l = before ++ o :: after → q o = true →
      ∃ o' ∈ before.getLast?, p o' = true) :
    l.countP q + (if ∃ o ∈ l.getLast?, p o = true then 1 else 0) ≤ l.countP p := by
  induction l using List.reverseRecOn with
  | nil => simp
  | append_singleton l o ih =>
    have hl := ih fun before o' after hsplit =>
      h before o' (after ++ [o]) (by rw [hsplit, List.append_assoc, List.cons_append])
    rw [List.countP_append, List.countP_append, List.countP_singleton, List.countP_singleton,
      List.getLast?_concat]
    cases hq : q o with
    | true =>
      rw [if_pos (h l o [] rfl hq)] at hl
      simp only [hone o hq, Option.mem_some_iff, exists_eq_left', if_true, Bool.false_eq_true,
        if_false]
      omega
    | false =>
      cases hp : p o <;>
        simp only [hp, Option.mem_some_iff, exists_eq_left', if_true, Bool.false_eq_true,
          if_false] <;>
        omega

end Emitting

end RealTimeTrading.Concurrency
