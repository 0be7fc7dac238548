/-
RealTimeTrading.Concurrency.Registers — what a machine remembers of its
inputs.

A register is a value of the state that some inputs write and the others
leave. After a run it holds what was written last (`emit_register`), or
what it held at the start if nothing was. One that is only ever raised
holds the largest of what was written (`emit_peak`). A map that inputs
write by key is a register for each key (`emit_lookup`). A flag that some
inputs set and some clear, as the state then is, shows which came last
(`emit_latch`).
-/
import Mathlib.Data.List.AList
import RealTimeTrading.Concurrency.Emitting
import RealTimeTrading.Data.Peak

namespace RealTimeTrading.Concurrency

open RealTimeTrading.Data

variable {A B : Type}

/-- The last value that `f` reads off the list. -/
def latest (f : A → Option B) (l : List A) : Option B := (l.filterMap f).getLast?

@[simp] theorem latest_nil (f : A → Option B) : latest f [] = none := rfl

theorem latest_append (f : A → Option B) (first second : List A) :
    latest f (first ++ second) = (latest f second).or (latest f first) := by
  unfold latest
  rw [List.filterMap_append, List.getLast?_append]

theorem latest_singleton (f : A → Option B) (a : A) : latest f [a] = f a := by
  unfold latest
  cases h : f a with
  | none => rw [List.filterMap_cons_none h]; rfl
  | some b => rw [List.filterMap_cons_some h]; rfl

theorem latest_cons (f : A → Option B) (a : A) (l : List A) :
    latest f (a :: l) = (latest f l).or (f a) := by
  rw [← latest_singleton f a, ← latest_append]
  rfl

theorem mem_of_latest {f : A → Option B} {l : List A} {b : B} (h : latest f l = some b) :
    ∃ a ∈ l, f a = some b := List.mem_filterMap.mp (List.mem_of_getLast? h)

section Machine

variable {S I O : Type} {step : S → I → List O × S}

/-- A register holds what was last written to it. -/
theorem emit_register (get : S → B) {f : I → Option B}
    (hstep : ∀ s i, get (step s i).2 = (f i).getD (get s)) (s : S) (inputs : List I) :
    get (emit step s inputs).2 = (latest f inputs).getD (get s) := by
  induction inputs generalizing s with
  | nil => rfl
  | cons i rest ih =>
    rw [emit_cons, ih, hstep, latest_cons]
    cases latest f rest <;> rfl

/-- A register that inputs only raise holds the largest value. -/
theorem emit_peak [LinearOrder B] (get : S → B) {f : I → Option B}
    (hstep : ∀ s i, get (step s i).2 = peak (get s) (f i).toList) (s : S) (inputs : List I) :
    get (emit step s inputs).2 = peak (get s) (inputs.filterMap f) := by
  induction inputs generalizing s with
  | nil => rfl
  | cons i rest ih =>
    rw [emit_cons, ih, hstep, ← peak_append]
    cases h : f i with
    | none => rw [List.filterMap_cons_none h, Option.toList_none, List.nil_append]
    | some b => rw [List.filterMap_cons_some h, Option.toList_some, List.singleton_append]

variable {K V : Type} [DecidableEq K]

/-- The value an input writes under this key. -/
def writtenAt (k : K) (e : K × V) : Option V := if e.1 = k then some e.2 else none

/-- A map after an input that writes at most one entry. -/
def write (m : AList fun _ : K => V) : Option (K × V) → AList fun _ : K => V
  | some e => m.insert e.1 e.2
  | none => m

theorem lookup_write (m : AList fun _ : K => V) (e : Option (K × V)) (k : K) :
    (write m e).lookup k = (e.bind (writtenAt k)).or (m.lookup k) := by
  cases e with
  | none => rfl
  | some e =>
    show (m.insert e.1 e.2).lookup k = (writtenAt k e).or (m.lookup k)
    unfold writtenAt
    by_cases h : e.1 = k
    · rw [if_pos h, ← h, AList.lookup_insert]
      rfl
    · rw [if_neg h, AList.lookup_insert_ne (Ne.symm h)]
      rfl

/-- Under each key a map holds what was last written there. -/
theorem emit_lookup (get : S → AList fun _ : K => V) {f : I → Option (K × V)}
    (hstep : ∀ s i, get (step s i).2 = write (get s) (f i)) (s : S) (inputs : List I) (k : K) :
    (get (emit step s inputs).2).lookup k =
      (latest (fun i => (f i).bind (writtenAt k)) inputs).or ((get s).lookup k) := by
  induction inputs generalizing s with
  | nil => rfl
  | cons i rest ih => rw [emit_cons, ih, hstep, lookup_write, latest_cons, Option.or_assoc]

/-- Some input set the flag, and none after it cleared it. -/
def Latched (step : S → I → List O × S) (sets clears : S → I → Prop) (s : S) (inputs : List I) :
    Prop :=
  ∃ before i after, inputs = before ++ i :: after ∧ sets (emit step s before).2 i ∧
    ∀ mid j rest, after = mid ++ j :: rest → ¬ clears (emit step s (before ++ i :: mid)).2 j

theorem latched_concat_of_sets {sets clears : S → I → Prop} {s : S} {inputs : List I} {i : I}
    (h : sets (emit step s inputs).2 i) : Latched step sets clears s (inputs ++ [i]) :=
  ⟨inputs, i, [], rfl, h, fun mid j rest hsplit => by simp at hsplit⟩

/-- A last input that does not set the flag leaves it latched if it does not clear it. -/
theorem latched_concat_iff {sets clears : S → I → Prop} {s : S} {inputs : List I} {i : I}
    (h : ¬ sets (emit step s inputs).2 i) :
    Latched step sets clears s (inputs ++ [i]) ↔
      Latched step sets clears s inputs ∧ ¬ clears (emit step s inputs).2 i := by
  constructor
  · rintro ⟨before, j, after, hsplit, hset, hclear⟩
    rcases List.eq_nil_or_concat' after with rfl | ⟨after, last, rfl⟩
    · obtain ⟨rfl, hlast⟩ := List.append_inj' hsplit rfl
      obtain ⟨rfl, -⟩ := List.cons.inj hlast
      exact absurd hset h
    · rw [← List.cons_append, ← List.append_assoc] at hsplit
      obtain ⟨rfl, hlast⟩ := List.append_inj' hsplit rfl
      obtain ⟨rfl, -⟩ := List.cons.inj hlast
      refine ⟨⟨before, j, after, rfl, hset, fun mid k rest hmid => ?_⟩, hclear after i [] rfl⟩
      exact hclear mid k (rest ++ [i]) (by rw [hmid, List.append_assoc, List.cons_append])
  · rintro ⟨⟨before, j, after, rfl, hset, hclear⟩, hlast⟩
    refine ⟨before, j, after ++ [i], by simp, hset, fun mid k rest hsplit => ?_⟩
    rcases List.eq_nil_or_concat' rest with rfl | ⟨rest, last, rfl⟩
    · obtain ⟨rfl, hk⟩ := List.append_inj' hsplit rfl
      obtain ⟨rfl, -⟩ := List.cons.inj hk
      exact hlast
    · rw [← List.cons_append, ← List.append_assoc] at hsplit
      obtain ⟨rfl, -⟩ := List.append_inj' hsplit rfl
      exact hclear mid k rest rfl

/-- A flag is up exactly if it is latched. -/
theorem emit_latch (get : S → Bool) {sets clears : S → I → Prop}
    (hset : ∀ s i, sets s i → get (step s i).2 = true)
    (hclear : ∀ s i, ¬ sets s i → clears s i → get (step s i).2 = false)
    (hkeep : ∀ s i, ¬ sets s i → ¬ clears s i → get (step s i).2 = get s) {s : S}
    (hs : get s = false) (inputs : List I) :
    get (emit step s inputs).2 = true ↔ Latched step sets clears s inputs := by
  induction inputs using List.reverseRecOn with
  | nil =>
    rw [emit_nil, hs]
    exact iff_of_false Bool.false_ne_true fun ⟨before, i, after, hsplit, _⟩ => by simp at hsplit
  | append_singleton inputs i ih =>
    rw [emit_append, emit_cons, emit_nil]
    by_cases hsets : sets (emit step s inputs).2 i
    · exact iff_of_true (hset _ _ hsets) (latched_concat_of_sets hsets)
    · rw [latched_concat_iff hsets, ← ih]
      by_cases hclears : clears (emit step s inputs).2 i
      · rw [hclear _ _ hsets hclears]
        exact iff_of_false Bool.false_ne_true fun h => h.2 hclears
      · rw [hkeep _ _ hsets hclears, and_iff_left hclears]

end Machine

end RealTimeTrading.Concurrency
