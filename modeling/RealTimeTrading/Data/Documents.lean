/-
RealTimeTrading.Data.Documents — JSON documents that are merged and read.

A whole number is told from one with a fraction, as its text would be.
`deepMerge` puts one object into another, key by key, and goes into an
object where both have one; `lookup_deepMerge` says what is then at a key.
A record is read by the names of its members, out of an object or out of
an array of just as many items (`members`).
-/
import Mathlib.Data.List.Nodup
import Mathlib.Data.Rat.Defs
import Mathlib.Data.Rat.Cast.Defs

namespace RealTimeTrading.Data

inductive Document where
  | null
  | bool (b : Bool)
  | int (n : ℤ)
  | float (q : ℚ)
  | str (s : String)
  | arr (items : List Document)
  | obj (fields : List (String × Document))

namespace Document

abbrev Fields := List (String × Document)

/-! ## Merging -/

/-- Writes a key, in its place if it is there, behind the others if not. -/
def assign (key : String) (value : Document) : Fields → Fields
  | [] => [(key, value)]
  | (name, old) :: rest =>
    if name = key then (key, value) :: rest else (name, old) :: assign key value rest

mutual

/-- What is at a key once `value` has been merged into what was there. -/
def merged (old : Option Document) : Document → Document
  | .obj updates =>
    match old with
    | some (.obj inner) => .obj (deepMerge inner updates)
    | _ => .obj updates
  | value => value

def deepMerge (base : Fields) : Fields → Fields
  | [] => base
  | (key, value) :: rest => deepMerge (assign key (merged (base.lookup key) value) base) rest

end

theorem lookup_field (key : String) (value : Document) (rest : Fields) (name : String) :
    List.lookup name ((key, value) :: rest) =
      if name = key then some value else rest.lookup name := by
  rw [List.lookup_cons]
  by_cases h : name = key
  · rw [if_pos h, beq_iff_eq.mpr h]
  · rw [if_neg h, beq_eq_false_iff_ne.mpr h]

theorem lookup_assign (key : String) (value : Document) (fields : Fields) (name : String) :
    (assign key value fields).lookup name =
      if name = key then some value else fields.lookup name := by
  induction fields with
  | nil => exact lookup_field key value [] name
  | cons field rest ih =>
    obtain ⟨first, old⟩ := field
    unfold assign
    by_cases hfirst : first = key
    · subst hfirst
      rw [if_pos rfl, lookup_field, lookup_field]
      split <;> rfl
    · rw [if_neg hfirst, lookup_field, lookup_field, ih]
      by_cases hname : name = first
      · rw [if_pos hname, if_pos hname, if_neg fun hkey => hfirst (hname.symm.trans hkey)]
      · rw [if_neg hname, if_neg hname]

/-- What a merge leaves at a key. -/
theorem lookup_deepMerge {updates : Fields} (hkeys : (updates.map Prod.fst).Nodup) (base : Fields)
    (name : String) :
    (deepMerge base updates).lookup name =
      match updates.lookup name with
      | none => base.lookup name
      | some value => some (merged (base.lookup name) value) := by
  induction updates generalizing base with
  | nil => rfl
  | cons update rest ih =>
    obtain ⟨key, value⟩ := update
    obtain ⟨hfresh, hrest⟩ := List.nodup_cons.mp hkeys
    rw [deepMerge, ih hrest, lookup_assign, lookup_field]
    by_cases hname : name = key
    · subst hname
      have hnone : rest.lookup name = none := by
        refine List.lookup_eq_none_iff.mpr fun other hother => bne_iff_ne.mpr ?_
        rintro rfl
        exact hfresh (List.mem_map.mpr ⟨other, hother, rfl⟩)
      rw [hnone, if_pos rfl, if_pos rfl]
    · rw [if_neg hname, if_neg hname]

/-! ## Reading -/

def asStr : Document → Option String
  | .str s => some s
  | _ => none

/-- Any number. -/
def asFloat : Document → Option ℚ
  | .int n => some n
  | .float q => some q
  | _ => none

/-- A whole number under this bound, without a sign. -/
def asNat (bound : Nat) : Document → Option Nat
  | .int n => if 0 ≤ n ∧ n < bound then some n.toNat else none
  | _ => none

theorem asNat_natCast {bound n : Nat} (h : n < bound) : asNat bound (.int n) = some n := by
  dsimp only [asNat]
  rw [if_pos ⟨Int.natCast_nonneg n, Int.ofNat_lt.mpr h⟩, Int.toNat_natCast]

/-- The members of a record with these names. -/
def members (names : List String) : Document → Option Fields
  | .obj fields => some fields
  | .arr items => if items.length = names.length then some (names.zip items) else none
  | _ => none

/-- A member that has to be there. -/
def member {α : Type} (read : Document → Option α) (fields : Fields) (name : String) : Option α :=
  (fields.lookup name).bind read

/-- An array of the right length has all members. -/
theorem lookup_zip_isSome {names : List String} {items : List Document}
    (hlength : items.length = names.length) {name : String} (hname : name ∈ names) :
    ((names.zip items).lookup name).isSome := by
  induction names generalizing items with
  | nil => cases hname
  | cons first rest ih =>
    cases items with
    | nil => cases hlength
    | cons item items =>
      rw [List.zip_cons_cons, lookup_field]
      by_cases hfirst : name = first
      · rw [if_pos hfirst]
        rfl
      · rw [if_neg hfirst]
        exact ih (Nat.succ.inj hlength) ((List.mem_cons.mp hname).resolve_left hfirst)

/-- A member that is no object is replaced. -/
theorem member_deepMerge {α : Type} (read : Document → Option α) {base updates : Fields}
    {name : String} {old : Document} (hkeys : (updates.map Prod.fst).Nodup)
    (hold : base.lookup name = some old) (hplain : ∀ inner, old ≠ .obj inner) :
    member read (deepMerge base updates) name = (updates.lookup name).elim (read old) read := by
  rw [member, lookup_deepMerge hkeys, hold]
  cases updates.lookup name with
  | none => rfl
  | some value =>
    cases value with
    | obj inner =>
      cases old with
      | obj other => exact absurd rfl (hplain other)
      | _ => rfl
    | _ => rfl

/-- What is read, if anything is said. -/
theorem elim_eq_some_iff {α : Type} (read : Document → Option α) (said : Option Document)
    (old x : α) :
    said.elim (some old) read = some x ↔
      (∀ value, said = some value → (read value).isSome) ∧ x = (said.bind read).getD old := by
  cases said with
  | none =>
    constructor
    · intro h
      exact ⟨nofun, (Option.some.inj h).symm⟩
    · rintro ⟨-, rfl⟩
      rfl
  | some value =>
    show read value = some x ↔ _
    rw [Option.bind_some]
    constructor
    · intro h
      rw [h]
      exact ⟨fun _ hvalue => Option.some.inj hvalue ▸ h ▸ rfl, rfl⟩
    · rintro ⟨hread, rfl⟩
      obtain ⟨y, hy⟩ := Option.isSome_iff_exists.mp (hread value rfl)
      rw [hy]
      rfl

/-! ## Records of numbers -/

/-- The members of a record, each a number. -/
def numbersOf (names : List String) (d : Document) : Option (List ℚ) := do
  let fields ← members names d
  names.mapM (member asFloat fields)

/-- Whatever is said of these members is a number. -/
def Numeric (names : List String) (updates : Fields) : Prop :=
  ∀ name ∈ names, ∀ value, updates.lookup name = some value → (asFloat value).isSome

/-- A member after an update: the number it says, or else what was there. -/
def patched (updates : Fields) (name : String) (number : ℚ) : ℚ :=
  (member asFloat updates name).getD number

/-- A member that was not negative is not, unless it is said to be. -/
theorem patched_nonneg_iff {updates : Fields} {name : String} {number : ℚ} (h : 0 ≤ number) :
    0 ≤ patched updates name number ↔ ∀ q, member asFloat updates name = some q → 0 ≤ q := by
  unfold patched
  cases member asFloat updates name with
  | none => exact iff_of_true h nofun
  | some q => exact ⟨fun hq r hr => Option.some.inj hr ▸ hq, fun hq => hq q rfl⟩

section Merge

variable {names : List String} {base fields updates : Fields}
  {number : String → ℚ}

/-- What there is to say of a record's members; nothing is said by no value at all. -/
def updatesOf (names : List String) : Option Document → Option Fields
  | none => some []
  | some value => members names value

/-- A record once it is updated. -/
def updatedRecord (base : Fields) : Option Document → Document
  | none => .obj base
  | some value => merged (some (.obj base)) value

/-- A record of numbers is updated by an object with some of its members, or by an array of
all of them. -/
theorem members_updatedRecord {value : Option Document}
    (hnumber : ∀ name ∈ names, base.lookup name = some (.float (number name)))
    (hkeys : ∀ updates, value = some (.obj updates) → (updates.map Prod.fst).Nodup) :
    members names (updatedRecord base value) = none ∧ updatesOf names value = none ∨
      ∃ fields updates, members names (updatedRecord base value) = some fields ∧
        updatesOf names value = some updates ∧ ∀ name ∈ names, member asFloat fields name =
          (updates.lookup name).elim (some (number name)) asFloat := by
  cases value with
  | none =>
    refine .inr ⟨base, [], rfl, rfl, fun name hname => ?_⟩
    rw [member, hnumber name hname]
    rfl
  | some value =>
    rw [updatedRecord, updatesOf]
    cases value with
    | obj updates =>
      refine .inr ⟨deepMerge base updates, updates, by rw [merged, members], rfl, ?_⟩
      intro name hname
      exact member_deepMerge asFloat (hkeys updates rfl) (hnumber name hname) nofun
    | arr items =>
      have hmerged : merged (some (.obj base)) (.arr items) = .arr items := rfl
      rw [hmerged, members]
      split
      · rename_i hlength
        refine .inr ⟨names.zip items, names.zip items, rfl, rfl, fun name hname => ?_⟩
        obtain ⟨item, hitem⟩ := Option.isSome_iff_exists.mp (lookup_zip_isSome hlength hname)
        rw [member, hitem]
        rfl
      · exact .inl ⟨rfl, rfl⟩
    | _ => exact .inl ⟨rfl, rfl⟩

/-- Read together, the members are the numbers they are patched to. -/
theorem mapM_member_iff {numbers : List ℚ}
    (hread : ∀ name ∈ names, member asFloat fields name =
      (updates.lookup name).elim (some (number name)) asFloat) :
    names.mapM (member asFloat fields) = some numbers ↔
      Numeric names updates ∧
        numbers = names.map fun name => patched updates name (number name) := by
  induction names generalizing numbers with
  | nil =>
    constructor
    · intro h
      exact ⟨fun _ hname => absurd hname List.not_mem_nil, (Option.some.inj h).symm⟩
    · rintro ⟨-, rfl⟩
      rfl
  | cons name rest ih =>
    have hrest : ∀ numbers, rest.mapM (member asFloat fields) = some numbers ↔ _ := fun numbers =>
      ih fun other hother => hread other (List.mem_cons_of_mem _ hother)
    have hfirst : ∀ q, member asFloat fields name = some q ↔
        (∀ value, updates.lookup name = some value → (asFloat value).isSome) ∧
          q = patched updates name (number name) := by
      intro q
      rw [hread name List.mem_cons_self]
      exact elim_eq_some_iff asFloat _ _ q
    have hnumeric : Numeric (name :: rest) updates ↔
        (∀ value, updates.lookup name = some value → (asFloat value).isSome) ∧
          Numeric rest updates := List.forall_mem_cons
    rw [List.mapM_cons, hnumeric]
    simp only [Option.bind_eq_bind, Option.bind_eq_some_iff, Option.pure_def, Option.some.injEq]
    constructor
    · rintro ⟨q, hq, numbers, hnumbers, rfl⟩
      obtain ⟨hname, rfl⟩ := (hfirst q).mp hq
      obtain ⟨hothers, rfl⟩ := (hrest numbers).mp hnumbers
      exact ⟨⟨hname, hothers⟩, rfl⟩
    · rintro ⟨⟨hname, hothers⟩, rfl⟩
      exact ⟨_, (hfirst _).mpr ⟨hname, rfl⟩, _, (hrest _).mpr ⟨hothers, rfl⟩, rfl⟩

/-- An updated record is read if numbers alone are said of its members, and as the numbers
they are patched to. -/
theorem numbersOf_updatedRecord_iff {value : Option Document} {numbers : List ℚ}
    (hnumber : ∀ name ∈ names, base.lookup name = some (.float (number name)))
    (hkeys : ∀ updates, value = some (.obj updates) → (updates.map Prod.fst).Nodup) :
    numbersOf names (updatedRecord base value) = some numbers ↔
      ∃ updates, updatesOf names value = some updates ∧ Numeric names updates ∧
        numbers = names.map fun name => patched updates name (number name) := by
  unfold numbersOf
  rcases members_updatedRecord hnumber hkeys with ⟨hmembers, hnone⟩ | ⟨fields, updates, hmembers,
    hupdates, hread⟩
  · rw [hmembers, hnone]
    simp
  · rw [hmembers, hupdates]
    show names.mapM (member asFloat fields) = some numbers ↔ _
    rw [mapM_member_iff hread]
    simp

end Merge

end Document

end RealTimeTrading.Data
