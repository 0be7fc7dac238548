/-
RealTimeTrading.Data.Json — records as JSON objects.

A writer lists the fields of a record, with `none` where it leaves one
out. A reader asks for a field by its name and says whether it has to be
there. `get?_record` is what makes the two meet: where the names differ,
a field that was asked for is the field that was listed.
-/
import Mathlib.Data.List.Nodup
import Mathlib.Data.Rat.Defs
import Mathlib.Data.Rat.Lemmas

namespace RealTimeTrading.Data

inductive Json where
  | null
  | bool (b : Bool)
  | num (q : ℚ)
  | str (s : String)
  | arr (items : List Json)
  | obj (fields : List (String × Json))

namespace Json

/-! ## Writing -/

/-- The object with these fields, but for those that are `none`. -/
def record (fields : List (String × Option Json)) : Json :=
  .obj (fields.filterMap fun f => f.2.map fun value => (f.1, value))

def int (n : ℤ) : Json := .num n

/-- A number that is left out if it is zero. -/
def omitZero (q : ℚ) : Option Json := if q = 0 then none else some (.num q)

/-- A text that is left out if it is empty. -/
def omitEmpty (s : String) : Option Json := if s = "" then none else some (.str s)

/-! ## Reading -/

def get? (name : String) : Json → Option Json
  | .obj fields => fields.lookup name
  | _ => none

def asStr : Json → Option String
  | .str s => some s
  | _ => none

def asNum : Json → Option ℚ
  | .num q => some q
  | _ => none

/-- A signed integer. -/
def asInt : Json → Option ℤ
  | .num q => if q.den = 1 then some q.num else none
  | _ => none

/-- An unsigned integer. -/
def asNat : Json → Option Nat
  | .num q => if q.den = 1 ∧ 0 ≤ q.num then some q.num.toNat else none
  | _ => none

section Fields

variable {α : Type} (read : Json → Option α) (name : String)

/-- A field that has to be there. -/
def requiredField (j : Json) : Option α := (j.get? name).bind read

/-- A value that may be missing or null; what is there has to be readable. -/
def orAbsent : Option Json → Option (Option α)
  | none | some .null => some none
  | some value => (read value).map some

def optionalField (j : Json) : Option (Option α) := orAbsent read (j.get? name)

variable {fields : List (String × Option Json)}

theorem get?_record (h : (fields.map Prod.fst).Nodup) :
    (record fields).get? name = (fields.lookup name).join := by
  induction fields with
  | nil => rfl
  | cons f rest ih =>
    obtain ⟨key, value⟩ := f
    rw [List.map_cons, List.nodup_cons] at h
    have hrest : (rest.filterMap fun f => f.2.map fun value => (f.1, value)).lookup name =
        (rest.lookup name).join := ih h.2
    unfold record get?
    by_cases hname : name = key
    · subst hname
      rw [List.lookup_cons, beq_self_eq_true]
      cases value with
      | none =>
        have hnone : rest.lookup name = none :=
          List.lookup_eq_none_iff.mpr fun p hp => by
            rw [bne_iff_ne]
            intro heq
            exact h.1 (List.mem_map.mpr ⟨p, hp, heq.symm⟩)
        rw [hnone] at hrest
        exact hrest
      | some value =>
        simp only [List.filterMap_cons, Option.map_some]
        rw [List.lookup_cons, beq_self_eq_true]
        rfl
    · have hbeq : (name == key) = false := by simpa using hname
      rw [List.lookup_cons, hbeq]
      cases value with
      | none => exact hrest
      | some value =>
        simp only [List.filterMap_cons, Option.map_some]
        rw [List.lookup_cons, hbeq]
        exact hrest

theorem requiredField_record (h : (fields.map Prod.fst).Nodup) {value : Option Json}
    (hvalue : fields.lookup name = some value) :
    requiredField read name (record fields) = value.bind read := by
  unfold requiredField
  rw [get?_record name h, hvalue]
  rfl

theorem optionalField_record (h : (fields.map Prod.fst).Nodup) {value : Option Json}
    (hvalue : fields.lookup name = some value) :
    optionalField read name (record fields) = orAbsent read value := by
  unfold optionalField
  rw [get?_record name h, hvalue]
  rfl

end Fields

@[simp] theorem asInt_int (n : ℤ) : asInt (int n) = some n := by
  unfold asInt int
  simp

@[simp] theorem asNat_int (n : ℤ) : asNat (int n) = if 0 ≤ n then some n.toNat else none := by
  unfold asNat int
  simp

end Json

end RealTimeTrading.Data
