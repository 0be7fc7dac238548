/-
RealTimeTrading.ExecutionLearning.Columns — what stands in the columns of a
table once its features are generated.
-/
import RealTimeTrading.ExecutionLearning.Features

namespace RealTimeTrading.ExecutionLearning

variable {n : Nat}

/-! ## Columns after writing -/

namespace Table

theorem column_set_self (name : String) (series : Series n) (df : Table n) :
    (df.set name series).column name = some fun i => .number (series i) :=
  AList.lookup_insert df.columns

theorem column_set_of_ne {name other : String} (h : name ≠ other) (series : Series n)
    (df : Table n) : (df.set other series).column name = df.column name :=
  AList.lookup_insert_ne h

theorem column_foldl_set_of_notMem {name : String} {written : List (String × Series n)}
    (h : name ∉ written.map (·.1)) (df : Table n) :
    (written.foldl (fun out f => out.set f.1 f.2) df).column name = df.column name := by
  induction written generalizing df with
  | nil => rfl
  | cons f rest ih =>
    obtain ⟨hfirst, hrest⟩ := not_or.mp (mt List.mem_cons.mpr h)
    rw [List.foldl_cons, ih hrest, column_set_of_ne hfirst]

theorem column_foldl_set_of_mem {name : String} {series : Series n}
    {written : List (String × Series n)} (hnames : (written.map (·.1)).Nodup)
    (h : (name, series) ∈ written) (df : Table n) :
    (written.foldl (fun out f => out.set f.1 f.2) df).column name =
      some fun i => .number (series i) := by
  induction written generalizing df with
  | nil => cases h
  | cons f rest ih =>
    obtain ⟨hfirst, hrest⟩ := List.nodup_cons.mp hnames
    rw [List.foldl_cons]
    rcases List.mem_cons.mp h with rfl | hlater
    · rw [column_foldl_set_of_notMem hfirst, column_set_self]
    · exact ih hrest hlater _

end Table

open Table

variable (parse : String → Option ℚ) (exp : ℚ → ℚ) {df : Table n}

/-- A column of numbers reads as itself. -/
theorem safeCol_numbers {name : String} {series : Series n}
    (h : df.column name = some fun i => .number (series i)) (default : Series n) :
    safeCol parse df name default = series := by
  unfold safeCol
  rw [h]
  rfl

theorem safeCol_congr {df' : Table n} {name : String} (h : df'.column name = df.column name)
    (default : Series n) : safeCol parse df' name default = safeCol parse df name default := by
  unfold safeCol
  rw [h]

theorem column_coerce_of_numbers {name : String} {series : Series n}
    (h : df.column name = some fun i => .number (series i)) :
    (coerce parse df).column name = some fun i => .number (series i) := by
  unfold coerce
  induction featureColumns generalizing df with
  | nil => exact h
  | cons first rest ih =>
    refine ih ?_
    by_cases hname : name = first
    · rw [← hname, column_set_self, safeCol_numbers parse h]
    · rw [column_set_of_ne hname, h]

theorem column_coerce_of_notMem {name : String} (h : name ∉ featureColumns) (df : Table n) :
    (coerce parse df).column name = df.column name := by
  unfold coerce
  revert h
  induction featureColumns generalizing df with
  | nil => exact fun _ => rfl
  | cons first rest ih =>
    intro h
    obtain ⟨hfirst, hrest⟩ := not_or.mp (mt List.mem_cons.mpr h)
    rw [List.foldl_cons, ih _ hrest, column_set_of_ne hfirst]

theorem features_names (df : Table n) :
    (features parse exp df).map (·.1) = featureColumns := rfl

theorem featureColumns_nodup : featureColumns.Nodup := by decide

theorem column_feature (hdf : ¬ df.Empty) {name : String} {series : Series n}
    (h : (name, series) ∈ features parse exp df) :
    (generateExecutionFeatures parse exp df).column name = some fun i => .number (series i) := by
  rw [generateExecutionFeatures, if_neg hdf]
  exact column_coerce_of_numbers parse
    (column_foldl_set_of_mem (features_names parse exp df ▸ featureColumns_nodup) h df)

theorem column_other {name : String} (h : name ∉ featureColumns) (df : Table n) :
    (generateExecutionFeatures parse exp df).column name = df.column name := by
  unfold generateExecutionFeatures
  split_ifs
  · rfl
  · rw [column_coerce_of_notMem parse h, column_foldl_set_of_notMem h]

theorem generate_empty_iff : (generateExecutionFeatures parse exp df).Empty ↔ df.Empty := by
  by_cases hdf : df.Empty
  · rw [generateExecutionFeatures, if_pos hdf]
  · refine iff_of_false (fun hgenerated => ?_) hdf
    have hcolumn := column_feature parse exp hdf List.mem_cons_self
    rcases hgenerated with hrows | hcolumns
    · exact hdf (.inl hrows)
    · rw [column, hcolumns] at hcolumn
      cases hcolumn

theorem safeCol_feature (hdf : ¬ df.Empty) {name : String} {series : Series n}
    (h : (name, series) ∈ features parse exp df) (default : Series n) :
    safeCol parse (generateExecutionFeatures parse exp df) name default = series :=
  safeCol_numbers parse (column_feature parse exp hdf h) default

end RealTimeTrading.ExecutionLearning
