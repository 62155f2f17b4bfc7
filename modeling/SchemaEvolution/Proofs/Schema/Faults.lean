import SchemaEvolution.Proofs.Schema.Table

/-!
# `SchemaEvolution.Proofs.Schema.Faults`: what the check of a table reports

A table that does not pass its check may have many faults, and one of them
is reported: a blank name before the columns, the columns before the
indexes, and among columns and indexes the one that is declared first. A
fault is described here by where it stands, with all that stands before it
free of faults, and without the search that finds it.

* `repeatedColumn?_eq_some_iff`: which column is found to repeat a name.
* `Table.missingIndexColumn?_eq_some_iff`: which column of which index is
  found to be missing.
* `Table.validate_reports_first_fault`: when a table passes, and what is
  reported when it does not.
-/

set_option autoImplicit false

namespace SchemaEvolution

open SchemaEvolution.Text

/-! ### Columns -/

/-- A column is found when it repeats a name, that of a column before it or
one that the check begins with, and nothing is found before it. -/
theorem repeatedColumn?_eq_some_iff {seen : List String}
    {cs : List Column} {c : Column} :
    Table.repeatedColumn? seen cs = some c ↔
      ∃ before after, cs = before ++ c :: after ∧
        Table.repeatedColumn? seen before = none ∧
        ((∃ n ∈ seen, SameName n c.name) ∨
          ∃ d ∈ before, SameName d.name c.name) := by
  induction cs generalizing seen with
  | nil => simp [Table.repeatedColumn?]
  | cons x rest ih =>
      by_cases hseen : ∃ n ∈ seen, SameName n x.name
      · -- The check ends at the first column.
        have hstop : ∀ ds, Table.repeatedColumn? seen (x :: ds) = some x :=
          fun ds => if_pos (by simpa using hseen)
        rw [hstop, Option.some_inj]
        constructor
        · rintro rfl
          exact ⟨[], rest, rfl, rfl, .inl hseen⟩
        · rintro ⟨before, after, hsplit, hnone, -⟩
          cases before with
          | nil => exact (List.cons.inj hsplit).1
          | cons y before =>
              obtain ⟨rfl, -⟩ := List.cons.inj hsplit
              cases (hstop before).symm.trans hnone
      · -- The name of the first column is one of those that the rest must
        -- not repeat.
        have hstep : ∀ ds, Table.repeatedColumn? seen (x :: ds) =
            Table.repeatedColumn? (x.name :: seen) ds :=
          fun ds => if_neg (by simpa using hseen)
        rw [hstep, ih]
        constructor
        · rintro ⟨before, after, rfl, hnone, hrepeats⟩
          refine ⟨x :: before, after, rfl, (hstep before).trans hnone, ?_⟩
          rcases hrepeats with ⟨n, hn, hsame⟩ | ⟨d, hd, hsame⟩
          · rcases List.mem_cons.mp hn with rfl | hn
            · exact .inr ⟨x, List.mem_cons_self, hsame⟩
            · exact .inl ⟨n, hn, hsame⟩
          · exact .inr ⟨d, List.mem_cons_of_mem x hd, hsame⟩
        · rintro ⟨before, after, hsplit, hnone, hrepeats⟩
          cases before with
          | nil =>
              obtain ⟨rfl, -⟩ := List.cons.inj hsplit
              simp [hseen] at hrepeats
          | cons y before =>
              obtain ⟨rfl, hrest⟩ := List.cons.inj hsplit
              refine ⟨before, after, hrest,
                (hstep before).symm.trans hnone, ?_⟩
              rcases hrepeats with ⟨n, hn, hsame⟩ | ⟨d, hd, hsame⟩
              · exact .inl ⟨n, List.mem_cons_of_mem _ hn, hsame⟩
              · rcases List.mem_cons.mp hd with rfl | hd
                · exact .inl ⟨d.name, List.mem_cons_self, hsame⟩
                · exact .inr ⟨d, hd, hsame⟩

namespace Table

variable {t : Table}

/-- The column is the first one that is called as a column before it. -/
def FirstRepeated (t : Table) (c : Column) : Prop :=
  ∃ before after, t.columns = before ++ c :: after ∧
    DistinctNames Column.name before ∧
    ∃ d ∈ before, SameName d.name c.name

/-- The check finds the first column that repeats a name. -/
theorem repeatedColumn?_columns_eq_some_iff {c : Column} :
    repeatedColumn? [] t.columns = some c ↔ t.FirstRepeated c := by
  simp [repeatedColumn?_eq_some_iff, repeatedColumn?_eq_none_iff,
    FirstRepeated]

/-! ### Indexes -/

/-- Every column of the index is one of the table. -/
def CoversColumns (t : Table) (i : Index) : Prop :=
  ∀ n ∈ i.columns, ∃ c ∈ t.columns, SameName c.name n

/-- The index is the first one with a column that the table lacks, and `n`
is the first such column of it. -/
def FirstMissing (t : Table) (i : Index) (n : String) : Prop :=
  (∃ before after, t.indexes = before ++ i :: after ∧
    ∀ j ∈ before, t.CoversColumns j) ∧
  (∃ before after, i.columns = before ++ n :: after ∧
    ∀ m ∈ before, ∃ c ∈ t.columns, SameName c.name m) ∧
  ¬ ∃ c ∈ t.columns, SameName c.name n

/-- The check finds the first column that is missing, after the name of the
first index that has one. -/
theorem missingIndexColumn?_eq_some_iff {name n : String} :
    t.missingIndexColumn? = some (name, n) ↔
      ∃ i, i.name = name ∧ t.FirstMissing i n := by
  have hnone : ∀ m, (t.column? m).isNone = true ↔
      ¬ ∃ c ∈ t.columns, SameName c.name m := by
    intro m
    rw [← column?_isSome_iff]
    simp
  have hsome : ∀ m, (t.column? m).isNone = false ↔
      ∃ c ∈ t.columns, SameName c.name m := by
    intro m
    rw [← column?_isSome_iff, ← Option.not_isSome, Bool.not_eq_false']
  -- What is searched for in one index, by itself.
  have hcovers : ∀ j : Index, (j.columns.find? fun m =>
      (t.column? m).isNone) = none ↔ t.CoversColumns j := by
    intro j
    simp only [List.find?_eq_none, Bool.not_eq_true, hsome]
    rfl
  have hfirst : ∀ (j : Index) (m : String), (j.columns.find? fun k =>
      (t.column? k).isNone) = some m ↔
        (∃ before after, j.columns = before ++ m :: after ∧
          ∀ k ∈ before, ∃ c ∈ t.columns, SameName c.name k) ∧
        ¬ ∃ c ∈ t.columns, SameName c.name m := by
    intro j m
    simp only [List.find?_eq_some_iff_append, Bool.not_eq_true', hsome,
      hnone]
    exact and_comm
  unfold missingIndexColumn? FirstMissing
  simp only [List.findSome?_eq_some_iff, Option.map_eq_some_iff,
    Option.map_eq_none_iff, hcovers, hfirst, Prod.mk.injEq]
  constructor
  · rintro ⟨before, i, after, hsplit, ⟨m, hm, hname, rfl⟩, hbefore⟩
    exact ⟨i, hname, ⟨before, after, hsplit, hbefore⟩, hm⟩
  · rintro ⟨i, hname, ⟨before, after, hsplit, hbefore⟩, hm⟩
    exact ⟨before, i, after, hsplit, ⟨n, hm, hname, rfl⟩, hbefore⟩

/-! ### The check -/

/-- The fault that is reported: a blank name; the first column that repeats
a name, if the name of the table is not blank; or the first missing column
of an index, if no column repeats a name either. -/
inductive Reports (t : Table) : RenderError → Prop where
  | blankName : isBlank t.name = true → Reports t .blankTableName
  | repeatedColumn {c : Column} : isBlank t.name = false →
      t.FirstRepeated c → Reports t (.duplicateColumn t.name c.name)
  | missingColumn {i : Index} {n : String} : isBlank t.name = false →
      DistinctNames Column.name t.columns → t.FirstMissing i n →
      Reports t (.unknownIndexColumn t.name i.name n)

/-- The check fails with the fault that is reported. -/
theorem Reports.validate_eq {e : RenderError} (h : t.Reports e) :
    t.validate = .error e := by
  cases h with
  | blankName hblank => exact if_pos hblank
  | repeatedColumn hname hfirst =>
      have hrepeated := repeatedColumn?_columns_eq_some_iff.mpr hfirst
      simp [validate, hname, hrepeated]
  | missingColumn hname distinct hfirst =>
      have hnone : repeatedColumn? [] t.columns = none :=
        repeatedColumn?_eq_none_iff.mpr ⟨distinct, by simp⟩
      have hmissing := missingIndexColumn?_eq_some_iff.mpr ⟨_, rfl, hfirst⟩
      simp [validate, hname, hnone, hmissing]

/-- A table that does not pass its check has a fault to report. -/
theorem exists_reports (h : t.validate ≠ .ok ()) : ∃ e, t.Reports e := by
  cases hblank : isBlank t.name with
  | true => exact ⟨_, .blankName hblank⟩
  | false =>
      cases hrepeated : repeatedColumn? [] t.columns with
      | some c =>
          have hfirst := repeatedColumn?_columns_eq_some_iff.mp hrepeated
          exact ⟨_, .repeatedColumn hblank hfirst⟩
      | none =>
          have distinct := (repeatedColumn?_eq_none_iff.mp hrepeated).1
          cases hmissing : t.missingIndexColumn? with
          | some found =>
              obtain ⟨i, -, hfirst⟩ :=
                missingIndexColumn?_eq_some_iff.mp hmissing
              exact ⟨_, .missingColumn hblank distinct hfirst⟩
          | none =>
              -- Nothing is wrong, so the check would have passed.
              exact absurd (validate_eq_ok_iff.mpr
                ⟨hblank, distinct,
                  missingIndexColumn?_eq_none_iff.mp hmissing⟩) h

/-- A check that fails does so with the fault that is reported. -/
theorem validate_eq_error_iff {e : RenderError} :
    t.validate = .error e ↔ t.Reports e := by
  refine ⟨fun h => ?_, Reports.validate_eq⟩
  obtain ⟨e', hreports⟩ := exists_reports (t := t) (by simp [h])
  obtain rfl := Except.error.inj (h.symm.trans hreports.validate_eq)
  exact hreports

/-- A table passes its check exactly when its name is not blank, no two of
its columns share a name and its indexes name columns of its own. Otherwise
the first fault is reported. -/
theorem validate_reports_first_fault (t : Table) :
    (t.validate = .ok () ↔
      isBlank t.name = false ∧ DistinctNames Column.name t.columns ∧
        ∀ i ∈ t.indexes, t.CoversColumns i) ∧
    ∀ e, t.validate = .error e ↔ t.Reports e :=
  ⟨validate_eq_ok_iff, fun _ => validate_eq_error_iff⟩

/-- The columns come before the indexes. -/
example : ({ name := "Rate",
             columns := [{ name := "Code", type := .string },
               { name := "CODE", type := .string }],
             indexes := [{ name := "Rate_Day", columns := ["Day"] }] } :
      Table).validate = .error (.duplicateColumn "Rate" "CODE") := by
  rfl

end Table

end SchemaEvolution
