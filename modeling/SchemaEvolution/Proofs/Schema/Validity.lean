import SchemaEvolution.Proofs.Schema.PrimaryKey

/-!
# `SchemaEvolution.Proofs.Schema.Validity`: changes that keep a table valid

A table is checked anew after each change. The lemmas here say what that
check comes to for a table that was valid before: which of its three
parts a change can break, and what keeps it from doing so. Some changes
cannot break any of them.

* `Table.validate_renamed_iff`, `validate_withIndex_iff`,
  `validate_withoutColumn_iff`: a blank name, an index on a column that
  is not there and the removal of a column under an index are caught.
* `Table.validate_withColumn`, `validate_withColumnReplaced`: a column
  that comes in under a free name is fine, since the indexes follow it.
* `Table.validate_withoutIndex`, `validate_withPrimaryKey`: nothing can
  go wrong.
-/

set_option autoImplicit false

namespace SchemaEvolution

open SchemaEvolution.Text

namespace Table

variable {t : Table}

/-! ### The name -/

/-- A valid table may take any name that is not blank. -/
theorem validate_renamed_iff (valid : t.validate = .ok ())
    {name : String} :
    ({ t with name := name } : Table).validate = .ok () ↔
      isBlank name = false := by
  obtain ⟨-, distinct, covered⟩ := validate_eq_ok_iff.mp valid
  rw [validate_eq_ok_iff]
  exact and_iff_left ⟨distinct, covered⟩

/-! ### The columns -/

/-- A valid table may be given a column of a new name. -/
theorem validate_withColumn (valid : t.validate = .ok ()) {c : Column}
    (free : t.column? c.name = none) :
    (t.withColumn c).validate = .ok () := by
  obtain ⟨named, distinct, covered⟩ := validate_eq_ok_iff.mp valid
  refine validate_eq_ok_iff.mpr ⟨named, ?_, fun i hi n hn => ?_⟩
  · refine List.pairwise_append.mpr
      ⟨distinct, List.pairwise_singleton _ c, fun d hd e he => ?_⟩
    rw [List.mem_singleton.mp he]
    exact column?_eq_none_iff.mp free d hd
  · obtain ⟨d, hd, hsame⟩ := covered i hi n hn
    exact ⟨d, List.mem_append_left _ hd, hsame⟩

/-- What an index names after a column has become another. Its columns
are those of the old index, with the new name in the place of the old
one. -/
theorem mem_columns_withColumnReplaced {name n : String} {new : Column}
    {i : Index} (hi : i ∈ (t.withColumnReplaced name new).indexes)
    (hn : n ∈ i.columns) :
    (n = new.name ∧ ¬ SameName new.name name) ∨
      ∃ j ∈ t.indexes, n ∈ j.columns ∧
        (SameName n name → SameName new.name name) := by
  -- The indexes are rewritten only when the name changes.
  by_cases hsame : new.IsNamed name
  · simp only [withColumnReplaced, if_pos hsame] at hi
    exact .inr ⟨i, hi, hn, fun _ => hsame⟩
  · simp only [withColumnReplaced, if_neg hsame] at hi
    obtain ⟨j, hj, rfl⟩ := List.mem_map.mp hi
    obtain ⟨m, hm, hmn⟩ := List.mem_map.mp hn
    split at hmn
    · exact .inl ⟨hmn.symm, hsame⟩
    · rename_i hother
      subst hmn
      exact .inr ⟨j, hj, hm, fun h => absurd h hother⟩

/-- A column of a valid table may be exchanged for one that keeps its
name or takes one that is free. -/
theorem validate_withColumnReplaced (valid : t.validate = .ok ())
    {name : String} {source new : Column}
    (found : t.column? name = some source)
    (hname : SameName new.name name ∨ t.column? new.name = none) :
    (t.withColumnReplaced name new).validate = .ok () := by
  obtain ⟨named, distinct, covered⟩ := validate_eq_ok_iff.mp valid
  obtain ⟨hsource, before, after, hsplit, hbefore⟩ :=
    columns_eq_append_of_column? found
  have hcolumns := columns_withColumnReplaced new hsplit hbefore hsource
  rw [hsplit] at distinct
  have hothers : ∀ d, d ∈ before ∨ d ∈ after → d ∈ t.columns := by
    intro d hd
    rw [hsplit]
    rcases hd with hd | hd <;> simp [hd]
  refine validate_eq_ok_iff.mpr ⟨named, ?_, fun i hi n hn => ?_⟩
  · -- The new name is the old one, which no other column has, or nobody's.
    rw [hcolumns]
    refine distinct.exchange new fun d hd => ?_
    rcases hname with hsame | hfree
    · exact fun hd' => distinct.not_sameName hd
        (hd'.trans (hsame.trans hsource.symm))
    · exact column?_eq_none_iff.mp hfree d (hothers d hd)
  · rw [hcolumns]
    -- An index names the new column, or one that it named before.
    rcases mem_columns_withColumnReplaced hi hn with
      ⟨rfl, -⟩ | ⟨j, hj, hnj, hkept⟩
    · exact ⟨new, by simp, SameName.refl _⟩
    · obtain ⟨d, hd, hdn⟩ := covered j hj n hnj
      rw [hsplit, List.mem_append, List.mem_cons] at hd
      rcases hd with hd | rfl | hd
      · exact ⟨d, by simp [hd], hdn⟩
      · have hn' : SameName n name := SameName.trans hdn.symm hsource
        exact ⟨new, by simp, (hkept hn').trans hn'.symm⟩
      · exact ⟨d, by simp [hd], hdn⟩

/-- A column of a valid table may be removed when no index covers
it. -/
theorem validate_withoutColumn_iff (valid : t.validate = .ok ())
    {name : String} :
    (t.withoutColumn name).validate = .ok () ↔
      ∀ i ∈ t.indexes, ¬ i.Covers name := by
  obtain ⟨named, distinct, covered⟩ := validate_eq_ok_iff.mp valid
  have hmem : ∀ d, d ∈ (t.withoutColumn name).columns ↔
      d ∈ t.columns ∧ ¬ SameName d.name name := by
    intro d
    simp only [withoutColumn, List.mem_filter, Bool.not_eq_true',
      decide_eq_false_iff_not]
    exact Iff.rfl
  have hdistinct : DistinctNames Column.name
      (t.withoutColumn name).columns := List.Pairwise.filter _ distinct
  refine validate_eq_ok_iff.trans <| (and_iff_right named).trans <|
    (and_iff_right hdistinct).trans ?_
  constructor
  · -- An index on the column would name what is not there any more.
    rintro h i hi ⟨n, hn, hsame⟩
    obtain ⟨d, hd, hdn⟩ := h i hi n hn
    exact ((hmem d).mp hd).2 (hdn.trans hsame)
  · intro h i hi n hn
    obtain ⟨d, hd, hdn⟩ := covered i hi n hn
    refine ⟨d, (hmem d).mpr ⟨hd, fun hsame => ?_⟩, hdn⟩
    exact h i hi ⟨n, hn, hdn.symm.trans hsame⟩

/-! ### The indexes -/

/-- A valid table may be given an index on columns of its own. -/
theorem validate_withIndex_iff (valid : t.validate = .ok ())
    {i : Index} :
    (t.withIndex i).validate = .ok () ↔
      ∀ n ∈ i.columns, ∃ c ∈ t.columns, SameName c.name n := by
  obtain ⟨named, distinct, covered⟩ := validate_eq_ok_iff.mp valid
  refine validate_eq_ok_iff.trans <| (and_iff_right named).trans <|
    (and_iff_right distinct).trans ?_
  constructor
  · exact fun h => h i (List.mem_append_right _ List.mem_cons_self)
  · intro h j hj
    rcases List.mem_append.mp hj with hj | hj
    · exact covered j hj
    · rw [List.mem_singleton.mp hj]
      exact h

/-- A valid table may lose an index. -/
theorem validate_withoutIndex (valid : t.validate = .ok ())
    (name : String) : (t.withoutIndex name).validate = .ok () := by
  obtain ⟨named, distinct, covered⟩ := validate_eq_ok_iff.mp valid
  exact validate_eq_ok_iff.mpr
    ⟨named, distinct, fun i hi => covered i (List.mem_of_mem_filter hi)⟩

/-! ### The key -/

/-- A valid table may have any key. -/
theorem validate_withPrimaryKey (valid : t.validate = .ok ())
    (names : List String) :
    (t.withPrimaryKey names).validate = .ok () := by
  obtain ⟨named, distinct, covered⟩ := validate_eq_ok_iff.mp valid
  have hperm : ((t.withPrimaryKey names).columns.map Column.name).Perm _ :=
    names_withPrimaryKey_perm distinct
  refine validate_eq_ok_iff.mpr
    ⟨named, distinct.of_perm_map hperm, fun i hi n hn => ?_⟩
  -- A column that an index names stands elsewhere at most.
  obtain ⟨c, hc, hcn⟩ := covered i hi n hn
  obtain ⟨d, hd, hdc⟩ := List.mem_map.mp
    (hperm.mem_iff.mpr (List.mem_map_of_mem hc))
  exact ⟨d, hd, hdc ▸ hcn⟩

end Table

end SchemaEvolution
