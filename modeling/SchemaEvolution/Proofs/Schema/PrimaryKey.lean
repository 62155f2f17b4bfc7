import Mathlib.Data.List.Induction
import Mathlib.Data.List.Perm.Basic
import SchemaEvolution.Proofs.Schema.Table

/-!
# `SchemaEvolution.Proofs.Schema.PrimaryKey`: a new key for a table

A new primary key marks the columns that are named and lets them take
each other's places. `Table.columnsNamed` collects the key and
`Table.fillKey` puts it where marked columns stand. Neither loses a
column, which comes down to one count: the columns that are collected
are as many as the places that wait for them.

* `Table.mem_columnsNamed_iff`, `Table.distinctNames_columnsNamed`: the
  columns that are collected, each of them once.
* `Table.fillKey_perm`: filling the places of a key with its columns in
  another order moves columns about and does nothing else.
* `Table.columns_withPrimaryKey_perm`: so the table has the same columns
  afterwards, but for their marks.
-/

set_option autoImplicit false

namespace SchemaEvolution

open SchemaEvolution.Text

/-! ### Lists without repeated names -/

section Names

variable {α : Type} {name : α → String} {xs : List α}

/-- Elements of one name are one element. -/
theorem DistinctNames.eq_of_sameName (h : DistinctNames name xs) {x y : α}
    (hx : x ∈ xs) (hy : y ∈ xs) (hsame : SameName (name x) (name y)) :
    x = y := by
  obtain ⟨before, after, rfl⟩ := List.append_of_mem hy
  rcases List.mem_append.mp hx with hx | hx
  · exact absurd hsame (h.not_sameName (.inl hx))
  · rcases List.mem_cons.mp hx with rfl | hx
    · rfl
    · exact absurd hsame (h.not_sameName (.inr hx))

/-- Where no name is repeated, no element is. -/
theorem DistinctNames.nodup (h : DistinctNames name xs) : xs.Nodup :=
  List.Pairwise.imp (fun {x y} hne (heq : x = y) =>
    hne (heq ▸ SameName.refl (name x))) h

/-- Whether names are distinct hangs on the names alone, and not on their
order. -/
theorem DistinctNames.of_perm_map {ys : List α} (h : DistinctNames name xs)
    (hperm : (ys.map name).Perm (xs.map name)) : DistinctNames name ys := by
  have hnames : (xs.map name).Pairwise fun a b => ¬ SameName a b :=
    List.pairwise_map.mpr h
  exact List.pairwise_map.mp <|
    (hperm.pairwise_iff fun hab hba => hab (SameName.symm hba)).mpr hnames

end Names

namespace Table

variable {t : Table} {names : List String}

/-! ### The columns of the new key -/

/-- In a table whose columns have names of their own, a column is found
under each spelling of its name. -/
theorem column?_eq_some_iff (distinct : DistinctNames Column.name t.columns)
    {n : String} {c : Column} :
    t.column? n = some c ↔ c ∈ t.columns ∧ SameName c.name n := by
  constructor
  · intro h
    exact ⟨List.mem_of_find?_eq_some h, (columns_eq_append_of_column? h).1⟩
  · rintro ⟨hc, hn⟩
    obtain ⟨d, hd⟩ := Option.isSome_iff_exists.mp
      (column?_isSome_iff.mpr ⟨c, hc, hn⟩)
    have hsame : SameName d.name c.name :=
      (columns_eq_append_of_column? hd).1.trans hn.symm
    rw [hd, distinct.eq_of_sameName (List.mem_of_find?_eq_some hd) hc hsame]

/-- A name that no column has adds nothing. -/
theorem columnsNamed_concat_of_none {n : String} (h : t.column? n = none) :
    t.columnsNamed (names ++ [n]) = t.columnsNamed names := by
  simp only [columnsNamed, List.foldl_append, List.foldl_cons,
    List.foldl_nil, h]

/-- A name adds its column, unless that is there already. -/
theorem columnsNamed_concat_of_some {n : String} {c : Column}
    (h : t.column? n = some c) :
    t.columnsNamed (names ++ [n]) =
      if ∃ f ∈ t.columnsNamed names, SameName f.name c.name then
        t.columnsNamed names
      else t.columnsNamed names ++ [c] := by
  simp only [columnsNamed, List.foldl_append, List.foldl_cons,
    List.foldl_nil, h, List.any_eq_true, decide_eq_true_eq]
  rfl

/-- No column is collected twice. -/
theorem distinctNames_columnsNamed :
    DistinctNames Column.name (t.columnsNamed names) := by
  induction names using List.reverseRecOn with
  | nil => exact .nil
  | append_singleton names n ih =>
      cases hn : t.column? n with
      | none =>
          rw [columnsNamed_concat_of_none hn]
          exact ih
      | some c =>
          rw [columnsNamed_concat_of_some hn]
          split
          · exact ih
          · rename_i hnew
            refine List.pairwise_append.mpr
              ⟨ih, List.pairwise_singleton _ c, fun f hf d hd => ?_⟩
            rw [List.mem_singleton.mp hd]
            exact fun hsame => hnew ⟨f, hf, hsame⟩

/-- The columns that are collected are those that are named. -/
theorem mem_columnsNamed_iff
    (distinct : DistinctNames Column.name t.columns) {c : Column} :
    c ∈ t.columnsNamed names ↔
      c ∈ t.columns ∧ ∃ n ∈ names, SameName c.name n := by
  induction names using List.reverseRecOn generalizing c with
  | nil => simp [columnsNamed]
  | append_singleton names n ih =>
      simp only [List.mem_append, List.mem_singleton, or_and_right,
        exists_or, exists_eq_left, and_or_left]
      rw [← ih, ← column?_eq_some_iff distinct]
      cases hn : t.column? n with
      | none => simp [columnsNamed_concat_of_none hn]
      | some d =>
          rw [columnsNamed_concat_of_some hn]
          split
          · rename_i hfound
            -- What stands there under this name is the column itself.
            obtain ⟨f, hf, hsame⟩ := hfound
            have hd : d ∈ t.columns := List.mem_of_find?_eq_some hn
            have hfd : f = d :=
              distinct.eq_of_sameName (ih.mp hf).1 hd hsame
            subst hfd
            refine ⟨.inl, ?_⟩
            rintro (hc | hc)
            · exact hc
            · cases hc
              exact hf
          · simp [eq_comm]

/-! ### The places of the key -/

/-- When there is a column for each place of the key, the columns are
those of the key and those that keep their places. -/
theorem fillKey_perm_append {cs key : List Column}
    (hlength : key.length = (cs.filter Column.inKey).length) :
    (fillKey cs key).Perm (key ++ cs.filter fun c => !c.inKey) := by
  induction cs generalizing key with
  | nil =>
      obtain rfl := List.eq_nil_of_length_eq_zero hlength
      exact .nil
  | cons c rest ih =>
      cases hc : c.inKey with
      | true =>
          cases key with
          | nil => simp [hc] at hlength
          | cons k key =>
              have hrest : key.length = (rest.filter Column.inKey).length := by
                simpa [hc] using hlength
              simpa [fillKey, hc] using ih hrest
      | false =>
          have hrest : key.length = (rest.filter Column.inKey).length := by
            simpa [hc] using hlength
          -- The column keeps its place, which on the right is behind the
          -- key.
          simp only [fillKey, hc, Bool.false_eq_true, if_false,
            List.filter_cons, Bool.not_false, if_true]
          exact ((ih hrest).cons c).trans List.perm_middle.symm

/-- Filling the places of a key with its columns in another order moves
columns about and does nothing else. -/
theorem fillKey_perm {cs key : List Column}
    (h : key.Perm (cs.filter Column.inKey)) : (fillKey cs key).Perm cs :=
  (fillKey_perm_append h.length_eq).trans <|
    (h.append_right _).trans (List.filter_append_perm Column.inKey cs)

/-! ### The new key -/

/-- The column with a mark that tells whether it is named. -/
def markKey (names : List String) (c : Column) : Column :=
  { c with inKey := names.any fun n => c.IsNamed n }

theorem inKey_markKey_iff {c : Column} :
    (markKey names c).inKey = true ↔ ∃ n ∈ names, SameName c.name n := by
  simp only [markKey, List.any_eq_true, decide_eq_true_eq]
  exact Iff.rfl

/-- The columns that are collected are those that are marked. -/
theorem columnsNamed_marked_perm
    (distinct : DistinctNames Column.name t.columns) :
    (columnsNamed { t with columns := t.columns.map (markKey names) }
      names).Perm
      ((t.columns.map (markKey names)).filter Column.inKey) := by
  have hmarked : DistinctNames Column.name
      (t.columns.map (markKey names)) :=
    distinct.of_perm_map (by simp [Function.comp_def, markKey])
  have hkey : (columnsNamed { t with
      columns := t.columns.map (markKey names) } names).Nodup :=
    distinctNames_columnsNamed.nodup
  refine (List.perm_ext_iff_of_nodup hkey (hmarked.nodup.filter _)).mpr
    fun c => ?_
  rw [mem_columnsNamed_iff hmarked, List.mem_filter]
  -- A marked column is one that a name is given for.
  refine and_congr_right fun hc => ?_
  obtain ⟨d, -, rfl⟩ := List.mem_map.mp hc
  exact inKey_markKey_iff.symm

/-- The table has the same columns afterwards, but for their marks. -/
theorem columns_withPrimaryKey_perm
    (distinct : DistinctNames Column.name t.columns) :
    (t.withPrimaryKey names).columns.Perm
      (t.columns.map (markKey names)) :=
  fillKey_perm (columnsNamed_marked_perm distinct)

/-- No column comes or goes with a new key. -/
theorem names_withPrimaryKey_perm
    (distinct : DistinctNames Column.name t.columns) :
    ((t.withPrimaryKey names).columns.map Column.name).Perm
      (t.columns.map Column.name) := by
  have hcolumns : (t.withPrimaryKey names).columns.Perm _ :=
    columns_withPrimaryKey_perm distinct
  have h := hcolumns.map Column.name
  rwa [List.map_map] at h

end Table

end SchemaEvolution
