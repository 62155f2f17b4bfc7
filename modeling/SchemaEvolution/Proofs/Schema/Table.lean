import SchemaEvolution.Schema.Table

/-!
# `SchemaEvolution.Proofs.Schema.Table`: what a valid table is

A lookup finds the first match, and a change replaces the first match.
Both are read here as a split of the list at that match, which turns
every later question about a changed table into one about `++`.

* `replaceFirst_eq_append`: replacing is exchanging the middle of such a
  split.
* `Table.validate_eq_ok_iff`: a table passes its check when its name is
  not blank, no two of its columns share a name, and its indexes name
  columns of its own.
* `DistinctNames.not_sameName`: where no name is repeated, the elements
  on either side of such a split have other names.
-/

set_option autoImplicit false

namespace SchemaEvolution

open SchemaEvolution.Text

/-! ### The first match in a list -/

section FirstMatch

variable {α : Type} {p : α → Bool}

/-- Replacing passes over what does not match and exchanges the first
match. -/
theorem replaceFirst_eq_append {before after : List α} {x : α} (new : α)
    (hbefore : ∀ y ∈ before, ¬ p y) (hx : p x) :
    replaceFirst p new (before ++ x :: after) = before ++ new :: after := by
  induction before with
  | nil => simp [replaceFirst, hx]
  | cons y rest ih =>
      have hy : p y = false := by simpa using hbefore y List.mem_cons_self
      have hrest : ∀ z ∈ rest, ¬ p z := fun z hz =>
        hbefore z (List.mem_cons_of_mem y hz)
      simp [replaceFirst, hy, ih hrest]

/-- A match that is found first splits the list before it. -/
theorem exists_append_of_find?_eq_some {xs : List α} {x : α}
    (h : xs.find? p = some x) :
    p x ∧ ∃ before after, xs = before ++ x :: after ∧
      ∀ y ∈ before, ¬ p y := by
  obtain ⟨hx, before, after, hxs, hbefore⟩ :=
    List.find?_eq_some_iff_append.mp h
  exact ⟨hx, before, after, hxs, fun y hy => by simpa using hbefore y hy⟩

end FirstMatch

/-! ### Distinct names -/

section Names

variable {α : Type} {name : α → String}

/-- No two elements share a name, case aside. -/
def DistinctNames (name : α → String) (xs : List α) : Prop :=
  xs.Pairwise fun x y => ¬ SameName (name x) (name y)

/-- The elements on either side of one have names that differ from its
own. -/
theorem DistinctNames.not_sameName {before after : List α} {x y : α}
    (h : DistinctNames name (before ++ x :: after))
    (hy : y ∈ before ∨ y ∈ after) : ¬ SameName (name y) (name x) := by
  obtain ⟨-, hafter, hacross⟩ := List.pairwise_append.mp h
  rcases hy with hy | hy
  · exact hacross y hy x List.mem_cons_self
  · exact fun hsame => (List.pairwise_cons.mp hafter).1 y hy hsame.symm

/-- An element may be exchanged for one whose name no other element
has. -/
theorem DistinctNames.exchange {before after : List α} {x : α} (new : α)
    (h : DistinctNames name (before ++ x :: after))
    (hnew : ∀ y, y ∈ before ∨ y ∈ after →
      ¬ SameName (name y) (name new)) :
    DistinctNames name (before ++ new :: after) := by
  obtain ⟨hbefore, hafter, hacross⟩ := List.pairwise_append.mp h
  obtain ⟨-, hrest⟩ := List.pairwise_cons.mp hafter
  refine List.pairwise_append.mpr
    ⟨hbefore, List.pairwise_cons.mpr ⟨fun y hy => ?_, hrest⟩, ?_⟩
  · -- The pairs are taken in order, so here the new element comes first.
    exact fun hsame => hnew y (.inr hy) hsame.symm
  · intro y hy z hz
    rcases List.mem_cons.mp hz with rfl | hz
    · exact hnew y (.inl hy)
    · exact hacross y hy z (List.mem_cons_of_mem x hz)

end Names

/-! ### Names of columns -/

/-- No column of a checked list repeats a name: neither one before it,
nor one of the names the check begins with. -/
theorem repeatedColumn?_eq_none_iff {seen : List String}
    {cs : List Column} :
    Table.repeatedColumn? seen cs = none ↔
      DistinctNames Column.name cs ∧
        ∀ c ∈ cs, ∀ n ∈ seen, ¬ SameName n c.name := by
  induction cs generalizing seen with
  | nil => simp [Table.repeatedColumn?, DistinctNames]
  | cons c rest ih =>
      -- A column is compared with the names before it, which then grow by
      -- its own name.
      unfold Table.repeatedColumn?
      split
      · rename_i hseen
        simp only [List.any_eq_true, decide_eq_true_eq] at hseen
        obtain ⟨n, hn, hsame⟩ := hseen
        simp only [reduceCtorEq, false_iff, not_and]
        exact fun _ hall => hall c List.mem_cons_self n hn hsame
      · rename_i hseen
        simp only [List.any_eq_true, decide_eq_true_eq, not_exists,
          not_and] at hseen
        rw [ih]
        simp only [DistinctNames, List.pairwise_cons, List.mem_cons,
          forall_eq_or_imp]
        constructor
        · rintro ⟨hrest, hnames⟩
          exact ⟨⟨fun d hd => (hnames d hd).1, hrest⟩, hseen,
            fun d hd => (hnames d hd).2⟩
        · rintro ⟨⟨hc, hrest⟩, -, hnames⟩
          exact ⟨hrest, fun d hd => ⟨hc d hd, hnames d hd⟩⟩

namespace Table

/-! ### Lookups -/

/-- A column is found exactly when the table has one of that name. -/
theorem column?_isSome_iff {t : Table} {name : String} :
    (t.column? name).isSome ↔ ∃ c ∈ t.columns, SameName c.name name := by
  simp only [column?, List.find?_isSome, decide_eq_true_eq]
  exact Iff.rfl

/-- A column that is not found has a name that no column shares. -/
theorem column?_eq_none_iff {t : Table} {name : String} :
    t.column? name = none ↔ ∀ c ∈ t.columns, ¬ SameName c.name name := by
  simp only [column?, List.find?_eq_none, decide_eq_true_eq]
  exact Iff.rfl

/-- Columns that are changed, but for their names, are found where they were
found before. -/
theorem column?_map {t : Table} (f : Column → Column)
    (hname : ∀ c, (f c).name = c.name) (n : String) :
    column? { t with columns := t.columns.map f } n =
      (t.column? n).map f := by
  have hcomp : ((fun c : Column => decide (c.IsNamed n)) ∘ f) =
      fun c => decide (c.IsNamed n) := by
    funext c
    refine decide_eq_decide.mpr ?_
    rw [Column.IsNamed, Column.IsNamed, hname]
  rw [column?, List.find?_map, hcomp, column?]

/-- A column that is found splits the columns of its table, and those
before it have other names than the one that was looked for. -/
theorem columns_eq_append_of_column? {t : Table} {name : String}
    {c : Column} (h : t.column? name = some c) :
    SameName c.name name ∧ ∃ before after,
      t.columns = before ++ c :: after ∧
        ∀ d ∈ before, ¬ SameName d.name name := by
  obtain ⟨hc, before, after, hsplit, hbefore⟩ :=
    exists_append_of_find?_eq_some h
  simp only [decide_eq_true_eq] at hc hbefore
  exact ⟨hc, before, after, hsplit, hbefore⟩

/-! ### Changes at one column -/

section Split

variable {t : Table} {name : String} {before after : List Column}
  {c : Column}

/-- A column is replaced where it is found. -/
theorem columns_withColumnReplaced (new : Column)
    (hsplit : t.columns = before ++ c :: after)
    (hbefore : ∀ d ∈ before, ¬ SameName d.name name)
    (hc : SameName c.name name) :
    (t.withColumnReplaced name new).columns = before ++ new :: after := by
  show replaceFirst _ new t.columns = _
  rw [hsplit]
  refine replaceFirst_eq_append new ?_ (decide_eq_true hc)
  intro d hd hnamed
  exact hbefore d hd (of_decide_eq_true hnamed)

/-- A column is removed where it is found, and no other column goes with
it, since names differ by more than case. -/
theorem columns_withoutColumn
    (hsplit : t.columns = before ++ c :: after)
    (hothers : ∀ d, d ∈ before ∨ d ∈ after → ¬ SameName d.name c.name)
    (hc : SameName c.name name) :
    (t.withoutColumn name).columns = before ++ after := by
  have keep : ∀ d, d ∈ before ∨ d ∈ after →
      (!decide (d.IsNamed name)) = true := by
    intro d hd
    rw [Bool.not_eq_true', decide_eq_false_iff_not]
    exact fun hnamed => hothers d hd (SameName.trans hnamed hc.symm)
  have hdrop : (!decide (c.IsNamed name)) = false := by
    rw [Bool.not_eq_false']
    exact decide_eq_true hc
  -- The filter drops one column and passes all of the others.
  show t.columns.filter _ = _
  rw [hsplit, List.filter_append, List.filter_cons, hdrop,
    List.filter_eq_self.mpr fun d hd => keep d (.inl hd)]
  rw [if_neg Bool.false_ne_true,
    List.filter_eq_self.mpr fun d hd => keep d (.inr hd)]

end Split

/-! ### Validity -/

/-- No index names a column that the table lacks. -/
theorem missingIndexColumn?_eq_none_iff {t : Table} :
    t.missingIndexColumn? = none ↔
      ∀ i ∈ t.indexes, ∀ n ∈ i.columns,
        ∃ c ∈ t.columns, SameName c.name n := by
  simp [missingIndexColumn?, ← column?_isSome_iff, Option.isSome_iff_ne_none]

/-- A table passes its check when its name is not blank, no two of its
columns share a name, and its indexes name columns of its own. -/
theorem validate_eq_ok_iff {t : Table} :
    t.validate = .ok () ↔
      isBlank t.name = false ∧ DistinctNames Column.name t.columns ∧
        ∀ i ∈ t.indexes, ∀ n ∈ i.columns,
          ∃ c ∈ t.columns, SameName c.name n := by
  rw [← missingIndexColumn?_eq_none_iff]
  have hnames : repeatedColumn? [] t.columns = none ↔
      DistinctNames Column.name t.columns := by
    simp [repeatedColumn?_eq_none_iff]
  unfold validate
  -- The checks are made in this order, and each of them may be the last.
  cases hblank : isBlank t.name with
  | true => simp
  | false =>
      cases hrepeated : repeatedColumn? [] t.columns with
      | some c => simp [← hnames, hrepeated]
      | none =>
          cases hmissing : t.missingIndexColumn? with
          | some m => simp
          | none => simp [← hnames, hrepeated]

/-- No two columns of a valid table share a name. -/
theorem distinctNames_of_validate {t : Table}
    (valid : t.validate = .ok ()) : DistinctNames Column.name t.columns :=
  (validate_eq_ok_iff.mp valid).2.1

end Table

end SchemaEvolution
