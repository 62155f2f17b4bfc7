import SchemaEvolution.Proofs.Schema.Table
import SchemaEvolution.Proofs.Support.Outcome

/-!
# `SchemaEvolution.Proofs.Schema.Identity`: which tables are equal

Tables are compared by their columns and indexes in sorted order. A sort
that is stable moves elements of different keys past each other and
leaves those of one key in their order. So a sorted list is settled by
one sublist for each key, and to compare sorted lists is to compare these
sublists. Where no key is repeated they have at most one element each,
and then it is only a question of which elements there are.

* `mergeSort_eq_iff_filter_eq`: which lists are sorted to one list.
* `Table.beq_iff`: what `==` asks of two tables, valid or not.
* `Table.beq_iff_perm`: what it asks where no name is repeated.
* `Table.equality_ignores_order`: all that `==` does not look at.
-/

set_option autoImplicit false

namespace SchemaEvolution

open SchemaEvolution.Text

/-! ### Stable sorts -/

section Order

variable {α κ : Type} [LE κ] [DecidableLE κ] [Std.IsLinearOrder κ]
  {key : α → κ}

theorem decide_key_le_trans (x y z : α)
    (hxy : decide (key x ≤ key y) = true)
    (hyz : decide (key y ≤ key z) = true) :
    decide (key x ≤ key z) = true := by
  rw [decide_eq_true_eq] at hxy hyz ⊢
  exact Std.le_trans hxy hyz

theorem decide_key_le_total (x y : α) :
    (decide (key x ≤ key y) || decide (key y ≤ key x)) = true := by
  simpa using Std.le_total

/-- A sorted list is in order. -/
theorem pairwise_mergeSort_key (xs : List α) :
    (xs.mergeSort fun x y => key x ≤ key y).Pairwise fun x y =>
      key x ≤ key y := by
  simpa using
    List.pairwise_mergeSort decide_key_le_trans decide_key_le_total xs

end Order

section Keys

variable {α κ : Type} [DecidableEq κ] {key : α → κ} {xs ys : List α}

/-- Where no key is repeated, lists of the same elements have the same
element under each key. -/
theorem filter_eq_of_perm
    (distinct : xs.Pairwise fun x y => key x ≠ key y) (h : xs.Perm ys)
    (k : κ) : xs.filter (key · = k) = ys.filter (key · = k) := by
  have hys := (h.pairwise_iff fun hne => Ne.symm hne).mp distinct
  -- Two elements of one key cannot stand in one list in any order.
  refine List.Perm.eq_of_pairwise (fun x y hx hy hne _ => ?_)
    (distinct.filter _) (hys.filter _) (h.filter _)
  simp only [List.mem_filter, decide_eq_true_eq] at hx hy
  exact absurd (hx.2.trans hy.2.symm) hne

/-- Lists with the same elements under each key have the same
elements. -/
theorem mem_iff_of_filter_eq
    (h : ∀ k, xs.filter (key · = k) = ys.filter (key · = k)) (x : α) :
    x ∈ xs ↔ x ∈ ys := by
  have hx := congrArg (x ∈ ·) (h (key x))
  simpa using hx

variable [LE κ] [Std.IsLinearOrder κ]

/-- A list that is in order is settled by its elements of each key. -/
theorem eq_of_filter_eq (hxs : xs.Pairwise fun x y => key x ≤ key y)
    (hys : ys.Pairwise fun x y => key x ≤ key y)
    (h : ∀ k, xs.filter (key · = k) = ys.filter (key · = k)) :
    xs = ys := by
  induction xs generalizing ys with
  | nil =>
      have hmem := mem_iff_of_filter_eq h
      simpa [List.eq_nil_iff_forall_not_mem, eq_comm] using hmem
  | cons x xs ih =>
      have hmem := mem_iff_of_filter_eq h
      cases ys with
      | nil => simpa using hmem x
      | cons y ys =>
          obtain ⟨hx, hxs'⟩ := List.pairwise_cons.mp hxs
          obtain ⟨hy, hys'⟩ := List.pairwise_cons.mp hys
          -- Each of the two heads has a key that is least in both lists.
          have hxy : key x ≤ key y := by
            rcases List.mem_cons.mp ((hmem y).mpr List.mem_cons_self) with
              rfl | hyxs
            · exact Std.le_refl _
            · exact hx y hyxs
          have hyx : key y ≤ key x := by
            rcases List.mem_cons.mp ((hmem x).mp List.mem_cons_self) with
              rfl | hxys
            · exact Std.le_refl _
            · exact hy x hxys
          have hkey : key y = key x := Std.le_antisymm hyx hxy
          have hheads := h (key x)
          simp only [List.filter_cons, hkey, decide_true, if_true,
            List.cons.injEq] at hheads
          obtain ⟨rfl, -⟩ := hheads
          have htails : ∀ k,
              xs.filter (key · = k) = ys.filter (key · = k) := by
            intro k
            have hk := h k
            rw [List.filter_cons, List.filter_cons] at hk
            split at hk
            · exact (List.cons.inj hk).2
            · exact hk
          rw [ih hxs' hys' htails]

variable [DecidableLE κ]

/-- Sorting leaves the elements of one key in their order. -/
theorem filter_mergeSort (xs : List α) (k : κ) :
    (xs.mergeSort fun x y => key x ≤ key y).filter (key · = k) =
      xs.filter (key · = k) := by
  have hsorted : (xs.filter (key · = k)).Pairwise fun x y =>
      decide (key x ≤ key y) = true := by
    refine List.pairwise_of_forall_mem_list fun x hx y hy => ?_
    simp only [List.mem_filter, decide_eq_true_eq] at hx hy ⊢
    rw [hx.2, hy.2]
    exact Std.le_refl k
  have hsub := (List.sublist_mergeSort decide_key_le_trans
    decide_key_le_total hsorted List.filter_sublist).filter (key · = k)
  have hlength := ((List.mergeSort_perm xs fun x y =>
    decide (key x ≤ key y)).filter (key · = k)).length_eq
  rw [List.filter_filter] at hsub
  simp only [Bool.and_self] at hsub
  exact (hsub.eq_of_length hlength.symm).symm

variable (key) in
/-- Lists are sorted to one list when they have the same elements, in the
same order, under each key. -/
theorem mergeSort_eq_iff_filter_eq :
    (xs.mergeSort fun x y => key x ≤ key y) =
        (ys.mergeSort fun x y => key x ≤ key y) ↔
      ∀ k, xs.filter (key · = k) = ys.filter (key · = k) := by
  constructor
  · intro h k
    rw [← filter_mergeSort xs, h, filter_mergeSort]
  · intro h
    refine eq_of_filter_eq (pairwise_mergeSort_key xs)
      (pairwise_mergeSort_key ys) fun k => ?_
    rw [filter_mergeSort, filter_mergeSort, h k]

/-- Lists with the same elements, in the same order, under each key have
the same elements, each of them as often. -/
theorem perm_of_filter_eq
    (h : ∀ k, xs.filter (key · = k) = ys.filter (key · = k)) :
    xs.Perm ys := by
  have hsorted := (mergeSort_eq_iff_filter_eq key).mpr h
  exact (List.mergeSort_perm xs _).symm.trans
    (hsorted ▸ List.mergeSort_perm ys _)

end Keys

namespace Table

/-! ### Any tables -/

/-- A column is found under its folded name. -/
theorem filter_isNamed (cs : List Column) (n : String) :
    cs.filter (·.IsNamed n) = cs.filter (foldCase ·.name = foldCase n) :=
  rfl

/-- Columns that are the same under each name are so under each folded
name, since no column has a name that is folded to anything else. -/
theorem filter_isNamed_eq_iff {cs ds : List Column} :
    (∀ n, cs.filter (·.IsNamed n) = ds.filter (·.IsNamed n)) ↔
      ∀ k, cs.filter (foldCase ·.name = k) =
        ds.filter (foldCase ·.name = k) := by
  simp only [filter_isNamed]
  constructor
  · intro h k
    by_cases hk : ∃ n, foldCase n = k
    · obtain ⟨n, rfl⟩ := hk
      exact h n
    · have hnone : ∀ es : List Column,
          es.filter (foldCase ·.name = k) = [] := fun es =>
        List.filter_eq_nil_iff.mpr fun c _ hc =>
          hk ⟨c.name, of_decide_eq_true hc⟩
      rw [hnone, hnone]
  · exact fun h n => h (foldCase n)

/-- The columns in sorted order agree when those of each name do, case
aside. -/
theorem columns_identity_eq_iff {a b : Table} :
    a.identity.columns = b.identity.columns ↔
      ∀ n, a.columns.filter (·.IsNamed n) =
        b.columns.filter (·.IsNamed n) := by
  have hpair : ∀ (cs : List Column) (k : String),
      (cs.map fun c => (foldCase c.name, c)).filter (·.1 = k) =
        (cs.filter (foldCase ·.name = k)).map
          fun c => (foldCase c.name, c) := by
    intro cs k
    rw [List.filter_map]
    rfl
  rw [filter_isNamed_eq_iff, identity, identity]
  refine (mergeSort_eq_iff_filter_eq Prod.fst).trans ?_
  simp only [hpair]
  exact forall_congr' fun k =>
    List.map_inj_right fun c d h => congrArg Prod.snd h

/-- What `==` asks of two tables: the same name, kind and key, and under
each name the same columns and the same indexes, in the same order. -/
theorem beq_iff {a b : Table} :
    (a == b) = true ↔
      a.name = b.name ∧ a.temporary = b.temporary ∧
        a.primaryKey = b.primaryKey ∧
        (∀ n, a.columns.filter (·.IsNamed n) =
          b.columns.filter (·.IsNamed n)) ∧
        ∀ n, a.indexes.filter (·.name = n) =
          b.indexes.filter (·.name = n) := by
  rw [beq_iff_identity_eq, ← columns_identity_eq_iff,
    ← mergeSort_eq_iff_filter_eq Index.name]
  simp only [identity, Identity.mk.injEq]

/-- Being equal is an equivalence, since it is equality of what tables
are compared by. -/
theorem equivalence_beq :
    Equivalence fun a b : Table => (a == b) = true := by
  simp only [beq_iff_identity_eq]
  exact ⟨fun _ => rfl, Eq.symm, Eq.trans⟩

/-! ### Tables without repeated names -/

/-- Where no name is repeated, columns that are the same under each name
are the same columns in any order. -/
theorem filter_isNamed_eq_iff_perm {cs ds : List Column}
    (distinct : DistinctNames Column.name cs) :
    (∀ n, cs.filter (·.IsNamed n) = ds.filter (·.IsNamed n)) ↔
      ds.Perm cs := by
  have hdistinct : cs.Pairwise fun c d =>
      foldCase c.name ≠ foldCase d.name := distinct
  rw [filter_isNamed_eq_iff]
  exact ⟨fun h => (perm_of_filter_eq h).symm,
    fun h => filter_eq_of_perm hdistinct h.symm⟩

/-- The same for indexes, whose names are compared exactly. -/
theorem filter_name_eq_iff_perm {is js : List Index}
    (apart : (is.map Index.name).Nodup) :
    (∀ n, is.filter (·.name = n) = js.filter (·.name = n)) ↔
      js.Perm is := by
  have hapart : is.Pairwise fun i j => i.name ≠ j.name :=
    List.pairwise_map.mp apart
  exact ⟨fun h => (perm_of_filter_eq h).symm,
    fun h => filter_eq_of_perm hapart h.symm⟩

/-- Where no name is repeated, tables are equal when they have the same
name, kind and key and the same columns and indexes in any order. -/
theorem beq_iff_perm {a b : Table}
    (distinct : DistinctNames Column.name a.columns)
    (apart : (a.indexes.map Index.name).Nodup) :
    (a == b) = true ↔
      a.name = b.name ∧ a.temporary = b.temporary ∧
        a.primaryKey = b.primaryKey ∧ b.columns.Perm a.columns ∧
        b.indexes.Perm a.indexes := by
  rw [beq_iff, filter_isNamed_eq_iff_perm distinct,
    filter_name_eq_iff_perm apart]

/-- A table may take the place of one that is equal to it. -/
theorem beq_congr {t u : Table} (h : (t == u) = true) (other : Table) :
    (u == other) = (t == other) := by
  rw [Bool.eq_iff_iff]
  exact ⟨equivalence_beq.trans h,
    equivalence_beq.trans (equivalence_beq.symm h)⟩

/-- Columns outside of the key may change places with each other and with
those of the key, without any comparison coming out otherwise. -/
theorem beq_of_columns_perm {t : Table}
    (distinct : DistinctNames Column.name t.columns)
    {columns : List Column} (hcolumns : columns.Perm t.columns)
    (hkey : columns.filter Column.inKey = t.columns.filter Column.inKey)
    (other : Table) :
    ({ t with columns := columns } == other) = (t == other) := by
  have same : (t == { t with columns := columns }) = true :=
    beq_iff.mpr ⟨rfl, rfl, congrArg (List.map Column.name) hkey.symm,
      (filter_isNamed_eq_iff_perm distinct).mpr hcolumns, fun _ => rfl⟩
  exact beq_congr same other

/-- So may indexes of distinct names. -/
theorem beq_of_indexes_perm {t : Table}
    (apart : (t.indexes.map Index.name).Nodup) {indexes : List Index}
    (hindexes : indexes.Perm t.indexes) (other : Table) :
    ({ t with indexes := indexes } == other) = (t == other) := by
  have same : (t == { t with indexes := indexes }) = true :=
    beq_iff.mpr ⟨rfl, rfl, rfl, fun _ => rfl,
      (filter_name_eq_iff_perm apart).mpr hindexes⟩
  exact beq_congr same other

/-- Tables are equal, valid or not, when they have the same name, kind
and key and agree in what they have under each name; this is an
equivalence. For valid tables with distinct names of indexes it comes to
the same columns and indexes in any order, as long as the key stays as it
is. So no comparison hangs on the places of the other columns or on those
of indexes with distinct names. -/
theorem equality_ignores_order :
    (∀ a b : Table, (a == b) = true ↔
      a.name = b.name ∧ a.temporary = b.temporary ∧
        a.primaryKey = b.primaryKey ∧
        (∀ n, a.columns.filter (·.IsNamed n) =
          b.columns.filter (·.IsNamed n)) ∧
        ∀ n, a.indexes.filter (·.name = n) =
          b.indexes.filter (·.name = n)) ∧
    (Equivalence fun a b : Table => (a == b) = true) ∧
    (∀ a b : Table, a.validate = .ok () →
      (a.indexes.map Index.name).Nodup →
      ((a == b) = true ↔
        a.name = b.name ∧ a.temporary = b.temporary ∧
          a.primaryKey = b.primaryKey ∧ b.columns.Perm a.columns ∧
          b.indexes.Perm a.indexes)) ∧
    (∀ t : Table, t.validate = .ok () → ∀ columns,
      columns.Perm t.columns →
      columns.filter Column.inKey = t.columns.filter Column.inKey →
      ∀ other, ({ t with columns := columns } == other) =
        (t == other)) ∧
    ∀ t : Table, (t.indexes.map Index.name).Nodup → ∀ indexes,
      indexes.Perm t.indexes →
      ∀ other, ({ t with indexes := indexes } == other) =
        (t == other) := by
  refine ⟨fun a b => beq_iff, equivalence_beq, fun a b valid apart => ?_,
    fun t valid columns hcolumns hkey other => ?_,
    fun t apart indexes hindexes other => ?_⟩
  · exact beq_iff_perm (distinctNames_of_validate valid) apart
  · exact beq_of_columns_perm (distinctNames_of_validate valid) hcolumns
      hkey other
  · exact beq_of_indexes_perm apart hindexes other

end Table

/-! ### A table in two orders -/

/-- A table with two columns in its key. -/
def quotes : Table where
  name := "Quotes"
  columns :=
    [{ name := "Day", type := .date, inKey := true },
     { name := "Code", type := .string, width := 3, inKey := true },
     { name := "Price", type := .decimal, width := 9, scale := 2 }]
  indexes :=
    [{ name := "Quotes_Code", columns := ["Code"] },
     { name := "Quotes_Price", columns := ["price"] }]

/-- The price may stand before the key, and the indexes may change
places. The columns of the key may not. -/
theorem quotes_in_another_order :
    let code : Column :=
      { name := "Code", type := .string, width := 3, inKey := true }
    let day : Column := { name := "Day", type := .date, inKey := true }
    let price : Column :=
      { name := "Price", type := .decimal, width := 9, scale := 2 }
    (∀ other, ({ quotes with
        columns := [price, day, code]
        indexes := quotes.indexes.reverse } == other) =
      (quotes == other)) ∧
    (quotes == { quotes with columns := [code, day, price] }) = false := by
  intro code day price
  obtain ⟨-, -, hperm, hcolumns, hindexes⟩ := Table.equality_ignores_order
  have valid : quotes.validate = .ok () :=
    toOption_eq_some_iff.mp (by decide +kernel)
  have apart : (quotes.indexes.map Index.name).Nodup := by decide +kernel
  constructor
  · intro other
    -- First the columns change places, and then the indexes.
    rw [← hcolumns quotes valid [price, day, code] (by decide +kernel)
      (by decide +kernel) other]
    exact hindexes { quotes with columns := [price, day, code] } apart _
      (List.reverse_perm _) other
  · rw [Bool.eq_false_iff, Ne, hperm quotes _ valid apart]
    rintro ⟨-, -, hkey, -⟩
    exact absurd hkey (by decide +kernel)

end SchemaEvolution
