import Mathlib.Algebra.Order.Group.Multiset
import SchemaEvolution.Proofs.Upgrade.Snapshot

/-!
# `SchemaEvolution.Proofs.Upgrade.Independence`: edits that keep apart

An edit names one table, or two if it renames one, or a view. It looks
up nothing else in a snapshot and leaves everything else where it was.
Two edits that name different things therefore do not notice each
other, whichever is made first.

What an edit does is said once, by `Snapshot.Exchanges`: a table goes out
of the list, another comes in at the same place, and both are tables that
the edit names. What is left alone and the order of two edits are both
read off that. Nothing is asked of the snapshot, not even that its names
differ.

* `Snapshot.apply_fst_congr`: what an edit gives hangs on the tables and
  views that it names.
* `Snapshot.exchanges_of_apply`: what it does to the tables and views.
* `Snapshot.apart_edits_commute`: edits that keep apart do not notice
  each other, and lead to the same tables and views in either order.
-/

set_option autoImplicit false

namespace SchemaEvolution

open SchemaEvolution.Text

/-! ### What an edit names -/

namespace SchemaEdit

/-- The names of the tables that an edit is about. A rename is about
both of its names. -/
def tableNames : SchemaEdit → List String
  | .addTable t => [t.name]
  | .renameTable source target => [source, target]
  | .removeTable t | .addColumn t _ | .changeColumn t _ _
  | .removeColumn t _ | .addIndex t _ | .removeIndex t _
  | .renameIndex t _ _ | .changePrimaryKey t _ => [t]
  | .removeView _ => []

/-- The names of the views that an edit is about. -/
def viewNames : SchemaEdit → List String
  | .removeView v => [v]
  | _ => []

/-- The edit is about the table of this name, case aside. -/
def NamesTable (e : SchemaEdit) (name : String) : Prop :=
  ∃ n ∈ e.tableNames, SameName n name

instance (e : SchemaEdit) (name : String) : Decidable (e.NamesTable name) :=
  inferInstanceAs (Decidable (∃ n ∈ e.tableNames, SameName n name))

/-- The edit is about the view of this name, case aside. -/
def NamesView (e : SchemaEdit) (name : String) : Prop :=
  ∃ n ∈ e.viewNames, SameName n name

instance (e : SchemaEdit) (name : String) : Decidable (e.NamesView name) :=
  inferInstanceAs (Decidable (∃ n ∈ e.viewNames, SameName n name))

/-- No table and no view is named by both edits. -/
structure Apart (e f : SchemaEdit) : Prop where
  tables : ∀ m ∈ e.tableNames, ∀ n ∈ f.tableNames, ¬ SameName m n
  views : ∀ m ∈ e.viewNames, ∀ n ∈ f.viewNames, ¬ SameName m n

theorem Apart.symm {e f : SchemaEdit} (h : e.Apart f) : f.Apart e :=
  ⟨fun m hm n hn hsame => h.tables n hn m hm hsame.symm,
    fun m hm n hn hsame => h.views n hn m hm hsame.symm⟩

/-- The table that an edit takes out of the snapshot, if there is
one. -/
def outgoing (s : Snapshot) : SchemaEdit → List Table
  | .addTable _ | .removeView _ => []
  | .renameTable t _ | .removeTable t | .addColumn t _
  | .changeColumn t _ _ | .removeColumn t _ | .addIndex t _
  | .removeIndex t _ | .renameIndex t _ _ | .changePrimaryKey t _ =>
      (s.table? t).toList

/-- Equal lookups find equal tables to take out. -/
theorem outgoing_congr {s s' : Snapshot} {e : SchemaEdit}
    (h : ∀ n ∈ e.tableNames, s.table? n = s'.table? n) :
    e.outgoing s = e.outgoing s' := by
  cases e <;> simp_all [outgoing, tableNames]

end SchemaEdit

/-- The table that a change puts into the snapshot, if there is one. -/
def SchemaChange.incoming : SchemaChange → List Table
  | .removeTable _ | .removeView _ => []
  | .addTable t | .renameTable _ t | .addColumn t _
  | .changeColumn t _ _ | .removeColumn t _ | .addIndex t _
  | .removeIndex t _ | .renameIndex t _ _ | .changePrimaryKey t _ _ =>
      [t]

/-- An element that passes a filter is found behind it as before it. -/
theorem find?_eq_find?_filter {α : Type} {p q : α → Bool}
    (h : ∀ a, p a = true → q a = true) (xs : List α) :
    xs.find? p = (xs.filter q).find? p := by
  rw [List.find?_filter]
  congr 1
  funext a
  cases hp : p a with
  | false => simp
  | true => simp [h a hp]

namespace Snapshot

variable {s s' next : Snapshot} {e : SchemaEdit} {change : SchemaChange}

/-! ### What an edit reads -/

/-- The change of an edit that exchanges a table does not hang on the
other tables. -/
theorem map_fst_replaceTable (s : Snapshot) (name : String)
    (after : Table) (change : SchemaChange) :
    ((s.replaceTable name after >>= fun next =>
        pure (change, next)) : Except UpgradeError _).map Prod.fst =
      (checkTable after).map fun _ => change := by
  unfold replaceTable
  cases checkTable after <;> rfl

/-- What an edit gives, a change or an error, hangs on the tables and
views that it names and on nothing else. -/
theorem apply_fst_congr
    (tables : ∀ n ∈ e.tableNames, s.table? n = s'.table? n)
    (views : ∀ n ∈ e.viewNames, s.view? n = s'.view? n) :
    (s.apply e).map Prod.fst = (s'.apply e).map Prod.fst := by
  have find : ∀ n ∈ e.tableNames, s.findTable n = s'.findTable n :=
    fun n hn => by rw [findTable, findTable, tables n hn]
  -- The edit finds the same table in both. What it checks after that is in
  -- this table, or named by the edit.
  cases e with
  | addTable t =>
      simp only [apply, tables t.name List.mem_cons_self]
      split
      · rfl
      · exact map_bind_congr rfl fun _ => rfl
  | removeTable name =>
      exact map_bind_congr (find name List.mem_cons_self) fun _ => rfl
  | renameTable source target =>
      refine map_bind_congr (find source List.mem_cons_self) fun t => ?_
      rw [tables target (List.mem_cons_of_mem _ List.mem_cons_self)]
      simp only [apply_ite (Except.map Prod.fst), map_fst_replaceTable]
  | addColumn name c =>
      refine map_bind_congr (find name List.mem_cons_self) fun t => ?_
      simp only [apply_ite (Except.map Prod.fst), map_fst_replaceTable]
  | changeColumn name column target =>
      refine map_bind_congr (find name List.mem_cons_self) fun t => ?_
      refine map_bind_congr rfl fun c => ?_
      simp only [apply_ite (Except.map Prod.fst), map_fst_replaceTable]
  | removeColumn name column =>
      refine map_bind_congr (find name List.mem_cons_self) fun t => ?_
      refine map_bind_congr rfl fun c => ?_
      simp only [map_fst_replaceTable]
  | addIndex name i =>
      refine map_bind_congr (find name List.mem_cons_self) fun t => ?_
      simp only [apply_ite (Except.map Prod.fst), map_fst_replaceTable]
  | removeIndex name index =>
      refine map_bind_congr (find name List.mem_cons_self) fun t => ?_
      refine map_bind_congr rfl fun i => ?_
      simp only [map_fst_replaceTable]
  | renameIndex name source target =>
      refine map_bind_congr (find name List.mem_cons_self) fun t => ?_
      refine map_bind_congr rfl fun i => ?_
      simp only [apply_ite (Except.map Prod.fst), map_fst_replaceTable]
  | changePrimaryKey name columns =>
      refine map_bind_congr (find name List.mem_cons_self) fun t => ?_
      split
      · rfl
      · simp only [map_fst_replaceTable]
  | removeView name =>
      simp only [apply, views name List.mem_cons_self]
      split <;> rfl

/-! ### What an edit does -/

/-- The edit takes a table out of `s`, its change puts one in at the same
place, and the first view that the edit names goes, as far as there are
any. The edit names every table that goes or comes. -/
structure Exchanges (e : SchemaEdit) (change : SchemaChange)
    (s next : Snapshot) : Prop where
  tables : ∃ front back, s.tables = front ++ e.outgoing s ++ back ∧
    next.tables = front ++ change.incoming ++ back
  views : next.views = s.views.eraseP fun v => e.NamesView v
  named : ∀ t, t ∈ e.outgoing s ∨ t ∈ change.incoming →
    e.NamesTable t.name

/-- An edit that names no view leaves the views alone. -/
theorem eraseP_namesView (hviews : e.viewNames = []) (vs : List String) :
    (vs.eraseP fun v => e.NamesView v) = vs :=
  List.eraseP_of_forall_not (by simp [SchemaEdit.NamesView, hviews])

/-- A table may stand in the place of another one, under a name that the
edit is about. -/
theorem exchanges_withTable {name : String} {t new : Table}
    (found : s.table? name = some t) (hname : name ∈ e.tableNames)
    (hviews : e.viewNames = [])
    (hout : e.outgoing s = (s.table? name).toList)
    (hin : change.incoming = [new])
    (hnew : new.name = t.name ∨ new.name ∈ e.tableNames) :
    Exchanges e change s (s.withTable name new) := by
  -- The table that goes and the one that comes stand at the same place.
  obtain ⟨ht, front, back, hsplit, -, hafter⟩ :=
    tables_eq_append_of_table? found
  have hout : e.outgoing s = [t] := by rw [hout, found]; rfl
  have hnamed : e.NamesTable t.name := ⟨name, hname, ht.symm⟩
  refine ⟨⟨front, back, ?_, ?_⟩, ?_, ?_⟩
  · simp [hsplit, hout]
  · simp [hafter, hin]
  · rw [eraseP_namesView hviews]
    rfl
  · rw [hout, hin]
    simp only [List.mem_singleton]
    rintro u (rfl | rfl)
    · exact hnamed
    · rcases hnew with hkept | hgiven
      · rw [hkept]
        exact hnamed
      · exact ⟨_, hgiven, SameName.refl _⟩

/-- Every edit that is accepted exchanges tables and views in this
way. -/
theorem exchanges_of_apply (accepted : s.apply e = .ok (change, next)) :
    Exchanges e change s next := by
  cases e with
  | addTable t =>
      obtain ⟨-, -, rfl, rfl⟩ := apply_addTable.mp accepted
      refine ⟨⟨s.tables, [], ?_, ?_⟩, ?_, fun u hu => ?_⟩
      · simp [SchemaEdit.outgoing]
      · simp [SchemaChange.incoming]
      · rw [eraseP_namesView rfl]
      · obtain rfl : u = t := by
          simpa [SchemaEdit.outgoing, SchemaChange.incoming] using hu
        exact ⟨_, List.mem_cons_self, SameName.refl _⟩
  | removeTable name =>
      obtain ⟨t, found, rfl, rfl⟩ := apply_removeTable.mp accepted
      obtain ⟨ht, front, back, hsplit, hfront, -⟩ :=
        tables_eq_append_of_table? found
      have hout : (SchemaEdit.removeTable name).outgoing s = [t] := by
        simp [SchemaEdit.outgoing, found]
      refine ⟨⟨front, back, ?_, ?_⟩, ?_, fun u hu => ?_⟩
      · simp [hout, hsplit]
      · show s.tables.eraseP _ = _
        rw [Snapshot.eraseP_tables hsplit hfront ht]
        simp [SchemaChange.incoming]
      · rw [eraseP_namesView rfl]
      · obtain rfl : u = t := by
          simpa [hout, SchemaChange.incoming] using hu
        exact ⟨name, List.mem_cons_self, ht.symm⟩
  | renameTable source target =>
      obtain ⟨t, found, -, -, rfl, rfl⟩ := apply_renameTable.mp accepted
      exact exchanges_withTable found List.mem_cons_self rfl rfl rfl
        (.inr (List.mem_cons_of_mem _ List.mem_cons_self))
  -- All these put another table in the place of one, under its own name.
  | addColumn name c =>
      obtain ⟨t, found, -, -, rfl, rfl⟩ := apply_addColumn.mp accepted
      exact exchanges_withTable found List.mem_cons_self rfl rfl rfl
        (.inl rfl)
  | changeColumn name column target =>
      obtain ⟨t, found, c, -, -, -, rfl, rfl⟩ :=
        apply_changeColumn.mp accepted
      exact exchanges_withTable found List.mem_cons_self rfl rfl rfl
        (.inl rfl)
  | removeColumn name column =>
      obtain ⟨t, found, c, -, -, rfl, rfl⟩ :=
        apply_removeColumn.mp accepted
      exact exchanges_withTable found List.mem_cons_self rfl rfl rfl
        (.inl rfl)
  | addIndex name i =>
      obtain ⟨t, found, -, -, rfl, rfl⟩ := apply_addIndex.mp accepted
      exact exchanges_withTable found List.mem_cons_self rfl rfl rfl
        (.inl rfl)
  | removeIndex name index =>
      obtain ⟨t, found, i, -, -, rfl, rfl⟩ :=
        apply_removeIndex.mp accepted
      exact exchanges_withTable found List.mem_cons_self rfl rfl rfl
        (.inl rfl)
  | renameIndex name source target =>
      obtain ⟨t, found, i, -, -, -, rfl, rfl⟩ :=
        apply_renameIndex.mp accepted
      exact exchanges_withTable found List.mem_cons_self rfl rfl rfl
        (.inl rfl)
  | changePrimaryKey name columns =>
      obtain ⟨t, found, -, -, rfl, rfl⟩ :=
        apply_changePrimaryKey.mp accepted
      exact exchanges_withTable found List.mem_cons_self rfl rfl rfl
        (.inl rfl)
  | removeView name =>
      obtain ⟨view, -, rfl, rfl⟩ := apply_removeView.mp accepted
      refine ⟨⟨s.tables, [], ?_, ?_⟩, ?_, ?_⟩
      · simp [SchemaEdit.outgoing]
      · simp [SchemaChange.incoming]
      · -- Which of the two names comes first does not matter.
        simp [SchemaEdit.NamesView, SchemaEdit.viewNames, SameName, eq_comm]
      · simp [SchemaEdit.outgoing, SchemaChange.incoming]

/-! ### What an edit leaves alone -/

/-- The tables that an edit does not name stay, in their order. -/
theorem filter_tables_of_apply
    (accepted : s.apply e = .ok (change, next)) :
    (next.tables.filter fun t => ¬ e.NamesTable t.name) =
      s.tables.filter fun t => ¬ e.NamesTable t.name := by
  obtain ⟨⟨front, back, hold, hnew⟩, -, hnamed⟩ :=
    exchanges_of_apply accepted
  have hdrop : ∀ ts : List Table, (∀ t ∈ ts, e.NamesTable t.name) →
      (ts.filter fun t => ¬ e.NamesTable t.name) = [] := by
    intro ts hts
    simpa using hts
  rw [hold, hnew]
  simp only [List.filter_append]
  rw [hdrop _ fun t ht => hnamed t (.inl ht),
    hdrop _ fun t ht => hnamed t (.inr ht)]

/-- The views that an edit does not name stay, in their order. -/
theorem filter_views_of_apply
    (accepted : s.apply e = .ok (change, next)) :
    (next.views.filter fun v => ¬ e.NamesView v) =
      s.views.filter fun v => ¬ e.NamesView v := by
  rw [(exchanges_of_apply accepted).views]
  obtain hsame | ⟨v, front, back, -, hv, hsplit, herased⟩ :=
    List.exists_or_eq_self_of_eraseP (fun v => e.NamesView v) s.views
  · rw [hsame]
  · have hnamed : e.NamesView v := by simpa using hv
    rw [herased, hsplit, List.filter_append, List.filter_append,
      List.filter_cons_of_neg (by simpa using hnamed)]

/-- A table that an edit does not name is found as before. -/
theorem table?_of_apply (accepted : s.apply e = .ok (change, next))
    {name : String} (hname : ¬ e.NamesTable name) :
    next.table? name = s.table? name := by
  have hstays : ∀ t : Table, decide (SameName t.name name) = true →
      decide (¬ e.NamesTable t.name) = true := by
    simp only [decide_eq_true_eq]
    rintro t ht ⟨n, hn, hsame⟩
    exact hname ⟨n, hn, hsame.trans ht⟩
  rw [table?, table?, find?_eq_find?_filter hstays,
    filter_tables_of_apply accepted, ← find?_eq_find?_filter hstays]

/-- A view that an edit does not name is found as before. -/
theorem view?_of_apply (accepted : s.apply e = .ok (change, next))
    {name : String} (hname : ¬ e.NamesView name) :
    next.view? name = s.view? name := by
  have hstays : ∀ v : String, decide (SameName v name) = true →
      decide (¬ e.NamesView v) = true := by
    simp only [decide_eq_true_eq]
    rintro v hv ⟨n, hn, hsame⟩
    exact hname ⟨n, hn, hsame.trans hv⟩
  rw [view?, view?, find?_eq_find?_filter hstays,
    filter_views_of_apply accepted, ← find?_eq_find?_filter hstays]

/-! ### Two edits -/

/-- The tables before an edit with those that come are the tables after
it with those that went. -/
theorem tables_perm_of_apply (accepted : s.apply e = .ok (change, next)) :
    (next.tables ++ e.outgoing s).Perm (s.tables ++ change.incoming) := by
  obtain ⟨⟨front, back, hold, hnew⟩, -, -⟩ := exchanges_of_apply accepted
  rw [hold, hnew]
  simp only [List.append_assoc]
  refine .append_left front ?_
  -- The table that comes goes to the end, the one that goes to the front.
  rw [← List.append_assoc (e.outgoing s)]
  exact List.perm_append_comm.trans (List.perm_append_comm.append_right _)

section Apart

variable {s₁ : Snapshot} {f : SchemaEdit} {change₁ : SchemaChange}

/-- An edit leaves every table where it is found for an edit that keeps
apart from it. -/
theorem table?_of_apart (apart : e.Apart f)
    (accepted : s.apply e = .ok (change₁, s₁)) :
    ∀ n ∈ f.tableNames, s₁.table? n = s.table? n := fun n hn =>
  table?_of_apply accepted fun ⟨m, hm, hsame⟩ =>
    apart.tables m hm n hn hsame

/-- So it does with the views. -/
theorem view?_of_apart (apart : e.Apart f)
    (accepted : s.apply e = .ok (change₁, s₁)) :
    ∀ n ∈ f.viewNames, s₁.view? n = s.view? n := fun n hn =>
  view?_of_apply accepted fun ⟨m, hm, hsame⟩ =>
    apart.views m hm n hn hsame

/-- After an edit, one that keeps apart from it gives what it gives
without it. -/
theorem apply_fst_of_apart (apart : e.Apart f)
    (accepted : s.apply e = .ok (change₁, s₁)) :
    (s₁.apply f).map Prod.fst = (s.apply f).map Prod.fst :=
  apply_fst_congr (table?_of_apart apart accepted)
    (view?_of_apart apart accepted)

/-- So it is accepted if it is accepted without it. -/
theorem exists_apply_of_apart (apart : e.Apart f)
    (accepted : s.apply e = .ok (change₁, s₁)) {change₂ : SchemaChange}
    {s₂ : Snapshot} (other : s.apply f = .ok (change₂, s₂)) :
    ∃ s₁₂, s₁.apply f = .ok (change₂, s₁₂) := by
  have hfst := apply_fst_of_apart apart accepted
  rw [other] at hfst
  cases hboth : s₁.apply f with
  | error err =>
      rw [hboth] at hfst
      cases hfst
  | ok made =>
      rw [hboth] at hfst
      cases hfst
      exact ⟨made.2, rfl⟩

/-- In whichever order two edits are made that keep apart, the same
tables go and the same tables come. -/
theorem tables_perm_of_apart (apart : e.Apart f)
    (accepted : s.apply e = .ok (change₁, s₁)) {change₂ : SchemaChange}
    {s₂ s₁₂ s₂₁ : Snapshot} (other : s.apply f = .ok (change₂, s₂))
    (first : s₁.apply f = .ok (change₂, s₁₂))
    (last : s₂.apply e = .ok (change₁, s₂₁)) :
    s₁₂.tables.Perm s₂₁.tables := by
  have hf : f.outgoing s₁ = f.outgoing s :=
    SchemaEdit.outgoing_congr (table?_of_apart apart accepted)
  have he : e.outgoing s₂ = e.outgoing s :=
    SchemaEdit.outgoing_congr (table?_of_apart apart.symm other)
  have h₁ := tables_perm_of_apply accepted
  have h₂ := tables_perm_of_apply other
  have h₁₂ := tables_perm_of_apply first
  have h₂₁ := tables_perm_of_apply last
  rw [hf] at h₁₂
  rw [he] at h₂₁
  -- As multisets the tables are added and taken away, in any order.
  simp only [← Multiset.coe_eq_coe, ← Multiset.coe_add] at h₁ h₂ h₁₂ h₂₁ ⊢
  refine add_right_cancel
    (b := (f.outgoing s : Multiset Table) + e.outgoing s) ?_
  calc (s₁₂.tables : Multiset Table) + (f.outgoing s + e.outgoing s)
      = s₁.tables + e.outgoing s + change₂.incoming := by
        rw [← add_assoc, h₁₂, add_right_comm]
    _ = s₂.tables + f.outgoing s + change₁.incoming := by
        rw [h₁, h₂, add_right_comm]
    _ = s₂₁.tables + (f.outgoing s + e.outgoing s) := by
        rw [add_right_comm, ← h₂₁, add_assoc,
          add_comm (e.outgoing s : Multiset Table)]

/-- In whichever order two edits are made that keep apart, the same views
go. -/
theorem views_eq_of_apart (apart : e.Apart f)
    (accepted : s.apply e = .ok (change₁, s₁)) {change₂ : SchemaChange}
    {s₂ s₁₂ s₂₁ : Snapshot} (other : s.apply f = .ok (change₂, s₂))
    (first : s₁.apply f = .ok (change₂, s₁₂))
    (last : s₂.apply e = .ok (change₁, s₂₁)) :
    s₁₂.views = s₂₁.views := by
  rw [(exchanges_of_apply first).views, (exchanges_of_apply last).views,
    (exchanges_of_apply accepted).views, (exchanges_of_apply other).views]
  refine List.eraseP_comm fun v _ => ?_
  rw [← not_and_or]
  simp only [decide_eq_true_eq]
  rintro ⟨⟨m, hm, hmv⟩, n, hn, hnv⟩
  exact apart.views m hm n hn (hmv.trans hnv.symm)

/-- An edit leaves what it does not name as it was, and an edit that keeps
apart from it does not notice it: that gives the change or the error that
it gives on the snapshot before. If both are accepted they may be made in
either order, and the tables and views are the same in the end, up to the
order of the tables. -/
theorem apart_edits_commute (accepted : s.apply e = .ok (change₁, s₁)) :
    (∀ f, e.Apart f →
      (s₁.apply f).map Prod.fst = (s.apply f).map Prod.fst ∧
      ∀ change₂ s₂, s.apply f = .ok (change₂, s₂) →
        ∃ s₁₂ s₂₁, s₁.apply f = .ok (change₂, s₁₂) ∧
          s₂.apply e = .ok (change₁, s₂₁) ∧
          s₁₂.tables.Perm s₂₁.tables ∧ s₁₂.views = s₂₁.views) ∧
    (s₁.tables.filter fun t => ¬ e.NamesTable t.name) =
      (s.tables.filter fun t => ¬ e.NamesTable t.name) ∧
    (s₁.views.filter fun v => ¬ e.NamesView v) =
      s.views.filter fun v => ¬ e.NamesView v := by
  refine ⟨fun f apart => ⟨apply_fst_of_apart apart accepted,
    fun change₂ s₂ other => ?_⟩, filter_tables_of_apply accepted,
    filter_views_of_apply accepted⟩
  obtain ⟨s₁₂, first⟩ := exists_apply_of_apart apart accepted other
  obtain ⟨s₂₁, last⟩ := exists_apply_of_apart apart.symm other accepted
  exact ⟨s₁₂, s₂₁, first, last,
    tables_perm_of_apart apart accepted other first last,
    views_eq_of_apart apart accepted other first last⟩

end Apart

end Snapshot

/-! ### Two tables that are added -/

/-- A table with one column, which is its key. -/
def coded (name : String) : Table where
  name := name
  columns := [{ name := "Code", type := .string, width := 3, inKey := true }]

/-- A table and a view of its name. -/
def ledger : Snapshot where
  tables := [coded "Ledger"]
  views := ["Ledger"]

/-- Two tables are added in either order. They stand in the order in which
they were added, so that the snapshots hold the same tables in another
order. -/
theorem ledger_edits_commute :
    let account := SchemaEdit.addTable (coded "Account")
    let accounts := SchemaEdit.addTable (coded "Accounts")
    account.Apart accounts ∧
      ∃ s₁ s₂ s₁₂ s₂₁,
        ledger.apply account = .ok (.addTable (coded "Account"), s₁) ∧
        ledger.apply accounts = .ok (.addTable (coded "Accounts"), s₂) ∧
        s₁.apply accounts = .ok (.addTable (coded "Accounts"), s₁₂) ∧
        s₂.apply account = .ok (.addTable (coded "Account"), s₂₁) ∧
        s₁₂.tables.Perm s₂₁.tables ∧ s₁₂.views = s₂₁.views ∧
        s₁₂.tables.map Table.name = ["Ledger", "Account", "Accounts"] ∧
        s₂₁.tables.map Table.name = ["Ledger", "Accounts", "Account"] := by
  intro account accounts
  -- The edits are accepted one by one; that they commute follows.
  have apart : account.Apart accounts :=
    ⟨by decide +kernel, by decide +kernel⟩
  have first := Snapshot.apply_addTable (t := coded "Account").mpr
    ⟨Snapshot.table?_eq_none_iff (s := ledger).mpr (by decide +kernel),
      toOption_eq_some_iff.mp (by decide +kernel), rfl, rfl⟩
  have second := Snapshot.apply_addTable (t := coded "Accounts").mpr
    ⟨Snapshot.table?_eq_none_iff (s := ledger).mpr (by decide +kernel),
      toOption_eq_some_iff.mp (by decide +kernel), rfl, rfl⟩
  obtain ⟨commute, -⟩ := Snapshot.apart_edits_commute first
  obtain ⟨s₁₂, s₂₁, hboth, hback, htables, hviews⟩ :=
    (commute _ apart).2 _ _ second
  obtain ⟨-, -, -, rfl⟩ := Snapshot.apply_addTable.mp hboth
  obtain ⟨-, -, -, rfl⟩ := Snapshot.apply_addTable.mp hback
  exact ⟨apart, _, _, _, _, first, second, hboth, hback, htables, hviews,
    rfl, rfl⟩

end SchemaEvolution
