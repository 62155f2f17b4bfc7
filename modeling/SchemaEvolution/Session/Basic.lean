import SchemaEvolution.Ddl.ColumnPlan

/-!
# `SchemaEvolution.Session.Basic`: a target and its temporary tables

Temporary tables belong to the session that deploys them and lie in no
schema. A session remembers their names, so that statements can refer
to them. A table is remembered once it can be deployed and forgotten
once it can be dropped; nothing else about a schema change matters.

The names are exact. They are kept sorted and each stands once, so two
registries that hold the same names are equal.

* `TemporaryTables.mem_register`, `TemporaryTables.mem_unregister`: what
  the operations do to the set of names.
* `TemporaryTables.ext`: equality of registries is equality of the sets.
* `Session.change_of_error`: a change that cannot be written leaves the
  session as it was.
* `Session.change_target`: no change touches the target.
-/

set_option autoImplicit false

namespace SchemaEvolution

open SchemaEvolution.Text

/-! ### The names of temporary tables -/

/-- The temporary tables of a session. -/
structure TemporaryTables where
  names : List String
  sorted : names.Pairwise (· < ·)
deriving DecidableEq

namespace TemporaryTables

/-- No names. -/
def empty : TemporaryTables := ⟨[], .nil⟩

instance : Inhabited TemporaryTables := ⟨empty⟩

instance : EmptyCollection TemporaryTables := ⟨empty⟩

instance : Membership String TemporaryTables :=
  ⟨fun t name => name ∈ t.names⟩

instance (name : String) (t : TemporaryTables) : Decidable (name ∈ t) :=
  inferInstanceAs (Decidable (name ∈ t.names))

/-- The sorted list with `name` in its place. -/
def insertName (name : String) : List String → List String
  | [] => [name]
  | n :: rest =>
      if name < n then name :: n :: rest
      else if name = n then n :: rest
      else n :: insertName name rest

/-- Inserting a name adds it and nothing else. -/
theorem mem_insertName {x name : String} {names : List String} :
    x ∈ insertName name names ↔ x = name ∨ x ∈ names := by
  induction names with
  | nil => simp [insertName]
  | cons n rest ih =>
      unfold insertName
      split
      · simp
      · split
        · rename_i h
          subst h
          simp
        · simp only [List.mem_cons, ih]
          grind

/-- Inserting a name keeps the order. -/
theorem pairwise_insertName (name : String) {names : List String}
    (h : names.Pairwise (· < ·)) :
    (insertName name names).Pairwise (· < ·) := by
  induction names with
  | nil => simp [insertName]
  | cons n rest ih =>
      obtain ⟨hn, hrest⟩ := List.pairwise_cons.mp h
      unfold insertName
      split
      · rename_i hlt
        refine List.pairwise_cons.mpr ⟨fun x hx => ?_, h⟩
        rcases List.mem_cons.mp hx with rfl | hx
        · exact hlt
        · exact String.lt_trans hlt (hn x hx)
      · split
        · exact h
        · rename_i hnlt hne
          refine List.pairwise_cons.mpr ⟨fun x hx => ?_, ih hrest⟩
          rcases mem_insertName.mp hx with rfl | hx
          · refine Decidable.byContradiction fun hnot => hne ?_
            exact String.le_antisymm (String.not_lt.mp hnot)
              (String.not_lt.mp hnlt)
          · exact hn x hx

/-- The registry with one more name. -/
def register (t : TemporaryTables) (name : String) : TemporaryTables :=
  ⟨insertName name t.names, pairwise_insertName name t.sorted⟩

/-- The registry without a name. -/
def unregister (t : TemporaryTables) (name : String) :
    TemporaryTables :=
  ⟨t.names.filter (· ≠ name), t.sorted.filter _⟩

/-- Nothing is in the empty registry. -/
theorem not_mem_empty (name : String) :
    name ∉ (∅ : TemporaryTables) :=
  List.not_mem_nil

/-- Registering adds one name. -/
theorem mem_register {x name : String} {t : TemporaryTables} :
    x ∈ t.register name ↔ x = name ∨ x ∈ t :=
  mem_insertName

/-- Unregistering takes one name away. -/
theorem mem_unregister {x name : String} {t : TemporaryTables} :
    x ∈ t.unregister name ↔ x ≠ name ∧ x ∈ t := by
  show x ∈ t.names.filter (· ≠ name) ↔ x ≠ name ∧ x ∈ t.names
  simp [and_comm]

/-- Sorted lists of the same names are equal. -/
theorem eq_of_pairwise {as bs : List String}
    (ha : as.Pairwise (· < ·)) (hb : bs.Pairwise (· < ·))
    (h : ∀ x, x ∈ as ↔ x ∈ bs) : as = bs := by
  induction as generalizing bs with
  | nil =>
      cases bs with
      | nil => rfl
      | cons b bs => simpa using h b
  | cons a as ih =>
      cases bs with
      | nil => simpa using h a
      | cons b bs =>
          obtain ⟨ha1, ha2⟩ := List.pairwise_cons.mp ha
          obtain ⟨hb1, hb2⟩ := List.pairwise_cons.mp hb
          have hab : a = b := by
            rcases List.mem_cons.mp ((h a).mp List.mem_cons_self) with
              heq | hmem
            · exact heq
            · rcases List.mem_cons.mp
                ((h b).mpr List.mem_cons_self) with heq | hmem'
              · exact heq.symm
              · exact absurd (String.lt_trans (hb1 a hmem) (ha1 b hmem'))
                  (String.lt_irrefl b)
          subst hab
          have htail : ∀ x, x ∈ as ↔ x ∈ bs := by
            intro x
            have hx := h x
            simp only [List.mem_cons] at hx
            constructor
            · intro hm
              rcases hx.mp (.inr hm) with rfl | hm'
              · exact absurd (ha1 x hm) (String.lt_irrefl x)
              · exact hm'
            · intro hm
              rcases hx.mpr (.inr hm) with rfl | hm'
              · exact absurd (hb1 x hm) (String.lt_irrefl x)
              · exact hm'
          rw [ih ha2 hb2 htail]

/-- Registries of the same names are equal. -/
theorem ext {s t : TemporaryTables} (h : ∀ x, x ∈ s ↔ x ∈ t) :
    s = t := by
  have hnames : s.names = t.names := eq_of_pairwise s.sorted t.sorted h
  cases s
  cases t
  simpa using hnames

end TemporaryTables

/-! ### Sessions -/

/-- A session with a database. -/
structure Session where
  target : Target
  temporary : TemporaryTables := ∅

/-- What a schema change does to the temporary tables. -/
def SchemaChange.remember (c : SchemaChange) (names : TemporaryTables) :
    TemporaryTables :=
  match c with
  | .addTable table =>
      if table.temporary then names.register table.name else names
  | .removeTable table =>
      if table.temporary then names.unregister table.name else names
  | _ => names

namespace Session

/-- The dialect of the session. -/
def dialect (s : Session) : Dialect := s.target.dialect

/-- What stands before a table that a statement refers to: its own
schema, nothing for a temporary table, else the configured schema. -/
def qualifier (s : Session) (table : TableRef) : String :=
  match table.schema.bind nonBlank? with
  | some schema => s.dialect.givenQualifier schema
  | none =>
      if table.name ∈ s.temporary then "" else s.target.schemaQualifier

/-- Writes a schema change, and the session after it. -/
def change (s : Session) (c : SchemaChange) :
    Except RenderError (List Ddl) × Session :=
  match s.target.planChange c with
  | .ok statements =>
      (.ok statements, { s with temporary := c.remember s.temporary })
  | .error e => (.error e, s)

/-- A change that cannot be written leaves the session as it was. -/
theorem change_of_error {s : Session} {c : SchemaChange}
    {e : RenderError} (h : s.target.planChange c = .error e) :
    s.change c = (.error e, s) := by
  simp [change, h]

/-- What a change is written as does not hang on the session's
temporary tables. -/
theorem change_fst (s : Session) (c : SchemaChange) :
    (s.change c).1 = s.target.planChange c := by
  unfold change
  split <;> simp_all

/-- No change touches the target. -/
theorem change_target (s : Session) (c : SchemaChange) :
    (s.change c).2.target = s.target := by
  unfold change
  split <;> rfl

end Session

end SchemaEvolution
