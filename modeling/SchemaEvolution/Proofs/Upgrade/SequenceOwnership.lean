import SchemaEvolution.Proofs.Text.Digits
import SchemaEvolution.Proofs.Upgrade.Sequences

/-!
# `SchemaEvolution.Proofs.Upgrade.SequenceOwnership`: whose sequences are dropped

An edit drops the sequences of what it takes away, and NuoDB drops a
sequence before it creates one of that name. Whether this takes a
sequence away from somebody else hangs on the names. NuoDB calls a
sequence by its table and the first number, so that tables never meet but
columns of one table do. Standard SQL calls it by its table and its
column, one behind the other, so that two tables can meet.

* `Target.mem_planChange_nuoDb_iff`, `Target.mem_planChange_ansi_iff`:
  which sequences a change drops.
* `NuoDb.sequenceName_inj`: the name of a sequence of NuoDB tells its
  table and its first number.
* `Target.dropped_sequences_iff`: which edits drop the sequence of another
  column.
* `clerks_sequence_lost`: two columns of one table, and two tables, that
  share a sequence.
-/

set_option autoImplicit false

namespace SchemaEvolution

open SchemaEvolution.Text

/-! ### Names of sequences -/

/-- The last place where an element stands splits a list in one way. -/
theorem append_cons_inj_of_notMem {α : Type} {x : α}
    {xs xs' ys ys' : List α} (hys : x ∉ ys) (hys' : x ∉ ys')
    (h : xs ++ x :: ys = xs' ++ x :: ys') : xs = xs' ∧ ys = ys' := by
  -- If one of the two parts in front goes on behind the other, the element
  -- stands behind that one once more.
  rcases List.append_eq_append_iff.mp h with ⟨zs, rfl, hzs⟩ | ⟨zs, rfl, hzs⟩
  · cases zs with
    | nil => simpa using hzs
    | cons z zs =>
        obtain ⟨-, rfl⟩ := List.cons.inj hzs
        exact absurd (by simp) hys
  · cases zs with
    | nil => simpa [eq_comm] using hzs
    | cons z zs =>
        obtain ⟨-, rfl⟩ := List.cons.inj hzs
        exact absurd (by simp) hys'

theorem toList_toString_ofNat (n : Nat) :
    (toString (Int.ofNat n)).toList = Nat.toDigits 10 n := by
  show (toString n).toList = _
  rw [Nat.toString_eq_ofList_toDigits, String.toList_ofList]

theorem toList_toString_negSucc (n : Nat) :
    (toString (Int.negSucc n)).toList = '-' :: Nat.toDigits 10 (n + 1) := by
  show ("-" ++ toString (n + 1)).toList = _
  rw [String.toList_append]
  exact congrArg ('-' :: ·) (toList_toString_ofNat (n + 1))

/-- A number is written without an underscore. -/
theorem notMem_toString_int (i : Int) : '_' ∉ (toString i).toList := by
  have hdigits : ∀ n, '_' ∉ Nat.toDigits 10 n := fun n hmem =>
    absurd (isDigit_of_mem_toDigits hmem) (by decide)
  cases i with
  | ofNat n =>
      rw [toList_toString_ofNat]
      exact hdigits n
  | negSucc n =>
      rw [toList_toString_negSucc, List.mem_cons]
      rintro (h | h)
      · exact absurd h (by decide)
      · exact hdigits (n + 1) h

/-- Numbers that are written alike are the same. -/
theorem toString_int_inj {i j : Int} (h : toString i = toString j) :
    i = j := by
  have hdigits : ∀ {m n : Nat}, Nat.toDigits 10 m = Nat.toDigits 10 n →
      m = n := fun {m n} h => by
    rw [← digitsValue_toDigits m, h, digitsValue_toDigits]
  -- A sign is no digit, so that the signs are the same as well.
  have hsign : ∀ {m n : Nat}, Nat.toDigits 10 m ≠ '-' :: Nat.toDigits 10 n :=
    fun {m n} h => absurd
      (isDigit_of_mem_toDigits (h ▸ List.mem_cons_self)) (by decide)
  have hlist := congrArg String.toList h
  cases i with
  | ofNat m =>
      rw [toList_toString_ofNat] at hlist
      cases j with
      | ofNat n =>
          rw [toList_toString_ofNat] at hlist
          exact congrArg Int.ofNat (hdigits hlist)
      | negSucc n =>
          rw [toList_toString_negSucc] at hlist
          exact absurd hlist hsign
  | negSucc m =>
      rw [toList_toString_negSucc] at hlist
      cases j with
      | ofNat n =>
          rw [toList_toString_ofNat] at hlist
          exact absurd hlist.symm hsign
      | negSucc n =>
          rw [toList_toString_negSucc] at hlist
          have hnext := hdigits (List.cons.inj hlist).2
          exact congrArg Int.negSucc (Nat.succ.inj hnext)

namespace NuoDb

/-- The name of a sequence tells its table and its first number, whatever
underscores there are in the name of the table. -/
theorem sequenceName_inj {a b : Table} {c d : Column} :
    Dialect.nuoDb.sequenceName a c = Dialect.nuoDb.sequenceName b d ↔
      a.name = b.name ∧ c.firstNumber = d.firstNumber := by
  constructor
  · intro h
    have hlist := congrArg String.toList h
    simp only [Dialect.nuoDb, String.toList_append] at hlist
    have hmark : "_IDS_".toList = "_IDS".toList ++ ['_'] := by decide
    simp only [hmark, List.append_assoc, List.singleton_append] at hlist
    simp only [← List.append_assoc] at hlist
    obtain ⟨hname, hfirst⟩ := append_cons_inj_of_notMem
      (notMem_toString_int _) (notMem_toString_int _) hlist
    have hnumber := toString_int_inj (String.toList_inj.mp hfirst)
    exact ⟨String.toList_inj.mp (List.append_cancel_right hname),
      Int64.toInt_inj.mp hnumber⟩
  · rintro ⟨htable, hfirst⟩
    simp only [Dialect.nuoDb, htable, hfirst]

end NuoDb

/-- In standard SQL the names of the table and the column are run
together. -/
theorem Ansi.sequenceName_eq_iff {a b : Table} {c d : Column} :
    Dialect.ansi.sequenceName a c = Dialect.ansi.sequenceName b d ↔
      a.name ++ "_" ++ c.name = b.name ++ "_" ++ d.name := by
  simp only [Dialect.ansi, ← String.toList_inj, String.toList_append,
    List.append_cancel_right_eq]

/-! ### Sequences that are dropped -/

/-- A sequence is dropped when one of the statements drops it. -/
theorem dropped_mem_sequenceEvents_iff {ds : List Ddl} {q : ObjectName} :
    .dropped q ∈ sequenceEvents ds ↔ .dropSequence q ∈ ds := by
  rw [sequenceEvents, List.mem_filterMap]
  constructor
  · rintro ⟨d, hd, hevent⟩
    cases d with
    | dropSequence sequence =>
        cases hevent
        exact hd
    | createSequence sequence start => cases hevent
    | _ => cases hevent
  · exact fun h => ⟨_, h, rfl⟩

namespace SchemaChange

/-- The table of an edit of one column, as it is afterwards. -/
def columnTable? : SchemaChange → Option Table
  | .addColumn table _ | .changeColumn table _ _ | .removeColumn table _ =>
      some table
  | _ => none

/-- The columns that come or go with an edit of one column. A column that
starts or stops numbering itself goes, and comes anew. -/
def movedColumns : SchemaChange → List Column
  | .addColumn _ c | .removeColumn _ c => [c]
  | .changeColumn _ source target =>
      if source.autoNumbered = target.autoNumbered then []
      else [source, target]
  | _ => []

/-- The sequences that an edit of a column drops and creates are those of
the columns that come or go. -/
theorem mem_released_or_claimed_iff {t : Target} {change : SchemaChange}
    {table : Table} (edited : change.columnTable? = some table)
    {q : ObjectName} :
    q ∈ change.released t ∨ q ∈ change.claimed t ↔
      q ∈ t.sequencesFor table change.movedColumns := by
  cases change with
  | addColumn table' c =>
      cases edited
      simp [released, claimed, movedColumns]
  | removeColumn table' c =>
      cases edited
      simp [released, claimed, movedColumns]
  | changeColumn table' source target =>
      cases edited
      simp only [released, claimed, movedColumns]
      split
      · simp [Target.sequencesFor]
      · rw [← List.mem_append, ← Target.sequencesFor_append]
        rfl
  | addTable _ | removeTable _ | renameTable _ _ | addIndex _ _
  | removeIndex _ _ | renameIndex _ _ _ | changePrimaryKey _ _ _
  | removeView _ => cases edited

end SchemaChange

/-- The tables that are left when one is removed have other names. -/
theorem Snapshot.WellFormed.not_sameName_of_removeTable
    {s next : Snapshot} (wf : s.WellFormed) {name : String} {a : Table}
    (found : s.table? name = some a) {change : SchemaChange}
    (accepted : s.apply (.removeTable name) = .ok (change, next))
    {b : Table} (hb : b ∈ next.tables) : ¬ SameName b.name a.name := by
  obtain ⟨before, -, -, rfl⟩ := Snapshot.apply_removeTable.mp accepted
  obtain ⟨ha, front, back, hsplit, hfront, -⟩ :=
    Snapshot.tables_eq_append_of_table? found
  have hb' : b ∈ s.tables.eraseP fun u => SameName u.name name := hb
  rw [Snapshot.eraseP_tables hsplit hfront ha, List.mem_append] at hb'
  have hdistinct := wf.distinct
  rw [hsplit] at hdistinct
  exact hdistinct.not_sameName hb'

namespace Target

variable {t : Target}

theorem mem_sequencesFor_iff {table : Table} {columns : List Column}
    {q : ObjectName} :
    q ∈ t.sequencesFor table columns ↔
      ∃ c ∈ columns, c.autoNumbered = true ∧ t.sequence table c = q := by
  simp [sequencesFor, and_assoc]

/-- Sequences lie in one place, so that their names tell them apart. -/
theorem sequence_eq_iff {a b : Table} {c d : Column} :
    t.sequence a c = t.sequence b d ↔
      t.dialect.sequenceName a c = t.dialect.sequenceName b d := by
  simp [sequence]

/-- NuoDB drops the sequences of what goes, and makes way for those of
what comes. -/
theorem mem_planChange_nuoDb_iff (nuoDb : t.dialect = .nuoDb)
    {change : SchemaChange} {ds : List Ddl}
    (written : t.planChange change = .ok ds) {q : ObjectName} :
    .dropSequence q ∈ ds ↔
      q ∈ change.released t ∨ q ∈ change.claimed t := by
  have rules : t.dialect.SequenceRules fun q => [.dropped q, .created q] :=
    nuoDb ▸ Dialect.sequenceRules_nuoDb
  rw [← dropped_mem_sequenceEvents_iff,
    events_planChange_of_rules rules written]
  simp

/-- Standard SQL drops the sequences of what goes. -/
theorem mem_planChange_ansi_iff (ansi : t.dialect = .ansi)
    {change : SchemaChange} {ds : List Ddl}
    (written : t.planChange change = .ok ds) {q : ObjectName} :
    .dropSequence q ∈ ds ↔ q ∈ change.released t := by
  rw [← dropped_mem_sequenceEvents_iff, events_planChange ansi written]
  simp

/-- Removing a table drops the sequences of its columns, under the names
that the table gives them. -/
theorem mem_planChange_removeTable_iff
    (dialect : t.dialect = .ansi ∨ t.dialect = .nuoDb) {a : Table}
    {ds : List Ddl} (written : t.planChange (.removeTable a) = .ok ds)
    {q : ObjectName} : .dropSequence q ∈ ds ↔ q ∈ t.sequencesOf a := by
  rcases dialect with ansi | nuoDb
  · exact mem_planChange_ansi_iff ansi written
  · rw [mem_planChange_nuoDb_iff nuoDb written]
    simp [SchemaChange.released, SchemaChange.claimed]

/-- Which edits drop the sequence of another column. In NuoDB an edit of a
column drops that of every column of the table that has the first number
of an autonumbered column that comes or goes, and the removal of a table
drops none of another table. In standard SQL it drops that of a column of
another table if the names run together to the same text. -/
theorem dropped_sequences_iff {s next : Snapshot} (wf : s.WellFormed)
    {edit : SchemaEdit} {change : SchemaChange}
    (accepted : s.apply edit = .ok (change, next)) {ds : List Ddl}
    (written : t.planChange change = .ok ds) :
    (t.dialect = .nuoDb → ∀ table ∈ change.columnTable?, ∀ d : Column,
      .dropSequence (t.sequence table d) ∈ ds ↔
        ∃ c ∈ change.movedColumns, c.autoNumbered = true ∧
          c.firstNumber = d.firstNumber) ∧
    ∀ name a, edit = .removeTable name → s.table? name = some a →
      ∀ b ∈ next.tables, ∀ d : Column,
        (t.dialect = .nuoDb → .dropSequence (t.sequence b d) ∉ ds) ∧
        (t.dialect = .ansi → (.dropSequence (t.sequence b d) ∈ ds ↔
          ∃ c ∈ a.columns, c.autoNumbered = true ∧
            a.name ++ "_" ++ c.name = b.name ++ "_" ++ d.name)) := by
  refine ⟨fun nuoDb table edited d => ?_, ?_⟩
  · rw [mem_planChange_nuoDb_iff nuoDb written,
      SchemaChange.mem_released_or_claimed_iff edited, mem_sequencesFor_iff]
    simp only [sequence_eq_iff, nuoDb, NuoDb.sequenceName_inj, true_and]
  · rintro name a rfl found b hb d
    have hother := wf.not_sameName_of_removeTable found accepted hb
    obtain ⟨a', found', rfl, -⟩ := Snapshot.apply_removeTable.mp accepted
    obtain rfl := Option.some.inj (found.symm.trans found')
    refine ⟨fun nuoDb dropped => ?_, fun ansi => ?_⟩
    · -- The name of the sequence tells the table, and no other table that
      -- is left has the name of the one that goes.
      have hq := (mem_planChange_removeTable_iff (.inr nuoDb) written).mp
        dropped
      obtain ⟨c, -, -, hsame⟩ := mem_sequencesFor_iff.mp hq
      rw [sequence_eq_iff, nuoDb, NuoDb.sequenceName_inj] at hsame
      exact hother (hsame.1 ▸ SameName.refl _)
    · rw [mem_planChange_removeTable_iff (.inl ansi) written, sequencesOf,
        mem_sequencesFor_iff]
      simp only [sequence_eq_iff, ansi, Ansi.sequenceName_eq_iff]

end Target

/-! ### Columns that share a sequence -/

/-- An autonumbered column that starts at 500. -/
def clerkId : Column where
  name := "Clerk"
  type := .bigInteger
  autoNumbered := true
  seriesStart := 500

/-- Where columns start at different numbers, one of them can go without
the sequence of the other. -/
theorem ledger_sequence_kept :
    let t : Target := { dialect := .nuoDb }
    let after : Table := { name := "Ledger", columns := [accountId] }
    ∃ ds, t.planChange (.removeColumn after clerkId) = .ok ds ∧
      .dropSequence (t.sequence after clerkId) ∈ ds ∧
      .dropSequence (t.sequence after accountId) ∉ ds := by
  intro t after
  let s : Snapshot :=
    { tables := [{ name := "Ledger", columns := [accountId, clerkId] }] }
  have wf : s.WellFormed := Snapshot.validate_eq_ok_iff.mp
    (toOption_eq_some_iff.mp (by decide +kernel))
  have accepted : s.apply (.removeColumn "Ledger" "Clerk") =
      .ok (.removeColumn after clerkId, s.withTable "Ledger" after) :=
    Snapshot.apply_removeColumn.mpr ⟨_, rfl, clerkId, rfl,
      toOption_eq_some_iff.mp (by decide +kernel), rfl, rfl⟩
  have written : t.planChange (.removeColumn after clerkId) =
      .ok [.dropColumn ⟨"", "Ledger"⟩ "Clerk",
        .dropSequence ⟨"", "Ledger_IDS_500"⟩] :=
    toOption_eq_some_iff.mp (by decide +kernel)
  obtain ⟨columns, -⟩ := Target.dropped_sequences_iff wf accepted written
  have hcolumns := columns rfl after rfl
  refine ⟨_, written, (hcolumns clerkId).mpr ?_,
    fun dropped => absurd ((hcolumns accountId).mp dropped) ?_⟩
  all_goals decide +kernel

/-- When one of two columns with the same first number is removed, NuoDB
drops the sequence of the other, which the table still has. Standard SQL
drops a sequence of another table when the names of the tables and the
columns run together. -/
theorem clerks_sequence_lost :
    (let t : Target := { dialect := .nuoDb }
     let clerk : Column := { accountId with name := "Clerk" }
     let s : Snapshot :=
       { tables := [{ name := "Account", columns := [accountId, clerk] }] }
     let after : Table := { name := "Account", columns := [accountId] }
     s.validate.toOption = some () ∧
       (s.apply (.removeColumn "Account" "Clerk")).toOption.map (fun p =>
           (p.2.tables.map Table.columns, (t.planChange p.1).toOption)) =
         some ([after.columns], some [.dropColumn ⟨"", "Account"⟩ "Clerk",
           .dropSequence (t.sequence after accountId)])) ∧
    (let t : Target := { dialect := .ansi }
     let c : Column := { accountId with name := "C" }
     let d : Column := { accountId with name := "B_C" }
     let a : Table := { name := "A_B", columns := [c] }
     let b : Table := { name := "A", columns := [d] }
     let s : Snapshot := { tables := [a, b] }
     s.validate.toOption = some () ∧
       (s.apply (.removeTable "A_B")).toOption.map (fun p =>
           (p.2.tables.map Table.name, (t.planChange p.1).toOption)) =
         some (["A"], some [.dropSequence (t.sequence b d),
           .dropTable ⟨"", "A_B"⟩])) := by
  decide +kernel

end SchemaEvolution
