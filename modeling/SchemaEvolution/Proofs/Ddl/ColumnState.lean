import Mathlib.Data.List.Basic
import SchemaEvolution.Ddl.ColumnPlan
import SchemaEvolution.Dialect.NuoDb
import SchemaEvolution.Proofs.Support.Outcome

/-!
# `SchemaEvolution.Proofs.Ddl.ColumnState`: the default of a column that changes

The statements that change the default and the nullability of a column are
run here on a column in the database, of which no more is known than these
two. Some of the statements change both at once, and NuoDB passes through
defaults and nullabilities that nobody asked for. The lemmas here show that
the column always ends as it was to be.

* `ColumnAlteration.ofText?_text`: an alteration is read back from its
  words, so that statements can be run as they are written.
* `Target.defaultSql_eq_none_iff`: a default is written when there is one.
* `Dialect.reaches_ansi`, `Dialect.reaches_nuoDb`: what the dialects do
  about defaults and nullability ends where it should.
* `Target.column_state_follows`: so do the statements, and there are none
  when there is nothing to do.
-/

set_option autoImplicit false

namespace SchemaEvolution

/-! ### Reading an alteration -/

/-- What follows the words that a statement begins with. -/
def behind? (words statement : String) : Option String :=
  (statement.toList.dropPrefix? words.toList).map String.ofList

theorem behind?_append (words rest : String) :
    behind? words (words ++ rest) = some rest := by
  rw [behind?, String.toList_append,
    List.dropPrefix?_append_of_beq _ (beq_self_eq_true _)]
  simp

namespace ColumnAlteration

/-- Reads the words of an alteration. -/
def ofText? (s : String) : Option ColumnAlteration :=
  match behind? "SET DEFAULT " s with
  | some value => some (.setDefault value)
  | none =>
      match behind? "NOT NULL DEFAULT " s with
      | some value => some (.notNullDefault value)
      | none =>
          [.dropDefault, .setNotNull, .dropNotNull, .notNull, .null].find?
            fun a => text a == s

/-- An alteration is read back from its words. -/
theorem ofText?_text (a : ColumnAlteration) : ofText? a.text = some a := by
  cases a with
  | setDefault value =>
      have hread : behind? "SET DEFAULT " ("SET DEFAULT " ++ value) =
          some value := behind?_append _ value
      show ofText? ("SET DEFAULT " ++ value) = _
      rw [ofText?, hread]
  | notNullDefault value =>
      have hother : behind? "SET DEFAULT " ("NOT NULL DEFAULT " ++ value) =
          none := by
        rw [behind?, String.toList_append]
        rfl
      have hread : behind? "NOT NULL DEFAULT "
          ("NOT NULL DEFAULT " ++ value) = some value :=
        behind?_append _ value
      show ofText? ("NOT NULL DEFAULT " ++ value) = _
      simp only [ofText?, hother, hread]
  | dropDefault | setNotNull | dropNotNull | notNull | null =>
      decide +kernel

end ColumnAlteration

/-! ### A column in the database -/

/-- What is known of a column in the database: whether it may be null, and
its default. -/
structure ColumnState where
  nullable : Bool
  default? : Option String
deriving DecidableEq

/-- What is to be known of a column once it is there. -/
def Column.state (c : Column) : ColumnState := ⟨c.nullable, c.default?⟩

namespace ColumnState

/-- What an alteration makes of a column. The clause `DEFAULT v` gives it the
default `installed v`. -/
def alter (installed : String → String) (s : ColumnState) :
    ColumnAlteration → ColumnState
  | .setDefault v => { s with default? := some (installed v) }
  | .dropDefault => { s with default? := none }
  | .setNotNull | .notNull => { s with nullable := false }
  | .dropNotNull | .null => { s with nullable := true }
  | .notNullDefault v => ⟨false, some (installed v)⟩

/-- What statements make of a column, one after the other. Each of them has
to begin with the words `place`, and to go on with an alteration. -/
def run (installed : String → String) (place : String) (s : ColumnState)
    (statements : List String) : Option ColumnState :=
  statements.foldlM (fun s statement => do
    let alteration ← (behind? place statement).bind ColumnAlteration.ofText?
    return s.alter installed alteration) s

/-- Alterations that are written behind the place they are for are made one
after the other. -/
theorem run_texts (installed : String → String) (place : String)
    (s : ColumnState) (as : List ColumnAlteration) :
    run installed place s (as.map fun a => place ++ a.text) =
      some (as.foldl (alter installed) s) := by
  induction as generalizing s with
  | nil => rfl
  | cons a rest ih =>
      have hread : (behind? place (place ++ a.text)).bind
          ColumnAlteration.ofText? = some a := by
        rw [behind?_append]
        exact a.ofText?_text
      rw [List.map_cons, run, List.foldlM_cons, hread]
      exact ih _

end ColumnState

/-! ### What the dialects write -/

/-- The alterations that the dialect makes end where they should: whatever
is written for the default, if the clause with it installs the default that
the column is to have, the column ends as it is to be. There are none when
it is that already. -/
structure Dialect.Reaches (d : Dialect) : Prop where
  ends : ∀ {installed : String → String} {source target : Column}
    {default? : Except RenderError (Option String)}
    {as : List ColumnAlteration},
    (∀ value?, default? = .ok value? →
      value?.map installed = target.default?) →
    d.alterations source target default? = .ok as →
    as.foldl (ColumnState.alter installed) source.state = target.state
  rests : ∀ {source target : Column}
    {default? : Except RenderError (Option String)}
    {as : List ColumnAlteration}, source.state = target.state →
    d.alterations source target default? = .ok as → as = []

/-- What standard SQL makes of a default, and then of the nullability. -/
theorem Ansi.alterations_eq_ok {source target : Column}
    {default? : Except RenderError (Option String)}
    {as : List ColumnAlteration}
    (h : Ansi.alterations source target default? = .ok as) :
    ∃ ofDefault,
      (source.default? = target.default? ∧ ofDefault = [] ∨
        source.default? ≠ target.default? ∧
          (∃ value, default? = .ok (some value) ∧
            ofDefault = [ColumnAlteration.setDefault value]) ∨
        source.default? ≠ target.default? ∧ default? = .ok none ∧
          ofDefault = [ColumnAlteration.dropDefault]) ∧
      as = ofDefault ++
        if source.nullable = target.nullable then []
        else if target.nullable then [.dropNotNull] else [.setNotNull] := by
  -- The default is compared as it is declared. Its text is only asked for
  -- where it changes.
  unfold Ansi.alterations at h
  by_cases hsame : source.default? = target.default?
  · rw [if_pos hsame] at h
    cases h
    exact ⟨[], .inl ⟨hsame, rfl⟩, rfl⟩
  · rw [if_neg hsame] at h
    obtain ⟨value?, hvalue, h⟩ := bind_eq_ok_iff.mp h
    cases value? with
    | some value =>
        cases h
        exact ⟨_, .inr (.inl ⟨hsame, value, hvalue, rfl⟩), rfl⟩
    | none =>
        cases h
        exact ⟨_, .inr (.inr ⟨hsame, hvalue, rfl⟩), rfl⟩

/-- Standard SQL sets the default and the nullability one after the
other. -/
theorem Dialect.reaches_ansi : Dialect.ansi.Reaches where
  ends := by
    intro installed source target default? as clause h
    obtain ⟨ofDefault, hdefault, rfl⟩ := Ansi.alterations_eq_ok h
    -- The alterations of the default come first and do not touch the flag.
    have hfirst : ofDefault.foldl (ColumnState.alter installed) source.state =
        ⟨source.nullable, target.default?⟩ := by
      rcases hdefault with
        ⟨hsame, rfl⟩ | ⟨-, value, hvalue, rfl⟩ | ⟨-, hvalue, rfl⟩
      · rw [← hsame]
        rfl
      · rw [← clause _ hvalue]
        rfl
      · rw [← clause _ hvalue]
        rfl
    rw [List.foldl_append, hfirst, Column.state]
    -- Then the flag is altered exactly where it differs.
    cases source.nullable <;> cases target.nullable <;> rfl
  rests := by
    intro source target default? as hstate h
    obtain ⟨hnull, hsame⟩ := ColumnState.mk.inj hstate
    obtain ⟨ofDefault, hdefault, rfl⟩ := Ansi.alterations_eq_ok h
    rcases hdefault with ⟨-, rfl⟩ | ⟨hchanges, -⟩ | ⟨hchanges, -⟩
    · rw [if_pos hnull]
      rfl
    · exact absurd hsame hchanges
    · exact absurd hsame hchanges

/-- NuoDB sets both at once, where it sets a default, and takes back what
was not asked for. -/
theorem Dialect.reaches_nuoDb : Dialect.nuoDb.Reaches where
  ends := by
    intro installed source target default? as clause h
    obtain ⟨value?, hvalue, h⟩ := bind_eq_ok_iff.mp h
    have hinstalled := clause value? hvalue
    cases value? with
    | some value =>
        dsimp only at h
        split at h
        · cases h
          rw [Column.state, Column.state, ← hinstalled]
          cases target.nullable <;> rfl
        · -- The default is there already, and the column is not to lose its
          -- nullability.
          rename_i hkeeps
          obtain ⟨hsame, hnull⟩ : source.default? = target.default? ∧
              (source.nullable ≠ target.nullable →
                target.nullable = true) := by
            simpa [not_or] using hkeeps
          split at h
          · rename_i hchanges
            cases h
            simp [Column.state, ColumnState.alter, hsame, hnull hchanges]
          · rename_i hstays
            cases h
            simp [Column.state, hsame, not_not.mp hstays]
    | none =>
        have hnone : target.default? = none := hinstalled.symm
        dsimp only at h
        split at h
        · cases h
          rw [Column.state, Column.state, hnone]
          cases target.nullable <;> rfl
        · rename_i hsame
          have hsame : source.default? = none := by
            simpa [hnone] using hsame
          rw [Column.state, Column.state, hnone, hsame]
          -- The temporary default is dropped again.
          split at h
          · cases h
            cases target.nullable <;> rfl
          · rename_i hstays
            cases h
            rw [not_not.mp hstays]
            rfl
  rests := by
    intro source target default? as hstate h
    obtain ⟨hnull, hsame⟩ := ColumnState.mk.inj hstate
    obtain ⟨value?, hvalue, h⟩ := bind_eq_ok_iff.mp h
    cases value? with
    | some value | none =>
        simp only [hnull, hsame, ne_eq, not_true_eq_false, false_and,
          or_self, if_false] at h
        cases h
        rfl

/-! ### The statements for a column -/

/-- A default that there is cannot be passed over: it is some constant, or
an error. -/
theorem defaultLiteral_ne_none {table : Table} {c : Column} {text : String}
    (h : c.default? = some text) : defaultLiteral table c ≠ .ok none := by
  intro hnone
  simp only [defaultLiteral, h] at hnone
  cases htype : c.type with
  | string | clob | blob | null => simp [htype] at hnone
  | date =>
      simp only [htype] at hnone
      split at hnone <;> cases hnone
  | integer | bigInteger | decimal | boolean =>
      simp only [htype] at hnone
      split at hnone <;> cases hnone

namespace Target

variable {t : Target}

/-- A default is written when there is one. -/
theorem defaultSql_eq_none_iff {table : Table} {c : Column}
    {value? : Option String} (h : t.defaultSql table c = .ok value?) :
    value? = none ↔ c.default? = none := by
  obtain ⟨literal?, hliteral, h⟩ := bind_eq_ok_iff.mp h
  cases hdefault : c.default? with
  | none =>
      rw [defaultLiteral_of_none hdefault] at hliteral
      cases hliteral
      cases h
      exact iff_of_true rfl rfl
  | some text =>
      cases literal? with
      | none => exact absurd hliteral (defaultLiteral_ne_none hdefault)
      | some literal =>
          obtain ⟨value, -, h⟩ := bind_eq_ok_iff.mp h
          cases h
          simp

/-- What is written before the alteration of a column. -/
def alterationPrefix (t : Target) (table : Table) (column : String) :
    String :=
  "ALTER TABLE " ++ (t.tableName table).text ++ " ALTER COLUMN " ++
    column ++ " "

/-- The statements that change the default and the nullability of a column
are run one after the other, as they are written, on a column that is as it
was declared before. It ends as it is declared now, if the clause with the
new default installs that default. No other default is left behind,
whatever its clause would install. There are no statements when the column
is declared with the nullability and the default that it had. -/
theorem column_state_follows (dialect : t.dialect = .ansi ∨ t.dialect = .nuoDb)
    {table : Table} {source target : Column} {statements : List Ddl}
    (written : t.alterNullability table source target = .ok statements)
    {installed : String → String}
    (clause : ∀ value text, t.defaultSql table target = .ok (some value) →
      target.default? = some text → installed value = text) :
    ColumnState.run installed (t.alterationPrefix table target.name)
        source.state (t.texts statements) = some target.state ∧
      (statements = [] ↔ source.nullable = target.nullable ∧
        source.default? = target.default?) := by
  -- Each dialect reaches the state with alterations of its own. From here on
  -- they are one.
  have reaches : t.dialect.Reaches := by
    rcases dialect with h | h
    · rw [h]
      exact Dialect.reaches_ansi
    · rw [h]
      exact Dialect.reaches_nuoDb
  obtain ⟨as, haltered, h⟩ := bind_eq_ok_iff.mp written
  obtain rfl : as.map (.alterColumn (t.tableName table) target.name) =
      statements := Except.ok.inj h
  -- What stands for a default in the database is told by the clause that
  -- installed it.
  have hclause : ∀ value?, t.defaultSql table target = .ok value? →
      value?.map installed = target.default? := by
    intro value? hvalue
    have hnone := defaultSql_eq_none_iff hvalue
    cases hdefault : target.default? with
    | none =>
        rw [hnone.mpr hdefault]
        rfl
    | some text =>
        obtain ⟨value, rfl⟩ := Option.ne_none_iff_exists'.mp
          (mt hnone.mp (by simp [hdefault]))
        rw [Option.map_some, clause value text hvalue hdefault]
  have hends := reaches.ends hclause haltered
  have htext : ∀ a : ColumnAlteration,
      t.text (.alterColumn (t.tableName table) target.name a) =
        t.alterationPrefix table target.name ++ a.text := fun _ => rfl
  have htexts : t.texts (as.map (.alterColumn (t.tableName table)
      target.name)) = as.map fun a =>
        t.alterationPrefix table target.name ++ a.text := by
    rw [texts, List.map_map]
    exact List.map_congr_left fun a _ => htext a
  refine ⟨?_, ?_⟩
  · rw [htexts, ColumnState.run_texts]
    exact congrArg some hends
  · rw [List.map_eq_nil_iff]
    constructor
    · -- Without statements the column is as it was, and as it is to be.
      rintro rfl
      exact ColumnState.mk.inj hends
    · rintro ⟨hnull, hdefault⟩
      refine reaches.rests ?_ haltered
      rw [Column.state, Column.state, hnull, hdefault]

end Target

/-- A number that may be missing, and whose default is blank. -/
def rebate : Column where
  name := "Rebate"
  type := .integer
  nullable := true
  defaultText := some "  "

/-- A column that becomes mandatory is given a default and loses it again,
or is given the one that it is to have, which is written without its
zeros. -/
theorem rebate_state_follows :
    let place := "ALTER TABLE SHOP.Offer ALTER COLUMN Rebate "
    let installed := fun v => if v = "7" then "007" else v
    ColumnState.run installed place ⟨true, none⟩
        [place ++ "NOT NULL DEFAULT 0", place ++ "DROP DEFAULT"] =
      some ⟨false, none⟩ ∧
    ColumnState.run installed place ⟨true, none⟩
        [place ++ "NOT NULL DEFAULT 7"] = some ⟨false, some "007"⟩ := by
  intro place installed
  let t : Target := { dialect := .nuoDb, config := { schemaName := "Shop" } }
  let offer : Table := { name := "Offer", columns := [rebate] }
  -- The column that must not be null any more, once without a default and
  -- once with one.
  let bare : Column := { rebate with nullable := false, defaultText := none }
  let seven : Column := { rebate with
    nullable := false, defaultText := some "007" }
  let column := Ddl.alterColumn ⟨"SHOP.", "Offer"⟩ "Rebate"
  have hbare : t.alterNullability offer rebate bare =
      .ok [column (.notNullDefault "0"), column .dropDefault] :=
    toOption_eq_some_iff.mp (by decide +kernel)
  have hseven : t.alterNullability offer rebate seven =
      .ok [column (.notNullDefault "7")] :=
    toOption_eq_some_iff.mp (by decide +kernel)
  have hvalue : t.defaultSql offer seven = .ok (some "7") :=
    toOption_eq_some_iff.mp (by decide +kernel)
  -- A column without a default asks nothing of what is installed.
  have noClause : ∀ value text, t.defaultSql offer bare = .ok (some value) →
      bare.default? = some text → installed value = text := by
    intro value text _ hdefault
    cases hdefault
  have clause : ∀ value text, t.defaultSql offer seven = .ok (some value) →
      seven.default? = some text → installed value = text := by
    intro value text hwritten hdefault
    obtain rfl : "7" = value :=
      Option.some.inj (Except.ok.inj (hvalue.symm.trans hwritten))
    exact Option.some.inj hdefault
  have hstate : rebate.state = ⟨true, none⟩ ∧ bare.state = ⟨false, none⟩ ∧
      seven.state = ⟨false, some "007"⟩ := by decide +kernel
  have hplace : t.alterationPrefix offer "Rebate" = place := by
    decide +kernel
  have htexts :
      t.texts [column (.notNullDefault "0"), column .dropDefault] =
          [place ++ "NOT NULL DEFAULT 0", place ++ "DROP DEFAULT"] ∧
        t.texts [column (.notNullDefault "7")] =
          [place ++ "NOT NULL DEFAULT 7"] := by decide +kernel
  have hrun : ColumnState.run _ (t.alterationPrefix offer "Rebate") _ _ = _ :=
    (Target.column_state_follows (.inr rfl) hbare noClause).1
  have hrun' : ColumnState.run _ (t.alterationPrefix offer "Rebate") _ _ = _ :=
    (Target.column_state_follows (.inr rfl) hseven clause).1
  rw [hplace, htexts.1, hstate.1, hstate.2.1] at hrun
  rw [hplace, htexts.2, hstate.1, hstate.2.2] at hrun'
  exact ⟨hrun, hrun'⟩

end SchemaEvolution
