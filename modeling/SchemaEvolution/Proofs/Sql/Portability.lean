import Mathlib.Logic.Basic
import SchemaEvolution.Dialect.NuoDb
import SchemaEvolution.Proofs.Support.Outcome
import SchemaEvolution.Session.StatementText

/-!
# `SchemaEvolution.Proofs.Sql.Portability`: from one dialect to the other

NuoDB words most of a statement otherwise than standard SQL, and a merge
is another statement altogether. What can be written hardly differs. A
part of a statement is written from its own parts in both dialects, so
whether it can be written is settled by literals, calls and types, and by
names that no dialect has a say in. `Dialect.Carries` asks for those
three, and everything built from them follows by recursion.

Merges are the exception. NuoDB matches rows by the table's own index: it
has no use for a key and cannot keep hints, where standard SQL leaves
hints out and needs a name for every part of the key.

* `Carries.exprText`, `Carries.criterionText`, `Carries.selectText`: what
  one dialect can write, another can that carries its parts.
* `ansi_carries_nuoDb`, `nuoDb_carries_ansi`: NuoDB carries standard SQL,
  and the other way round all is carried but random strings.
* `Session.portable`: which statements can be written in one dialect and
  not in the other.
-/

set_option autoImplicit false

namespace SchemaEvolution

/-! ### Steps that follow one another -/

section Outcomes

variable {ε α β γ δ : Type}

/-- The second outcome is a success whenever the first one is. -/
def Follows (x : Except ε α) (y : Except ε β) : Prop := x.isOk → y.isOk

namespace Follows

variable {x : Except ε α} {y : Except ε β} {f : α → Except ε γ}
  {g : β → Except ε δ}

/-- Every outcome follows itself. -/
theorem refl (x : Except ε α) : Follows x x := id

/-- A success follows everything. -/
theorem of_ok (x : Except ε α) (b : β) : Follows x (.ok b : Except ε β) :=
  fun _ => rfl

/-- Everything follows a failure. -/
theorem of_error (e : ε) (y : Except ε β) :
    Follows (.error e : Except ε α) y :=
  fun hok => absurd hok Bool.false_ne_true

/-- Chains follow one another if their steps do. -/
theorem bind (h : Follows x y) (hf : ∀ a b, Follows (f a) (g b)) :
    Follows (x >>= f) (y >>= g) := by
  cases x with
  | error e => exact of_error e _
  | ok a =>
      obtain ⟨b, rfl⟩ := isOk_iff.1 (h rfl)
      exact hf a b

/-- Steps for the elements of a list follow others if each of them does. -/
theorem mapM {ι : Type} {step : ι → Except ε α} {next : ι → Except ε β}
    {parts : List ι} (h : ∀ a ∈ parts, Follows (step a) (next a)) :
    Follows (parts.mapM step) (parts.mapM next) := by
  induction parts with
  | nil => exact of_ok _ _
  | cons a rest ih =>
      obtain ⟨ha, hrest⟩ := List.forall_mem_cons.1 h
      rw [List.mapM_cons, List.mapM_cons]
      exact bind ha fun _ _ => bind (ih hrest) fun _ _ => of_ok _ _

/-- The first step of a chain that succeeds is a success. -/
theorem first : Follows (x >>= f) x := by
  cases x with
  | error e => exact of_error e _
  | ok a => exact of_ok _ a

/-- The first chain may have a step of its own. -/
theorem skip_left {z : Except ε δ} (h : ∀ a, Follows (f a) z) :
    Follows (x >>= f) z := by
  cases x with
  | error e => exact of_error e z
  | ok a => exact h a

/-- The second chain may have a step of its own, if that succeeds. -/
theorem skip_right {z : Except ε γ} (hy : y.isOk)
    (h : ∀ b, Follows z (g b)) : Follows z (y >>= g) := by
  obtain ⟨b, rfl⟩ := isOk_iff.1 hy
  exact h b

end Follows

end Outcomes

/-! ### The functions that are called -/

mutual

/-- The functions that an expression calls, at any depth. -/
def Expr.functions : Expr → List FunctionKind
  | .field _ | .literal _ => []
  | .call kind args => kind :: Expr.functionsList args
  | .cast e _ _ _ => e.functions
  | .arithmetic _ left right => left.functions ++ right.functions
  | .concat parts => Expr.functionsList parts
  | .aliased e _ => e.functions

/-- The functions that expressions call. -/
def Expr.functionsList : List Expr → List FunctionKind
  | [] => []
  | e :: rest => e.functions ++ Expr.functionsList rest

end

mutual

/-- The functions that a condition calls. -/
def Criterion.functions : Criterion → List FunctionKind
  | .compare _ left right => left.functions ++ right.functions
  | .isNull e | .isNotNull e => e.functions
  | .isIn e values => e.functions ++ Expr.functionsList values
  | .all criteria | .any criteria => Criterion.functionsList criteria
  | .not c => c.functions

/-- The functions that conditions call. -/
def Criterion.functionsList : List Criterion → List FunctionKind
  | [] => []
  | c :: rest => c.functions ++ Criterion.functionsList rest

end

/-- The functions that expressions call are those that each of them
calls. -/
theorem Expr.functionsList_eq (es : List Expr) :
    Expr.functionsList es = es.flatMap Expr.functions := by
  induction es with
  | nil => rfl
  | cons e rest ih => rw [Expr.functionsList, List.flatMap_cons, ih]

/-- The functions that conditions call are those that each of them
calls. -/
theorem Criterion.functionsList_eq (cs : List Criterion) :
    Criterion.functionsList cs = cs.flatMap Criterion.functions := by
  induction cs with
  | nil => rfl
  | cons c rest ih => rw [Criterion.functionsList, List.flatMap_cons, ih]

/-- The functions that a clause calls, if there is one. -/
def clauseFunctions (c : Option Criterion) : List FunctionKind :=
  c.elim [] Criterion.functions

/-- The functions that a query calls. -/
def Select.functions (q : Select) : List FunctionKind :=
  Expr.functionsList q.fields ++
    Criterion.functionsList (q.joins.map (·.criterion)) ++
    clauseFunctions q.filter ++ Expr.functionsList q.groupBy ++
    clauseFunctions q.having ++
    Expr.functionsList (q.orderBy.map (·.expr))

/-- The functions that a statement calls. The key of a merge is named and
not written, so its calls are not among them. -/
def Statement.functions : Statement → List FunctionKind
  | .select q => q.functions
  | .merge m => m.source.functions
  | .insert ⟨_, _, .values values⟩ => Expr.functionsList values
  | .insert ⟨_, _, .select q⟩ => q.functions
  | .update u => Expr.functionsList u.assignments ++ clauseFunctions u.filter
  | .delete d => clauseFunctions d.filter

/-! ### Expressions and conditions -/

/-- What the first dialect can write of a statement's smallest parts, the
second can write as well. Of the functions, this is asked of some kinds
only. -/
structure Dialect.Carries (d d' : Dialect) (kinds : FunctionKind → Prop) :
    Prop where
  literal : ∀ l, Follows (d.literalText l) (d'.literalText l)
  call : ∀ kind, kinds kind →
    Follows (d.call d.name kind) (d'.call d'.name kind)
  columnType : ∀ type width scale,
    Follows (d.columnType type width scale)
      (d'.columnType type width scale)

namespace Dialect.Carries

variable {d d' : Dialect} {kinds : FunctionKind → Prop}

mutual

/-- An expression that calls only such functions is carried over. -/
theorem exprText (h : d.Carries d' kinds) : ∀ e : Expr,
    (∀ kind ∈ e.functions, kinds kind) →
      Follows (d.exprText e) (d'.exprText e)
  | .field _, _ => .of_ok _ _
  | .literal l, _ => h.literal l
  | .call kind args, he => by
      obtain ⟨hkind, hargs⟩ := List.forall_mem_cons.1 he
      simp only [Dialect.exprText]
      -- Both dialects count the arguments alike.
      exact .bind (.refl _) fun _ _ => .bind (h.call kind hkind) fun _ _ =>
        .bind (h.exprTexts args hargs) fun _ _ => .of_ok _ _
  | .cast e type width scale, he => by
      simp only [Dialect.exprText]
      exact .bind (h.exprText e he) fun _ _ =>
        .bind (h.columnType type width scale) fun _ _ => .of_ok _ _
  | .arithmetic _ left right, he => by
      obtain ⟨hleft, hright⟩ := List.forall_mem_append.1 he
      simp only [Dialect.exprText]
      exact .bind (h.exprText left hleft) fun _ _ =>
        .bind (h.exprText right hright) fun _ _ => .of_ok _ _
  | .concat parts, he => by
      simp only [Dialect.exprText]
      exact .bind (h.exprTexts parts he) fun _ _ => .of_ok _ _
  | .aliased e _, he => h.exprText e he

/-- So are expressions in a row. -/
theorem exprTexts (h : d.Carries d' kinds) : ∀ es : List Expr,
    (∀ kind ∈ Expr.functionsList es, kinds kind) →
      Follows (d.exprTexts es) (d'.exprTexts es)
  | [], _ => .of_ok _ _
  | e :: rest, hes => by
      obtain ⟨he, hrest⟩ := List.forall_mem_append.1 hes
      simp only [Dialect.exprTexts]
      exact .bind (h.exprText e he) fun _ _ =>
        .bind (h.exprTexts rest hrest) fun _ _ => .of_ok _ _

end

/-- A list of expressions that call only such functions is carried over, with
the commas between them. -/
theorem exprListText (h : d.Carries d' kinds) {es : List Expr}
    (hes : ∀ kind ∈ Expr.functionsList es, kinds kind) :
    Follows (d.exprListText es) (d'.exprListText es) :=
  .bind (h.exprTexts es hes) fun _ _ => .of_ok _ _

mutual

/-- A condition that calls only such functions is carried over. -/
theorem criterionText (h : d.Carries d' kinds) : ∀ c : Criterion,
    (∀ kind ∈ c.functions, kinds kind) →
      Follows (d.criterionText c) (d'.criterionText c)
  | .compare _ left right, hc => by
      obtain ⟨hleft, hright⟩ := List.forall_mem_append.1 hc
      simp only [Dialect.criterionText]
      exact .bind (h.exprText left hleft) fun _ _ =>
        .bind (h.exprText right hright) fun _ _ => .of_ok _ _
  | .isNull e, hc | .isNotNull e, hc => by
      simp only [Dialect.criterionText]
      exact .bind (h.exprText e hc) fun _ _ => .of_ok _ _
  | .isIn e _, hc => by
      obtain ⟨he, hvalues⟩ := List.forall_mem_append.1 hc
      simp only [Dialect.criterionText]
      exact .bind (h.exprText e he) fun _ _ =>
        .bind (h.exprListText hvalues) fun _ _ => .of_ok _ _
  | .all criteria, hc | .any criteria, hc => by
      simp only [Dialect.criterionText]
      exact .bind (h.criterionTexts criteria hc) fun _ _ => .of_ok _ _
  | .not c, hc => by
      simp only [Dialect.criterionText]
      exact .bind (h.criterionText c hc) fun _ _ => .of_ok _ _

/-- So are conditions in a row. -/
theorem criterionTexts (h : d.Carries d' kinds) : ∀ cs : List Criterion,
    (∀ kind ∈ Criterion.functionsList cs, kinds kind) →
      Follows (d.criterionTexts cs) (d'.criterionTexts cs)
  | [], _ => .of_ok _ _
  | c :: rest, hcs => by
      obtain ⟨hc, hrest⟩ := List.forall_mem_append.1 hcs
      simp only [Dialect.criterionTexts]
      exact .bind (h.criterionText c hc) fun _ _ =>
        .bind (h.criterionTexts rest hrest) fun _ _ => .of_ok _ _

end

end Dialect.Carries

/-! ### Statements -/

/-- Whether a table can be named hangs on its name alone. -/
theorem Session.isOk_tableText (s : Session) (t : TableRef) :
    (s.tableText t).isOk = (checkTableName t.name).isOk := by
  unfold Session.tableText
  cases checkTableName t.name <;> rfl

/-- Whether the name of a table is accepted hangs on the table alone, so one
session accepts it if another does. -/
theorem Session.follows_tableText (s s' : Session) (t : TableRef) :
    Follows (s.tableText t) (s'.tableText t) := by
  intro hok
  rwa [Session.isOk_tableText] at hok ⊢

/-- So it is with the table that rows come from, if there is one. -/
theorem Session.follows_sourceClause (s s' : Session)
    (t : Option TableRef) :
    Follows (s.sourceClause t) (s'.sourceClause t) := by
  cases t with
  | none => exact .of_ok _ _
  | some t => exact .bind (s.follows_tableText s' t) fun _ _ => .of_ok _ _

namespace Dialect.Carries

variable {s s' : Session} {kinds : FunctionKind → Prop}

/-- A field of a query is carried over with its alias. -/
theorem fieldText (h : s.dialect.Carries s'.dialect kinds) {e : Expr}
    (he : ∀ kind ∈ e.functions, kinds kind) :
    Follows (s.fieldText e) (s'.fieldText e) := by
  cases e with
  | aliased e _ => exact .bind (h.exprText e he) fun _ _ => .of_ok _ _
  | field _ | literal _ | call _ _ | cast _ _ _ _ | arithmetic _ _ _
  | concat _ => exact h.exprText _ he

/-- So are the fields of a query. -/
theorem fieldTexts (h : s.dialect.Carries s'.dialect kinds)
    {es : List Expr} (hes : ∀ kind ∈ Expr.functionsList es, kinds kind) :
    Follows (s.fieldTexts es) (s'.fieldTexts es) := by
  simp only [Expr.functionsList_eq, List.forall_mem_flatMap] at hes
  rw [Session.fieldTexts_eq_mapM, Session.fieldTexts_eq_mapM]
  exact .mapM fun e he => h.fieldText (hes e he)

/-- So are joined tables. -/
theorem joinsText (h : s.dialect.Carries s'.dialect kinds) {js : List Join}
    (hjs : ∀ kind ∈ Criterion.functionsList (js.map (·.criterion)),
      kinds kind) :
    Follows (s.joinsText js) (s'.joinsText js) := by
  simp only [Criterion.functionsList_eq, List.flatMap_map,
    List.forall_mem_flatMap] at hjs
  rw [Session.joinsText_eq_mapM, Session.joinsText_eq_mapM]
  refine .bind (.mapM fun j hj => ?_) fun _ _ => .of_ok _ _
  exact .bind (s.follows_tableText s' j.table) fun _ _ =>
    .bind (h.criterionText j.criterion (hjs j hj)) fun _ _ => .of_ok _ _

/-- So are the keys of a sort. -/
theorem sortKeyTexts (h : s.dialect.Carries s'.dialect kinds)
    {ks : List SortKey}
    (hks : ∀ kind ∈ Expr.functionsList (ks.map (·.expr)), kinds kind) :
    Follows (s.sortKeyTexts ks) (s'.sortKeyTexts ks) := by
  simp only [Expr.functionsList_eq, List.flatMap_map,
    List.forall_mem_flatMap] at hks
  rw [Session.sortKeyTexts_eq_mapM, Session.sortKeyTexts_eq_mapM]
  refine .mapM fun k hk => ?_
  exact .bind (h.exprText k.expr (hks k hk)) fun _ _ => .of_ok _ _

/-- A clause with a condition is carried over, also where the condition is
left out. -/
theorem conditionClause (h : s.dialect.Carries s'.dialect kinds)
    (keyword : String) {c : Option Criterion}
    (hc : ∀ kind ∈ clauseFunctions c, kinds kind) :
    Follows (s.conditionClause keyword c) (s'.conditionClause keyword c) := by
  cases c with
  | none => exact .of_ok _ _
  | some c => exact .bind (h.criterionText c hc) fun _ _ => .of_ok _ _

/-- So are the expressions that rows are grouped by. -/
theorem groupClause (h : s.dialect.Carries s'.dialect kinds)
    {es : List Expr} (hes : ∀ kind ∈ Expr.functionsList es, kinds kind) :
    Follows (s.groupClause es) (s'.groupClause es) := by
  cases es with
  | nil => exact .of_ok _ _
  | cons e rest => exact .bind (h.exprListText hes) fun _ _ => .of_ok _ _

/-- So are the keys that rows are sorted by. Their directions and the place
of nulls are written without a failure. -/
theorem orderClause (h : s.dialect.Carries s'.dialect kinds)
    {ks : List SortKey}
    (hks : ∀ kind ∈ Expr.functionsList (ks.map (·.expr)), kinds kind) :
    Follows (s.orderClause ks) (s'.orderClause ks) := by
  cases ks with
  | nil => exact .of_ok _ _
  | cons k rest => exact .bind (h.sortKeyTexts hks) fun _ _ => .of_ok _ _

/-- A query that calls only such functions is carried over. -/
theorem selectText (h : s.dialect.Carries s'.dialect kinds) {q : Select}
    (hq : ∀ kind ∈ q.functions, kinds kind) :
    Follows (s.selectText q) (s'.selectText q) := by
  simp only [Select.functions, List.forall_mem_append] at hq
  obtain ⟨⟨⟨⟨⟨hfields, hjoins⟩, hfilter⟩, hgroups⟩, hhaving⟩, horder⟩ := hq
  exact .bind (h.fieldTexts hfields) fun _ _ =>
    .bind (s.follows_sourceClause s' q.source) fun _ _ =>
    .bind (h.joinsText hjoins) fun _ _ =>
    .bind (h.conditionClause _ hfilter) fun _ _ =>
    .bind (h.groupClause hgroups) fun _ _ =>
    .bind (h.conditionClause _ hhaving) fun _ _ =>
    .bind (h.orderClause horder) fun _ _ => .of_ok _ _

/-- An insert is carried over, whether its rows are values or a query. -/
theorem insertText (h : s.dialect.Carries s'.dialect kinds) {i : Insert}
    (hi : ∀ kind ∈ (Statement.insert i).functions, kinds kind) :
    Follows (s.insertText i) (s'.insertText i) := by
  have hsource : Follows (s.insertSourceText i.source)
      (s'.insertSourceText i.source) := by
    obtain ⟨_, _, values | q⟩ := i
    · exact .bind (h.exprListText hi) fun _ _ => .of_ok _ _
    · exact .bind (h.selectText hi) fun _ _ => .of_ok _ _
  exact .bind (s.follows_tableText s' i.target) fun _ _ =>
    .bind hsource fun _ _ => .of_ok _ _

/-- So is an update. The names that it sets are those of its assignments,
which hang on no dialect. -/
theorem updateText (h : s.dialect.Carries s'.dialect kinds) {u : Update}
    (hu : ∀ kind ∈ (Statement.update u).functions, kinds kind) :
    Follows (s.updateText u) (s'.updateText u) := by
  obtain ⟨hvalues, hfilter⟩ := List.forall_mem_append.1 hu
  exact .bind (s.follows_tableText s' u.target) fun _ _ =>
    .bind (.refl _) fun _ _ =>
    .bind (h.exprTexts u.assignments hvalues) fun _ _ =>
    .bind (h.conditionClause _ hfilter) fun _ _ => .of_ok _ _

/-- So is a delete. -/
theorem deleteText (h : s.dialect.Carries s'.dialect kinds)
    {t : Delete} (ht : ∀ kind ∈ (Statement.delete t).functions, kinds kind) :
    Follows (s.deleteText t) (s'.deleteText t) :=
  .bind (s.follows_tableText s' t.target) fun _ _ =>
    .bind (h.conditionClause _ ht) fun _ _ => .of_ok _ _

end Dialect.Carries

/-! ### Merges -/

/-- A merge whose source has hints. -/
def Statement.IsHintedMerge : Statement → Prop
  | .merge m => m.source.hints ≠ []
  | _ => False

/-- A merge with a part of its key that implies no name. -/
def Statement.HasUnnamedKey : Statement → Prop
  | .merge m => ∃ e ∈ m.key, e.impliedName? = none
  | _ => False

/-- The names of a key are found when each of its parts implies one. -/
theorem isOk_keyNames {table : String} {es : List Expr}
    (named : ¬ ∃ e ∈ es, e.impliedName? = none) :
    (keyNames table es).isOk := by
  induction es with
  | nil => rfl
  | cons e rest ih =>
      have hrest : ¬ ∃ e ∈ rest, e.impliedName? = none :=
        fun ⟨x, hx, hnone⟩ => named ⟨x, List.mem_cons_of_mem _ hx, hnone⟩
      obtain ⟨name, hname⟩ := Option.ne_none_iff_exists'.1
        fun hnone => named ⟨e, List.mem_cons_self, hnone⟩
      obtain ⟨keys, hkeys⟩ := isOk_iff.1 (ih hrest)
      simp only [keyNames, hname, hkeys]
      rfl

namespace Dialect.Carries

variable {s s' : Session} {kinds : FunctionKind → Prop}

/-- A merge becomes an insert, unless it has hints. -/
theorem upsertText_of_mergeText (h : s.dialect.Carries s'.dialect kinds)
    {m : Merge} (hm : ∀ kind ∈ m.source.functions, kinds kind)
    (plain : m.source.hints = []) :
    Follows (s.mergeText m) (s'.upsertText m) := by
  have hname : Follows (s.tableText m.target)
      (checkTableName m.target.name) := by
    intro hok
    rwa [s.isOk_tableText] at hok
  simp only [Session.upsertText, plain, List.isEmpty_nil, Bool.not_true,
    Bool.false_eq_true, if_false]
  exact .bind hname fun _ _ => .bind (.refl _) fun _ _ =>
    -- Only the merge asks for the names of the key.
    .skip_left fun _ => .bind (h.selectText hm) fun _ _ => .of_ok _ _

/-- An insert becomes a merge if its key has names. -/
theorem mergeText_of_upsertText (h : s.dialect.Carries s'.dialect kinds)
    {m : Merge} (hm : ∀ kind ∈ m.source.functions, kinds kind)
    (named : ¬ ∃ e ∈ m.key, e.impliedName? = none) :
    Follows (s.upsertText m) (s'.mergeText m) := by
  have hname : Follows (checkTableName m.target.name)
      (s'.tableText m.target) := by
    intro hok
    rwa [s'.isOk_tableText]
  refine .bind hname fun _ _ => ?_
  -- With hints there is no insert that the merge would have to follow.
  split
  · exact .of_error _ _
  · exact .bind (.refl _) fun _ _ => .skip_right (isOk_keyNames named)
      fun _ => .bind (h.selectText hm) fun _ _ => .of_ok _ _

end Dialect.Carries

/-- An insert cannot keep the hints of a merge. -/
theorem Session.upsertText_of_hints {s : Session} {m : Merge}
    (hname : (checkTableName m.target.name).isOk)
    (hinted : m.source.hints ≠ []) :
    s.upsertText m = .error (.unsupported s.dialect.name
      "MERGE may not be used with SELECT statement hints") := by
  have hhints : (!m.source.hints.isEmpty) = true := by simpa using hinted
  unfold Session.upsertText
  obtain ⟨_, hcheck⟩ := isOk_iff.1 hname
  rw [if_pos hhints, hcheck]
  rfl

/-! ### Standard SQL and NuoDB -/

/-- Standard SQL has every literal that passes the check. -/
theorem isOk_ansi_literalText (l : Literal) :
    (Dialect.ansi.literalText l).isOk = l.validate.isOk := by
  simp only [Dialect.literalText, Dialect.ansi, Ansi.literal]
  cases l.validate <;> rfl

/-- So has NuoDB, which reads the numeral of a decimal on the way. -/
theorem isOk_nuoDb_literalText (l : Literal) :
    (Dialect.nuoDb.literalText l).isOk = l.validate.isOk := by
  cases l with
  | decimal text =>
      have hcheck : (Literal.decimal text).validate.isOk =
          Text.Numeral.isNumeral text := by
        simp only [Literal.validate]
        cases Text.Numeral.isNumeral text <;> rfl
      rw [hcheck, Text.Numeral.isNumeral]
      simp only [Dialect.literalText, Dialect.nuoDb, NuoDb.literal]
      cases Text.Numeral.parse? text with
      | none => rfl
      | some n =>
          dsimp only
          split <;> rfl
  | null | string _ | integer _ | boolean _ | date _ => rfl

/-- Both dialects have the same types. -/
theorem isOk_nuoDb_columnType (type : DataType) (width scale : UInt32) :
    (Dialect.nuoDb.columnType type width scale).isOk =
      (Dialect.ansi.columnType type width scale).isOk := by
  cases type <;> rfl

/-- NuoDB can write all that standard SQL can. -/
theorem ansi_carries_nuoDb :
    Dialect.ansi.Carries .nuoDb fun _ => True where
  literal l hok := by
    rwa [isOk_nuoDb_literalText, ← isOk_ansi_literalText]
  call kind _ _ := by cases kind <;> rfl
  columnType type width scale hok := by rwa [isOk_nuoDb_columnType]

/-- Standard SQL can write all that NuoDB can, except random strings. -/
theorem nuoDb_carries_ansi :
    Dialect.nuoDb.Carries .ansi fun kind => kind ≠ .randomString where
  literal l hok := by
    rwa [isOk_ansi_literalText, ← isOk_nuoDb_literalText]
  call kind hkind _ := by
    cases hcall : Dialect.ansi.call Dialect.ansi.name kind with
    | ok template => rfl
    | error e =>
        exact absurd ((Ansi.call_eq_error_iff _ kind).1 ⟨e, hcall⟩) hkind
  columnType type width scale hok := by rwa [← isOk_nuoDb_columnType]

section Sessions

variable {a n : Session} (hansi : a.dialect = .ansi)
  (hnuo : n.dialect = .nuoDb)

include hansi in
/-- Standard SQL writes a merge as one. -/
theorem Session.statementText_merge_ansi (m : Merge) :
    a.statementText (.merge m) = a.mergeText m := by
  simp only [Session.statementText, hansi]
  rfl

include hnuo in
/-- NuoDB writes an upsert for a merge. -/
theorem Session.statementText_merge_nuoDb (m : Merge) :
    n.statementText (.merge m) = n.upsertText m := by
  simp only [Session.statementText, hnuo]
  rfl

include hansi hnuo

/-- What can be written in standard SQL can be written for NuoDB, unless
it is a merge with hints. -/
theorem Session.follows_statementText_nuoDb {st : Statement}
    (plain : ¬ st.IsHintedMerge) :
    Follows (a.statementText st) (n.statementText st) := by
  have h : a.dialect.Carries n.dialect fun _ => True := by
    rw [hansi, hnuo]
    exact ansi_carries_nuoDb
  cases st with
  | select q => exact h.selectText fun _ _ => trivial
  | merge m =>
      rw [statementText_merge_ansi hansi, statementText_merge_nuoDb hnuo]
      exact h.upsertText_of_mergeText (fun _ _ => trivial)
        (not_not.1 plain)
  | insert i => exact h.insertText fun _ _ => trivial
  | update u => exact h.updateText fun _ _ => trivial
  | delete d => exact h.deleteText fun _ _ => trivial

/-- What can be written for NuoDB can be written in standard SQL, if it
calls for no random string and leaves no part of a key unnamed. -/
theorem Session.follows_statementText_ansi {st : Statement}
    (known : .randomString ∉ st.functions)
    (named : ¬ st.HasUnnamedKey) :
    Follows (n.statementText st) (a.statementText st) := by
  have h : n.dialect.Carries a.dialect (· ≠ .randomString) := by
    rw [hansi, hnuo]
    exact nuoDb_carries_ansi
  have hkinds : ∀ kind ∈ st.functions, kind ≠ .randomString :=
    fun _ hkind heq => known (heq ▸ hkind)
  cases st with
  | select q => exact h.selectText hkinds
  | merge m =>
      rw [statementText_merge_ansi hansi, statementText_merge_nuoDb hnuo]
      exact h.mergeText_of_upsertText hkinds named
  | insert i => exact h.insertText hkinds
  | update u => exact h.updateText hkinds
  | delete d => exact h.deleteText hkinds

/-- NuoDB supports no merge with hints. -/
theorem Session.statementText_of_isHintedMerge {st : Statement}
    (hinted : st.IsHintedMerge) (hok : (a.statementText st).isOk) :
    n.statementText st = .error (.unsupported "NuoDB"
      "MERGE may not be used with SELECT statement hints") := by
  cases st with
  | merge m =>
      -- Standard SQL asks for the table's name first, and so does NuoDB,
      -- before it looks at the hints.
      rw [statementText_merge_ansi hansi] at hok
      have hname : (a.tableText m.target).isOk := Follows.first hok
      rw [isOk_tableText] at hname
      rw [statementText_merge_nuoDb hnuo, upsertText_of_hints hname hinted,
        hnuo]
      rfl
  | select _ | insert _ | update _ | delete _ => exact hinted.elim

end Sessions

/-- A statement that can be written in standard SQL can be written for
NuoDB, except that NuoDB does not support merges with hints. A statement
that can be written for NuoDB alone calls for a random string or is a
merge with an unnamed part in its key. The two sessions may differ in
their configurations and in their temporary tables. -/
theorem Session.portable {a n : Session} (hansi : a.dialect = .ansi)
    (hnuo : n.dialect = .nuoDb) (st : Statement) :
    ((a.statementText st).isOk →
      (¬ st.IsHintedMerge → (n.statementText st).isOk) ∧
      (st.IsHintedMerge → n.statementText st =
        .error (.unsupported "NuoDB"
          "MERGE may not be used with SELECT statement hints"))) ∧
    ((n.statementText st).isOk → ¬ (a.statementText st).isOk →
      .randomString ∈ st.functions ∨ st.HasUnnamedKey) := by
  refine ⟨fun hok => ⟨fun plain => ?_, fun hinted => ?_⟩, fun hok hfail => ?_⟩
  · exact follows_statementText_nuoDb hansi hnuo plain hok
  · exact statementText_of_isHintedMerge hansi hnuo hinted hok
  · exact or_iff_not_and_not.2 fun ⟨known, named⟩ =>
      hfail (follows_statementText_ansi hansi hnuo known named hok)

/-- A merge of the currencies that have come in. -/
def mergeCurrencies (hints : List Hint) (key : List Expr) : Statement :=
  .merge
    { target := { name := "Currency" }
      source :=
        { fields := [.ofName "Code", .ofName "Symbol"]
          source := some { name := "Intake" }
          hints := hints }
      key := key }

/-- The merge is portable as it is. It is not for NuoDB with a hint and not
for standard SQL with an unnamed part in its key; a random string is not
for standard SQL either. -/
theorem currencies_portable :
    let a : Session := { target := { dialect := .ansi } }
    let n : Session :=
      { target := { dialect := .nuoDb, config := { schemaName := "App" } }
        temporary := TemporaryTables.register ∅ "Intake" }
    let plain := mergeCurrencies [] [.ofName "Code"]
    let hinted := mergeCurrencies [.parallel] [.ofName "Code"]
    let unnamed := mergeCurrencies [] [.literal .null]
    let random : Statement := .select
      { fields := [.concat [.call .randomString [.literal (.integer 8)]]] }
    (a.statementText plain).isOk ∧ (n.statementText plain).isOk ∧
      (a.statementText hinted).isOk ∧ n.statementText hinted =
        .error (.unsupported "NuoDB"
          "MERGE may not be used with SELECT statement hints") ∧
      (n.statementText unnamed).isOk ∧ ¬ (a.statementText unnamed).isOk ∧
      unnamed.HasUnnamedKey ∧
      (n.statementText random).isOk ∧ ¬ (a.statementText random).isOk ∧
      .randomString ∈ random.functions := by
  intro a n plain hinted unnamed random
  have portable := Session.portable (a := a) (n := n) rfl rfl
  -- What each dialect makes of the four statements is computed; what it
  -- means follows from the theorem.
  have hplain : (a.statementText plain).isOk := by decide +kernel
  have hhinted : (a.statementText hinted).isOk := by decide +kernel
  have hunnamed : (n.statementText unnamed).isOk ∧
      ¬ (a.statementText unnamed).isOk := by decide +kernel
  have hrandom : (n.statementText random).isOk ∧
      ¬ (a.statementText random).isOk := by decide +kernel
  refine ⟨hplain, ((portable plain).1 hplain).1 fun h => h rfl, hhinted,
    ((portable hinted).1 hhinted).2 (List.cons_ne_nil _ _), hunnamed.1,
    hunnamed.2, ?_, hrandom.1, hrandom.2, ?_⟩
  · exact ((portable unnamed).2 hunnamed.1 hunnamed.2).resolve_left
      (by decide)
  · exact ((portable random).2 hrandom.1 hrandom.2).resolve_right id

end SchemaEvolution
