import SchemaEvolution.Proofs.Sql.Expressions
import SchemaEvolution.Session.StatementText

/-!
# `SchemaEvolution.Proofs.Sql.Statements`: no string leaves its quotes

What standard SQL writes for a statement has one skeleton, which does
not hang on the strings in the statement. So no string can end its
literal early, and whoever chooses the strings chooses nothing but the
contents of literals. The names in a statement are written as they are:
that they have no quotes is an assumption, as it is for the name of the
schema. The registry of temporary tables may hold any names, since it
is only looked up.

The parts of a statement are taken one by one. Names and tables are
constants without quotes (`quoteFree_tableText`); every clause of a
query opens, so that it may follow any other
(`uniform_conditionClause`, `uniform_joinsText`); a merge writes the
strings in its rows, and of its key nothing but names.

* `uniform_statementText`: every statement is written in one way.
* `Session.strings_stay_quoted`: statements that differ in nothing but
  their strings are read alike, and each of their strings as itself.
-/

set_option autoImplicit false

namespace SchemaEvolution

open SchemaEvolution.Text

/-- The session writes standard SQL, for a schema whose name is without
quotes. -/
structure Session.Standard (s : Session) : Prop where
  dialect : s.dialect = .ansi
  schema : ∀ name ∈ s.target.config.schemaName, QuoteFree name

/-! ### Names -/

/-- A text without quotes has none after the blanks at its ends have been cut
off. -/
theorem quoteFree_trimBlanks {s : String} (h : QuoteFree s) :
    QuoteFree (trimBlanks s) := by
  intro hmem
  rw [trimBlanks, String.toList_ofList, List.mem_reverse] at hmem
  have hfront := (List.dropWhile_sublist _).subset hmem
  rw [List.mem_reverse] at hfront
  exact h ((List.dropWhile_sublist _).subset hfront)

/-- Texts without quotes have none when they stand in a list. -/
theorem quoteFree_intercalate {separator : String} {texts : List String}
    (hseparator : QuoteFree separator) (h : ∀ t ∈ texts, QuoteFree t) :
    QuoteFree (separator.intercalate texts) := by
  by_cases hne : texts = []
  · subst hne
    exact (by decide : QuoteFree "")
  · exact intercalate_induction
      (fun _ _ ht hu => (ht.append hseparator).append hu) hne h

/-- Texts that are written from names without quotes have none when they
stand in a list. -/
theorem quoteFree_intercalate_map {separator : String}
    {names : List String} {write : String → String}
    (hseparator : QuoteFree separator) (h : ∀ n ∈ names, QuoteFree n)
    (hwrite : ∀ n, QuoteFree n → QuoteFree (write n)) :
    QuoteFree (separator.intercalate (names.map write)) := by
  refine quoteFree_intercalate hseparator fun t ht => ?_
  obtain ⟨n, hn, rfl⟩ := List.mem_map.mp ht
  exact hwrite n (h n hn)

section Names

variable {s : Session}

/-- What stands before the objects of the configured schema. -/
theorem quoteFree_schemaQualifier (hs : s.Standard) :
    QuoteFree s.target.schemaQualifier := by
  have hdialect : s.target.dialect = .ansi := hs.dialect
  rw [Target.schemaQualifier, hdialect]
  cases hschema : s.target.config.schema? with
  | none => exact (by decide : QuoteFree "")
  | some name =>
      rw [Config.schema?, Option.filter_eq_some_iff] at hschema
      obtain ⟨given, hgiven, rfl⟩ := Option.map_eq_some_iff.mp hschema.1
      exact (quoteFree_trimBlanks (hs.schema given hgiven)).append (by decide)

/-- What stands before a table that a statement refers to. -/
theorem quoteFree_qualifier (hs : s.Standard) {t : TableRef}
    (h : ∀ n ∈ t.names, QuoteFree n) : QuoteFree (s.qualifier t) := by
  unfold Session.qualifier
  split
  · rename_i schema hschema
    obtain ⟨given, hgiven, hnonblank⟩ := Option.bind_eq_some_iff.mp hschema
    have hsame : given = schema := by
      unfold nonBlank? at hnonblank
      split at hnonblank
      · cases hnonblank
      · exact Option.some.inj hnonblank
    rw [hs.dialect]
    refine QuoteFree.append (h schema ?_) (by decide)
    simp [TableRef.names, hgiven, hsame]
  · split
    · decide
    · exact quoteFree_schemaQualifier hs

/-- A table is written without quotes. -/
theorem quoteFree_tableText (hs : s.Standard) {t : TableRef}
    {text : String} (h : ∀ n ∈ t.names, QuoteFree n)
    (htext : s.tableText t = .ok text) : QuoteFree text := by
  obtain ⟨_, -, htext⟩ := bind_eq_ok_iff.mp htext
  cases htext
  have hname : QuoteFree t.name := h t.name List.mem_cons_self
  refine ((quoteFree_qualifier hs h).append hname).append ?_
  split
  · rename_i name halias
    refine QuoteFree.append (by decide) (h name ?_)
    simp [TableRef.names, halias]
  · decide

/-- A name that an expression has in a result is one of its names. -/
theorem Expr.mem_names_of_impliedName? {e : Expr} {name : String}
    (h : e.impliedName? = some name) : name ∈ e.names := by
  cases e with
  | field f =>
      cases h
      exact List.mem_cons_self
  | aliased inner outermost =>
      cases h
      exact List.mem_cons_self
  | literal _ | call _ _ | cast _ _ _ _ | arithmetic _ _ _ | concat _ =>
      cases h

/-- The names of a list of expressions are those of its elements. -/
theorem Expr.mem_namesList {es : List Expr} {name : String} :
    name ∈ Expr.namesList es ↔ ∃ e ∈ es, name ∈ e.names := by
  induction es with
  | nil => simp [Expr.namesList]
  | cons e rest ih => simp [Expr.namesList, ih]

/-- The names that fields imply are among the names of the fields. -/
theorem quoteFree_of_impliedNames {table : String} {es : List Expr}
    {names : List String} (h : ∀ n ∈ Expr.namesList es, QuoteFree n)
    (hnames : impliedNames table es = .ok names) :
    ∀ n ∈ names, QuoteFree n := by
  intro n hn
  have hmap := map_impliedName?_of_impliedNames hnames
  have hmem : some n ∈ es.map Expr.impliedName? := by
    rw [hmap]
    exact List.mem_map_of_mem hn
  obtain ⟨e, he, hname⟩ := List.mem_map.mp hmem
  exact h n (Expr.mem_namesList.mpr
    ⟨e, he, Expr.mem_names_of_impliedName? hname⟩)

/-- The names of a key are found when those of fields are. -/
theorem impliedNames_of_keyNames {table : String} {es : List Expr}
    {names : List String} (h : keyNames table es = .ok names) :
    impliedNames table es = .ok names := by
  induction es generalizing names with
  | nil => exact h
  | cons e rest ih =>
      unfold keyNames at h
      unfold impliedNames
      cases he : e.impliedName? with
      | none =>
          rw [he] at h
          cases h
      | some name =>
          rw [he] at h
          cases hrest : keyNames table rest with
          | error err =>
              rw [hrest] at h
              cases h
          | ok tail =>
              rw [hrest] at h
              show (impliedNames table rest).map (name :: ·) = .ok names
              rw [ih hrest]
              exact h

/-- A refill changes none of the names that fields imply. -/
theorem impliedNames_refill (f : Refill) (table : String)
    (es : List Expr) :
    impliedNames table (Expr.substituteList f.substitution es) =
      impliedNames table es := by
  induction es generalizing f with
  | nil => rfl
  | cons e rest ih =>
      simp only [Expr.substituteList, impliedNames,
        Refill.substitution_under, Expr.impliedName?_refill, ih]

/-- A refill changes none of the names of a key. -/
theorem keyNames_refill (f : Refill) (table : String) (es : List Expr) :
    keyNames table (Expr.substituteList f.substitution es) =
      keyNames table es := by
  induction es generalizing f with
  | nil => rfl
  | cons e rest ih =>
      simp only [Expr.substituteList, keyNames,
        Refill.substitution_under, Expr.impliedName?_refill, ih]

end Names

/-! ### Clauses -/

section Clauses

variable {s : Session}

/-- A field is written in the same way whatever its strings are. -/
theorem uniform_fieldText (hs : s.Standard) (e : Expr)
    (h : ∀ n ∈ e.names, QuoteFree n) :
    Uniform (Reads e.literals) fun f =>
      s.fieldText (e.substitute f.substitution) := by
  cases e with
  | aliased e name =>
      have hexpr := uniform_exprText e fun n hn =>
        h n (List.mem_cons_of_mem name hn)
      simp only [Expr.substitute, Session.fieldText, hs.dialect,
        Expr.literals]
      refine hexpr.bind fun t ht => .pure ?_
      have hname : QuoteFree (" AS " ++ name) :=
        QuoteFree.append (by decide) (h name List.mem_cons_self)
      simpa only [String.append_assoc] using
        ht.append_const (.of_quoteFree hname)
  | field _ | literal _ | call _ _ | cast _ _ _ _ | arithmetic _ _ _
  | concat _ =>
      have hexpr := uniform_exprText _ h
      rw [← hs.dialect] at hexpr
      exact hexpr

/-- So are the fields of a query. -/
theorem uniform_fieldTexts (hs : s.Standard) (es : List Expr)
    (h : ∀ n ∈ Expr.namesList es, QuoteFree n) :
    Uniform (ReadsAll es.length (Expr.literalsList es)) fun f =>
      s.fieldTexts (Expr.substituteList f.substitution es) := by
  simp only [Session.fieldTexts_eq_mapM, Expr.substituteList_eq,
    Expr.literalsList_eq]
  exact .each fun e he => uniform_fieldText hs e fun n hn =>
    h n (Expr.mem_namesList.mpr ⟨e, he, hn⟩)

/-- What joins a table stands between code. -/
theorem isJoint_joinKind (k : JoinKind) :
    isJoint (k.keywords ++ " ") = true := by
  cases k <;> cbv

/-- A joined table is written in the same way whatever the strings in its
condition are. -/
theorem uniform_joinText (hs : s.Standard) (j : Join)
    (h : ∀ n ∈ j.names, QuoteFree n) :
    Uniform (Reads j.literals) fun f =>
      s.joinText (j.substitute f.substitution) := by
  obtain ⟨htable, hcriterion⟩ := List.forall_mem_append.mp h
  simp only [Session.joinText, Join.substitute, Join.literals, hs.dialect]
  -- The table is written before the condition, and holds no strings.
  refine .bind_const fun table htext => ?_
  refine (uniform_criterionText _ hcriterion).bind fun t ht => .pure ?_
  have hon : QuoteFree (table ++ " ON ") :=
    (quoteFree_tableText hs htable htext).append (by decide)
  have hcondition := Opens.of_quoteFree_append hon (by simp) ht
  simpa only [String.append_assoc] using (Opens.of_isJoint_append
    (isJoint_joinKind j.kind) hcondition.reads).reads

/-- The joined tables of a query. Each stands behind a blank. -/
theorem uniform_joinsText (hs : s.Standard) (js : List Join)
    (h : ∀ n ∈ js.flatMap Join.names, QuoteFree n) :
    Uniform (Opens (literalsOfEach Join.literals js)) fun f =>
      s.joinsText (substituteEach Join.substitute f.substitution js) := by
  simp only [Session.joinsText_eq_mapM]
  have hjoins := Uniform.each fun j hj => uniform_joinText hs j fun n hn =>
    h n (List.mem_flatMap.mpr ⟨j, hj, hn⟩)
  exact hjoins.bind fun t ht => .pure (ht.behind (by cbv))

/-- A clause that is a condition is written in the same way whatever its
strings are. -/
theorem uniform_conditionClause (hs : s.Standard) (keyword : String)
    (hkeyword : isJoint keyword = true) (c : Option Criterion)
    (h : ∀ n ∈ conditionNames c, QuoteFree n) :
    Uniform (Opens (conditionLiterals c)) fun f =>
      s.conditionClause keyword
        (c.map (Criterion.substitute f.substitution)) := by
  cases c with
  | none => exact .pure (.of_quoteFree (by decide))
  | some c =>
      simp only [Option.map_some, Session.conditionClause, hs.dialect]
      refine (uniform_criterionText c h).bind fun t ht => .pure ?_
      exact .of_isJoint_append hkeyword ht

/-- What a query reads from is written without quotes. -/
theorem quoteFree_sourceClause (hs : s.Standard) {t : Option TableRef}
    {text : String} (h : ∀ n ∈ t.toList.flatMap TableRef.names, QuoteFree n)
    (htext : s.sourceClause t = .ok text) : QuoteFree text := by
  cases t with
  | none =>
      rw [Session.sourceClause, hs.dialect] at htext
      cases htext
      decide
  | some t =>
      obtain ⟨table, htable, htext⟩ := bind_eq_ok_iff.mp htext
      cases htext
      refine QuoteFree.append (by decide) (quoteFree_tableText hs ?_ htable)
      simpa using h

/-- The clause that groups rows. -/
theorem uniform_groupClause (hs : s.Standard) (es : List Expr)
    (h : ∀ n ∈ Expr.namesList es, QuoteFree n) :
    Uniform (Opens (Expr.literalsList es)) fun f =>
      s.groupClause (Expr.substituteList f.substitution es) := by
  cases es with
  | nil => exact .pure (.of_quoteFree (by decide))
  | cons e rest =>
      have hlist := uniform_exprListText h
      rw [← hs.dialect] at hlist
      refine hlist.bind fun t ht => .pure ?_
      exact .of_isJoint_append (by cbv) ht

/-- The keys of a sort. -/
theorem uniform_sortKeyTexts (hs : s.Standard) (ks : List SortKey)
    (h : ∀ n ∈ ks.flatMap fun k => k.expr.names, QuoteFree n) :
    Uniform (ReadsAll ks.length (literalsOfEach SortKey.literals ks))
      fun f => s.sortKeyTexts
        (substituteEach SortKey.substitute f.substitution ks) := by
  simp only [Session.sortKeyTexts_eq_mapM, hs.dialect]
  exact .each fun k hk => uniform_sortKeyText fun n hn =>
    h n (List.mem_flatMap.mpr ⟨k, hk, hn⟩)

/-- The clause that sorts rows. -/
theorem uniform_orderClause (hs : s.Standard) (ks : List SortKey)
    (h : ∀ n ∈ ks.flatMap fun k => k.expr.names, QuoteFree n) :
    Uniform (Opens (literalsOfEach SortKey.literals ks)) fun f =>
      s.orderClause
        (substituteEach SortKey.substitute f.substitution ks) := by
  cases ks with
  | nil => exact .pure (.of_quoteFree (by decide))
  | cons k rest =>
      refine (uniform_sortKeyTexts hs _ h).bind fun t ht => .pure ?_
      exact .of_isJoint_append (by cbv)
        (ht.intercalate (by cbv))

end Clauses

/-! ### Statements -/

section Statements

variable {s : Session}

/-- What a query begins with stands before code. -/
theorem isJoint_select (distinct : Bool) :
    isJoint ("SELECT " ++ if distinct then "DISTINCT " else "") = true := by
  cases distinct <;> cbv

/-- What a query selects can be read: all, or a list of fields. -/
theorem reads_selection {es : List Expr} {ls : Literals}
    {t : Refill → List String} (ht : ReadsAll es.length ls t) :
    Reads ls fun f =>
      if es.isEmpty then "*" else ", ".intercalate (t f) := by
  cases es with
  | nil =>
      obtain ⟨parts, hlength, rfl, -, -⟩ := ht
      obtain rfl := List.eq_nil_of_length_eq_zero hlength
      exact (Opens.of_quoteFree (by decide)).reads
  | cons e rest => exact ht.intercalate (by cbv)

/-- A query is written in the same way whatever its strings are. -/
theorem uniform_selectText (hs : s.Standard) (q : Select)
    (h : ∀ n ∈ q.names, QuoteFree n) :
    Uniform (Reads q.literals) fun f =>
      s.selectText (q.substitute f.substitution) := by
  simp only [Select.names, List.forall_mem_append] at h
  obtain ⟨⟨⟨⟨⟨⟨hfields, hsource⟩, hjoins⟩, hfilter⟩, hgroups⟩, hhaving⟩,
    horder⟩ := h
  -- Each clause is written from the literals beneath a branch of its own.
  have wfields := (uniform_fieldTexts hs q.fields hfields).beneath
    fun t ht => ht.beneath 0
  have wjoins := (uniform_joinsText hs q.joins hjoins).beneath
    fun t ht => ht.beneath 1
  have wfilter := (uniform_conditionClause hs " WHERE "
    (by cbv) q.filter hfilter).beneath fun t ht => ht.beneath 2
  have wgroups := (uniform_groupClause hs q.groupBy hgroups).beneath
    fun t ht => ht.beneath 3
  have whaving := (uniform_conditionClause hs " HAVING "
    (by cbv) q.having hhaving).beneath fun t ht => ht.beneath 4
  have worder := (uniform_orderClause hs q.orderBy horder).beneath
    fun t ht => ht.beneath 5
  have hempty : ∀ f : Refill, (Expr.substituteList
      (f.under 0).substitution q.fields).isEmpty = q.fields.isEmpty := by
    intro f
    cases q.fields <;> rfl
  simp only [Session.selectText, Select.substitute,
    Refill.substitution_under, hempty]
  refine wfields.bind fun a ha => .bind_const fun source htext => ?_
  refine wjoins.bind fun b hb => wfilter.bind fun c hc => ?_
  refine wgroups.bind fun d hd => whaving.bind fun e he => ?_
  refine worder.bind fun g hg => .pure ?_
  have hselect := (Opens.of_isJoint_append (isJoint_select q.distinct)
    (reads_selection ha)).reads
  have hopens : Opens [] fun _ => source :=
    .of_quoteFree (quoteFree_sourceClause hs hsource htext)
  -- Every clause behind the fields opens.
  exact (((((hselect.append_const hopens).append hb).append hc).append
    hd).append he).append hg

/-- What a merge does about the rows that it finds and those that it
does not find is written without quotes. -/
theorem quoteFree_mergeActions {fields changed : List String}
    (hfields : ∀ n ∈ fields, QuoteFree n)
    (hchanged : ∀ n ∈ changed, QuoteFree n) :
    QuoteFree (
      (if (changed.map fun field =>
          field ++ " = " ++ mergeSource ++ "." ++ field).isEmpty then ""
       else " WHEN MATCHED THEN UPDATE SET " ++ ", ".intercalate
          (changed.map fun field =>
            field ++ " = " ++ mergeSource ++ "." ++ field)) ++
      " WHEN NOT MATCHED THEN INSERT (" ++ ", ".intercalate fields ++
      ") VALUES (" ++ ", ".intercalate
        (fields.map fun field => mergeSource ++ "." ++ field) ++ ")") := by
  -- An update names each field twice; an insert names it behind the source.
  have hcomma : QuoteFree ", " := by decide
  have hupdates : QuoteFree (", ".intercalate (changed.map fun field =>
      field ++ " = " ++ mergeSource ++ "." ++ field)) := by
    refine quoteFree_intercalate_map hcomma hchanged fun field hname => ?_
    exact (((hname.append (by decide)).append (by decide)).append
      (by decide)).append hname
  have hvalues : QuoteFree (", ".intercalate (fields.map fun field =>
      mergeSource ++ "." ++ field)) := by
    refine quoteFree_intercalate_map hcomma hfields fun field hname => ?_
    exact QuoteFree.append (by decide) hname
  refine (((QuoteFree.append (QuoteFree.append ?_ (by decide))
    (quoteFree_intercalate hcomma hfields)).append (by decide)).append
    hvalues).append (by decide)
  split
  · decide
  · exact QuoteFree.append (by decide) hupdates

/-- A merge is written in the same way whatever its strings are: only
its rows hold any that are written. -/
theorem uniform_mergeText (hs : s.Standard) (m : Merge)
    (h : ∀ n ∈ (Statement.merge m).names, QuoteFree n) :
    Uniform (Reads (Statement.merge m).written) fun f =>
      s.statementText ((Statement.merge m).refill f) := by
  simp only [Statement.names, List.forall_mem_append] at h
  obtain ⟨⟨htarget, hsource⟩, hkey⟩ := h
  have hfields : ∀ n ∈ Expr.namesList m.source.fields, QuoteFree n := by
    intro n hn
    refine hsource n ?_
    simp [Select.names, hn]
  have wsource := (uniform_selectText hs m.source hsource).branch 0
  have hupsert : s.dialect.upsert = .merge := by
    rw [hs.dialect]
    rfl
  simp only [Statement.refill, Statement.substitute, Statement.written,
    Session.statementText, hupsert, Session.mergeText, Select.substitute,
    Refill.substitution_under, impliedNames_refill, keyNames_refill]
  -- Columns and keys are named before any string is written.
  refine .bind_const fun target htext => .bind_const fun fields hnames => ?_
  refine .bind_const fun keys hkeys => wsource.bind fun t ht => .pure ?_
  have hinto : QuoteFree ("MERGE INTO " ++ target ++ " USING (") :=
    (QuoteFree.append (by decide)
      (quoteFree_tableText hs htarget htext)).append (by decide)
  have hrows := (Opens.of_quoteFree_append hinto (by simp) ht).reads
  have hfield := quoteFree_of_impliedNames hfields hnames
  have hkeyName := quoteFree_of_impliedNames hkey
    (impliedNames_of_keyNames hkeys)
  have hqualifier := quoteFree_tableQualifier htarget
  have hmatch : QuoteFree (") " ++ mergeSource ++ " ON (" ++
      " AND ".intercalate (keys.map fun key => m.target.qualifier ++ "." ++
        key ++ " = " ++ mergeSource ++ "." ++ key) ++ ")") := by
    refine (QuoteFree.append (by decide) (quoteFree_intercalate_map
      (by decide) hkeyName fun key hname => ?_)).append (by decide)
    exact (((((hqualifier.append (by decide)).append hname).append
      (by decide)).append (by decide)).append (by decide)).append hname
  have hchanged : ∀ n ∈ fields.filter fun field =>
      !keys.any fun key => SameName key field, QuoteFree n :=
    fun n hn => hfield n (List.mem_of_mem_filter hn)
  have hactions := quoteFree_mergeActions hfield hchanged
  simpa only [String.append_assoc] using (hrows.append_const
    (.of_quoteFree hmatch)).append_const (.of_quoteFree hactions)

/-- An insert is written in the same way whatever its strings are. -/
theorem uniform_insertText (hs : s.Standard) (i : Insert)
    (h : ∀ n ∈ (Statement.insert i).names, QuoteFree n) :
    Uniform (Reads (Statement.insert i).written) fun f =>
      s.statementText ((Statement.insert i).refill f) := by
  simp only [Statement.names, List.forall_mem_append] at h
  obtain ⟨⟨htarget, hcolumns⟩, hsource⟩ := h
  -- The rows are a list of values or a query, either of which opens.
  have wsource : Uniform (Opens i.source.literals) fun f =>
      s.insertSourceText (i.source.substitute f.substitution) := by
    cases hi : i.source with
    | values es =>
        rw [hi] at hsource
        simp only [InsertSource.substitute, Session.insertSourceText,
          InsertSource.literals, hs.dialect]
        refine (uniform_exprListText hsource).bind fun t ht => .pure ?_
        have hclose := ht.append_const (.of_isJoint (c := ")") (by cbv))
        simpa only [String.append_assoc] using
          Opens.of_isJoint_append (c := " VALUES (") (by cbv)
            hclose
    | select q =>
        rw [hi] at hsource
        refine (uniform_selectText hs q hsource).bind fun t ht => .pure ?_
        exact .of_isJoint_append (by cbv) ht
  simp only [Statement.refill, Statement.substitute,
    Session.statementText, Session.insertText]
  -- What goes before is the table and the columns, all of them names.
  refine .bind_const fun target htext => wsource.bind fun t ht => .pure ?_
  have hlist : QuoteFree (if i.columns.isEmpty then ""
      else " (" ++ ", ".intercalate i.columns ++ ")") := by
    split
    · decide
    · exact (QuoteFree.append (by decide) (quoteFree_intercalate
        (by decide) hcolumns)).append (by decide)
  have hinto : QuoteFree ("INSERT INTO " ++ target) :=
    QuoteFree.append (by decide) (quoteFree_tableText hs htarget htext)
  exact ((Opens.of_quoteFree (hinto.append hlist)).append ht).reads

/-- As many names are found as there are fields. -/
theorem length_impliedNames {table : String} {es : List Expr}
    {names : List String} (h : impliedNames table es = .ok names) :
    names.length = es.length := by
  have hlength := congrArg List.length
    ((impliedNames_eq_ok_iff table es names).mp h)
  simpa using hlength.symm

/-- Assignments can be read when their values can and each of them has a
name. -/
theorem ReadsAll.assignments {n : Nat} {ls : Literals}
    {t : Refill → List String} {names : List String}
    (hnames : ∀ n ∈ names, QuoteFree n) (hlength : names.length = n)
    (ht : ReadsAll n ls t) :
    ReadsAll n ls fun f =>
      List.zipWith (fun n v => n ++ " = " ++ v) names (t f) := by
  obtain ⟨parts, rfl, rfl, hparts, rfl⟩ := ht
  induction names generalizing parts with
  | nil =>
      obtain rfl := List.eq_nil_of_length_eq_zero hlength.symm
      exact .nil
  | cons n names ih =>
      cases parts with
      | nil => cases hlength
      | cons p parts =>
          obtain ⟨hn, hothers⟩ := List.forall_mem_cons.mp hnames
          obtain ⟨hp, hrest⟩ := List.forall_mem_cons.mp hparts
          have hassign : QuoteFree (n ++ " = ") := hn.append (by decide)
          exact .cons (Opens.of_quoteFree_append hassign (by simp) hp).reads
            (ih hothers parts (Nat.succ.inj hlength) hrest)

/-- An update is written in the same way whatever its strings are. -/
theorem uniform_updateText (hs : s.Standard) (u : Update)
    (h : ∀ n ∈ (Statement.update u).names, QuoteFree n) :
    Uniform (Reads (Statement.update u).written) fun f =>
      s.statementText ((Statement.update u).refill f) := by
  simp only [Statement.names, List.forall_mem_append] at h
  obtain ⟨⟨htarget, hvalues⟩, hfilter⟩ := h
  have wvalues := (uniform_exprTexts u.assignments hvalues).beneath
    fun t ht => ht.beneath 0
  have wfilter := (uniform_conditionClause hs " WHERE "
    (by cbv) u.filter hfilter).beneath fun t ht => ht.beneath 1
  simp only [Statement.refill, Statement.substitute,
    Session.statementText, Session.updateText,
    Refill.substitution_under, impliedNames_refill, hs.dialect]
  refine .bind_const fun target htext => .bind_const fun names hnames => ?_
  refine wvalues.bind fun a ha => wfilter.bind fun b hb => .pure ?_
  have hset : QuoteFree ("UPDATE " ++ target ++ " SET ") :=
    (QuoteFree.append (by decide)
      (quoteFree_tableText hs htarget htext)).append (by decide)
  have hcomma : isJoint ", " = true := by cbv
  have hassignments := (ha.assignments
    (quoteFree_of_impliedNames hvalues hnames)
    (length_impliedNames hnames)).intercalate hcomma
  exact (Opens.of_quoteFree_append hset (by simp) hassignments).reads.append hb

/-- A delete is written in the same way whatever its strings are. -/
theorem uniform_deleteText (hs : s.Standard) (d : Delete)
    (h : ∀ n ∈ (Statement.delete d).names, QuoteFree n) :
    Uniform (Reads (Statement.delete d).written) fun f =>
      s.statementText ((Statement.delete d).refill f) := by
  simp only [Statement.names, List.forall_mem_append] at h
  simp only [Statement.refill, Statement.substitute,
    Session.statementText, Session.deleteText]
  refine .bind_const fun target htext => ?_
  refine (uniform_conditionClause hs " WHERE " (by cbv)
    d.filter h.2).bind fun t ht => .pure ?_
  have hfrom : QuoteFree ("DELETE FROM " ++ target) :=
    QuoteFree.append (by decide) (quoteFree_tableText hs h.1 htext)
  exact ((Opens.of_quoteFree hfrom).append ht).reads

/-- Every statement is written in the same way whatever its strings
are. -/
theorem uniform_statementText (hs : s.Standard) (st : Statement)
    (h : ∀ n ∈ st.names, QuoteFree n) :
    Uniform (Reads st.written) fun f => s.statementText (st.refill f) := by
  cases st with
  | select q => exact uniform_selectText hs q h
  | merge m => exact uniform_mergeText hs m h
  | insert i => exact uniform_insertText hs i h
  | update u => exact uniform_updateText hs u h
  | delete d => exact uniform_deleteText hs d h

/-- After a refill, a skeleton for the literals of a statement holds those
of the refilled statement. -/
theorem Sound.forall₂_holds {st : Statement} {skeleton : List Slot}
    (h : Sound st.written skeleton) (f : Refill) :
    List.Forall₂ (Slot.Holds (st.refill f).written) skeleton
      (skeleton.map (Slot.token f)) := by
  rw [List.forall₂_map_right_iff, List.forall₂_same]
  intro x hx
  cases x with
  | code c => exact .code c
  | own s => exact .own s
  | node place =>
      obtain ⟨s, hs⟩ := (h.nodes place).mp hx
      have hmem : (place, .string (f place)) ∈ (st.refill f).written := by
        rw [Statement.written_refill]
        exact Literals.mem_refill_of_string hs
      exact .node (Statement.string_mem_written_iff hmem)

/-- No string leaves its quotes. Statements that differ in nothing but the
contents of their string literals cannot be written, all for the same
reason, or their texts have one skeleton in common: each text is read to
its end, as the same characters of code with literals in the same places
between them. Every string literal that is written has such a place, and
in each text what stands there is read as the string that this literal
holds in the statement of the text. All other literals are the same in
each of the texts; they are those of the templates, or dates. -/
theorem Session.strings_stay_quoted (hs : s.Standard) {st : Statement}
    (h : ∀ n ∈ st.names, QuoteFree n) :
    (∃ e, ∀ st' : Statement, st.Alike st' →
      s.statementText st' = .error e) ∨
    ∃ skeleton : List Slot,
      (∀ place, .node place ∈ skeleton ↔
        ∃ x, (place, .string x) ∈ st.written) ∧
      (∀ x, .own x ∈ skeleton → IsOwn st.written x) ∧
      ∀ st' : Statement, st.Alike st' → ∃ text tokens,
        s.statementText st' = .ok text ∧
        lex .doubled .outside text.toList = some tokens ∧
        List.Forall₂ (Slot.Holds st'.written) skeleton tokens := by
  rcases uniform_statementText hs st h with ⟨e, he⟩ | ⟨t, ht, hok⟩
  · refine .inl ⟨e, fun st' hst' => ?_⟩
    obtain ⟨f, rfl⟩ := Statement.alike_iff.mp hst'
    exact he f
  · obtain ⟨skeleton, hsound, hspells⟩ := ht
    refine .inr ⟨skeleton, hsound.nodes, hsound.owns, fun st' hst' => ?_⟩
    obtain ⟨f, rfl⟩ := Statement.alike_iff.mp hst'
    exact ⟨t f, _, hok f, hsound.lex_text hspells f,
      hsound.forall₂_holds f⟩

/-- The customers of a name. -/
def customersNamed (name : String) : Statement :=
  .select {
    fields := [.ofName "id"]
    source := some { name := "customer" }
    filter := some (.compare .eq (.ofName "name")
      (.literal (.string name))) }

/-- A session with standard SQL and without a schema. -/
def standardSession : Session := ⟨⟨.ansi, {}⟩, ∅⟩

/-- The query for a name with a quote in it is written and read. In the
place of the name there is a literal, also for any other name, and it is
read as that name. -/
theorem customersNamed_stay_quoted :
    let customers := customersNamed "O'Hara"
    standardSession.Standard ∧
    (∀ n ∈ customers.names, QuoteFree n) ∧
    ∃ skeleton : List Slot,
      .node [2, 1] ∈ skeleton ∧
      (∀ x, .own x ∈ skeleton → IsOwn customers.written x) ∧
      ∀ name : String, ∃ text tokens,
        standardSession.statementText (customersNamed name) = .ok text ∧
        lex .doubled .outside text.toList = some tokens ∧
        List.Forall₂ (Slot.Holds [([2, 1], .string name)]) skeleton
          tokens := by
  intro customers
  have hs : standardSession.Standard := ⟨rfl, by simp [standardSession]⟩
  have hnames : ∀ n ∈ customers.names, QuoteFree n := by
    decide +kernel
  have htext : standardSession.statementText customers =
      .ok "SELECT id FROM customer WHERE name = 'O''Hara'" :=
    toOption_eq_some_iff.mp (by decide +kernel)
  have hwritten : ∀ name : String, (customersNamed name).written =
      [([2, 1], .string name)] := fun _ => rfl
  have halike : ∀ name : String, customers.Alike (customersNamed name) :=
    fun _ => rfl
  refine ⟨hs, hnames, ?_⟩
  -- The query is written, so the second case holds.
  rcases Session.strings_stay_quoted hs hnames with
    ⟨e, herror⟩ | ⟨skeleton, hnodes, howns, hread⟩
  · cases htext.symm.trans (herror customers rfl)
  · refine ⟨skeleton, (hnodes [2, 1]).mpr ⟨"O'Hara", ?_⟩, howns,
      fun name => hread (customersNamed name) (halike name)⟩
    rw [hwritten]
    exact List.mem_cons_self

end Statements

end SchemaEvolution
