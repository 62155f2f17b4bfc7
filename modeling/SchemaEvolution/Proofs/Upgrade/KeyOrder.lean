import SchemaEvolution.Proofs.Schema.PrimaryKey
import SchemaEvolution.Proofs.Upgrade.Snapshot

/-!
# `SchemaEvolution.Proofs.Upgrade.KeyOrder`: a key in the order it is asked for

A primary key is asked for by a list of names, in any spelling and with any
repetitions. What counts is where a name is mentioned first. The key that
the table has afterwards is read off its columns, so that the columns have
to be put into that order, while the others stay where they are.

* `firstMentions`: the names of a list without their later repetitions.
* `Table.map_some_columnsNamed`: the columns that are collected for a key
  are those that are found under these names, one for each.
* `filter_fillKey`, `getElem?_fillKey`: the places of a key hold what was
  put into them, and every other place holds what it held.
* `Snapshot.key_as_requested`: the key is the one that was asked for.
-/

set_option autoImplicit false

namespace SchemaEvolution

open SchemaEvolution.Text

/-! ### Names that are mentioned more than once -/

/-- The names without later repetitions, case aside, as they are spelled
where they come first. -/
def firstMentions : List String → List String
  | [] => []
  | n :: rest => n :: (firstMentions rest).filter fun m => !SameName m n

/-- A last name is mentioned for the first time unless it was mentioned
before. -/
theorem firstMentions_concat (names : List String) (n : String) :
    firstMentions (names ++ [n]) =
      if ∃ m ∈ firstMentions names, SameName m n then firstMentions names
      else firstMentions names ++ [n] := by
  induction names with
  | nil => simp [firstMentions]
  | cons first rest ih =>
      -- The names are taken from the front, so the new one is last in every
      -- case.
      rw [List.cons_append, firstMentions, ih, firstMentions]
      by_cases hrest : ∃ m ∈ firstMentions rest, SameName m n
      · -- The earlier mention is passed over only if the first name is one.
        obtain ⟨m, hm, hmn⟩ := hrest
        rw [if_pos ⟨m, hm, hmn⟩, if_pos]
        by_cases hfirst : SameName m first
        · exact ⟨first, List.mem_cons_self, hfirst.symm.trans hmn⟩
        · exact ⟨m, by simp [hm, hfirst], hmn⟩
      · -- It is a mention of its own unless it is the first name again.
        rw [if_neg hrest, List.filter_append]
        by_cases hfirst : SameName n first
        · rw [if_pos ⟨first, List.mem_cons_self, hfirst.symm⟩]
          simp [hfirst]
        · rw [if_neg]
          · simp [hfirst]
          · rintro ⟨m, hm, hmn⟩
            rcases List.mem_cons.mp hm with rfl | hm
            · exact hfirst hmn.symm
            · exact hrest ⟨m, List.mem_of_mem_filter hm, hmn⟩

/-! ### The places of a key -/

section Places

variable {cs key : List Column}

/-- The places of a key hold what was put into them. -/
theorem filter_fillKey
    (hlength : key.length = (cs.filter Column.inKey).length)
    (hkey : ∀ k ∈ key, k.inKey = true) :
    (Table.fillKey cs key).filter Column.inKey = key := by
  induction cs generalizing key with
  | nil =>
      obtain rfl := List.eq_nil_of_length_eq_zero hlength
      rfl
  | cons c rest ih =>
      cases hc : c.inKey with
      | true =>
          cases key with
          | nil => simp [hc] at hlength
          | cons k key =>
              obtain ⟨hk, hkey⟩ := List.forall_mem_cons.mp hkey
              have hrest : key.length = (rest.filter Column.inKey).length := by
                simpa [hc] using hlength
              simp [Table.fillKey, hc, hk, ih hrest hkey]
      | false =>
          have hrest : key.length = (rest.filter Column.inKey).length := by
            simpa [hc] using hlength
          simp [Table.fillKey, hc, ih hrest hkey]

/-- Every other place holds what it held. -/
theorem getElem?_fillKey {i : Nat} {c : Column} (h : cs[i]? = some c)
    (hc : c.inKey = false) : (Table.fillKey cs key)[i]? = some c := by
  induction cs generalizing i key with
  | nil => simp at h
  | cons d rest ih =>
      cases i with
      | zero =>
          obtain rfl : d = c := by simpa using h
          simp [Table.fillKey, hc]
      | succ i =>
          have hrest : rest[i]? = some c := by simpa using h
          -- Whichever column comes first, the rest is filled with what is
          -- left of the key.
          unfold Table.fillKey
          split
          · split <;> exact ih hrest
          · exact ih hrest

end Places

namespace Table

variable {t : Table} {names : List String}

/-! ### The columns of a key -/

/-- The columns that are collected are found one by one under the names,
each where it is mentioned first. -/
theorem map_some_columnsNamed
    (found : ∀ n ∈ names, (t.column? n).isSome) :
    (t.columnsNamed names).map some = (firstMentions names).map t.column? := by
  induction names using List.reverseRecOn with
  | nil => rfl
  | append_singleton names n ih =>
      have hnames : ∀ m ∈ names, (t.column? m).isSome :=
        fun m hm => found m (List.mem_append_left _ hm)
      obtain ⟨c, hc⟩ := Option.isSome_iff_exists.mp
        (found n (List.mem_append_right _ List.mem_cons_self))
      have hsame : SameName c.name n := (columns_eq_append_of_column? hc).1
      have ih := ih hnames
      rw [columnsNamed_concat_of_some hc, firstMentions_concat]
      -- A name was mentioned before exactly when its column is there.
      have hmentioned : (∃ f ∈ t.columnsNamed names, SameName f.name c.name) ↔
          ∃ m ∈ firstMentions names, SameName m n := by
        constructor
        · rintro ⟨f, hf, hfc⟩
          have hmem : some f ∈ (firstMentions names).map t.column? :=
            ih ▸ List.mem_map_of_mem hf
          obtain ⟨m, hm, hmf⟩ := List.mem_map.mp hmem
          have hfm : SameName f.name m :=
            (columns_eq_append_of_column? hmf).1
          exact ⟨m, hm, hfm.symm.trans (hfc.trans hsame)⟩
        · rintro ⟨m, hm, hmn⟩
          have hmem : t.column? m ∈ (t.columnsNamed names).map some :=
            ih ▸ List.mem_map_of_mem hm
          obtain ⟨f, hf, hfm⟩ := List.mem_map.mp hmem
          have hfname : SameName f.name m :=
            (columns_eq_append_of_column? hfm.symm).1
          exact ⟨f, hf, hfname.trans (hmn.trans hsame.symm)⟩
      by_cases h : ∃ m ∈ firstMentions names, SameName m n
      · rw [if_pos (hmentioned.mpr h), if_pos h, ih]
      · rw [if_neg (mt hmentioned.mp h), if_neg h, List.map_append,
          List.map_append, ih, List.map_singleton, List.map_singleton, hc]

/-- The table with its columns marked for a key. -/
def markedFor (t : Table) (names : List String) : Table :=
  { t with columns := t.columns.map (markKey names) }

/-- A marked column is found under its name. -/
theorem column?_markedFor {n : String} :
    (t.markedFor names).column? n = (t.column? n).map (markKey names) :=
  column?_map (markKey names) (fun _ => rfl) n

/-- A table with a new key has that key: the names that were asked for,
each where it is mentioned first and spelled as it is declared. -/
theorem map_some_primaryKey_withPrimaryKey
    (distinct : DistinctNames Column.name t.columns)
    (found : ∀ n ∈ names, (t.column? n).isSome) :
    (t.withPrimaryKey names).primaryKey.map some =
      (firstMentions names).map fun n => (t.column? n).map Column.name := by
  have hperm : ((t.markedFor names).columnsNamed names).Perm
      ((t.markedFor names).columns.filter Column.inKey) :=
    columnsNamed_marked_perm distinct
  have hkey : ∀ k ∈ (t.markedFor names).columnsNamed names,
      k.inKey = true := fun k hk =>
    (List.mem_filter.mp (hperm.mem_iff.mp hk)).2
  have hfilled : (t.withPrimaryKey names).columns.filter Column.inKey =
      (t.markedFor names).columnsNamed names :=
    filter_fillKey hperm.length_eq hkey
  have hfound : ∀ n ∈ names, ((t.markedFor names).column? n).isSome := by
    intro n hn
    rw [column?_markedFor, Option.isSome_map]
    exact found n hn
  calc (t.withPrimaryKey names).primaryKey.map some
      = (((t.markedFor names).columnsNamed names).map some).map
          (Option.map Column.name) := by
        simp [primaryKey, hfilled]
    _ = (firstMentions names).map fun n => (t.column? n).map Column.name := by
        rw [map_some_columnsNamed hfound, List.map_map]
        refine List.map_congr_left fun n _ => ?_
        -- A mark does not change the name of a column.
        simp [column?_markedFor, Function.comp_def, markKey]

/-- A column is marked when it is asked for. -/
theorem markKey_eq (c : Column) :
    markKey names c =
      { c with inKey := decide (∃ n ∈ names, SameName c.name n) } := by
  have hkey : (markKey names c).inKey =
      decide (∃ n ∈ names, SameName c.name n) := by
    rw [Bool.eq_iff_iff, inKey_markKey_iff, decide_eq_true_iff]
  rw [← hkey]
  rfl

/-- A column that is not asked for stays in its place and is in the key no
more. -/
theorem getElem?_columns_withPrimaryKey {i : Nat} {c : Column}
    (h : t.columns[i]? = some c) (hc : ∀ n ∈ names, ¬ SameName c.name n) :
    (t.withPrimaryKey names).columns[i]? =
      some { c with inKey := false } := by
  have hnone : ¬ ∃ n ∈ names, SameName c.name n :=
    fun ⟨n, hn, hsame⟩ => hc n hn hsame
  have hmark : markKey names c = { c with inKey := false } := by
    rw [markKey_eq, decide_eq_false hnone]
  rw [← hmark]
  refine getElem?_fillKey ?_ (by rw [hmark])
  rw [List.getElem?_map, h]
  rfl

end Table

/-! ### The key of a snapshot's table -/

/-- A primary key is changed to the one that was asked for. The names are
the declared ones of the columns that were named, each of them once and in
the order in which they are first mentioned. The columns are those of
before, with a mark on the ones that were named. A column that was not
named stays in its place. -/
theorem Snapshot.key_as_requested {s next : Snapshot} (wf : s.WellFormed)
    {name : String} {names : List String} {change : SchemaChange}
    (accepted : s.apply (.changePrimaryKey name names) =
      .ok (change, next)) :
    ∃ before after,
      s.table? name = some before ∧ next.table? name = some after ∧
      change = .changePrimaryKey after before.primaryKey after.primaryKey ∧
      after.primaryKey.map some =
        (firstMentions names).map
          (fun n => (before.column? n).map Column.name) ∧
      after.columns.Perm (before.columns.map fun c =>
        { c with inKey := decide (∃ n ∈ names, SameName c.name n) }) ∧
      ∀ (i : Nat) (c : Column), before.columns[i]? = some c →
        (∀ n ∈ names, ¬ SameName c.name n) →
        after.columns[i]? = some { c with inKey := false } := by
  obtain ⟨before, found, hnames, -, rfl, rfl⟩ :=
    apply_changePrimaryKey.mp accepted
  have distinct := wf.distinctNames_of_table? found
  have hname : SameName before.name name :=
    (tables_eq_append_of_table? found).1
  refine ⟨before, _, found, ?_, rfl,
    Table.map_some_primaryKey_withPrimaryKey distinct hnames, ?_,
    fun i c h hc => Table.getElem?_columns_withPrimaryKey h hc⟩
  · -- The table is found under its own name as well as under the given one.
    rw [← table?_congr hname]
    exact wf.table?_withTable found (.inl hname)
  · rw [← funext Table.markKey_eq]
    exact Table.columns_withPrimaryKey_perm distinct

/-- A table with a key of two columns that do not stand together. -/
def trade : Table where
  name := "Trade"
  columns :=
    [{ name := "Id", type := .integer, inKey := true },
     { name := "Day", type := .date },
     { name := "Amount", type := .decimal, width := 12, scale := 2 },
     { name := "Account", type := .integer, inKey := true }]

/-- The table alone. -/
def trades : Snapshot := { tables := [trade] }

/-- A key is asked for with a repetition in another case. One column of the
old key leaves it, one joins it, and the third one does not move. -/
theorem trades_key_as_requested :
    ∃ before after,
      trades.table? "trade" = some before ∧
      (trades.withTable "trade" (trade.withPrimaryKey
        ["ACCOUNT", "day", "account"])).table? "trade" = some after ∧
      after.primaryKey = ["Account", "Day"] ∧
      after.columns.map Column.name = ["Id", "Account", "Amount", "Day"] ∧
      after.columns[0]? =
        some { name := "Id", type := .integer, inKey := false } := by
  have wf : trades.WellFormed := Snapshot.validate_eq_ok_iff.mp
    (toOption_eq_some_iff.mp (by decide +kernel))
  have accepted : trades.apply (.changePrimaryKey "trade"
      ["ACCOUNT", "day", "account"]) =
        .ok (.changePrimaryKey (trade.withPrimaryKey
            ["ACCOUNT", "day", "account"]) trade.primaryKey
            (trade.withPrimaryKey
              ["ACCOUNT", "day", "account"]).primaryKey,
          trades.withTable "trade" (trade.withPrimaryKey
            ["ACCOUNT", "day", "account"])) := by
    refine Snapshot.apply_changePrimaryKey.mpr
      ⟨trade, rfl, by decide +kernel, ?_, rfl, rfl⟩
    exact toOption_eq_some_iff.mp (by decide +kernel)
  -- The key and the places are those that the theorem tells, computed for
  -- this table.
  obtain ⟨before, after, hbefore, hafter, -, hkey, -, hplaces⟩ :=
    Snapshot.key_as_requested wf accepted
  obtain rfl : trade = before := Option.some.inj hbefore
  obtain rfl : trade.withPrimaryKey _ = after := Option.some.inj hafter
  refine ⟨_, _, hbefore, hafter, ?_, by decide +kernel,
    hplaces 0 _ rfl (by decide +kernel)⟩
  exact List.map_injective_iff.mpr (fun _ _ => Option.some.inj)
    (hkey.trans (by decide +kernel))

end SchemaEvolution
