import Mathlib.Data.List.Nodup
import SchemaEvolution.Proofs.Sql.Literals

/-!
# `SchemaEvolution.Proofs.Sql.Refill`: new contents for string literals

A `Refill` is a string for each place. It becomes the content of the
string literal at that place, if there is one there, and all other
literals are left alone. Two statements are `Alike` when they differ in
nothing but the contents of their string literals: when they are the same
with no contents at all.

The facts about refills come once for each kind of syntax, by its
recursion: which substitutions change nothing, that the second of two
refills is the one that counts, what literals there are after a refill,
and that no two literals have one place.

* `Statement.refill_refill`: of two refills, the second counts.
* `Statement.written_refill`: a refill puts its string at every place, and
  moves no literal.
* `Statement.places_nodup`: no two literals have one place, so that a
  refill may choose their strings one by one.
* `Statement.string_mem_written_iff`: a string that is written is the only
  one at its place.
* `Statement.alike_iff`: the statements that are like another one are its
  refills.
-/

set_option autoImplicit false

namespace SchemaEvolution

/-- New contents for the string literals, by their places. -/
abbrev Refill := Place → String

/-- The new contents beneath a branch. -/
def Refill.under (f : Refill) (i : Nat) : Refill :=
  fun place => f (i :: place)

/-- The literal with another content, if it is a string. -/
def Literal.refill (content : String) : Literal → Literal
  | .string _ => .string content
  | l => l

/-- What a refill puts in the places of literals. -/
def Refill.substitution (f : Refill) : Substitution :=
  fun place l => .literal (l.refill (f place))

/-- Going beneath a branch and putting in the contents can be done in either
order. -/
@[simp]
theorem Refill.substitution_under (f : Refill) (i : Nat) :
    f.substitution.under i = (f.under i).substitution := rfl

/-- The statement with new contents in its string literals. -/
def Statement.refill (f : Refill) (st : Statement) : Statement :=
  st.substitute f.substitution

/-- The statements differ in nothing but the contents of their string
literals. -/
def Statement.Alike (st st' : Statement) : Prop :=
  st.refill (fun _ => "") = st'.refill (fun _ => "")

/-! ### Substitutions that change nothing -/

/-- The substitution leaves each of the literals in its place. -/
def Substitution.Keeps (g : Substitution) (ls : Literals) : Prop :=
  ∀ place l, (place, l) ∈ ls → g place l = .literal l

/-- What leaves the literals of two parts leaves those of both. -/
@[simp]
theorem Substitution.keeps_append {g : Substitution} {ls ms : Literals} :
    g.Keeps (ls ++ ms) ↔ g.Keeps ls ∧ g.Keeps ms := by
  constructor
  · exact fun h => ⟨fun place l hl => h place l (List.mem_append_left _ hl),
      fun place l hl => h place l (List.mem_append_right _ hl)⟩
  · rintro ⟨hls, hms⟩ place l hl
    rcases List.mem_append.mp hl with hl | hl
    · exact hls place l hl
    · exact hms place l hl

/-- A substitution leaves what is beneath a branch if the one beneath that
branch does. -/
@[simp]
theorem Substitution.keeps_beneath {g : Substitution} {ls : Literals}
    {i : Nat} : g.Keeps (ls.beneath i) ↔ (g.under i).Keeps ls := by
  constructor
  · exact fun h place l hl => h _ l (List.mem_map.mpr ⟨_, hl, rfl⟩)
  · intro h place l hl
    obtain ⟨⟨rest, l⟩, hmem, heq⟩ := List.mem_map.mp hl
    cases heq
    exact h rest l hmem

mutual

/-- An expression is not changed by what leaves its literals in their
places. -/
theorem Expr.substitute_of_keeps : ∀ (g : Substitution) (e : Expr),
    g.Keeps e.literals → e.substitute g = e
  | _, .field _, _ => rfl
  | _, .literal l, h => h [] l List.mem_cons_self
  | g, .call _ args, h => by
      rw [Expr.substitute, Expr.substituteList_of_keeps g args h]
  | g, .cast e _ _ _, h => by
      rw [Expr.substitute, Expr.substitute_of_keeps g e h]
  | g, .arithmetic _ left right, h => by
      simp only [Expr.literals, Substitution.keeps_append,
        Substitution.keeps_beneath] at h
      rw [Expr.substitute, Expr.substitute_of_keeps _ left h.1,
        Expr.substitute_of_keeps _ right h.2]
  | g, .concat parts, h => by
      rw [Expr.substitute, Expr.substituteList_of_keeps g parts h]
  | g, .aliased e _, h => by
      rw [Expr.substitute, Expr.substitute_of_keeps g e h]

/-- Nor are expressions in a row. -/
theorem Expr.substituteList_of_keeps :
    ∀ (g : Substitution) (es : List Expr),
    g.Keeps (Expr.literalsList es) → Expr.substituteList g es = es
  | _, [], _ => rfl
  | g, e :: rest, h => by
      simp only [Expr.literalsList, Substitution.keeps_append,
        Substitution.keeps_beneath] at h
      rw [Expr.substituteList, Expr.substitute_of_keeps _ e h.1,
        Expr.substituteList_of_keeps _ rest h.2]

end

mutual

/-- A condition is not changed by what leaves its literals in their
places. -/
theorem Criterion.substitute_of_keeps :
    ∀ (g : Substitution) (c : Criterion),
    g.Keeps c.literals → c.substitute g = c
  | _, .compare _ left right, h => by
      simp only [Criterion.literals, Substitution.keeps_append,
        Substitution.keeps_beneath] at h
      rw [Criterion.substitute, left.substitute_of_keeps _ h.1,
        right.substitute_of_keeps _ h.2]
  | g, .isNull e, h => by
      rw [Criterion.substitute, e.substitute_of_keeps g h]
  | g, .isNotNull e, h => by
      rw [Criterion.substitute, e.substitute_of_keeps g h]
  | _, .isIn e values, h => by
      simp only [Criterion.literals, Substitution.keeps_append,
        Substitution.keeps_beneath] at h
      rw [Criterion.substitute, e.substitute_of_keeps _ h.1,
        Expr.substituteList_of_keeps _ values h.2]
  | g, .all cs, h => by
      rw [Criterion.substitute, Criterion.substituteList_of_keeps g cs h]
  | g, .any cs, h => by
      rw [Criterion.substitute, Criterion.substituteList_of_keeps g cs h]
  | g, .not c, h => by
      rw [Criterion.substitute, Criterion.substitute_of_keeps g c h]

/-- Nor are conditions in a row. -/
theorem Criterion.substituteList_of_keeps :
    ∀ (g : Substitution) (cs : List Criterion),
    g.Keeps (Criterion.literalsList cs) →
    Criterion.substituteList g cs = cs
  | _, [], _ => rfl
  | g, c :: rest, h => by
      simp only [Criterion.literalsList, Substitution.keeps_append,
        Substitution.keeps_beneath] at h
      rw [Criterion.substituteList, Criterion.substitute_of_keeps _ c h.1,
        Criterion.substituteList_of_keeps _ rest h.2]

end

/-- The elements of a list are not changed by what leaves their literals
in their places. -/
theorem substituteEach_of_keeps {α : Type}
    {visit : Substitution → α → α} {literals : α → Literals}
    (h : ∀ (g : Substitution) a, g.Keeps (literals a) → visit g a = a)
    {g : Substitution} {as : List α}
    (has : g.Keeps (literalsOfEach literals as)) :
    substituteEach visit g as = as := by
  induction as generalizing g with
  | nil => rfl
  | cons a rest ih =>
      simp only [literalsOfEach, Substitution.keeps_append,
        Substitution.keeps_beneath] at has
      rw [substituteEach, h _ a has.1, ih has.2]

/-- Nor is a condition that may be there or not. -/
theorem Criterion.map_substitute_of_keeps {g : Substitution}
    {c : Option Criterion} (h : g.Keeps (conditionLiterals c)) :
    c.map (Criterion.substitute g) = c := by
  cases c with
  | none => rfl
  | some c => rw [Option.map_some, c.substitute_of_keeps g h]

/-- A query is not changed by what leaves its literals in their
places. -/
theorem Select.substitute_of_keeps {g : Substitution} {q : Select}
    (h : g.Keeps q.literals) : q.substitute g = q := by
  simp only [Select.literals, Substitution.keeps_append,
    Substitution.keeps_beneath] at h
  obtain ⟨⟨⟨⟨⟨hfields, hjoins⟩, hfilter⟩, hgroups⟩, hhaving⟩, horder⟩ := h
  have hjoin : ∀ (g : Substitution) (j : Join),
      g.Keeps j.literals → j.substitute g = j := fun g j hj => by
    rw [Join.substitute, j.criterion.substitute_of_keeps g hj]
  have hkey : ∀ (g : Substitution) (k : SortKey),
      g.Keeps k.literals → k.substitute g = k := fun g k hk => by
    rw [SortKey.substitute, k.expr.substitute_of_keeps g hk]
  rw [Select.substitute, Expr.substituteList_of_keeps _ _ hfields,
    substituteEach_of_keeps hjoin hjoins,
    Criterion.map_substitute_of_keeps hfilter,
    Expr.substituteList_of_keeps _ _ hgroups,
    Criterion.map_substitute_of_keeps hhaving,
    substituteEach_of_keeps hkey horder]

/-- A statement is not changed by what leaves its literals in their
places. -/
theorem Statement.substitute_of_keeps {g : Substitution}
    {st : Statement} (h : g.Keeps st.literals) : st.substitute g = st := by
  cases st with
  | select q => rw [Statement.substitute, Select.substitute_of_keeps h]
  | merge m =>
      simp only [Statement.literals, Substitution.keeps_append,
        Substitution.keeps_beneath] at h
      rw [Statement.substitute, Select.substitute_of_keeps h.1,
        Expr.substituteList_of_keeps _ _ h.2]
  | insert i =>
      obtain ⟨target, columns, values | q⟩ := i
      · simp only [Statement.substitute, InsertSource.substitute,
          Expr.substituteList_of_keeps g values h]
      · simp only [Statement.substitute, InsertSource.substitute,
          Select.substitute_of_keeps (q := q) h]
  | update u =>
      simp only [Statement.literals, Substitution.keeps_append,
        Substitution.keeps_beneath] at h
      rw [Statement.substitute, Expr.substituteList_of_keeps _ _ h.1,
        Criterion.map_substitute_of_keeps h.2]
  | delete d =>
      rw [Statement.substitute, Criterion.map_substitute_of_keeps h]

/-! ### One refill after another -/

mutual

/-- Of two refills of an expression, the second counts. -/
theorem Expr.refill_refill : ∀ (f g : Refill) (e : Expr),
    (e.substitute f.substitution).substitute g.substitution =
      e.substitute g.substitution
  | _, _, .field _ => rfl
  | _, _, .literal l => by cases l <;> rfl
  | f, g, .call _ args => by
      simp only [Expr.substitute, Expr.refillList_refillList f g args]
  | f, g, .cast e _ _ _ => by
      simp only [Expr.substitute, Expr.refill_refill f g e]
  | f, g, .arithmetic _ left right => by
      simp only [Expr.substitute, Refill.substitution_under,
        Expr.refill_refill (f.under 0) (g.under 0) left,
        Expr.refill_refill (f.under 1) (g.under 1) right]
  | f, g, .concat parts => by
      simp only [Expr.substitute, Expr.refillList_refillList f g parts]
  | f, g, .aliased e _ => by
      simp only [Expr.substitute, Expr.refill_refill f g e]

/-- So it does for expressions in a row. -/
theorem Expr.refillList_refillList :
    ∀ (f g : Refill) (es : List Expr),
    Expr.substituteList g.substitution
        (Expr.substituteList f.substitution es) =
      Expr.substituteList g.substitution es
  | _, _, [] => rfl
  | f, g, e :: rest => by
      simp only [Expr.substituteList, Refill.substitution_under,
        Expr.refill_refill (f.under 0) (g.under 0) e,
        Expr.refillList_refillList (f.under 1) (g.under 1) rest]

end

mutual

/-- Of two refills of a condition, the second counts. -/
theorem Criterion.refill_refill : ∀ (f g : Refill) (c : Criterion),
    (c.substitute f.substitution).substitute g.substitution =
      c.substitute g.substitution
  | _, _, .compare _ _ _ => by
      simp only [Criterion.substitute, Refill.substitution_under,
        Expr.refill_refill]
  | f, g, .isNull e => by
      simp only [Criterion.substitute, Expr.refill_refill f g e]
  | f, g, .isNotNull e => by
      simp only [Criterion.substitute, Expr.refill_refill f g e]
  | _, _, .isIn _ _ => by
      simp only [Criterion.substitute, Refill.substitution_under,
        Expr.refill_refill, Expr.refillList_refillList]
  | f, g, .all cs => by
      simp only [Criterion.substitute,
        Criterion.refillList_refillList f g cs]
  | f, g, .any cs => by
      simp only [Criterion.substitute,
        Criterion.refillList_refillList f g cs]
  | f, g, .not c => by
      simp only [Criterion.substitute, Criterion.refill_refill f g c]

/-- So it does for conditions in a row. -/
theorem Criterion.refillList_refillList :
    ∀ (f g : Refill) (cs : List Criterion),
    Criterion.substituteList g.substitution
        (Criterion.substituteList f.substitution cs) =
      Criterion.substituteList g.substitution cs
  | _, _, [] => rfl
  | f, g, c :: rest => by
      simp only [Criterion.substituteList, Refill.substitution_under,
        Criterion.refill_refill (f.under 0) (g.under 0) c,
        Criterion.refillList_refillList (f.under 1) (g.under 1) rest]

end

/-- So it does for the elements of any list. -/
theorem substituteEach_refill_refill {α : Type}
    {visit : Substitution → α → α}
    (h : ∀ (f g : Refill) a,
      visit g.substitution (visit f.substitution a) =
        visit g.substitution a)
    (f g : Refill) (as : List α) :
    substituteEach visit g.substitution
        (substituteEach visit f.substitution as) =
      substituteEach visit g.substitution as := by
  induction as generalizing f g with
  | nil => rfl
  | cons a rest ih =>
      simp only [substituteEach, Refill.substitution_under, h, ih]

/-- So it does for a condition that may be there or not. -/
theorem Criterion.map_refill_refill (f g : Refill)
    (c : Option Criterion) :
    (c.map (Criterion.substitute f.substitution)).map
        (Criterion.substitute g.substitution) =
      c.map (Criterion.substitute g.substitution) := by
  cases c with
  | none => rfl
  | some c =>
      simp only [Option.map_some, Criterion.refill_refill f g c]

/-- Of two refills of a query, the second counts. -/
theorem Select.refill_refill (f g : Refill) (q : Select) :
    (q.substitute f.substitution).substitute g.substitution =
      q.substitute g.substitution := by
  have hjoin : ∀ (f g : Refill) (j : Join),
      (j.substitute f.substitution).substitute g.substitution =
        j.substitute g.substitution := fun f g j => by
    simp only [Join.substitute, Criterion.refill_refill]
  have hkey : ∀ (f g : Refill) (k : SortKey),
      (k.substitute f.substitution).substitute g.substitution =
        k.substitute g.substitution := fun f g k => by
    simp only [SortKey.substitute, Expr.refill_refill]
  simp only [Select.substitute, Refill.substitution_under,
    Expr.refillList_refillList, substituteEach_refill_refill hjoin,
    substituteEach_refill_refill hkey, Criterion.map_refill_refill]

/-- Of two refills, the second counts. -/
theorem Statement.refill_refill (f g : Refill) (st : Statement) :
    (st.refill f).refill g = st.refill g := by
  unfold Statement.refill
  cases st with
  | select q => simp only [Statement.substitute, Select.refill_refill]
  | merge m =>
      simp only [Statement.substitute, Refill.substitution_under,
        Select.refill_refill, Expr.refillList_refillList]
  | insert i =>
      obtain ⟨target, columns, values | q⟩ := i
      · simp only [Statement.substitute, InsertSource.substitute,
          Expr.refillList_refillList]
      · simp only [Statement.substitute, InsertSource.substitute,
          Select.refill_refill]
  | update u =>
      simp only [Statement.substitute, Refill.substitution_under,
        Expr.refillList_refillList, Criterion.map_refill_refill]
  | delete d =>
      simp only [Statement.substitute, Criterion.map_refill_refill]

/-! ### The literals after a refill -/

/-- The literals with new contents in the strings. -/
def Literals.refill (f : Refill) (ls : Literals) : Literals :=
  ls.map fun l => (l.1, l.2.refill (f l.1))

namespace Literals

/-- The literals of two parts are refilled part by part. -/
theorem refill_append (f : Refill) (ls ms : Literals) :
    refill f (ls ++ ms) = refill f ls ++ refill f ms :=
  List.map_append

/-- What is beneath a branch gets the contents beneath that branch. -/
theorem refill_beneath (f : Refill) (ls : Literals) (i : Nat) :
    refill f (ls.beneath i) = (refill (f.under i) ls).beneath i := by
  unfold refill beneath
  rw [List.map_map, List.map_map]
  rfl

/-- Where a string was, there is the new one. -/
theorem mem_refill_of_string {f : Refill} {ls : Literals} {place : Place}
    {s : String} (h : (place, .string s) ∈ ls) :
    (place, .string (f place)) ∈ ls.refill f :=
  List.mem_map.mpr ⟨_, h, rfl⟩

end Literals

mutual

/-- The literals of an expression after a refill. -/
theorem Expr.literals_refill : ∀ (f : Refill) (e : Expr),
    (e.substitute f.substitution).literals = e.literals.refill f
  | _, .field _ => rfl
  | _, .literal _ => rfl
  | f, .call _ args => by
      simp only [Expr.substitute, Expr.literals,
        Expr.literalsList_refill f args]
  | f, .cast e _ _ _ => by
      simp only [Expr.substitute, Expr.literals, Expr.literals_refill f e]
  | f, .arithmetic _ left right => by
      simp only [Expr.substitute, Expr.literals, Refill.substitution_under,
        Expr.literals_refill (f.under 0) left,
        Expr.literals_refill (f.under 1) right, Literals.refill_append,
        Literals.refill_beneath]
  | f, .concat parts => by
      simp only [Expr.substitute, Expr.literals,
        Expr.literalsList_refill f parts]
  | f, .aliased e _ => by
      simp only [Expr.substitute, Expr.literals, Expr.literals_refill f e]

/-- The literals of expressions in a row after a refill. -/
theorem Expr.literalsList_refill : ∀ (f : Refill) (es : List Expr),
    Expr.literalsList (Expr.substituteList f.substitution es) =
      (Expr.literalsList es).refill f
  | _, [] => rfl
  | f, e :: rest => by
      simp only [Expr.substituteList, Expr.literalsList,
        Refill.substitution_under, Expr.literals_refill (f.under 0) e,
        Expr.literalsList_refill (f.under 1) rest,
        Literals.refill_append, Literals.refill_beneath]

end

mutual

/-- The literals of a condition after a refill. -/
theorem Criterion.literals_refill : ∀ (f : Refill) (c : Criterion),
    (c.substitute f.substitution).literals = c.literals.refill f
  | _, .compare _ _ _ => by
      simp only [Criterion.substitute, Criterion.literals,
        Refill.substitution_under, Expr.literals_refill,
        Literals.refill_append, Literals.refill_beneath]
  | f, .isNull e => Expr.literals_refill f e
  | f, .isNotNull e => Expr.literals_refill f e
  | _, .isIn _ _ => by
      simp only [Criterion.substitute, Criterion.literals,
        Refill.substitution_under, Expr.literals_refill,
        Expr.literalsList_refill, Literals.refill_append,
        Literals.refill_beneath]
  | f, .all cs => by
      simp only [Criterion.substitute, Criterion.literals,
        Criterion.literalsList_refill f cs]
  | f, .any cs => by
      simp only [Criterion.substitute, Criterion.literals,
        Criterion.literalsList_refill f cs]
  | f, .not c => by
      simp only [Criterion.substitute, Criterion.literals,
        Criterion.literals_refill f c]

/-- The literals of conditions in a row after a refill. -/
theorem Criterion.literalsList_refill :
    ∀ (f : Refill) (cs : List Criterion),
    Criterion.literalsList (Criterion.substituteList f.substitution cs) =
      (Criterion.literalsList cs).refill f
  | _, [] => rfl
  | f, c :: rest => by
      simp only [Criterion.substituteList, Criterion.literalsList,
        Refill.substitution_under, Criterion.literals_refill (f.under 0) c,
        Criterion.literalsList_refill (f.under 1) rest,
        Literals.refill_append, Literals.refill_beneath]

end

/-- The literals of the elements of any list after a refill. -/
theorem literalsOfEach_refill {α : Type} {visit : Substitution → α → α}
    {literals : α → Literals}
    (h : ∀ (f : Refill) a,
      literals (visit f.substitution a) = (literals a).refill f)
    (f : Refill) (as : List α) :
    literalsOfEach literals (substituteEach visit f.substitution as) =
      (literalsOfEach literals as).refill f := by
  induction as generalizing f with
  | nil => rfl
  | cons a rest ih =>
      simp only [substituteEach, literalsOfEach,
        Refill.substitution_under, h, ih, Literals.refill_append,
        Literals.refill_beneath]

/-- The literals of a condition that may be there or not. -/
theorem conditionLiterals_refill (f : Refill) (c : Option Criterion) :
    conditionLiterals (c.map (Criterion.substitute f.substitution)) =
      (conditionLiterals c).refill f := by
  cases c with
  | none => rfl
  | some c => exact Criterion.literals_refill f c

/-- The literals of a query after a refill. -/
theorem Select.literals_refill (f : Refill) (q : Select) :
    (q.substitute f.substitution).literals = q.literals.refill f := by
  have hjoin : ∀ (f : Refill) (j : Join),
      (j.substitute f.substitution).literals = j.literals.refill f :=
    fun f j => Criterion.literals_refill f j.criterion
  have hkey : ∀ (f : Refill) (k : SortKey),
      (k.substitute f.substitution).literals = k.literals.refill f :=
    fun f k => Expr.literals_refill f k.expr
  simp only [Select.substitute, Select.literals,
    Refill.substitution_under, Expr.literalsList_refill,
    literalsOfEach_refill hjoin, literalsOfEach_refill hkey,
    conditionLiterals_refill, Literals.refill_append,
    Literals.refill_beneath]

/-- A refill puts at every place the string that it gives for it, and
moves no literal. -/
theorem Statement.literals_refill (f : Refill) (st : Statement) :
    (st.refill f).literals = st.literals.refill f := by
  cases st with
  | select q => exact Select.literals_refill f q
  | merge m =>
      simp only [Statement.refill, Statement.substitute,
        Statement.literals, Refill.substitution_under,
        Select.literals_refill, Expr.literalsList_refill,
        Literals.refill_append, Literals.refill_beneath]
  | insert i =>
      simp only [Statement.refill, Statement.substitute,
        Statement.literals]
      cases i.source with
      | values es => exact Expr.literalsList_refill f es
      | select q => exact Select.literals_refill f q
  | update u =>
      simp only [Statement.refill, Statement.substitute,
        Statement.literals, Refill.substitution_under,
        Expr.literalsList_refill, conditionLiterals_refill,
        Literals.refill_append, Literals.refill_beneath]
  | delete d => exact conditionLiterals_refill f d.filter

/-- So it is with the literals that are written. -/
theorem Statement.written_refill (f : Refill) (st : Statement) :
    (st.refill f).written = st.written.refill f := by
  cases st with
  | merge m =>
      simp only [Statement.refill, Statement.substitute, Statement.written,
        Refill.substitution_under, Select.literals_refill,
        Literals.refill_beneath]
  | select q => exact Statement.literals_refill f (.select q)
  | insert i => exact Statement.literals_refill f (.insert i)
  | update u => exact Statement.literals_refill f (.update u)
  | delete d => exact Statement.literals_refill f (.delete d)

/-! ### The places of literals -/

namespace Literals

/-- The places of literals. -/
def places (ls : Literals) : List Place := ls.map fun l => l.1

/-- The places in lists put together are those in each of them. -/
theorem places_append (ls ms : Literals) :
    places (ls ++ ms) = places ls ++ places ms :=
  List.map_append

/-- The places beneath a branch begin with its number. -/
theorem places_beneath (ls : Literals) (i : Nat) :
    places (ls.beneath i) = (places ls).map (i :: ·) := by
  unfold places beneath
  rw [List.map_map, List.map_map]
  rfl

/-- Beneath a branch, places differ as they did before. -/
theorem nodup_beneath {ls : Literals} (i : Nat) (h : ls.places.Nodup) :
    (ls.beneath i).places.Nodup := by
  rw [places_beneath]
  refine List.pairwise_map.mpr (h.imp fun hne heq => hne ?_)
  exact (List.cons.inj heq).2

/-- The places differ, and they are beneath the first `n` branches. -/
structure Branching (n : Nat) (ls : Literals) : Prop where
  nodup : ls.places.Nodup
  below : ∀ place ∈ ls.places, ∃ i rest, i < n ∧ place = i :: rest

/-- The literals beneath the first branch. -/
theorem Branching.first {ls : Literals} (h : ls.places.Nodup) :
    Branching 1 (ls.beneath 0) := by
  refine ⟨nodup_beneath 0 h, fun place hplace => ?_⟩
  rw [places_beneath] at hplace
  obtain ⟨rest, -, rfl⟩ := List.mem_map.mp hplace
  exact ⟨0, rest, Nat.one_pos, rfl⟩

/-- The literals beneath one more branch. -/
theorem Branching.append {n : Nat} {ls ms : Literals}
    (h : Branching n ls) (hms : ms.places.Nodup) :
    Branching (n + 1) (ls ++ ms.beneath n) := by
  constructor
  · rw [places_append, List.nodup_append]
    refine ⟨h.nodup, nodup_beneath n hms, ?_⟩
    intro p hp q hq hpq
    -- A place beneath one of the first `n` branches begins with a smaller
    -- number than one beneath branch `n`.
    obtain ⟨i, rest, hi, rfl⟩ := h.below p hp
    rw [places_beneath] at hq
    obtain ⟨rest', -, rfl⟩ := List.mem_map.mp hq
    have hin : i = n := (List.cons.inj hpq).1
    omega
  · intro place hplace
    rw [places_append, places_beneath] at hplace
    rcases List.mem_append.mp hplace with hplace | hplace
    · obtain ⟨i, rest, hi, rfl⟩ := h.below place hplace
      exact ⟨i, rest, Nat.lt_succ_of_lt hi, rfl⟩
    · obtain ⟨rest, -, rfl⟩ := List.mem_map.mp hplace
      exact ⟨n, rest, Nat.lt_succ_self n, rfl⟩

/-- No two literals beneath two branches have one place. -/
theorem nodup_branches {ls ms : Literals} (hls : ls.places.Nodup)
    (hms : ms.places.Nodup) :
    (ls.beneath 0 ++ ms.beneath 1).places.Nodup :=
  ((Branching.first hls).append hms).nodup

end Literals

mutual

/-- No two literals of an expression have one place. -/
theorem Expr.places_nodup : ∀ e : Expr, e.literals.places.Nodup
  | .field _ => .nil
  | .literal _ => List.pairwise_singleton _ _
  | .call _ args => Expr.placesList_nodup args
  | .cast e _ _ _ => Expr.places_nodup e
  | .arithmetic _ left right =>
      Literals.nodup_branches (Expr.places_nodup left)
        (Expr.places_nodup right)
  | .concat parts => Expr.placesList_nodup parts
  | .aliased e _ => Expr.places_nodup e

/-- Nor do two literals of expressions in a row. -/
theorem Expr.placesList_nodup :
    ∀ es : List Expr, (Expr.literalsList es).places.Nodup
  | [] => .nil
  | e :: rest =>
      Literals.nodup_branches (Expr.places_nodup e)
        (Expr.placesList_nodup rest)

end

mutual

/-- No two literals of a condition have one place. -/
theorem Criterion.places_nodup : ∀ c : Criterion, c.literals.places.Nodup
  | .compare _ left right =>
      Literals.nodup_branches left.places_nodup right.places_nodup
  | .isNull e => e.places_nodup
  | .isNotNull e => e.places_nodup
  | .isIn e values =>
      Literals.nodup_branches e.places_nodup (Expr.placesList_nodup values)
  | .all cs => Criterion.placesList_nodup cs
  | .any cs => Criterion.placesList_nodup cs
  | .not c => Criterion.places_nodup c

/-- Nor do two literals of conditions in a row. -/
theorem Criterion.placesList_nodup :
    ∀ cs : List Criterion, (Criterion.literalsList cs).places.Nodup
  | [] => .nil
  | c :: rest =>
      Literals.nodup_branches (Criterion.places_nodup c)
        (Criterion.placesList_nodup rest)

end

/-- Nor do two literals of the elements of any list. -/
theorem nodup_literalsOfEach {α : Type} {literals : α → Literals}
    (h : ∀ a, (literals a).places.Nodup) (as : List α) :
    (literalsOfEach literals as).places.Nodup := by
  induction as with
  | nil => exact .nil
  | cons a rest ih => exact Literals.nodup_branches (h a) ih

/-- Nor do two literals of a condition that may be there or not. -/
theorem nodup_conditionLiterals (c : Option Criterion) :
    (conditionLiterals c).places.Nodup := by
  cases c with
  | none => exact .nil
  | some c => exact c.places_nodup

/-- No two literals of a query have one place. -/
theorem Select.places_nodup (q : Select) : q.literals.places.Nodup := by
  have hjoins := nodup_literalsOfEach
    (fun j : Join => j.criterion.places_nodup) q.joins
  have hkeys := nodup_literalsOfEach
    (fun k : SortKey => k.expr.places_nodup) q.orderBy
  exact ((((((Literals.Branching.first
    (Expr.placesList_nodup q.fields)).append hjoins).append
    (nodup_conditionLiterals q.filter)).append
    (Expr.placesList_nodup q.groupBy)).append
    (nodup_conditionLiterals q.having)).append hkeys).nodup

/-- No two literals of a statement have one place, so that a refill can
choose their strings one by one. -/
theorem Statement.places_nodup (st : Statement) :
    st.literals.places.Nodup := by
  cases st with
  | select q => exact q.places_nodup
  | merge m =>
      exact Literals.nodup_branches m.source.places_nodup
        (Expr.placesList_nodup m.key)
  | insert i =>
      rw [Statement.literals]
      cases i.source with
      | values es => exact Expr.placesList_nodup es
      | select q => exact q.places_nodup
  | update u =>
      exact Literals.nodup_branches (Expr.placesList_nodup u.assignments)
        (nodup_conditionLiterals u.filter)
  | delete d => exact nodup_conditionLiterals d.filter

/-! ### Statements that are alike -/

/-- The content of the string literal at a place, if there is one. -/
def Literals.content (ls : Literals) (place : Place) : String :=
  match ls.lookup place with
  | some (.string s) => s
  | _ => ""

/-- A literal is found at its place, since there is no other. -/
theorem Literals.lookup_of_mem {ls : Literals} (h : ls.places.Nodup)
    {place : Place} {l : Literal} (hl : (place, l) ∈ ls) :
    ls.lookup place = some l := by
  obtain ⟨front, back, rfl⟩ := List.append_of_mem hl
  refine List.lookup_eq_some_iff.mpr ⟨front, back, rfl, fun p hp => ?_⟩
  rw [places_append, List.nodup_append] at h
  have hne : p.1 ≠ place := h.2.2 p.1 (List.mem_map_of_mem hp) place
    List.mem_cons_self
  simpa using Ne.symm hne

/-- What is written of a statement are literals of it. -/
theorem Statement.written_subset (st : Statement) :
    st.written ⊆ st.literals := by
  cases st with
  | merge m => exact List.subset_append_left _ _
  | select q => exact List.Subset.refl _
  | insert i => exact List.Subset.refl _
  | update u => exact List.Subset.refl _
  | delete d => exact List.Subset.refl _

/-- A string literal that is written is the only one at its place. -/
theorem Statement.string_mem_written_iff {st : Statement} {place : Place}
    {s : String} (h : (place, .string s) ∈ st.written) (x : String) :
    (place, .string x) ∈ st.written ↔ x = s := by
  constructor
  · intro hx
    have hfound :=
      Literals.lookup_of_mem st.places_nodup (st.written_subset h)
    have hfound' :=
      Literals.lookup_of_mem st.places_nodup (st.written_subset hx)
    exact Literal.string.inj (Option.some.inj (hfound'.symm.trans hfound))
  · rintro rfl
    exact h

/-- A statement is the refill of itself with its own contents. -/
theorem Statement.refill_content (st : Statement) :
    st.refill st.literals.content = st := by
  refine Statement.substitute_of_keeps fun place l hl => ?_
  have hlookup := Literals.lookup_of_mem st.places_nodup hl
  unfold Refill.substitution Literals.content
  rw [hlookup]
  cases l <;> rfl

/-- The statements that are like another one are its refills. -/
theorem Statement.alike_iff {st st' : Statement} :
    st.Alike st' ↔ ∃ f : Refill, st' = st.refill f := by
  constructor
  · intro h
    refine ⟨st'.literals.content, ?_⟩
    calc st' = st'.refill st'.literals.content := st'.refill_content.symm
      _ = (st'.refill fun _ => "").refill st'.literals.content :=
          (st'.refill_refill _ _).symm
      _ = (st.refill fun _ => "").refill st'.literals.content := by rw [h]
      _ = st.refill st'.literals.content := st.refill_refill _ _
  · rintro ⟨f, rfl⟩
    exact (st.refill_refill f _).symm

end SchemaEvolution
