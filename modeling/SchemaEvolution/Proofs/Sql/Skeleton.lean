import SchemaEvolution.Proofs.Sql.Lexer
import SchemaEvolution.Proofs.Sql.Refill
import SchemaEvolution.Proofs.Support.Outcome

/-!
# `SchemaEvolution.Proofs.Sql.Skeleton`: texts with holes for strings

A text that is written from a statement changes with the strings in the
statement. Here such a text is a function of the refill, and its
skeleton says once and for all what it consists of: characters of code,
literals of the writer's own, and literals for string literals of the
statement. A skeleton has code between any two literals.

`Reads ls` says that a text has a skeleton for the literals `ls`, and
`Opens ls` that it has one that does not begin with a literal. Every string
of `ls` has its part in such a skeleton and no other string has one, so the
literals of texts that are put together add up. A text may be followed by
one that opens (`Reads.append`), and a constant that begins and ends with
code may stand before every text (`Opens.of_isJoint_append`). These two
rules are enough for everything that standard SQL writes.

* `Sound.lex_text`: a text with a skeleton is read as the skeleton says.
* `Reads.append`, `Opens.append`, `Opens.of_isJoint_append`,
  `Opens.of_quoteFree`: how texts are put together.
* `ReadsAll.behind`, `ReadsAll.intercalate`: texts with a constant before
  or between them.
* `Uniform.each`: a list is written part by part.
-/

set_option autoImplicit false

namespace SchemaEvolution

/-! ### Texts without quotes -/

/-- There is no quote in the text. -/
def QuoteFree (s : String) : Prop := quote ∉ s.toList

instance (s : String) : Decidable (QuoteFree s) :=
  inferInstanceAs (Decidable (quote ∉ s.toList))

/-- Texts without quotes have none together. -/
theorem QuoteFree.append {s t : String} (hs : QuoteFree s)
    (ht : QuoteFree t) : QuoteFree (s ++ t) := by
  intro hmem
  rw [String.toList_append, List.mem_append] at hmem
  rcases hmem with hmem | hmem
  · exact hs hmem
  · exact ht hmem

/-- A text without quotes is escaped as it is. -/
theorem escape_of_quoteFree {s : String} (h : QuoteFree s) :
    Ansi.escape s = s := by
  rw [← String.toList_inj, toList_escape, escapeChars]
  conv => rhs; rw [← List.flatMap_singleton' s.toList]
  refine List.flatMap_congr fun c hc => if_neg ?_
  rintro rfl
  exact h hc

/-! ### Skeletons -/

/-- A part of a text whose string literals may be refilled. -/
inductive Slot where
  | code (c : Char)
  /-- A literal that the writer puts there itself. -/
  | own (s : String)
  /-- A literal for the string literal at a place. -/
  | node (place : Place)

namespace Slot

/-- Whether a part is a literal. -/
def isLiteral : Slot → Bool
  | .code _ => false
  | .own _ => true
  | .node _ => true

/-- The part after a refill. -/
def token (f : Refill) : Slot → Token
  | .code c => .code c
  | .own s => .literal s
  | .node place => .literal (f place)

/-- The part as it is seen from above a branch. -/
def beneath (i : Nat) : Slot → Slot
  | .node place => .node (i :: place)
  | x => x

/-- A part that no refill changes. -/
def ofToken : Token → Slot
  | .code c => .code c
  | .literal s => .own s

/-- The part is what a text holds of the literals `ls`: where there is one
of them, it is the string at its place, which is the only one there. -/
inductive Holds (ls : Literals) : Slot → Token → Prop
  | code (c : Char) : Holds ls (.code c) (.code c)
  | own (s : String) : Holds ls (.own s) (.literal s)
  | node {place : Place} {s : String}
      (h : ∀ x, (place, .string x) ∈ ls ↔ x = s) :
      Holds ls (.node place) (.literal s)

/-- A token of a text that has no literals of a statement is a literal just
if its slot is one. -/
@[simp]
theorem isLiteral_ofToken (t : Token) :
    (ofToken t).isLiteral = t.isLiteral := by
  cases t <;> rfl

/-- Whatever the contents are, they change no slot into something else. -/
@[simp]
theorem isLiteral_token (f : Refill) (x : Slot) :
    (x.token f).isLiteral = x.isLiteral := by
  cases x <;> rfl

/-- Nor does a branch that the places are beneath. -/
@[simp]
theorem isLiteral_beneath (i : Nat) (x : Slot) :
    (x.beneath i).isLiteral = x.isLiteral := by
  cases x <;> rfl

/-- Beneath a branch, a refill is that beneath the branch. -/
theorem token_beneath (f : Refill) (i : Nat) (x : Slot) :
    (x.beneath i).token f = x.token (f.under i) := by
  cases x <;> rfl

end Slot

/-- The strings in the templates of standard SQL. -/
def templateStrings : List String :=
  [" ", "-", "1", "YYYYMMDD", "YYYYMMDDHH24MISS", "\\"]

/-- A literal that a writer of `ls` may put into a text itself: one of a
template, or the text of a date. -/
def IsOwn (ls : Literals) (s : String) : Prop :=
  s ∈ templateStrings ∨
    ∃ place d, (place, .date d) ∈ ls ∧ s = Calendar.Date.text d

/-- No character of code is a quote, no two literals stand side by side,
there is a literal for each string of `ls` and for no others, and all
other literals may be the writer's own. -/
structure Sound (ls : Literals) (xs : List Slot) : Prop where
  code : ∀ c, .code c ∈ xs → c ≠ quote
  apart : xs.IsChain fun x y => ¬ (x.isLiteral ∧ y.isLiteral)
  nodes : ∀ place, .node place ∈ xs ↔ ∃ s, (place, .string s) ∈ ls
  owns : ∀ s, .own s ∈ xs → IsOwn ls s

/-- After every refill, the text is what the parts are written as. -/
def Spells (t : Refill → String) (xs : List Slot) : Prop :=
  ∀ f, (t f).toList = (xs.map (Slot.token f)).flatMap Token.text

namespace Sound

variable {ls ms : Literals} {xs ys : List Slot} {t : Refill → String}

/-- A skeleton gives tokens that can be read back. -/
theorem wellSpaced (h : Sound ls xs) (f : Refill) :
    WellSpaced (xs.map (Slot.token f)) := by
  constructor
  · intro c hc
    obtain ⟨x, hx, hxc⟩ := List.mem_map.mp hc
    cases x with
    | code d =>
        cases hxc
        exact h.code _ hx
    | own s => cases hxc
    | node place => cases hxc
  · rw [List.isChain_map]
    simpa using h.apart

/-- A text is read as its skeleton says. -/
theorem lex_text (h : Sound ls xs) (spells : Spells t xs) (f : Refill) :
    lex .doubled .outside (t f).toList =
      some (xs.map (Slot.token f)) := by
  rw [spells f]
  exact SchemaEvolution.lex_text (h.wellSpaced f)

/-- A skeleton for some literals is one for others that hold the same
strings, and no fewer dates. -/
theorem congr (h : Sound ls xs)
    (hstrings : ∀ place s,
      (place, .string s) ∈ ls ↔ (place, .string s) ∈ ms)
    (hdates : ∀ place d, (place, .date d) ∈ ls → (place, .date d) ∈ ms) :
    Sound ms xs := by
  refine ⟨h.code, h.apart, fun place => ?_, fun s hs => ?_⟩
  · rw [h.nodes]
    exact exists_congr fun s => hstrings place s
  · exact (h.owns s hs).imp_right fun ⟨place, d, hd, htext⟩ =>
      ⟨place, d, hdates place d hd, htext⟩

/-- Skeletons are put behind one another when no two literals meet. -/
theorem append (hx : Sound ls xs) (hy : Sound ms ys)
    (hmeet : ∀ x ∈ xs.getLast?, ∀ y ∈ ys.head?,
      ¬ (x.isLiteral ∧ y.isLiteral)) : Sound (ls ++ ms) (xs ++ ys) := by
  constructor
  · intro c hc
    rcases List.mem_append.mp hc with hc | hc
    · exact hx.code c hc
    · exact hy.code c hc
  · exact List.isChain_append.mpr ⟨hx.apart, hy.apart, hmeet⟩
  · intro place
    simp only [List.mem_append, hx.nodes, hy.nodes, exists_or]
  · intro s hs
    -- A date of either list is one of both together.
    rcases List.mem_append.mp hs with hs | hs
    · exact (hx.owns s hs).imp_right fun ⟨place, d, hd, htext⟩ =>
        ⟨place, d, List.mem_append_left _ hd, htext⟩
    · exact (hy.owns s hs).imp_right fun ⟨place, d, hd, htext⟩ =>
        ⟨place, d, List.mem_append_right _ hd, htext⟩

/-- A skeleton is one as well when it is seen from above a branch. -/
theorem beneath (i : Nat) (h : Sound ls xs) :
    Sound (ls.beneath i) (xs.map (Slot.beneath i)) := by
  constructor
  · intro c hc
    obtain ⟨x, hx, hxc⟩ := List.mem_map.mp hc
    cases x with
    | code d =>
        cases hxc
        exact h.code _ hx
    | own s => cases hxc
    | node place => cases hxc
  · rw [List.isChain_map]
    simpa using h.apart
  · -- A place beneath the branch begins with the branch, and is one of `ls`
    -- without it.
    intro place
    constructor
    · intro hplace
      obtain ⟨x, hx, hxs⟩ := List.mem_map.mp hplace
      cases x with
      | code d => cases hxs
      | own s => cases hxs
      | node below =>
          cases hxs
          obtain ⟨s, hs⟩ := (h.nodes below).mp hx
          exact ⟨s, List.mem_map.mpr ⟨_, hs, rfl⟩⟩
    · rintro ⟨s, hs⟩
      obtain ⟨⟨below, l⟩, hl, heq⟩ := List.mem_map.mp hs
      cases heq
      exact List.mem_map.mpr ⟨_, (h.nodes below).mpr ⟨s, hl⟩, rfl⟩
  · intro s hs
    obtain ⟨x, hx, hxs⟩ := List.mem_map.mp hs
    cases x with
    | code d => cases hxs
    | node place => cases hxs
    | own s =>
        cases hxs
        exact (h.owns s hx).imp_right fun ⟨place, d, hd, htext⟩ =>
          ⟨i :: place, d, List.mem_map.mpr ⟨_, hd, rfl⟩, htext⟩

/-- Tokens that can be read back make a skeleton that no refill changes,
if the literals among them are those of templates. -/
theorem of_wellSpaced {ts : List Token} (h : WellSpaced ts)
    (hown : ∀ s, .literal s ∈ ts → s ∈ templateStrings) :
    Sound [] (ts.map Slot.ofToken) := by
  constructor
  · intro c hc
    obtain ⟨t, ht, htc⟩ := List.mem_map.mp hc
    cases t with
    | code d =>
        cases htc
        exact h.code _ ht
    | literal s => cases htc
  · rw [List.isChain_map]
    simpa using h.apart
  · -- No place belongs to a constant.
    intro place
    refine iff_of_false (fun hplace => ?_) (by simp)
    obtain ⟨t, -, htp⟩ := List.mem_map.mp hplace
    cases t <;> cases htp
  · intro s hs
    obtain ⟨t, ht, hts⟩ := List.mem_map.mp hs
    cases t with
    | code c => cases hts
    | literal s =>
        cases hts
        exact .inl (hown s ht)

end Sound

/-- A constant is spelled by what it is read as. -/
theorem spells_ofToken {c : String} {ts : List Token}
    (h : lex .doubled .outside c.toList = some ts) :
    Spells (fun _ => c) (ts.map Slot.ofToken) := by
  intro f
  have hmap : (ts.map Slot.ofToken).map (Slot.token f) = ts := by
    rw [List.map_map]
    conv => rhs; rw [← List.map_id ts]
    refine List.map_congr_left fun t _ => ?_
    cases t <;> rfl
  rw [hmap]
  exact (text_of_lex h).symm

/-- A text is spelled by its parts behind one another. -/
theorem Spells.append {a b : Refill → String} {xs ys : List Slot}
    (ha : Spells a xs) (hb : Spells b ys) :
    Spells (fun f => a f ++ b f) (xs ++ ys) := by
  intro f
  rw [String.toList_append, ha f, hb f, List.map_append,
    List.flatMap_append]

/-- A text beneath a branch is spelled by the parts as they are seen
from above it. -/
theorem Spells.beneath {t : Refill → String} {xs : List Slot} {i : Nat}
    (h : Spells t xs) :
    Spells (fun f => t (f.under i)) (xs.map (Slot.beneath i)) := by
  intro f
  rw [h (f.under i), List.map_map]
  congr 1
  refine List.map_congr_left fun x _ => ?_
  exact (Slot.token_beneath f i x).symm

/-! ### Texts that can be read -/

/-- The text has a skeleton for the literals. -/
def Reads (ls : Literals) (t : Refill → String) : Prop :=
  ∃ xs, Sound ls xs ∧ Spells t xs

/-- The text has a skeleton for the literals that does not begin with
one. -/
def Opens (ls : Literals) (t : Refill → String) : Prop :=
  ∃ xs, Sound ls xs ∧ (∀ x ∈ xs.head?, x.isLiteral = false) ∧ Spells t xs

section Rules

variable {ls ms : Literals} {a b t : Refill → String}

/-- A text that opens can be read. -/
theorem Opens.reads (h : Opens ls t) : Reads ls t := by
  obtain ⟨xs, hsound, -, hspells⟩ := h
  exact ⟨xs, hsound, hspells⟩

/-- A text is one for other literals that hold the same strings, and no
fewer dates. -/
theorem Reads.congr (h : Reads ls t)
    (hstrings : ∀ place s,
      (place, .string s) ∈ ls ↔ (place, .string s) ∈ ms)
    (hdates : ∀ place d, (place, .date d) ∈ ls → (place, .date d) ∈ ms) :
    Reads ms t := by
  obtain ⟨xs, hsound, hspells⟩ := h
  exact ⟨xs, hsound.congr hstrings hdates, hspells⟩

/-- A text may be followed by one that opens. -/
theorem Reads.append (ha : Reads ls a) (hb : Opens ms b) :
    Reads (ls ++ ms) fun f => a f ++ b f := by
  obtain ⟨xs, hxs, hax⟩ := ha
  obtain ⟨ys, hys, hhead, hby⟩ := hb
  -- The second part begins with code, so no two literals meet.
  refine ⟨xs ++ ys, hxs.append hys ?_, hax.append hby⟩
  rintro x - y hy ⟨-, hliteral⟩
  rw [hhead y hy] at hliteral
  cases hliteral

/-- Texts that open, put behind one another, open. -/
theorem Opens.append (ha : Opens ls a) (hb : Opens ms b) :
    Opens (ls ++ ms) fun f => a f ++ b f := by
  obtain ⟨xs, hxs, hheada, hax⟩ := ha
  obtain ⟨ys, hys, hheadb, hby⟩ := hb
  refine ⟨xs ++ ys, hxs.append hys ?_, ?_, hax.append hby⟩
  · rintro x - y hy ⟨-, hliteral⟩
    rw [hheadb y hy] at hliteral
    cases hliteral
  · -- The first part may be empty.
    cases xs with
    | nil => exact hheadb
    | cons x xs => exact hheada

/-- A text may be followed by one that opens and has no literals of the
statement. -/
theorem Reads.append_const (ha : Reads ls a) (hb : Opens [] b) :
    Reads ls fun f => a f ++ b f := by
  have happend := ha.append hb
  rwa [List.append_nil] at happend

/-- What can be read beneath a branch can be read from above it. -/
theorem Reads.beneath (i : Nat) (h : Reads ls t) :
    Reads (ls.beneath i) fun f => t (f.under i) := by
  obtain ⟨xs, hsound, hspells⟩ := h
  exact ⟨_, hsound.beneath i, hspells.beneath⟩

/-- What opens beneath a branch opens from above it. -/
theorem Opens.beneath (i : Nat) (h : Opens ls t) :
    Opens (ls.beneath i) fun f => t (f.under i) := by
  obtain ⟨xs, hsound, hhead, hspells⟩ := h
  refine ⟨_, hsound.beneath i, fun x hx => ?_, hspells.beneath⟩
  rw [List.head?_map] at hx
  obtain ⟨y, hy, rfl⟩ := Option.map_eq_some_iff.mp hx
  rw [Slot.isLiteral_beneath]
  exact hhead y hy

/-! ### Constants -/

/-- The text begins with code, ends with code, and can be read, with no
other literals than those of templates. -/
def isJoint (c : String) : Bool :=
  match lex .doubled .outside c.toList with
  | some ts =>
      ts.head?.any (fun t => !t.isLiteral) &&
        ts.getLast?.any (fun t => !t.isLiteral) &&
        ts.all fun
          | .code _ => true
          | .literal s => templateStrings.contains s
  | none => false

/-- A text without quotes opens. It may be empty. -/
theorem Opens.of_quoteFree {c : String} (h : QuoteFree c) :
    Opens [] fun _ => c := by
  have hlex := lex_of_quoteFree (q := .doubled) h
  refine ⟨_, Sound.of_wellSpaced (wellSpaced_of_lex .outside hlex).1
    (by simp), ?_, spells_ofToken hlex⟩
  intro x hx
  cases hcs : c.toList with
  | nil =>
      rw [hcs] at hx
      cases hx
  | cons d ds =>
      rw [hcs] at hx
      cases hx
      rfl

/-- A constant may stand before every text when its first and its last
token are code. -/
theorem Opens.of_lex_append {c : String} {ts : List Token}
    (hlex : lex .doubled .outside c.toList = some ts)
    (hhead : ts.head?.any (fun t => !t.isLiteral) = true)
    (hlast : ts.getLast?.any (fun t => !t.isLiteral) = true)
    (hown : ∀ s, .literal s ∈ ts → s ∈ templateStrings)
    (hb : Reads ls b) : Opens ls fun f => c ++ b f := by
  obtain ⟨ys, hys, hby⟩ := hb
  have hconst := Sound.of_wellSpaced (wellSpaced_of_lex .outside hlex).1 hown
  refine ⟨ts.map Slot.ofToken ++ ys, hconst.append hys ?_, ?_,
    (spells_ofToken hlex).append hby⟩
  · rintro x hx y - ⟨hliteral, -⟩
    rw [List.getLast?_map] at hx
    obtain ⟨t, ht, rfl⟩ := Option.map_eq_some_iff.mp hx
    -- The constant ends with code, so no two literals meet.
    rw [ht, Option.any_some, Bool.not_eq_true'] at hlast
    rw [Slot.isLiteral_ofToken, hlast] at hliteral
    cases hliteral
  · intro x hx
    cases ts with
    | nil => cases hhead
    | cons t ts =>
        cases hx
        rw [Slot.isLiteral_ofToken]
        simpa using hhead

/-- A constant that begins and ends with code may stand before every
text. -/
theorem Opens.of_isJoint_append {c : String} (hc : isJoint c = true)
    (hb : Reads ls b) : Opens ls fun f => c ++ b f := by
  unfold isJoint at hc
  cases hlex : lex .doubled .outside c.toList with
  | none =>
      rw [hlex] at hc
      cases hc
  | some ts =>
      rw [hlex] at hc
      simp only [Bool.and_eq_true, List.all_eq_true] at hc
      obtain ⟨⟨hhead, hlast⟩, hown⟩ := hc
      refine .of_lex_append hlex hhead hlast (fun s hs => ?_) hb
      simpa using hown _ hs

/-- A text without quotes may stand before every text, unless it is
empty. -/
theorem Opens.of_quoteFree_append {c : String} (hc : QuoteFree c)
    (hne : c ≠ "") (hb : Reads ls b) : Opens ls fun f => c ++ b f := by
  -- Every token of such a text is code, the first and the last included.
  have hcode : ∀ t ∈ c.toList.map Token.code, t.isLiteral = false := by
    intro t ht
    obtain ⟨d, -, rfl⟩ := List.mem_map.mp ht
    rfl
  have htokens : c.toList.map Token.code ≠ [] := by
    rw [ne_eq, List.map_eq_nil_iff, String.toList_eq_nil_iff]
    exact hne
  refine .of_lex_append (lex_of_quoteFree hc) ?_ ?_ (by simp) hb
  · rw [List.head?_eq_some_head htokens, Option.any_some,
      hcode _ (List.head_mem htokens)]
    rfl
  · rw [List.getLast?_eq_some_getLast htokens, Option.any_some,
      hcode _ (List.getLast_mem htokens)]
    rfl

/-- A constant that begins and ends with code opens. -/
theorem Opens.of_isJoint {c : String} (hc : isJoint c = true) :
    Opens [] fun _ => c := by
  have hempty : Reads [] fun _ => "" :=
    (Opens.of_quoteFree (by decide)).reads
  have happend := Opens.of_isJoint_append hc hempty
  simpa using happend

/-! ### String literals -/

/-- A string literal is read as the string that it holds, whatever that
is. -/
theorem reads_string (s : String) :
    Reads [([], .string s)]
      fun f => "'" ++ Ansi.escape (f []) ++ "'" := by
  refine ⟨[.node []], ⟨by simp, .singleton _, fun place => ?_, by simp⟩,
    fun f => ?_⟩
  · simp
  · simp [Slot.token, Token.text, quote]

/-- A text without quotes can stand between two quotes, where it is the
writer's own. -/
theorem reads_own {s : String} (h : QuoteFree s) (hown : IsOwn ls s)
    (hstrings : ∀ place x, (place, .string x) ∉ ls) :
    Reads ls fun _ => "'" ++ s ++ "'" := by
  refine ⟨[.own s], ⟨by simp, .singleton _, by simp [hstrings],
    by simpa using hown⟩, fun f => ?_⟩
  simp [Slot.token, Token.text, quote, escape_of_quoteFree h]

end Rules

/-! ### Several texts -/

/-- Each of `n` texts can be read, with its share of the literals. -/
def ReadsAll (n : Nat) (ls : Literals) (t : Refill → List String) : Prop :=
  ∃ parts : List (Literals × (Refill → String)),
    parts.length = n ∧ (parts.flatMap fun p => p.1) = ls ∧
      (∀ p ∈ parts, Reads p.1 p.2) ∧ t = fun f => parts.map fun p => p.2 f

namespace ReadsAll

variable {n : Nat} {ls ms : Literals} {a : Refill → String}
  {t : Refill → List String}

/-- No texts at all. -/
theorem nil : ReadsAll 0 [] fun _ => [] := ⟨[], rfl, rfl, by simp, rfl⟩

/-- One more text. -/
theorem cons (ha : Reads ls a) (ht : ReadsAll n ms t) :
    ReadsAll (n + 1) (ls ++ ms) fun f => a f :: t f := by
  obtain ⟨parts, rfl, rfl, hparts, rfl⟩ := ht
  refine ⟨(ls, a) :: parts, rfl, rfl, ?_, rfl⟩
  exact List.forall_mem_cons.mpr ⟨ha, hparts⟩

/-- What can be read beneath a branch can be read from above it. -/
theorem beneath (i : Nat) (ht : ReadsAll n ls t) :
    ReadsAll n (ls.beneath i) fun f => t (f.under i) := by
  obtain ⟨parts, rfl, rfl, hparts, rfl⟩ := ht
  refine ⟨parts.map fun p => (p.1.beneath i, fun f => p.2 (f.under i)),
    List.length_map _, ?_, ?_, ?_⟩
  · simp only [Literals.beneath, List.flatMap_map, List.map_flatMap]
  · intro p hp
    obtain ⟨q, hq, rfl⟩ := List.mem_map.mp hp
    exact (hparts q hq).beneath i
  · simp only [List.map_map, Function.comp_def]

/-- Texts that each stand behind a constant open, when the constant begins
and ends with code. -/
theorem behind (ht : ReadsAll n ls t) {c : String}
    (hc : isJoint c = true) :
    Opens ls fun f => String.join ((t f).map (c ++ ·)) := by
  obtain ⟨parts, -, rfl, hparts, rfl⟩ := ht
  induction parts with
  | nil => exact .of_quoteFree (by decide)
  | cons p rest ih =>
      obtain ⟨hp, hrest⟩ := List.forall_mem_cons.mp hparts
      simp only [List.map_cons, String.join_cons, List.flatMap_cons]
      exact (Opens.of_isJoint_append hc hp).append (ih hrest)

/-- Texts with such a constant between them can be read. -/
theorem intercalate (ht : ReadsAll n ls t) {separator : String}
    (hseparator : isJoint separator = true) :
    Reads ls fun f => separator.intercalate (t f) := by
  obtain ⟨parts, -, rfl, hparts, rfl⟩ := ht
  cases parts with
  | nil => exact (Opens.of_quoteFree (by decide)).reads
  | cons p rest =>
      obtain ⟨hp, hrest⟩ := List.forall_mem_cons.mp hparts
      have hbehind := behind ⟨rest, rfl, rfl, hrest, rfl⟩ hseparator
      simp only [List.map_cons, Text.intercalate_cons, List.flatMap_cons]
      exact hp.append hbehind

end ReadsAll

/-! ### Writers that may fail -/

/-- The writer fails with one error whatever the refill, or gives what
is good. -/
def Uniform {β : Type} (Good : (Refill → β) → Prop)
    (write : Refill → Except RenderError β) : Prop :=
  (∃ e, ∀ f, write f = .error e) ∨
    ∃ t, Good t ∧ ∀ f, write f = .ok (t f)

namespace Uniform

variable {β γ : Type} {Good : (Refill → β) → Prop}
  {Good' : (Refill → γ) → Prop} {write : Refill → Except RenderError β}

/-- A writer that gives what is good. -/
theorem pure {t : Refill → β} (h : Good t) :
    Uniform Good fun f => .ok (t f) :=
  .inr ⟨t, h, fun _ => rfl⟩

/-- A writer that does not look at the strings. -/
theorem const {x : Except RenderError β}
    (h : ∀ b, x = .ok b → Good fun _ => b) :
    Uniform Good fun _ => x := by
  cases x with
  | error e => exact .inl ⟨e, fun _ => rfl⟩
  | ok b => exact .inr ⟨fun _ => b, h b rfl, fun _ => rfl⟩

/-- A writer that begins with what does not hang on the strings. -/
theorem bind_const {x : Except RenderError β}
    {next : Refill → β → Except RenderError γ}
    (h : ∀ b, x = .ok b → Uniform Good' fun f => next f b) :
    Uniform Good' fun f => x >>= next f := by
  cases x with
  | error e => exact .inl ⟨e, fun _ => rfl⟩
  | ok b => exact h b rfl

/-- A writer that goes on with what another one gives. -/
theorem bind {next : Refill → β → Except RenderError γ}
    (h : Uniform Good write)
    (hnext : ∀ t, Good t → Uniform Good' fun f => next f (t f)) :
    Uniform Good' fun f => write f >>= next f := by
  rcases h with ⟨e, he⟩ | ⟨t, ht, hwrite⟩
  · refine .inl ⟨e, fun f => ?_⟩
    show write f >>= next f = _
    rw [he f, error_bind]
  · rcases hnext t ht with ⟨e, he⟩ | ⟨u, hu, hfinal⟩
    · refine .inl ⟨e, fun f => ?_⟩
      show write f >>= next f = _
      rw [hwrite f, ok_bind]
      exact he f
    · refine .inr ⟨u, hu, fun f => ?_⟩
      show write f >>= next f = _
      rw [hwrite f, ok_bind]
      exact hfinal f

/-- A writer that writes what is beneath a branch. -/
theorem beneath {Good' : (Refill → β) → Prop} {i : Nat}
    (h : Uniform Good write)
    (hgood : ∀ t, Good t → Good' fun f => t (f.under i)) :
    Uniform Good' fun f => write (f.under i) := by
  rcases h with ⟨e, he⟩ | ⟨t, ht, hwrite⟩
  · exact .inl ⟨e, fun f => he (f.under i)⟩
  · exact .inr ⟨_, hgood t ht, fun f => hwrite (f.under i)⟩

variable {n : Nat} {ls ms : Literals}
  {text : Refill → Except RenderError String}
  {texts : Refill → Except RenderError (List String)}

/-- A writer of a text beneath a branch. -/
theorem branch (i : Nat) (h : Uniform (Reads ls) text) :
    Uniform (Reads (ls.beneath i)) fun f => text (f.under i) :=
  h.beneath fun _ ht => ht.beneath i

/-- A writer of one text before others. -/
theorem cons (h : Uniform (Reads ls) text)
    (hrest : Uniform (ReadsAll n ms) texts) :
    Uniform (ReadsAll (n + 1) (ls.beneath 0 ++ ms.beneath 1)) fun f => do
      let first ← text (f.under 0)
      let rest ← texts (f.under 1)
      return first :: rest :=
  (h.branch 0).bind fun _ ha =>
    (hrest.beneath fun _ ht => ht.beneath 1).bind fun _ ht =>
      .pure (.cons ha ht)

/-- The parts of a list are written in the same way whatever their strings
are, when each of them is. -/
theorem each {α : Type} {visit : Substitution → α → α}
    {literals : α → Literals} {write : α → Except RenderError String}
    {as : List α}
    (h : ∀ a ∈ as, Uniform (Reads (literals a)) fun f =>
      write (visit f.substitution a)) :
    Uniform (ReadsAll as.length (literalsOfEach literals as)) fun f =>
      (substituteEach visit f.substitution as).mapM write := by
  induction as with
  | nil => exact .pure .nil
  | cons a rest ih =>
      obtain ⟨ha, hrest⟩ := List.forall_mem_cons.mp h
      simp only [substituteEach, List.mapM_cons]
      exact ha.cons (ih hrest)

end Uniform

end SchemaEvolution
