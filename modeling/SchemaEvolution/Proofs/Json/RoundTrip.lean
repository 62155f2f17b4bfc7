import Mathlib.Data.List.Forall2
import SchemaEvolution.Json.Parser
import SchemaEvolution.Proofs.Json.Words

/-!
# `SchemaEvolution.Proofs.Json.RoundTrip`: a value that was written is read

A value is written as a text, which is cut into the tokens of the value,
from which the value is built again. `tokens` are these tokens; the first
half of the way is about where the text is cut, and the second about
what the tokens build.

* `Json.induction`: a value is reached from its items and members.
* `cutsOff_prettyAt`: the text of a value is cut into its tokens.
* `foldlM_tokens`: the tokens of a value build it.
* `parse?_pretty`: a value that was written is read.
-/

set_option autoImplicit false

namespace SchemaEvolution.Json

open SchemaEvolution.Text

/-- A value is reached from its items and members. -/
@[elab_as_elim]
theorem induction {motive : Json → Prop} (null : motive .null)
    (bool : ∀ b, motive (.bool b)) (number : ∀ n, motive (.number n))
    (string : ∀ s, motive (.string s))
    (array : ∀ items, (∀ v ∈ items, motive v) → motive (.array items))
    (object : ∀ members : List (Json.Text × Json),
      (∀ m ∈ members, motive m.2) → motive (.object members))
    (j : Json) : motive j :=
  @Json.rec motive (fun items => ∀ v ∈ items, motive v)
    (fun members => ∀ m ∈ members, motive m.2) (fun m => motive m.2)
    null bool number string array object
    (fun _ hv => nomatch hv)
    (fun _ _ hv hrest => List.forall_mem_cons.mpr ⟨hv, hrest⟩)
    (fun _ hm => nomatch hm)
    (fun _ _ hm hrest => List.forall_mem_cons.mpr ⟨hm, hrest⟩)
    (fun _ _ hv => hv) j

/-! ### The tokens of a value -/

mutual

/-- The tokens of a value. -/
def tokens : Json → List Token
  | .null => [.null]
  | .bool b => [.bool b]
  | .number n => [.number n]
  | .string s => [.string s]
  | .array items =>
      .openBracket ::
        ([Token.comma].intercalate (itemTokens items) ++ [.closeBracket])
  | .object members =>
      .openBrace ::
        ([Token.comma].intercalate (memberTokens members) ++
          [.closeBrace])

/-- The tokens of each item. -/
def itemTokens : List Json → List (List Token)
  | [] => []
  | v :: rest => tokens v :: itemTokens rest

/-- The tokens of each member. -/
def memberTokens : List (Json.Text × Json) → List (List Token)
  | [] => []
  | (key, v) :: rest =>
      (.string key :: .colon :: tokens v) :: memberTokens rest

end

mutual

/-- The numbers in a value are made of the digits that a text can give
them. -/
def Spelled : Json → Prop
  | .null | .bool _ | .string _ => True
  | .number n => n.Spelled
  | .array items => ItemsSpelled items
  | .object members => MembersSpelled members

/-- So are those in the items of an array. -/
def ItemsSpelled : List Json → Prop
  | [] => True
  | v :: rest => v.Spelled ∧ ItemsSpelled rest

/-- So are those in the members of an object. -/
def MembersSpelled : List (Json.Text × Json) → Prop
  | [] => True
  | (_, v) :: rest => v.Spelled ∧ MembersSpelled rest

end

/-- Items can be spelled one by one. -/
theorem itemsSpelled_iff {items : List Json} :
    ItemsSpelled items ↔ ∀ v ∈ items, v.Spelled := by
  induction items with
  | nil => simp [ItemsSpelled]
  | cons v rest ih => simp [ItemsSpelled, ih]

/-- So can the values of members. Their names need no condition, as any text
can be quoted. -/
theorem membersSpelled_iff {members : List (Json.Text × Json)} :
    MembersSpelled members ↔ ∀ m ∈ members, m.2.Spelled := by
  induction members with
  | nil => simp [MembersSpelled]
  | cons m rest ih =>
      obtain ⟨key, v⟩ := m
      simp [MembersSpelled, ih]

/-! ### From the text to the tokens -/

/-- What stands between the lines of a text is white space. -/
theorem isSpace_of_mem_newLine {depth : Nat} {c : Char}
    (h : c ∈ (newLine depth).toList) : isSpace c = true := by
  simp only [newLine, String.toList_append, String.toList_ofList,
    List.mem_append, List.mem_replicate] at h
  rcases h with h | ⟨-, rfl⟩
  · obtain rfl : c = '\n' := by simpa using h
    rfl
  · rfl

/-- The texts are cut into these tokens, each into its own. -/
def CutsEach (entries : List String) (tss : List (List Token)) : Prop :=
  List.Forall₂ (fun entry ts => CutsOff entry.toList ts) entries tss

/-- Entries with a comma and a new line between them are cut into their
tokens with commas between them. -/
theorem cutsOff_intercalate {depth : Nat} {entries : List String}
    {tss : List (List Token)} (h : CutsEach entries tss)
    (hne : entries ≠ []) :
    CutsOff (("," ++ newLine depth).intercalate entries).toList
      ([Token.comma].intercalate tss) := by
  induction h with
  | nil => exact absurd rfl hne
  | @cons entry ts entries tss hentry hrest ih =>
      cases hrest with
      | nil =>
          rw [String.intercalate_singleton, List.intercalate_singleton]
          exact hentry
      | @cons next us entries tss hnext hrest =>
          rw [String.intercalate_cons_cons, List.intercalate_cons_cons]
          have hcomma : Cuts (',' :: (newLine depth).toList)
              [Token.comma] :=
            cuts_sign_spaces rfl (fun _ => rfl)
              fun _ => isSpace_of_mem_newLine
          -- The comma ends the entry before it, a number included.
          have hall := (hentry.append_cuts hcomma rfl).append_cutsOff
            (ih (by simp))
          simpa using hall

/-- Entries between brackets are cut into the brackets and their tokens
with commas between them. -/
theorem cuts_block {depth : Nat} {opening closing : String}
    {first last : Token} (hopening : Cuts opening.toList [first])
    (hclosing : Cuts closing.toList [last]) {entries : List String}
    {tss : List (List Token)} (h : CutsEach entries tss) :
    Cuts (block depth opening closing entries).toList
      (first :: ([Token.comma].intercalate tss ++ [last])) := by
  have hspaces : ∀ depth, Cuts (newLine depth).toList [] := fun _ =>
    cuts_spaces fun _ => isSpace_of_mem_newLine
  unfold block
  cases entries with
  | nil =>
      cases h
      simpa using hopening.append hclosing
  | cons entry entries =>
      have hbody : CutsOff (("," ++ newLine (depth + 1)).intercalate
          (entry :: entries)).toList _ := cutsOff_intercalate h (by simp)
      -- The new line before the closing bracket ends the last entry.
      have hend : Cuts ('\n' :: (List.replicate (2 * depth) ' ' ++
          closing.toList)) [last] := by
        have hline := (hspaces depth).append hclosing
        simpa [newLine] using hline
      have hall := ((hopening.append (hspaces (depth + 1))).append_cutsOff
        hbody).append_cuts hend rfl
      simpa [newLine] using hall

/-- Items are laid out one by one, at one depth. -/
theorem prettyItems_eq (depth : Nat) (items : List Json) :
    prettyItems depth items = items.map (prettyAt depth) := by
  induction items with
  | nil => rfl
  | cons v rest ih => rw [prettyItems, ih, List.map_cons]

/-- Items have their tokens one by one, without those between them. -/
theorem itemTokens_eq (items : List Json) :
    itemTokens items = items.map tokens := by
  induction items with
  | nil => rfl
  | cons v rest ih => rw [itemTokens, ih, List.map_cons]

/-- Members are laid out one by one, each with its name in front. -/
theorem prettyMembers_eq (depth : Nat)
    (members : List (Json.Text × Json)) :
    prettyMembers depth members =
      members.map fun m => quote m.1 ++ ": " ++ prettyAt depth m.2 := by
  induction members with
  | nil => rfl
  | cons m rest ih => rw [prettyMembers, ih, List.map_cons]

/-- A member has its name and a colon in front of the tokens of its value. -/
theorem memberTokens_eq (members : List (Json.Text × Json)) :
    memberTokens members =
      members.map fun m => .string m.1 :: .colon :: tokens m.2 := by
  induction members with
  | nil => rfl
  | cons m rest ih => rw [memberTokens, ih, List.map_cons]

/-- The text of a value is cut into its tokens. -/
theorem cutsOff_prettyAt (j : Json) (h : j.Spelled) (depth : Nat) :
    CutsOff (prettyAt depth j).toList (tokens j) := by
  induction j using induction generalizing depth with
  | null => exact cuts_null.cutsOff
  | bool b => exact (cuts_bool b).cutsOff
  | number n => exact cutsOff_number h
  | string s => exact (cuts_quote s).cutsOff
  -- The items of an array are laid out one level deeper.
  | array items ih =>
      refine (cuts_block (cuts_word rfl rfl fun _ => rfl)
        (cuts_word rfl rfl fun _ => rfl) ?_).cutsOff
      rw [prettyItems_eq, itemTokens_eq, CutsEach, List.forall₂_map_left_iff,
        List.forall₂_map_right_iff, List.forall₂_same]
      exact fun v hv => ih v hv (itemsSpelled_iff.mp h v hv) (depth + 1)
  -- Those of an object as well, each behind its name and a colon.
  | object members ih =>
      refine (cuts_block (cuts_word rfl rfl fun _ => rfl)
        (cuts_word rfl rfl fun _ => rfl) ?_).cutsOff
      rw [prettyMembers_eq, memberTokens_eq, CutsEach,
        List.forall₂_map_left_iff, List.forall₂_map_right_iff,
        List.forall₂_same]
      intro m hm
      have hvalue := ih m hm (membersSpelled_iff.mp h m hm) (depth + 1)
      have hcolon : Cuts [':', ' '] [Token.colon] :=
        cuts_sign_spaces rfl (fun _ => rfl) fun _ hc => by
          rw [List.mem_singleton.mp hc]
          rfl
      have hall := ((cuts_quote m.1).append hcolon).append_cutsOff hvalue
      simpa using hall

/-! ### From the tokens to the value -/

/-- A value begins with a token, and not with the end of an array. -/
theorem exists_tokens_eq_cons (j : Json) :
    ∃ t ts, tokens j = t :: ts ∧ t ≠ .closeBracket := by
  cases j <;> exact ⟨_, _, rfl, by simp⟩

/-- At the beginning of an array a value may come next, unless the array
ends there. -/
theorem State.step_firstItem {t : Token} (h : t ≠ .closeBracket)
    (frames : List Frame) :
    step (.firstItem frames) t = step (.value (.array [] :: frames)) t := by
  cases t <;> first
    | rfl
    | exact absurd rfl h

/-- The items of an array are read one after the other up to its end,
when each of them is read. -/
theorem foldlM_items {items : List Json}
    (h : ∀ v ∈ items, ∀ frames, (tokens v).foldlM State.step
      (.value frames) = some (.ended v frames)) (hne : items ≠ [])
    (before : List Json) (frames : List Frame) :
    ([Token.comma].intercalate (itemTokens items) ++
        [Token.closeBracket]).foldlM State.step
        (.value (.array before :: frames)) =
      some (.ended (.array (before.reverse ++ items)) frames) := by
  -- The items that have been read are kept in reverse, so the induction is
  -- over what is still to come.
  induction items generalizing before with
  | nil => exact absurd rfl hne
  | cons v rest ih =>
      have hv := h v List.mem_cons_self
      cases rest with
      | nil =>
          rw [itemTokens, itemTokens, List.intercalate_singleton,
            List.foldlM_append, hv]
          exact State.step_closeBracket v before frames
      | cons w rest =>
          have hrest := ih
            (fun u hu => h u (List.mem_cons_of_mem v hu)) (by simp)
            (v :: before)
          rw [itemTokens] at hrest
          rw [itemTokens, itemTokens, List.intercalate_cons_cons,
            List.append_assoc, List.append_assoc, List.foldlM_append, hv,
            List.append_cons before.reverse, ← List.reverse_cons]
          exact hrest

/-- So are the members of an object. -/
theorem foldlM_members {members : List (Json.Text × Json)}
    (h : ∀ m ∈ members, ∀ frames, (tokens m.2).foldlM State.step
      (.value frames) = some (.ended m.2 frames)) (hne : members ≠ [])
    (before : List (Json.Text × Json)) (frames : List Frame) :
    ([Token.comma].intercalate (memberTokens members) ++
        [Token.closeBrace]).foldlM State.step (.key before frames) =
      some (.ended (.object (before.reverse ++ members)) frames) := by
  induction members generalizing before with
  | nil => exact absurd rfl hne
  | cons m rest ih =>
      obtain ⟨key, v⟩ := m
      have hv := h (key, v) List.mem_cons_self
        (.object before key :: frames)
      -- The key and the colon are read before the value.
      have hmember : (.string key :: .colon :: tokens v).foldlM State.step
          (.key before frames) = _ := hv
      cases rest with
      | nil =>
          rw [memberTokens, memberTokens, List.intercalate_singleton,
            List.foldlM_append, hmember]
          exact State.step_closeBrace v before key frames
      | cons w rest =>
          have hrest := ih
            (fun u hu => h u (List.mem_cons_of_mem _ hu)) (by simp)
            ((key, v) :: before)
          rw [memberTokens] at hrest
          rw [memberTokens, memberTokens, List.intercalate_cons_cons,
            List.append_assoc, List.append_assoc, List.foldlM_append,
            hmember, List.append_cons before.reverse, ← List.reverse_cons]
          exact hrest

/-- The tokens of a value build it. -/
theorem foldlM_tokens (j : Json) (frames : List Frame) :
    (tokens j).foldlM State.step (.value frames) =
      some (.ended j frames) := by
  induction j using induction generalizing frames with
  | null => rfl
  | bool b => rfl
  | number n => rfl
  | string s => rfl
  | array items ih =>
      cases items with
      | nil => rfl
      | cons v rest =>
          -- The first item is asked for in a state of its own.
          have hall := foldlM_items ih (by simp) [] frames
          obtain ⟨t, ts, htokens, ht⟩ := exists_tokens_eq_cons v
          obtain ⟨more, hmore⟩ : ∃ more, [Token.comma].intercalate
              (itemTokens (v :: rest)) ++ [Token.closeBracket] = t :: more := by
            cases rest <;> simp [itemTokens, htokens]
          rw [hmore] at hall
          show ([Token.comma].intercalate (itemTokens (v :: rest)) ++
            [Token.closeBracket]).foldlM State.step (.firstItem frames) = _
          rw [hmore, List.foldlM_cons, State.step_firstItem ht]
          exact hall
  | object members ih =>
      cases members with
      | nil => rfl
      | cons m rest =>
          have hall := foldlM_members ih (by simp) [] frames
          obtain ⟨more, hmore⟩ : ∃ more, [Token.comma].intercalate
              (memberTokens (m :: rest)) ++ [Token.closeBrace] =
                .string m.1 :: more := by
            cases rest <;> simp [memberTokens]
          rw [hmore] at hall
          show ([Token.comma].intercalate (memberTokens (m :: rest)) ++
            [Token.closeBrace]).foldlM State.step (.firstKey frames) = _
          rw [hmore]
          exact hall

/-- A value that was written is read. -/
theorem parse?_pretty {j : Json} (h : j.Spelled) :
    parse? j.pretty = some j := by
  have hlex : lex? j.pretty.toList = some (tokens j) := by
    have hcut := cutsOff_prettyAt j h 0 [] clear_nil
    rw [List.append_nil] at hcut
    rw [pretty, hcut, lex?]
    simp
  rw [parse?, hlex]
  simp only [Option.bind_eq_bind, Option.bind_some, foldlM_tokens]
  rfl

end SchemaEvolution.Json
