import Mathlib.Data.List.Forall2
import SchemaEvolution.Json.Record

/-!
# `SchemaEvolution.Proofs.Json.Omission`: objects with fields left out

A field that has a value to stand in for it may be left out of an object
that holds this value, and the values of the other fields may be
shortened in the same way. A layout says for each field of a record, in
their declared order, what stands in for it and how its value may be
shortened. `AbridgedMembers` relates the members of an object to what may
be left of them: each field is kept or left out on its own, so that the
relation covers every set of fields.

A reader that asks for fields by name finds the same in what is left as
in the whole object, provided that it takes for a missing field what it
would have read from the value that stands in.

* `AbridgedMembers.lookup`: what is left of a field.
* `AbridgedMembers.required?`, `AbridgedMembers.defaulted?`: a field is
  read as if nothing were left out.
* `AbridgedArray.list?`: so is a list.
* `Number.isFinite_ofInt`: an integer of 64 bits is finite.
* `KeepsPlain.object`, `KeepsPlain.array`: what is left can be kept as a
  whole if the value could.
-/

set_option autoImplicit false

namespace SchemaEvolution.Json

open SchemaEvolution.Text

/-- A field of a record. -/
structure Field where
  name : String
  /-- How the value of the field may be shortened. -/
  Abridged : Json → Json → Prop := fun v v' => v' = v
  /-- The value that stands in for the field when it is left out. -/
  standIn? : Option Json := none

/-- The members of an object, and what may be left of them. -/
inductive AbridgedMembers :
    List Field → List (String × Json) → List (String × Json) → Prop
  | nil : AbridgedMembers [] [] []
  | keep {f : Field} {fs : List Field} {v v' : Json}
      {ms ms' : List (String × Json)} :
      f.Abridged v v' → AbridgedMembers fs ms ms' →
      AbridgedMembers (f :: fs) ((f.name, v) :: ms) ((f.name, v') :: ms')
  | leaveOut {f : Field} {fs : List Field} {v : Json}
      {ms ms' : List (String × Json)} :
      f.standIn? = some v → AbridgedMembers fs ms ms' →
      AbridgedMembers (f :: fs) ((f.name, v) :: ms) ms'

/-- An object of this layout, and what may be left of it. -/
def AbridgedObject (layout : List Field) (j j' : Json) : Prop :=
  ∃ ms ms', j = ofMembers ms ∧ j' = ofMembers ms' ∧
    AbridgedMembers layout ms ms'

/-- An array, and what may be left of it: each item is shortened. -/
def AbridgedArray (Abridged : Json → Json → Prop) (j j' : Json) : Prop :=
  ∃ vs vs', j = .array vs ∧ j' = .array vs' ∧
    List.Forall₂ Abridged vs vs'

/-- Values are read back from what is written for them, and also from
what is left of that when fields have been left out. -/
def ReadsBack {α : Type} (write : α → Json)
    (Abridged : Json → Json → Prop) (read : Json → Option α) : Prop :=
  ∀ x, read (write x) = some x ∧
    ∀ j, Abridged (write x) j → read j = some x

/-- An object that was written tells its members, with their names and in
their order. -/
theorem ofMembers_injective : Function.Injective ofMembers := by
  intro ms ms' h
  have hpair : Function.Injective
      fun m : String × Json => ((some m.1, m.2) : Json.Text × Json) := by
    rintro ⟨_, _⟩ ⟨_, _⟩ heq
    simpa using heq
  exact hpair.list_map (Json.object.inj h)

/-! ### Fields -/

namespace AbridgedMembers

variable {fs : List Field} {ms ms' : List (String × Json)}

/-- Nothing need be left out. -/
theorem refl (hnames : ms.map Prod.fst = fs.map Field.name)
    (hrefl : ∀ p ∈ fs.zip ms, p.1.Abridged p.2.2 p.2.2) :
    AbridgedMembers fs ms ms := by
  induction fs generalizing ms with
  | nil =>
      obtain rfl : ms = [] := List.map_eq_nil_iff.mp hnames
      exact .nil
  | cons f fs ih =>
      cases ms with
      | nil => cases hnames
      | cons m ms =>
          obtain ⟨hname, hrest⟩ := List.cons.inj hnames
          obtain ⟨hm, hms⟩ := List.forall_mem_cons.mp hrefl
          obtain ⟨key, v⟩ := m
          obtain rfl : key = f.name := hname
          exact .keep hm (ih hrest hms)

/-- What is left has no other fields. -/
theorem sublist (h : AbridgedMembers fs ms ms') :
    (ms'.map Prod.fst).Sublist (fs.map Field.name) := by
  induction h with
  | nil => exact .slnil
  | keep _ _ ih => exact ih.cons_cons _
  | leaveOut _ _ ih => exact ih.cons _

/-- What is left is an object with its members as fields. -/
theorem fields? (h : AbridgedMembers fs ms ms') {names : List String}
    (hnames : fs.map Field.name = names) (distinct : names.Nodup) :
    (ofMembers ms').fields? names = some ms' := by
  subst hnames
  refine fields?_ofMembers (fun m hm => ?_) (distinct.sublist h.sublist)
  exact h.sublist.subset (List.mem_map_of_mem hm)

/-- A field that is missing in the layout is missing in what is left. -/
theorem lookup_eq_none (h : AbridgedMembers fs ms ms') {name : String}
    (hname : name ∉ fs.map Field.name) : ms'.lookup name = none := by
  rw [List.lookup_eq_none_iff]
  rintro ⟨key, v⟩ hm
  rw [bne_iff_ne]
  rintro rfl
  exact hname (h.sublist.subset (List.mem_map_of_mem hm))

/-- What is left of a field: its value, shortened, or nothing, if the
value is the one that stands in. -/
theorem lookup (h : AbridgedMembers fs ms ms')
    (distinct : (fs.map Field.name).Nodup) {i : Nat} {f : Field} {v : Json}
    (hf : fs[i]? = some f) (hv : ms[i]? = some (f.name, v)) :
    (∃ v', ms'.lookup f.name = some v' ∧ f.Abridged v v') ∨
      ms'.lookup f.name = none ∧ f.standIn? = some v := by
  induction h generalizing i with
  | nil => cases hf
  | @keep g fs w w' ms ms' hw hrest ih =>
      obtain ⟨hnew, hdistinct⟩ := List.nodup_cons.mp distinct
      cases i with
      | zero =>
          cases hf
          cases hv
          exact .inl ⟨w', List.lookup_cons_self, hw⟩
      | succ i =>
          -- The first field has another name, so that the search goes on
          -- behind it.
          have hne : f.name ≠ g.name := fun heq =>
            hnew (heq ▸ List.mem_map_of_mem (List.mem_of_getElem? hf))
          have hbeq : (f.name == g.name) = false := beq_false_of_ne hne
          rw [List.lookup_cons, hbeq]
          exact ih hdistinct hf hv
  | @leaveOut g fs w ms ms' hw hrest ih =>
      obtain ⟨hnew, hdistinct⟩ := List.nodup_cons.mp distinct
      cases i with
      | zero =>
          cases hf
          cases hv
          exact .inr ⟨hrest.lookup_eq_none hnew, hw⟩
      | succ i => exact ih hdistinct hf hv

variable {α : Type} {read : Json → Option α} {x absent : α} {f : Field}
  {v s : Json}

/-- A field without a value to stand in for it is read from what is
left of its value. -/
theorem required? (h : AbridgedMembers fs ms ms')
    (distinct : (fs.map Field.name).Nodup) (i : Nat)
    (hf : fs[i]? = some f) (hv : ms[i]? = some (f.name, v))
    (hstandIn : f.standIn? = none)
    (hread : ∀ v', f.Abridged v v' → read v' = some x) :
    required? ms' f.name read = some x := by
  rcases h.lookup distinct hf hv with ⟨v', hlookup, hv'⟩ | ⟨-, hsome⟩
  · rw [Json.required?, hlookup]
    exact hread v' hv'
  · rw [hstandIn] at hsome
    cases hsome

/-- A field with a value to stand in for it is read as if it had not
been left out, when that value is read as what a missing field counts
for. -/
theorem defaulted? (h : AbridgedMembers fs ms ms')
    (distinct : (fs.map Field.name).Nodup) (i : Nat)
    (hf : fs[i]? = some f) (hv : ms[i]? = some (f.name, v))
    (hstandIn : f.standIn? = some s) (habsent : read s = some absent)
    (hwhole : read v = some x)
    (hread : ∀ v', f.Abridged v v' → read v' = some x) :
    defaulted? ms' f.name absent read = some x := by
  rcases h.lookup distinct hf hv with ⟨v', hlookup, hv'⟩ | ⟨hlookup, hs⟩
  · rw [Json.defaulted?, hlookup]
    exact hread v' hv'
  · obtain rfl : s = v := Option.some.inj (hstandIn.symm.trans hs)
    rw [Json.defaulted?, hlookup]
    exact habsent.symm.trans hwhole

/-- A field whose value is not shortened is read from it. -/
theorem required?_of_same (h : AbridgedMembers fs ms ms')
    (distinct : (fs.map Field.name).Nodup) (i : Nat) {name : String}
    (hf : fs[i]? = some { name := name }) (hv : ms[i]? = some (name, v))
    (hread : read v = some x) : Json.required? ms' name read = some x :=
  h.required? distinct i hf hv rfl fun _ hsame => hsame ▸ hread

/-- So is one that may be left out. -/
theorem defaulted?_of_same (h : AbridgedMembers fs ms ms')
    (distinct : (fs.map Field.name).Nodup) (i : Nat) {name : String}
    (hf : fs[i]? = some { name := name, standIn? := some s })
    (hv : ms[i]? = some (name, v)) (habsent : read s = some absent)
    (hread : read v = some x) :
    Json.defaulted? ms' name absent read = some x :=
  h.defaulted? distinct i hf hv rfl habsent hread fun _ hsame =>
    hsame ▸ hread

end AbridgedMembers

/-! ### Lists -/

/-- An array is a shorter form of itself if its items are such of themselves.
-/
theorem AbridgedArray.refl {α : Type} {Abridged : Json → Json → Prop}
    {write : α → Json} (h : ∀ x, Abridged (write x) (write x))
    (items : List α) :
    AbridgedArray Abridged (.array (items.map write))
      (.array (items.map write)) := by
  refine ⟨_, _, rfl, rfl, List.forall₂_same.mpr fun v hv => ?_⟩
  obtain ⟨x, -, rfl⟩ := List.mem_map.mp hv
  exact h x

/-- A list is read back from what is left of it if each of its items
is. -/
theorem AbridgedArray.list? {α : Type} {Abridged : Json → Json → Prop}
    {read : Json → Option α} {write : α → Json} {items : List α}
    (hitems : ∀ x ∈ items, ∀ j, Abridged (write x) j → read j = some x)
    {j : Json} (h : AbridgedArray Abridged (.array (items.map write)) j) :
    list? read j = some items := by
  obtain ⟨vs, vs', hvs, rfl, hall⟩ := h
  obtain rfl : items.map write = vs := Json.array.inj hvs
  show vs'.mapM read = some items
  rw [List.forall₂_map_left_iff] at hall
  induction hall with
  | nil => rfl
  | @cons x v' items vs' hx _ ih =>
      have hrest := ih (fun y hy => hitems y (List.mem_cons_of_mem x hy)) rfl
      rw [List.mapM_cons, hitems x List.mem_cons_self v' hx, hrest]
      rfl

/-! ### Values that are kept before they are read -/

/-- Digits are taken into the significand as long as it has room. -/
theorem Number.appendDigits_of_lt {ds : List Char} {s : Nat}
    (h : Nat.ofDigitChars 10 ds s < Nat.pow 2 64) :
    appendDigits s ds = (Nat.ofDigitChars 10 ds s, []) := by
  induction ds generalizing s with
  | nil => rfl
  | cons d ds ih =>
      have hcons : Nat.ofDigitChars 10 (d :: ds) s =
          Nat.ofDigitChars 10 ds (10 * s + digitsValue [d]) := by
        simp [Nat.ofDigitChars_cons, digitsValue]
      have hle : 10 * s + digitsValue [d] ≤
          Nat.ofDigitChars 10 ds (10 * s + digitsValue [d]) := by
        rw [Nat.ofDigitChars_eq_ofDigitChars_zero]
        exact Nat.le_add_right_of_le
          (Nat.le_mul_of_pos_left _ (Nat.pow_pos (by decide)))
      rw [hcons] at h ⊢
      rw [appendDigits, if_pos (Nat.lt_of_le_of_lt hle h), ih h]

/-- An integer of 64 bits is finite. -/
theorem Number.isFinite_ofInt {i : Int} (h : i.natAbs < Nat.pow 2 64) :
    (Number.ofInt i).isFinite = true := by
  -- The digits of a number below the bound are all taken into its
  -- significand.
  have hdigits : Nat.ofDigitChars 10 (Nat.toDigits 10 i.natAbs) 0 =
      i.natAbs := digitsValue_toDigits i.natAbs
  have hwhole : (Number.ofInt i).wholePart = (i.natAbs, []) := by
    rw [wholePart, ofInt, appendDigits_of_lt (hdigits.symm ▸ h), hdigits]
  have hpart : (Number.ofInt i).significandPart = (i.natAbs, []) := by
    rw [significandPart, hwhole]
    rfl
  have hpower : (Number.ofInt i).power = 0 := by
    simp only [power, hwhole, hpart]
    rfl
  -- Rounding moves it by at most half a spacing.
  have hround : roundToDouble i.natAbs < Nat.pow 2 66 := by
    have hnear := (roundToDouble_near i.natAbs).1
    have hspacing : spacing i.natAbs ≤ Nat.pow 2 64 := by
      refine Nat.pow_le_pow_right (by decide) ?_
      by_cases hzero : i.natAbs = 0
      · simp [hzero]
      · have := (Nat.log2_lt hzero).mpr h
        omega
    have hpow : Nat.pow 2 66 = 4 * Nat.pow 2 64 := rfl
    omega
  -- So it is far below what overflows.
  have hbound : roundToDouble i.natAbs * roundToDouble 1 < overflow := by
    rw [roundToDouble_of_lt (by decide : 1 < Nat.pow 2 53), Nat.mul_one]
    exact Nat.lt_trans hround (by decide +kernel)
  simp only [isFinite, significand, hpart, hpower]
  simpa using .inr ⟨by decide, hbound⟩

/-- Items are plain one by one. -/
theorem arePlain_iff {levels : Nat} {items : List Json} :
    arePlain levels items = true ↔
      ∀ v ∈ items, isPlain levels v = true := by
  induction items with
  | nil => simp [arePlain]
  | cons v rest ih => simp [arePlain, ih]

/-- So are the members of an object that was written, whatever their names
are. -/
theorem membersPlain_ofMembers {levels : Nat}
    {ms : List (String × Json)} :
    membersPlain levels (ms.map fun (key, v) => (some key, v)) = true ↔
      ∀ m ∈ ms, isPlain levels m.2 = true := by
  induction ms with
  | nil => simp [membersPlain]
  | cons m rest ih => simp [membersPlain, ih]

/-- An object lies one level above its members. -/
theorem isPlain_ofMembers {levels : Nat} {ms : List (String × Json)} :
    (ofMembers ms).isPlain (levels + 1) = true ↔
      ∀ m ∈ ms, m.2.isPlain levels = true := by
  simp only [ofMembers, isPlain, Nat.add_sub_cancel,
    membersPlain_ofMembers, Nat.zero_lt_succ, decide_true, Bool.true_and]

/-- An array lies one level above its items. -/
theorem isPlain_array {levels : Nat} {items : List Json} :
    (Json.array items).isPlain (levels + 1) = true ↔
      ∀ v ∈ items, v.isPlain levels = true := by
  simp only [isPlain, Nat.add_sub_cancel, arePlain_iff,
    Nat.zero_lt_succ, decide_true, Bool.true_and]

/-- What is left can be kept as a whole if the value could. -/
def KeepsPlain (Abridged : Json → Json → Prop) : Prop :=
  ∀ levels j j', Abridged j j' → j.isPlain levels = true →
    j'.isPlain levels = true

/-- A value that is not shortened stays as plain as it was. -/
theorem KeepsPlain.same : KeepsPlain fun v v' => v' = v := by
  rintro levels j _ rfl hj
  exact hj

/-- Shortening the items of an array makes it no deeper if it makes none of
them deeper. -/
theorem KeepsPlain.array {Abridged : Json → Json → Prop}
    (h : KeepsPlain Abridged) : KeepsPlain (AbridgedArray Abridged) := by
  rintro levels _ _ ⟨vs, vs', rfl, rfl, hall⟩ hplain
  cases levels with
  | zero => simp [isPlain] at hplain
  | succ levels =>
      rw [isPlain_array] at hplain ⊢
      induction hall with
      | nil => exact hplain
      | @cons v v' vs vs' hv _ ih =>
          obtain ⟨hplainv, hplainvs⟩ := List.forall_mem_cons.mp hplain
          exact List.forall_mem_cons.mpr
            ⟨h levels v v' hv hplainv, ih hplainvs⟩

/-- Shortening an object makes it no deeper: a field that is left out takes
its value along. -/
theorem KeepsPlain.object {layout : List Field}
    (h : ∀ f ∈ layout, KeepsPlain f.Abridged) :
    KeepsPlain (AbridgedObject layout) := by
  rintro levels _ _ ⟨ms, ms', rfl, rfl, hms⟩ hplain
  cases levels with
  | zero => simp [isPlain, ofMembers] at hplain
  | succ levels =>
      rw [isPlain_ofMembers] at hplain ⊢
      induction hms with
      | nil => exact hplain
      | @keep f fs v v' ms ms' hv _ ih =>
          obtain ⟨hf, hfs⟩ := List.forall_mem_cons.mp h
          obtain ⟨hplainv, hplainms⟩ := List.forall_mem_cons.mp hplain
          exact List.forall_mem_cons.mpr
            ⟨hf levels v v' hv hplainv, ih hfs hplainms⟩
      | leaveOut _ _ ih =>
          exact ih (List.forall_mem_cons.mp h).2
            (List.forall_mem_cons.mp hplain).2

end SchemaEvolution.Json
