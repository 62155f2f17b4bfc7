import SchemaEvolution.Proofs.Text.Digits
import SchemaEvolution.Text.Basic

/-!
# `SchemaEvolution.Proofs.Text.Numeral`: how numerals are spelled

`Numeral.parse?` takes a text apart from its front. The grammar of
numerals says the same thing the other way round, as parts put behind one
another: `Numeral.Spells` for the numeral that a text stands for, and
`Numeral.IsSpelled` for a text by itself.

* `parse?_eq_some_iff`: a text is read as the numeral that it spells.
* `isNumeral_iff`: the texts that are numerals are those that the grammar
  spells.
* `Spells.isDigit_or`, `Spells.point_mem_iff`: which characters are in them.
-/

set_option autoImplicit false

namespace SchemaEvolution.Text

/-- At least one digit, and nothing else. -/
def IsDigits (cs : List Char) : Prop :=
  cs ≠ [] ∧ ∀ c ∈ cs, c.isDigit = true

/-- Digits do not begin with a sign. -/
theorem IsDigits.ne_sign {cs rest tail : List Char} {c : Char}
    (h : IsDigits cs) (hc : c.isDigit = false) :
    cs ++ rest ≠ c :: tail := by
  obtain ⟨d, ds, rfl⟩ := List.exists_cons_of_ne_nil h.1
  rintro ⟨⟩
  exact absurd (h.2 c List.mem_cons_self) (by simp [hc])

namespace Numeral

/-- The digits behind the point, with the point if there are any. -/
def pointed (fraction : List Char) : List Char :=
  if fraction = [] then [] else '.' :: fraction

/-- A numeral without its sign, as it is spelled. -/
def unsigned (n : Numeral) : List Char := n.whole ++ pointed n.fraction

/-- What may stand before the digits. -/
inductive IsSign : Bool → List Char → Prop where
  | none : IsSign false []
  | plus : IsSign false ['+']
  | minus : IsSign true ['-']

/-- The text spells the numeral: a sign, digits, and a point with digits
unless there are none behind it. -/
structure Spells (n : Numeral) (s : String) : Prop where
  whole : IsDigits n.whole
  fraction : ∀ c ∈ n.fraction, c.isDigit = true
  text : ∃ sign, IsSign n.negative sign ∧ s.toList = sign ++ n.unsigned

/-- The text is an optional sign, digits, and optionally a point with
digits. -/
def IsSpelled (s : String) : Prop :=
  ∃ sign whole fraction : List Char,
    s.toList = sign ++ whole ++ fraction ∧
    sign ∈ [[], ['+'], ['-']] ∧ IsDigits whole ∧
    (fraction = [] ∨ ∃ ds, fraction = '.' :: ds ∧ IsDigits ds)

/-! ### Reading -/

/-- The digits of a numeral without a sign are read back. -/
theorem ofUnsigned?_unsigned {n : Numeral} (hwhole : IsDigits n.whole)
    (hfraction : ∀ c ∈ n.fraction, c.isDigit = true) :
    ofUnsigned? n.negative n.unsigned = some n := by
  obtain ⟨negative, whole, fraction⟩ := n
  obtain ⟨d, ds, rfl⟩ := List.exists_cons_of_ne_nil hwhole.1
  have hclear : Clear Char.isDigit (pointed fraction) := by
    unfold pointed
    split <;> simp
  rw [ofUnsigned?, unsigned, takeWhile_append_clear hwhole.2 hclear,
    dropWhile_append_clear hwhole.2 hclear]
  cases fraction with
  | nil => rfl
  | cons c cs => simpa [pointed] using hfraction

/-- What is read as a numeral without a sign is spelled as one. -/
theorem eq_unsigned_of_ofUnsigned? {negative : Bool} {cs : List Char}
    {n : Numeral} (h : ofUnsigned? negative cs = some n) :
    n.negative = negative ∧ IsDigits n.whole ∧
      (∀ c ∈ n.fraction, c.isDigit = true) ∧ cs = n.unsigned := by
  -- The text is its leading digits and whatever stands behind them.
  have hsplit := (List.takeWhile_append_dropWhile (p := Char.isDigit)
    (l := cs)).symm
  have hdigits : ∀ c ∈ cs.takeWhile Char.isDigit, c.isDigit = true :=
    List.all_eq_true.mp List.all_takeWhile
  unfold ofUnsigned? at h
  split at h
  · cases h
  · next hdrop hne =>
      -- Digits, and nothing behind them.
      cases h
      rw [hdrop, List.append_nil] at hsplit
      exact ⟨rfl, ⟨hne, hdigits⟩, by simp,
        hsplit.trans (by simp [unsigned, pointed])⟩
  · next fraction hdrop hne =>
      split at h
      · next hfraction =>
          cases h
          simp only [Bool.and_eq_true, Bool.not_eq_true',
            List.isEmpty_eq_false_iff, List.all_eq_true] at hfraction
          rw [hdrop] at hsplit
          exact ⟨rfl, ⟨hne, hdigits⟩, hfraction.2,
            hsplit.trans (by simp [unsigned, pointed, hfraction.1])⟩
      · cases h
  · cases h

/-- A text is read as the numeral that it spells. -/
theorem parse?_eq_some_iff {s : String} {n : Numeral} :
    parse? s = some n ↔ n.Spells s := by
  constructor
  · intro h
    -- The sign that was taken off decides what was read behind it.
    have spells : ∀ {negative : Bool} {sign cs : List Char},
        IsSign negative sign → s.toList = sign ++ cs →
        ofUnsigned? negative cs = some n → n.Spells s := by
      intro negative sign cs hsign htext hread
      obtain ⟨rfl, hwhole, hfraction, rfl⟩ :=
        eq_unsigned_of_ofUnsigned? hread
      exact ⟨hwhole, hfraction, sign, hsign, htext⟩
    unfold parse? at h
    split at h
    · next cs htext => exact spells .plus htext h
    · next cs htext => exact spells .minus htext h
    · exact spells .none rfl h
  · rintro ⟨hwhole, hfraction, sign, hsign, htext⟩
    have hread := ofUnsigned?_unsigned hwhole hfraction
    obtain ⟨negative, whole, fraction⟩ := n
    unfold parse?
    rw [htext]
    cases hsign with
    | plus | minus => exact hread
    | none =>
        -- The text begins with a digit.
        split
        · next htail => exact absurd htail (hwhole.ne_sign rfl)
        · next htail => exact absurd htail (hwhole.ne_sign rfl)
        · exact hread

/-- The texts that spell a numeral are those of the grammar. -/
theorem isSpelled_iff {s : String} :
    IsSpelled s ↔ ∃ n : Numeral, n.Spells s := by
  constructor
  · rintro ⟨sign, whole, fraction, htext, hsign, hwhole, hfraction⟩
    obtain ⟨negative, hsign⟩ : ∃ negative, IsSign negative sign := by
      simp only [List.mem_cons, List.not_mem_nil, or_false] at hsign
      rcases hsign with rfl | rfl | rfl
      · exact ⟨false, .none⟩
      · exact ⟨false, .plus⟩
      · exact ⟨true, .minus⟩
    rw [List.append_assoc] at htext
    rcases hfraction with rfl | ⟨ds, rfl, hds⟩
    · exact ⟨⟨negative, whole, []⟩, hwhole, by simp, sign, hsign, htext⟩
    · exact ⟨⟨negative, whole, ds⟩, hwhole, hds.2, sign, hsign,
        htext.trans (by simp [unsigned, pointed, hds.1])⟩
  · rintro ⟨⟨_, whole, fraction⟩, hwhole, hfraction, sign, hsign, htext⟩
    refine ⟨sign, whole, pointed fraction, ?_, ?_, hwhole, ?_⟩
    · rw [htext, unsigned, List.append_assoc]
    · cases hsign <;> simp
    · unfold pointed
      split
      · exact .inl rfl
      · next hne => exact .inr ⟨_, rfl, hne, hfraction⟩

/-- The texts that are numerals are those that the grammar spells. -/
theorem isNumeral_iff {s : String} : isNumeral s = true ↔ IsSpelled s := by
  rw [isNumeral, Option.isSome_iff_exists, isSpelled_iff]
  simp only [parse?_eq_some_iff]

/-- A text is a numeral in one way at most. -/
theorem Spells.unique {m n : Numeral} {s : String} (hm : m.Spells s)
    (hn : n.Spells s) : m = n :=
  Option.some.inj
    ((parse?_eq_some_iff.2 hm).symm.trans (parse?_eq_some_iff.2 hn))

/-! ### The characters of a numeral -/

theorem IsSign.eq_or {negative : Bool} {sign : List Char}
    (h : IsSign negative sign) {c : Char} (hc : c ∈ sign) :
    c = '+' ∨ c = '-' := by
  cases h <;> simp_all

/-- There is a point in a numeral when there are digits behind it. -/
theorem Spells.point_mem_iff {n : Numeral} {s : String} (h : n.Spells s) :
    '.' ∈ s.toList ↔ n.scale ≠ 0 := by
  obtain ⟨⟨-, hwhole⟩, hfraction, sign, hsign, htext⟩ := h
  have hdigits : '.' ∉ n.whole := fun hmem => by simpa using hwhole _ hmem
  have hnosign : '.' ∉ sign := fun hmem => by simpa using hsign.eq_or hmem
  rw [htext, unsigned, scale, pointed]
  split
  · next hnone => simp [hdigits, hnosign, hnone]
  · next hsome => simp [hsome]

/-- A numeral has no characters but digits, signs and a point. -/
theorem Spells.isDigit_or {n : Numeral} {s : String} (h : n.Spells s)
    {c : Char} (hc : c ∈ s.toList) :
    c.isDigit = true ∨ c = '+' ∨ c = '-' ∨ c = '.' := by
  obtain ⟨⟨-, hwhole⟩, hfraction, sign, hsign, htext⟩ := h
  rw [htext, unsigned, pointed, List.mem_append, List.mem_append] at hc
  rcases hc with hc | hc | hc
  · exact .inr ((hsign.eq_or hc).imp_right .inl)
  · exact .inl (hwhole c hc)
  · split at hc
    · cases hc
    · rcases List.mem_cons.1 hc with rfl | hc
      · exact .inr (.inr (.inr rfl))
      · exact .inl (hfraction c hc)

end Numeral

end SchemaEvolution.Text
