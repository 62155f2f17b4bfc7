import SchemaEvolution.Text.Basic

/-!
# `SchemaEvolution.Proofs.Text.Digits`: digits that were written are read

A reader of digits stops at the first character that is none. So digits
are read back from in front of any text that does not go on with one,
and this is what `Clear` asks of the text behind them.

* `takeWhile_append_clear`, `dropWhile_append_clear`: characters of one
  kind are taken up to a text that is clear of them.
* `number?_append`: digits are read from the front of a text.
* `number?_padded`: a number is read back from its padded digits.
* `toDigits_eq_zero_cons`: only the digits of zero begin with a zero.
-/

set_option autoImplicit false

namespace SchemaEvolution.Text

/-! ### Where a run of characters ends -/

section Clear

variable {p : Char → Bool}

/-- The text does not begin with a character of this kind. -/
def Clear (p : Char → Bool) (cs : List Char) : Prop :=
  ∀ c ∈ cs.head?, p c = false

/-- A text that ends here goes on with nothing. -/
@[simp]
theorem clear_nil : Clear p [] := by
  rintro c ⟨⟩

/-- What a text goes on with is decided by its first character. -/
@[simp]
theorem clear_cons {c : Char} {rest : List Char} :
    Clear p (c :: rest) ↔ p c = false := by
  simp [Clear]

/-- Characters of one kind are taken up to a text that is clear of
them. -/
theorem takeWhile_append_clear {cs rest : List Char}
    (hcs : ∀ c ∈ cs, p c = true) (hrest : Clear p rest) :
    (cs ++ rest).takeWhile p = cs := by
  rw [List.takeWhile_append_of_pos hcs]
  cases rest with
  | nil => simp
  | cons c rest => simp [clear_cons.mp hrest]

/-- What they leave is that text. -/
theorem dropWhile_append_clear {cs rest : List Char}
    (hcs : ∀ c ∈ cs, p c = true) (hrest : Clear p rest) :
    (cs ++ rest).dropWhile p = rest := by
  rw [List.dropWhile_append_of_pos hcs]
  cases rest with
  | nil => rfl
  | cons c rest => simp [clear_cons.mp hrest]

end Clear

/-- White space is skipped where there is none. -/
theorem skipBlanks_of_clear {cs : List Char} (h : Clear isWhiteSpace cs) :
    skipBlanks cs = cs := by
  cases cs with
  | nil => rfl
  | cons c rest => simp [skipBlanks, clear_cons.mp h]

/-- No digit is white space. -/
theorem isWhiteSpace_of_isDigit {c : Char} (h : c.isDigit = true) :
    isWhiteSpace c = false := by
  have hdigit : 48 ≤ c.toNat ∧ c.toNat ≤ 57 := by
    simpa [Char.isDigit, UInt32.le_iff_toNat_le] using h
  simp only [isWhiteSpace, Bool.or_eq_false_iff, Bool.and_eq_false_iff,
    decide_eq_false_iff_not, beq_eq_false_iff_ne]
  omega

/-! ### The digits of a number -/

/-- A number is written with digits. -/
theorem isDigit_of_mem_toDigits {n : Nat} {c : Char}
    (h : c ∈ Nat.toDigits 10 n) : c.isDigit = true :=
  Nat.isDigit_of_mem_toDigits (by decide) (by decide) h

/-- Only the digits of zero begin with a zero. -/
theorem toDigits_eq_zero_cons {n : Nat} {rest : List Char}
    (h : Nat.toDigits 10 n = '0' :: rest) : n = 0 := by
  induction n using Nat.strongRecOn generalizing rest with
  | _ n ih =>
      by_cases hn : n < 10
      · -- A single digit is the number itself.
        rw [Nat.toDigits_of_lt_base hn] at h
        have hvalue := digitsValue_toDigits n
        rw [Nat.toDigits_of_lt_base hn, (List.cons.inj h).1] at hvalue
        exact hvalue.symm
      · -- The digits but the last are those of a tenth of the number.
        have hten : 10 ≤ n := Nat.le_of_not_lt hn
        rw [Nat.toDigits_of_base_le (by decide) hten] at h
        obtain ⟨d, ds, hdigits⟩ := List.exists_cons_of_ne_nil
          (Nat.toDigits_ne_nil (n := n / 10) (b := 10))
        rw [hdigits, List.cons_append] at h
        rw [(List.cons.inj h).1] at hdigits
        have := ih (n / 10) (by omega) hdigits
        omega

/-! ### Numbers with a width -/

/-- The digits that a number is padded to. -/
theorem toList_padded (width n : Nat) :
    (padded width n).toList =
      List.replicate (width - (Nat.toDigits 10 n).length) '0' ++
        Nat.toDigits 10 n := by
  simp [padded]

/-- So it is with zeros in front. -/
theorem isDigit_of_mem_padded {width n : Nat} {c : Char}
    (h : c ∈ (padded width n).toList) : c.isDigit = true := by
  rw [toList_padded] at h
  rcases List.mem_append.mp h with h | h
  · rw [List.eq_of_mem_replicate h]
    rfl
  · exact isDigit_of_mem_toDigits h

/-- A text that is padded to no width still has the digits of the number. -/
theorem padded_ne_nil (width n : Nat) : (padded width n).toList ≠ [] := by
  rw [toList_padded]
  simp

/-- A number is read back from its padded digits. -/
theorem digitsValue_padded (width n : Nat) :
    digitsValue (padded width n).toList = n := by
  rw [toList_padded, digitsValue, Nat.ofDigitChars_append,
    Nat.ofDigitChars_replicate_zero, Nat.mul_zero]
  exact digitsValue_toDigits n

/-- A number is as wide as it is padded if it is not too large. -/
theorem length_padded {width n : Nat} (hwidth : 0 < width)
    (h : n < Nat.pow 10 width) : (padded width n).toList.length = width := by
  have hle := (Nat.length_toDigits_le_iff (by decide) hwidth).mpr h
  rw [toList_padded, List.length_append, List.length_replicate]
  omega

/-! ### Reading a number -/

/-- Digits are read from the front of a text, as long as no more of them
are asked for than there are, or the text does not go on with one. -/
theorem number?_append {most : Nat} {ds rest : List Char} (hne : ds ≠ [])
    (hds : ∀ c ∈ ds, c.isDigit = true) (hlength : ds.length ≤ most)
    (hrest : ds.length = most ∨ Clear Char.isDigit rest) :
    number? most (ds ++ rest) = some (digitsValue ds, rest) := by
  have htake : ((ds ++ rest).take most).takeWhile Char.isDigit = ds := by
    rcases hrest with hmost | hclear
    · rw [← hmost, List.take_left]
      have hall := takeWhile_append_clear hds clear_nil
      rwa [List.append_nil] at hall
    · rw [List.take_append, List.take_of_length_le hlength]
      refine takeWhile_append_clear hds ?_
      cases most - ds.length with
      | zero => simp
      | succ k =>
          cases rest with
          | nil => simp
          | cons c rest => exact hclear
  obtain ⟨d, ds', rfl⟩ := List.exists_cons_of_ne_nil hne
  rw [number?]
  simp only [htake]
  rw [List.drop_left' (by simp)]

/-- A number is read back from its padded digits. -/
theorem number?_padded {width n : Nat} (hwidth : 0 < width)
    (h : n < Nat.pow 10 width) (rest : List Char) :
    number? width ((padded width n).toList ++ rest) = some (n, rest) := by
  have hlength := length_padded hwidth h
  rw [number?_append (padded_ne_nil width n)
    (fun _ => isDigit_of_mem_padded) (Nat.le_of_eq hlength)
    (.inl hlength),
    digitsValue_padded]

end SchemaEvolution.Text
