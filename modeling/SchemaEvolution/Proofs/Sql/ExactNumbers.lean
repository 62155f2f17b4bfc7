import Mathlib.Data.Rat.Floor
import Mathlib.Tactic.FieldSimp
import SchemaEvolution.Ddl.Target
import SchemaEvolution.Proofs.Sql.AnsiArithmetic
import SchemaEvolution.Proofs.Sql.Expressions

/-!
# `SchemaEvolution.Proofs.Sql.ExactNumbers`: numbers keep their value

A numeral stands for a rational number, and so does a constant. The text
of a constant is read as a number again by its lexemes: digits with a sign
or without, or a string of digits that is cast. A cast to a type with so
many digits may round a number, or have no room for it. The type that NuoDB
writes is that of the digits of the numeral, which holds exactly its
number.

* `Numeral.Denotes`: the number that a numeral stands for.
* `Numeral.exists_units`: the digits of a numeral, all in a row, are its
  number without the point.
* `QuoteRule.number?`: the number that a text is read as.
* `numbers_kept`: which decimals and defaults are numbers, and that they
  are the same numbers as constants and in every text.
-/

set_option autoImplicit false

namespace SchemaEvolution

open SchemaEvolution.Sql
open SchemaEvolution.Text

/-! ### The number that a numeral stands for -/

namespace Text

/-- Digits stand higher by as many places as there are digits behind
them. -/
theorem digitsValue_append (ds es : List Char) :
    digitsValue (ds ++ es) =
      10 ^ es.length * digitsValue ds + digitsValue es := by
  rw [digitsValue, Nat.ofDigitChars_append,
    Nat.ofDigitChars_eq_ofDigitChars_zero]
  rfl

/-- Digits stand for less than a one with as many zeros. -/
theorem digitsValue_lt {ds : List Char}
    (h : ∀ c ∈ ds, c.isDigit = true) : digitsValue ds < 10 ^ ds.length := by
  induction ds with
  | nil => simp [digitsValue]
  | cons c rest ih =>
      obtain ⟨hc, hrest⟩ := List.forall_mem_cons.1 h
      have hdigit : digitsValue [c] ≤ 9 := by
        have : 48 ≤ c.toNat ∧ c.toNat ≤ 57 := by
          simpa [Char.isDigit, UInt32.le_iff_toNat_le] using hc
        simp only [digitsValue, Nat.ofDigitChars_cons, Nat.ofDigitChars_nil]
        have : '0'.toNat = 48 := rfl
        omega
      have hvalue := digitsValue_append [c] rest
      rw [List.singleton_append] at hvalue
      rw [hvalue, List.length_cons, Nat.pow_succ]
      have := Nat.mul_le_mul_left (10 ^ rest.length) hdigit
      have := ih hrest
      omega

namespace Numeral

/-- The number without its sign. -/
def size (n : Numeral) : ℚ :=
  digitsValue n.whole + digitsValue n.fraction / 10 ^ n.scale

/-- The number that a numeral stands for. -/
def value (n : Numeral) : ℚ :=
  if n.negative then -n.size else n.size

/-- The text is a numeral of the number. -/
def Denotes (s : String) (x : ℚ) : Prop :=
  ∃ n : Numeral, n.Spells s ∧ n.value = x

/-- The number of a numeral is that of its parts. -/
theorem Spells.denotes_iff {n : Numeral} {s : String} (h : n.Spells s)
    {x : ℚ} : Denotes s x ↔ n.value = x := by
  constructor
  · rintro ⟨m, hm, rfl⟩
    rw [hm.unique h]
  · exact fun hx => ⟨n, h, hx⟩

/-- A numeral stands for one number. -/
theorem existsUnique_denotes {s : String} (h : IsSpelled s) :
    ∃! x, Denotes s x := by
  obtain ⟨n, hn⟩ := isSpelled_iff.1 h
  exact ⟨n.value, ⟨n, hn, rfl⟩, fun y hy => (hn.denotes_iff.1 hy).symm⟩

/-- Without the point, the number is an integer with as many digits as the
numeral. -/
theorem exists_units {n : Numeral} {s : String} (h : n.Spells s) :
    ∃ units : ℤ, n.value * 10 ^ n.scale = units ∧
      |units| < 10 ^ n.precision := by
  -- The digits before the point and behind it, in a row.
  have hsize : n.size * 10 ^ n.scale =
      (digitsValue (n.whole ++ n.fraction) : ℕ) := by
    rw [digitsValue_append, size, scale]
    push_cast
    field_simp
  have hlt : digitsValue (n.whole ++ n.fraction) < 10 ^ n.precision := by
    rw [precision, ← List.length_append]
    refine digitsValue_lt fun c hc => ?_
    rcases List.mem_append.1 hc with hc | hc
    · exact h.whole.2 c hc
    · exact h.fraction c hc
  generalize digitsValue (n.whole ++ n.fraction) = units at hsize hlt
  have hlt' : (units : ℤ) < 10 ^ n.precision := by exact_mod_cast hlt
  unfold value
  cases n.negative with
  | false => exact ⟨units, by simpa using hsize, by simpa using hlt'⟩
  | true =>
      refine ⟨-units, ?_, by simpa using hlt'⟩
      simp [neg_mul, hsize]

/-- No numeral has a backslash in it. -/
theorem Spells.no_backslash {n : Numeral} {s : String} (h : n.Spells s) :
    backslash ∉ s.toList := fun hmem => by
  have := h.isDigit_or hmem
  revert this
  decide

/-- The integer that is read off a numeral is its number, and then there
are no digits behind the point. -/
theorem toInt64?_eq_some {n : Numeral} {i : Int64}
    (h : n.toInt64? = some i) : n.scale = 0 ∧ (i.toInt : ℚ) = n.value := by
  obtain ⟨k, hk, hrange⟩ := Option.bind_eq_some_iff.1 h
  unfold Numeral.toInt? at hk
  split at hk
  · next hfraction =>
      split at hrange
      · next hbounds =>
          have htoInt : i.toInt = k := by
            rw [← Option.some.inj hrange]
            exact Int64.toInt_ofInt_of_le hbounds.1
              (Int.lt_add_one_of_le hbounds.2)
          have hnone : n.fraction = [] := List.isEmpty_iff.1 hfraction
          refine ⟨by simp [scale, hnone], ?_⟩
          rw [htoInt, ← Option.some.inj hk, value, size]
          cases n.negative <;> simp [hnone, digitsValue]
      · cases hrange
  · cases hk

/-- The digits of an integer are a numeral of it. -/
theorem denotes_toString (i : ℤ) : Denotes (toString i) i := by
  have hdigits : ∀ k : ℕ, IsDigits (Nat.toDigits 10 k) := fun k =>
    ⟨Nat.toDigits_ne_nil, fun _ => isDigit_of_mem_toDigits⟩
  have htext : ∀ k : ℕ, (toString k).toList = Nat.toDigits 10 k :=
    fun k => by rw [Nat.toString_eq_ofList_toDigits, String.toList_ofList]
  cases i with
  | ofNat k =>
      refine ⟨⟨false, Nat.toDigits 10 k, []⟩,
        ⟨hdigits k, by simp, [], .none, ?_⟩, ?_⟩
      · rw [show toString (Int.ofNat k) = toString k from rfl, htext]
        simp [unsigned, pointed]
      · simp [value, size, scale, digitsValue]
  | negSucc k =>
      refine ⟨⟨true, Nat.toDigits 10 (k + 1), []⟩,
        ⟨hdigits (k + 1), by simp, ['-'], .minus, ?_⟩, ?_⟩
      · show ("-" ++ toString (k + 1)).toList = _
        rw [String.toList_append, htext]
        simp [unsigned, pointed]
      · simp [value, size, scale, digitsValue, Int.negSucc_eq]

end Numeral

end Text

/-- The constant is the number. -/
def Literal.Denotes (l : Literal) (x : ℚ) : Prop :=
  match l with
  | .integer i => (i.toInt : ℚ) = x
  | .decimal text => Numeral.Denotes text x
  | _ => False

/-! ### Reading a number -/

namespace Sql

/-- What a cast makes of a number for a type with `precision` digits, of
which `scale` are behind the point: the nearest one that has no more digits
behind the point, if there is room for it. -/
def castDecimal? (precision scale : ℕ) (x : ℚ) : Option ℚ :=
  let units := round (x * 10 ^ scale)
  if |units| < 10 ^ precision then some (units / 10 ^ scale) else none

/-- A cast leaves a number alone that the type holds. -/
theorem castDecimal?_of_units {precision scale : ℕ} {x : ℚ} {units : ℤ}
    (hunits : x * 10 ^ scale = units) (hlt : |units| < 10 ^ precision) :
    castDecimal? precision scale x = some x := by
  have hback : (units : ℚ) / 10 ^ scale = x := by
    rw [← hunits]
    field_simp
  rw [castDecimal?, hunits, round_intCast, if_pos hlt, hback]

/-- The number that digits stand for, with a point among them or
without. -/
def digits? (s : String) : Option ℚ := (Numeral.parse? s).map Numeral.value

/-- The number that the lexemes of a constant stand for. -/
def numberOf? : List Lexeme → Option ℚ
  | [.word w] => digits? w
  | [.operator .plus, .word w] => digits? w
  | [.operator .minus, .word w] => (digits? w).map (-·)
  | [.word "CAST", .opening .round, .literal s, .word "AS",
      .word "DECIMAL", .opening .round, .word precision, .mark ',',
      .word scale, .closing .round, .closing .round] => do
      castDecimal? (← naturalNumber? precision) (← naturalNumber? scale)
        (← digits? s)
  | _ => none

/-- The number that a text is read as. -/
def QuoteRule.number? (q : QuoteRule) (s : String) : Option ℚ :=
  (q.lexemes? s.toList).bind numberOf?

theorem digits?_of_denotes {s : String} {x : ℚ}
    (h : Numeral.Denotes s x) : digits? s = some x := by
  obtain ⟨n, hn, rfl⟩ := h
  rw [digits?, Numeral.parse?_eq_some_iff.2 hn]
  rfl

variable {q : QuoteRule}

/-- A numeral is read as its number. -/
theorem QuoteRule.number?_of_denotes {s : String} {x : ℚ}
    (h : Numeral.Denotes s x) : q.number? s = some x := by
  obtain ⟨n, hn, rfl⟩ := h
  obtain ⟨w, hw, -, sign, hsign, hlexemes⟩ :=
    exists_hasLexemes_numeral (q := q) hn
  -- The word is the numeral without its sign.
  have hword : digits? w = some n.size :=
    digits?_of_denotes ⟨{ n with negative := false },
      ⟨hn.whole, hn.fraction, [], .none, hw⟩, rfl⟩
  have hvalue : n.value = if n.negative then -n.size else n.size := rfl
  rw [QuoteRule.number?, hlexemes, Option.bind_some, hvalue]
  generalize n.size = size at hword ⊢
  generalize n.negative = negative at hsign ⊢
  cases hsign with
  | none | plus | minus => simp [numberOf?, hword]

/-- The lexemes of a cast of a string without quotes and backslashes. -/
theorem hasLexemes_castDecimal {s : String} (hquote : QuoteFree s)
    (hbackslash : backslash ∉ s.toList) (precision scale : ℕ) :
    HasLexemes q ("CAST ('" ++ s ++ "' AS DECIMAL(" ++ toString precision ++
        "," ++ toString scale ++ "))")
      [.word "CAST", .opening .round, .literal s, .word "AS",
        .word "DECIMAL", .opening .round, .word (toString precision),
        .mark ',', .word (toString scale), .closing .round,
        .closing .round] := by
  have htext : "CAST ('" ++ s ++ "' AS DECIMAL(" ++ toString precision ++
      "," ++ toString scale ++ "))" =
        "CAST (" ++ (("'" ++ s ++ "'") ++ (" AS DECIMAL(" ++
          (toString precision ++ ("," ++ (toString scale ++ "))"))))) := by
    have hfront : "CAST ('" = "CAST (" ++ "'" := by decide
    have hback : "' AS DECIMAL(" = "'" ++ " AS DECIMAL(" := by decide
    rw [hfront, hback]
    simp only [String.append_assoc]
  -- From the last bracket to the front.
  have hend : HasLexemes q "))" [.closing .round, .closing .round] :=
    lexemes?_of_constant? (by decide)
  have hscale := (hasLexemes_nat (q := q) scale).2.append hend (by decide)
  have hcomma : Leads q "," [.mark ','] := Leads.of_lead? (by decide)
  have hprecision := (hasLexemes_nat (q := q) precision).2.append
    (hcomma hscale) (begins_append (by decide))
  have htype : Leads q " AS DECIMAL("
      [.word "AS", .word "DECIMAL", .opening .round] :=
    Leads.of_lead? (by decide)
  have hstring := (hasLexemes_quoted (q := q) hquote hbackslash).append
    (htype hprecision) (begins_append (by decide))
  have hcast : Leads q "CAST (" [.word "CAST", .opening .round] :=
    Leads.of_lead? (by decide)
  rw [htext]
  exact hcast hstring

/-- A string of digits that is cast is read as what the cast makes of its
number. -/
theorem QuoteRule.number?_castDecimal {s : String}
    (hquote : QuoteFree s) (hbackslash : backslash ∉ s.toList) {x : ℚ}
    (hdigits : digits? s = some x) (precision scale : ℕ) :
    q.number? ("CAST ('" ++ s ++ "' AS DECIMAL(" ++ toString precision ++
        "," ++ toString scale ++ "))") =
      castDecimal? precision scale x := by
  rw [QuoteRule.number?, hasLexemes_castDecimal hquote hbackslash,
    Option.bind_some]
  have hprecision := naturalNumber?_toString precision
  have hscale := naturalNumber?_toString scale
  generalize toString precision = p at hprecision ⊢
  generalize toString scale = s at hscale ⊢
  simp [numberOf?, hprecision, hscale, hdigits]

/-- The text casts a numeral to a type that holds the number as it is: a
part of its digits are behind the point, and the number has no more digits
than that, there or in all. -/
def IsExactCast (sql text : String) (x : ℚ) : Prop :=
  ∃ precision scale : ℕ,
    sql = "CAST ('" ++ text ++ "' AS DECIMAL(" ++ toString precision ++
      "," ++ toString scale ++ "))" ∧
    0 < scale ∧ scale < precision ∧
    ∃ units : ℤ, x * 10 ^ scale = units ∧ |units| < 10 ^ precision

end Sql

/-! ### Writing a number -/

/-- What standard SQL may write for a number: a numeral, which is read as
the number. -/
structure Ansi.WritesNumber (sql : String) (x : ℚ) : Prop where
  numeral : Numeral.Denotes sql x
  read : QuoteRule.doubled.number? sql = some x

/-- What NuoDB may write for the number of a text: a cast of the text if
there is a point in it and else a numeral, which is read as the number. -/
structure NuoDb.WritesNumber (sql text : String) (x : ℚ) : Prop where
  cast : '.' ∈ text.toList → IsExactCast sql text x
  numeral : '.' ∉ text.toList → Numeral.Denotes sql x
  read : QuoteRule.escaped.number? sql = some x

theorem Ansi.writesNumber {sql : String} {x : ℚ}
    (h : Numeral.Denotes sql x) : Ansi.WritesNumber sql x :=
  ⟨h, QuoteRule.number?_of_denotes h⟩

/-- A text without a point may be written as any numeral of its
number. -/
theorem NuoDb.writesNumber {sql text : String} {x : ℚ}
    (hpoint : '.' ∉ text.toList) (h : Numeral.Denotes sql x) :
    NuoDb.WritesNumber sql text x :=
  ⟨fun hmem => absurd hmem hpoint, fun _ => h,
    QuoteRule.number?_of_denotes h⟩

/-- A string without quotes and backslashes is written as it is. -/
theorem NuoDb.escape_of_plain {s : String} (hquote : QuoteFree s)
    (hbackslash : backslash ∉ s.toList) : escape s = s := by
  have hsplice : ∀ cs : List Char, quote ∉ cs → backslash ∉ cs →
      splice cs = cs := by
    intro cs hquote hbackslash
    induction cs with
    | nil => rfl
    | cons c cs ih =>
        rw [List.mem_cons, not_or] at hquote hbackslash
        rw [splice_cons (Ne.symm hquote.1) (Ne.symm hbackslash.1),
          ih hquote.2 hbackslash.2]
  rw [← String.toList_inj, toList_escape, hsplice _ hquote hbackslash]

/-- A decimal is written by standard SQL when it is a numeral, and as it
is. -/
theorem ansi_literalText_decimal {text sql : String} :
    Dialect.ansi.literalText (.decimal text) = .ok sql ↔
      Numeral.IsSpelled text ∧ sql = text := by
  show (Literal.validate (.decimal text) >>= fun _ => pure text) = _ ↔ _
  rw [bind_eq_ok_iff, ← Numeral.isNumeral_iff,
    ← Literal.validate_decimal_iff, pure_eq_ok, Except.ok.injEq]
  constructor
  · rintro ⟨⟨⟩, hvalid, rfl⟩
    exact ⟨hvalid, rfl⟩
  · rintro ⟨hvalid, rfl⟩
    exact ⟨(), hvalid, rfl⟩

/-- A decimal is written by NuoDB when it is a numeral: as it is, or, if
there are digits behind the point, as a cast to the type of its digits. -/
theorem nuoDb_literalText_decimal {text sql : String} :
    Dialect.nuoDb.literalText (.decimal text) = .ok sql ↔
      ∃ n : Numeral, n.Spells text ∧
        sql = if n.scale = 0 then text
          else "CAST ('" ++ text ++ "' AS DECIMAL(" ++
            toString n.precision ++ "," ++ toString n.scale ++ "))" := by
  show NuoDb.literal NuoDb.escape (.decimal text) = _ ↔ _
  rw [NuoDb.literal]
  split
  · next hnone =>
      simp [← Numeral.parse?_eq_some_iff, hnone]
  · next n hn =>
      have hspells := Numeral.parse?_eq_some_iff.1 hn
      rw [NuoDb.escape_of_plain (quoteFree_of_spells hspells) hspells.no_backslash]
      simp only [← Numeral.parse?_eq_some_iff, hn, Option.some.injEq,
        exists_eq_left']
      split <;> simp [eq_comm]

/-- A cast to the type of the digits of a numeral holds its number. -/
theorem isExactCast_of_spells {n : Numeral} {text : String}
    (h : n.Spells text) (hpoint : '.' ∈ text.toList) :
    IsExactCast ("CAST ('" ++ text ++ "' AS DECIMAL(" ++
      toString n.precision ++ "," ++ toString n.scale ++ "))") text
      n.value := by
  have hwhole := List.length_pos_of_ne_nil h.whole.1
  have hscale := Nat.pos_of_ne_zero (h.point_mem_iff.1 hpoint)
  refine ⟨n.precision, n.scale, rfl, hscale, ?_, Numeral.exists_units h⟩
  rw [Numeral.precision, Numeral.scale]
  omega

/-- NuoDB writes a decimal for its number. -/
theorem nuoDb_writes_decimal {text : String} {x : ℚ}
    (h : Numeral.Denotes text x) :
    ∃ sql, Dialect.nuoDb.literalText (.decimal text) = .ok sql ∧
      NuoDb.WritesNumber sql text x := by
  obtain ⟨n, hn, rfl⟩ := h
  refine ⟨_, nuoDb_literalText_decimal.2 ⟨n, hn, rfl⟩, ?_⟩
  split
  · next hscale =>
      exact NuoDb.writesNumber (mt hn.point_mem_iff.1 (not_not.2 hscale))
        ⟨n, hn, rfl⟩
  · next hscale =>
      have hpoint := hn.point_mem_iff.2 hscale
      obtain ⟨units, hunits, hlt⟩ := Numeral.exists_units hn
      refine ⟨fun _ => isExactCast_of_spells hn hpoint,
        fun hnone => absurd hpoint hnone, ?_⟩
      -- The cast has room for the number, so that it is read as it is.
      rw [QuoteRule.number?_castDecimal (quoteFree_of_spells hn) hn.no_backslash
        (digits?_of_denotes ⟨n, hn, rfl⟩)]
      exact castDecimal?_of_units hunits hlt

/-! ### Defaults -/

section Defaults

variable {c : Column} {value : String}

/-- A text that is no numeral is no number. -/
theorem numberDefault?_eq_none (integer : Bool)
    (h : ¬ Numeral.IsSpelled value) : numberDefault? integer value = none := by
  have hnone : Numeral.parse? value = none := by
    simpa [Numeral.isNumeral] using mt Numeral.isNumeral_iff.1 h
  rw [numberDefault?, hnone]
  rfl

/-- A numeral is taken for the constant that it spells, or for an integer
that is its number, and then it has no point. -/
theorem exists_numberDefault? (integer : Bool) {n : Numeral}
    (h : n.Spells value) :
    ∃ l, numberDefault? integer value = some l ∧
      (l = .decimal value ∨ ∃ i : Int64, l = .integer i ∧
        '.' ∉ value.toList ∧ (i.toInt : ℚ) = n.value) := by
  rw [numberDefault?, Numeral.parse?_eq_some_iff.2 h]
  cases hinteger : n.toInt64? with
  | none => exact ⟨_, by simp [hinteger], .inl rfl⟩
  | some i =>
      obtain ⟨hscale, hvalue⟩ := Numeral.toInt64?_eq_some hinteger
      cases integer with
      | false => exact ⟨_, by simp [hinteger], .inl rfl⟩
      | true =>
          exact ⟨_, by simp [hinteger], .inr ⟨i, rfl,
            mt h.point_mem_iff.1 (not_not.2 hscale), hvalue⟩⟩

/-- The default of a column of numbers is the number that it spells, and
is refused if it spells none. -/
theorem defaultLiteral_eq_numberDefault? (table : Table)
    (htype : c.type ∈ [.integer, .bigInteger, .decimal])
    (hdefault : c.default? = some value) :
    ∃ integer, defaultLiteral table c =
      match numberDefault? integer value with
      | some l => .ok (some l)
      | none => .error (.invalidDefault table.name c.name value) := by
  simp only [List.mem_cons, List.not_mem_nil, or_false] at htype
  rcases htype with htype | htype | htype
  · refine ⟨true, ?_⟩
    cases hn : numberDefault? true value <;>
      simp [defaultLiteral, hdefault, htype, hn]
  · refine ⟨true, ?_⟩
    cases hn : numberDefault? true value <;>
      simp [defaultLiteral, hdefault, htype, hn]
  · refine ⟨false, ?_⟩
    cases hn : numberDefault? false value <;>
      simp [defaultLiteral, hdefault, htype, hn]

/-- What is written for a default is what is written for the constant that
it is. -/
theorem defaultSql_of_defaultLiteral {t : Target} {table : Table}
    {l : Literal} {sql : String} (hl : defaultLiteral table c = .ok (some l))
    (hsql : t.dialect.literalText l = .ok sql) :
    t.defaultSql table c = .ok (some sql) := by
  simp [Target.defaultSql, hl, hsql]

/-- A default that spells a number is that number, as a constant and in the
texts of both dialects. -/
theorem exists_defaultLiteral (table : Table)
    (htype : c.type ∈ [.integer, .bigInteger, .decimal])
    (hdefault : c.default? = some value) {n : Numeral}
    (h : n.Spells value) :
    ∃ l, defaultLiteral table c = .ok (some l) ∧
      (∀ x, l.Denotes x ↔ Numeral.Denotes value x) ∧
      (∃ sql, Dialect.ansi.literalText l = .ok sql ∧
        Ansi.WritesNumber sql n.value) ∧
      ∃ sql, Dialect.nuoDb.literalText l = .ok sql ∧
        NuoDb.WritesNumber sql value n.value := by
  obtain ⟨integer, heq⟩ :=
    defaultLiteral_eq_numberDefault? table htype hdefault
  obtain ⟨l, hl, hform⟩ := exists_numberDefault? integer h
  have hdenotes : Numeral.Denotes value n.value := ⟨n, h, rfl⟩
  refine ⟨l, by rw [heq, hl], ?_⟩
  -- A default is the declared text itself, or the integer that this text
  -- stands for.
  rcases hform with rfl | ⟨i, rfl, hpoint, hvalue⟩
  · exact ⟨fun x => Iff.rfl,
      ⟨value, ansi_literalText_decimal.2
        ⟨Numeral.isSpelled_iff.2 ⟨n, h⟩, rfl⟩, Ansi.writesNumber hdenotes⟩,
      nuoDb_writes_decimal hdenotes⟩
  · -- Both dialects write the digits of the integer.
    have hdigits : Numeral.Denotes (toString i.toInt) n.value :=
      hvalue ▸ Numeral.denotes_toString i.toInt
    exact ⟨fun x => by rw [h.denotes_iff, ← hvalue]; rfl,
      ⟨_, rfl, Ansi.writesNumber hdigits⟩,
      ⟨_, rfl, NuoDb.writesNumber hpoint hdigits⟩⟩

/-- A default of a column of numbers is accepted when it spells a
number. -/
theorem exists_defaultLiteral_iff (table : Table)
    (htype : c.type ∈ [.integer, .bigInteger, .decimal])
    (hdefault : c.default? = some value) :
    (∃ l, defaultLiteral table c = .ok (some l)) ↔
      Numeral.IsSpelled value := by
  constructor
  · rintro ⟨l, hl⟩
    by_contra hnot
    obtain ⟨integer, heq⟩ :=
      defaultLiteral_eq_numberDefault? table htype hdefault
    rw [heq, numberDefault?_eq_none integer hnot] at hl
    cases hl
  · intro h
    obtain ⟨n, hn⟩ := Numeral.isSpelled_iff.1 h
    obtain ⟨l, hl, -⟩ := exists_defaultLiteral table htype hdefault hn
    exact ⟨l, hl⟩

end Defaults

/-- Numbers keep their exact value. A decimal is written, by both dialects,
when it is a numeral, and so is the default of a column of numbers,
whatever its size. Each of the two stands for one number, which the
constant is and which the texts are read as: standard SQL writes a numeral,
and NuoDB casts a numeral with a point to a type that holds the number as it
is. -/
theorem numbers_kept :
    (∀ text : String,
      ((∃ sql, Dialect.ansi.literalText (.decimal text) = .ok sql) ↔
        Numeral.IsSpelled text) ∧
      ((∃ sql, Dialect.nuoDb.literalText (.decimal text) = .ok sql) ↔
        Numeral.IsSpelled text) ∧
      (Numeral.IsSpelled text → ∃! x, Numeral.Denotes text x) ∧
      ∀ x, Numeral.Denotes text x →
        (∃ sql, Dialect.ansi.literalText (.decimal text) = .ok sql ∧
          Ansi.WritesNumber sql x) ∧
        ∃ sql, Dialect.nuoDb.literalText (.decimal text) = .ok sql ∧
          NuoDb.WritesNumber sql text x) ∧
    ∀ (table : Table) (c : Column) (value : String),
      c.type ∈ [.integer, .bigInteger, .decimal] →
      c.defaultText = some value → isBlank value = false →
      ((∃ l, defaultLiteral table c = .ok (some l)) ↔
        Numeral.IsSpelled value) ∧
      ∀ x, Numeral.Denotes value x →
        ∃ l, defaultLiteral table c = .ok (some l) ∧
          (∀ y, l.Denotes y ↔ y = x) ∧
          ∀ config : Config,
            (∃ sql, Target.defaultSql ⟨.ansi, config⟩ table c =
                .ok (some sql) ∧ Ansi.WritesNumber sql x) ∧
            ∃ sql, Target.defaultSql ⟨.nuoDb, config⟩ table c =
                .ok (some sql) ∧ NuoDb.WritesNumber sql value x := by
  constructor
  · -- A decimal literal is written exactly if it is spelled as a number.
    intro text
    refine ⟨?_, ?_, Numeral.existsUnique_denotes, fun x hx => ⟨?_, ?_⟩⟩
    · simp [ansi_literalText_decimal]
    · simp [nuoDb_literalText_decimal, Numeral.isSpelled_iff]
    · obtain ⟨n, hn, hvalue⟩ := hx
      exact ⟨text, ansi_literalText_decimal.2
        ⟨Numeral.isSpelled_iff.2 ⟨n, hn⟩, rfl⟩,
        Ansi.writesNumber ⟨n, hn, hvalue⟩⟩
    · exact nuoDb_writes_decimal hx
  · -- A default is first read as a literal, and the literal then written.
    intro table c value htype htext hblank
    have hdefault : c.default? = some value := by
      simp [Column.default?, htext, nonBlank?, hblank]
    refine ⟨exists_defaultLiteral_iff table htype hdefault, fun x hx => ?_⟩
    obtain ⟨n, hn, rfl⟩ := hx
    obtain ⟨l, hl, hdenotes, ⟨sql, hsql, hwrites⟩, sql', hsql', hwrites'⟩ :=
      exists_defaultLiteral table htype hdefault hn
    refine ⟨l, hl, fun y => ?_, fun config =>
      ⟨⟨sql, defaultSql_of_defaultLiteral hl hsql, hwrites⟩,
        sql', defaultSql_of_defaultLiteral hl hsql', hwrites'⟩⟩
    rw [hdenotes, hn.denotes_iff, eq_comm]

/-- A column with a default that has zeros in front and behind. -/
def overdraft : Column where
  name := "Overdraft"
  type := .decimal
  width := 13
  scale := 2
  defaultText := some "-007.50"

/-- A column with a default that is too large for a machine integer by
one. -/
def lastTicket : Column where
  name := "LastTicket"
  type := .bigInteger
  defaultText := some "+9223372036854775808"

/-- A table whose columns have numbers for defaults. -/
def deposit : Table where
  name := "Deposit"
  columns := [overdraft, lastTicket]

/-- The two defaults are what they spell, and NuoDB casts the one with a
point to a type with three digits before the point and two behind it. -/
theorem deposit_numbers_kept :
    (∃ l, defaultLiteral deposit overdraft = .ok (some l) ∧
        ∀ y, l.Denotes y ↔ y = -15 / 2) ∧
      Target.defaultSql { dialect := .nuoDb } deposit overdraft =
        .ok (some "CAST ('-007.50' AS DECIMAL(5,2))") ∧
      IsExactCast "CAST ('-007.50' AS DECIMAL(5,2))" "-007.50" (-15 / 2) ∧
      ∃ l, defaultLiteral deposit lastTicket = .ok (some l) ∧
        ∀ y, l.Denotes y ↔ y = 2 ^ 63 := by
  -- The digits are as the reader of numerals takes them, and their value is
  -- computed.
  have hoverdraft : Numeral.Denotes "-007.50" (-15 / 2) := by
    refine ⟨⟨true, ['0', '0', '7'], ['5', '0']⟩,
      Numeral.parse?_eq_some_iff.1 (by decide +kernel), ?_⟩
    have hwhole : digitsValue ['0', '0', '7'] = 7 := by decide
    have hfraction : digitsValue ['5', '0'] = 50 := by decide
    norm_num [Numeral.value, Numeral.size, Numeral.scale, hwhole, hfraction]
  have hticket : Numeral.Denotes "+9223372036854775808" (2 ^ 63) := by
    refine ⟨⟨false, "9223372036854775808".toList, []⟩,
      Numeral.parse?_eq_some_iff.1 (by decide +kernel), ?_⟩
    have hwhole : digitsValue "9223372036854775808".toList = 2 ^ 63 := by
      decide +kernel
    have hfraction : digitsValue [] = 0 := rfl
    norm_num [Numeral.value, Numeral.size, hwhole, hfraction]
  obtain ⟨l, hl, hexact, hsql⟩ :=
    (numbers_kept.2 deposit overdraft _ (by decide) rfl
      (by decide +kernel)).2 _ hoverdraft
  obtain ⟨-, sql, hsql, hwrites⟩ := hsql {}
  obtain ⟨l', hl', hexact', -⟩ :=
    (numbers_kept.2 deposit lastTicket _ (by decide) rfl
      (by decide +kernel)).2 _ hticket
  have htext : Target.defaultSql { dialect := .nuoDb } deposit overdraft =
      .ok (some "CAST ('-007.50' AS DECIMAL(5,2))") :=
    toOption_eq_some_iff.1 (by decide +kernel)
  -- The only default that is written is the one computed here.
  obtain rfl := Option.some.inj (Except.ok.inj (hsql.symm.trans htext))
  exact ⟨⟨l, hl, hexact⟩, htext, hwrites.cast (by decide +kernel), l', hl',
    hexact'⟩

end SchemaEvolution
