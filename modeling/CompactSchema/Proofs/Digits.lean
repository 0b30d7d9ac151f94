import CompactSchema.Proofs.Rounding
import CompactSchema.Proofs.Tokens

set_option autoImplicit false

/-!
# Numbers as text

The text of a whole number or of a finite binary one is a word of the grammar for that number.
-/

namespace CompactSchema.Definition

open Text Grammar Definition.Parser

/-! ## Digits -/

theorem isDigit_of_mem_toDigits {n : Nat} : ∀ c ∈ Nat.toDigits 10 n, isDigit c = true := by
  intro c hc
  have h := Nat.isDigit_of_mem_toDigits (by decide) (by decide) hc
  simpa [Char.isDigit, isDigit, Char.le_def] using h

theorem digitsValue_toDigits (n : Nat) : digitsValue (Nat.toDigits 10 n) = n :=
  Nat.ofDigitChars_ten_toDigits

theorem numeral_toDigits (n : Nat) : Numeral (Nat.toDigits 10 n) n := by
  have h := numeral_digitsValue (isDigit_of_mem_toDigits (n := n)) Nat.toDigits_ne_nil
  rwa [digitsValue_toDigits] at h

theorem head?_append_digits (n : Nat) (cs : List Char) :
    (Nat.toDigits 10 n ++ cs).head? = (Nat.toDigits 10 n).head? := by
  obtain ⟨c, ds, hd⟩ := List.exists_cons_of_ne_nil (Nat.toDigits_ne_nil (n := n) (b := 10))
  rw [hd]
  rfl

/-- Only zero starts with a zero. -/
theorem head?_toDigits {n : Nat} (h : n ≠ 0) : (Nat.toDigits 10 n).head? ≠ some '0' := by
  induction n using Nat.strongRecOn with
  | ind n ih =>
    rcases Nat.lt_or_ge n 10 with hlt | hge
    · have hdigit : ∀ m < 10, m ≠ 0 → Nat.digitChar m ≠ '0' := by decide
      rw [Nat.toDigits_of_lt_base hlt]
      simpa using hdigit n hlt h
    · rw [Nat.toDigits_of_base_le (by decide) hge, head?_append_digits]
      exact ih (n / 10) (by omega) (by omega)

theorem digitsValue_zeros_append (k : Nat) (ds : List Char) :
    digitsValue (List.replicate k '0' ++ ds) = digitsValue ds := by
  induction k with
  | zero => rfl
  | succ k ih =>
    rw [List.replicate_succ, List.cons_append, ← ih]
    rfl

theorem digitsValue_append_zeros (k : Nat) (ds : List Char) :
    digitsValue (ds ++ List.replicate k '0') = digitsValue ds * 10 ^ k := by
  induction k with
  | zero => simp
  | succ k ih =>
    rw [List.replicate_succ', ← List.append_assoc, digitsValue_concat, ih, Nat.pow_succ]
    have hzero : '0'.toNat - '0'.toNat = 0 := rfl
    rw [hzero, Nat.add_zero, Nat.mul_comm 10, Nat.mul_assoc]

theorem isDigit_of_mem_zeros {k : Nat} : ∀ c ∈ List.replicate k '0', isDigit c = true := by
  intro c hc
  rw [List.eq_of_mem_replicate hc]
  rfl

theorem isDigit_append {ds es : List Char} (hd : ∀ c ∈ ds, isDigit c = true)
    (he : ∀ c ∈ es, isDigit c = true) : ∀ c ∈ ds ++ es, isDigit c = true := by
  intro c hc
  rcases List.mem_append.mp hc with hc | hc
  · exact hd c hc
  · exact he c hc

/-! ## Whole numbers -/

theorem toList_int_ofNat (n : Nat) : (toString (n : Int)).toList = Nat.toDigits 10 n :=
  Nat.toList_repr

theorem toList_int_neg {n : Nat} (hn : 0 < n) :
    (toString (-(n : Int))).toList = '-' :: Nat.toDigits 10 n := by
  obtain ⟨m, rfl⟩ : ∃ m, n = m + 1 := ⟨n - 1, by omega⟩
  have h : toString (-((m + 1 : Nat) : Int)) = "-" ++ Nat.repr (m + 1) := rfl
  rw [h, String.toList_append, Nat.toList_repr]
  rfl

theorem integerWord_toString (i : Int64) : IntegerWord (toString i.toInt).toList i := by
  rcases Int.lt_or_le i.toInt 0 with hneg | hpos
  · obtain ⟨n, hn⟩ : ∃ n : Nat, i.toInt = -(n : Int) := ⟨i.toInt.natAbs, by omega⟩
    rw [hn, toList_int_neg (by omega)]
    exact @IntegerWord.mk true _ _ _ (numeral_toDigits n) hn
  · obtain ⟨n, hn⟩ : ∃ n : Nat, i.toInt = n := ⟨i.toInt.natAbs, by omega⟩
    rw [hn, toList_int_ofNat]
    exact @IntegerWord.mk false _ _ _ (numeral_toDigits n) hn

/-! ## Decimals -/

theorem digits_eq (d : Decimal) : d.digits = Nat.toDigits 10 d.coefficient := Nat.toList_repr

theorem decimalWord_of_zeros (negative : Bool) {d : Decimal} (hc : d.coefficient ≠ 0)
    (he : 0 ≤ d.exponent) : DecimalWord (sign negative ++ d.plain)
      (.ofDecimal negative (d.coefficient * 10 ^ d.exponent.toNat) 0) := by
  have hplain : d.plain =
      Nat.toDigits 10 d.coefficient ++ List.replicate d.exponent.toNat '0' := by
    rw [Decimal.plain, if_pos he, digits_eq]
  have hhead : d.plain.head? ≠ some '0' := by
    rw [hplain, head?_append_digits]
    exact head?_toDigits hc
  have hnumeral : Numeral d.plain (d.coefficient * 10 ^ d.exponent.toNat) := by
    have h := numeral_digitsValue (isDigit_append (isDigit_of_mem_toDigits (n := d.coefficient))
      (isDigit_of_mem_zeros (k := d.exponent.toNat))) (by simp [Nat.toDigits_ne_nil])
    rwa [digitsValue_append_zeros, digitsValue_toDigits, ← hplain] at h
  exact .whole hhead hnumeral

/-- In front of the point stands a zero alone, or the first digits, which start with another one. -/
theorem whole_of_padded {n places : Nat} (hn : n ≠ 0) {digits padded : List Char}
    (hdigits : digits = Nat.toDigits 10 n)
    (hpadded : padded = List.replicate (places + 1 - digits.length) '0' ++ digits) :
    padded.take (padded.length - places) = ['0'] ∨
      padded.take (padded.length - places) ≠ [] ∧
        (padded.take (padded.length - places)).head? ≠ some '0' := by
  rcases Nat.lt_or_ge places digits.length with hlt | hge
  · have hzeros : places + 1 - digits.length = 0 := by omega
    have hself : padded = digits := by rw [hpadded, hzeros, List.replicate_zero, List.nil_append]
    have hpos : digits.length - places ≠ 0 := by omega
    have hhead : (digits.take (digits.length - places)).head? = digits.head? := by
      rw [List.head?_take, if_neg hpos]
    rw [hself]
    refine .inr ⟨fun hnil => ?_, ?_⟩
    · have hlen := congrArg List.length hnil
      rw [List.length_take, List.length_nil] at hlen
      omega
    · rw [hhead, hdigits]
      exact head?_toDigits hn
  · obtain ⟨j, hj⟩ : ∃ j, places + 1 - digits.length = j + 1 := ⟨places - digits.length, by omega⟩
    have hlen : padded.length - places = 1 := by
      rw [hpadded, List.length_append, List.length_replicate]
      omega
    rw [hlen, hpadded, hj, List.replicate_succ]
    exact .inl rfl

/-- A negative exponent is written as so many digits behind a point. -/
theorem plain_of_point {d : Decimal} (hc : d.coefficient ≠ 0) (he : d.exponent < 0) :
    ∃ whole fraction, d.plain = whole ++ '.' :: fraction ∧
      (whole = ['0'] ∨ whole ≠ [] ∧ whole.head? ≠ some '0') ∧
        d.exponent = -(fraction.length : Int) ∧ Numeral (whole ++ fraction) d.coefficient := by
  obtain ⟨padded, hpadded⟩ : ∃ padded, padded =
      List.replicate ((-d.exponent).toNat + 1 - d.digits.length) '0' ++ d.digits := ⟨_, rfl⟩
  have hwhole := whole_of_padded hc (digits_eq d) hpadded
  have hplain : d.plain = padded.take (padded.length - (-d.exponent).toNat) ++
      '.' :: padded.drop (padded.length - (-d.exponent).toNat) := by
    rw [Decimal.plain, if_neg (by omega), hpadded]
  have hplaces : (padded.drop (padded.length - (-d.exponent).toNat)).length =
      (-d.exponent).toNat := by
    have hlen : padded.length =
        (-d.exponent).toNat + 1 - d.digits.length + d.digits.length := by
      rw [hpadded, List.length_append, List.length_replicate]
    rw [List.length_drop]
    omega
  have hnumeral : Numeral padded d.coefficient := by
    have h := numeral_digitsValue (isDigit_append
      (isDigit_of_mem_zeros (k := (-d.exponent).toNat + 1 - d.digits.length))
      (isDigit_of_mem_toDigits (n := d.coefficient))) (by simp [Nat.toDigits_ne_nil])
    rwa [digitsValue_zeros_append, digitsValue_toDigits, ← digits_eq, ← hpadded] at h
  have hexponent : d.exponent =
      -((padded.drop (padded.length - (-d.exponent).toNat)).length : Int) := by
    rw [hplaces]
    omega
  rw [← List.take_append_drop (padded.length - (-d.exponent).toNat) padded] at hnumeral
  exact ⟨_, _, hplain, hwhole, hexponent, hnumeral⟩

theorem decimalWord_of_point (negative : Bool) {d : Decimal} (hc : d.coefficient ≠ 0)
    (he : d.exponent < 0) : DecimalWord (sign negative ++ d.plain)
      (.ofDecimal negative d.coefficient d.exponent) := by
  obtain ⟨whole, fraction, hplain, hwhole, hexponent, hnumeral⟩ := plain_of_point hc he
  have hword := @DecimalWord.point negative _ _ _ hwhole hnumeral
  rwa [← hexponent, List.append_assoc, ← hplain] at hword

theorem decimalWord_of_whole {x : Binary64} {w : Nat} (hx : x.isFinite = true)
    (h : x.units = w * Binary64.one) :
    DecimalWord (sign x.isNegative ++ (Nat.toDigits 10 w ++ ['.', '0'])) x := by
  have hwhole : Nat.toDigits 10 w = ['0'] ∨
      Nat.toDigits 10 w ≠ [] ∧ (Nat.toDigits 10 w).head? ≠ some '0' := by
    by_cases hw : w = 0
    · rw [hw]
      exact .inl (Nat.toDigits_zero 10)
    · exact .inr ⟨Nat.toDigits_ne_nil, head?_toDigits hw⟩
  have hnumeral : Numeral (Nat.toDigits 10 w ++ ['0']) (10 * w) := by
    have hn := numeral_digitsValue (isDigit_append (isDigit_of_mem_toDigits (n := w))
      (isDigit_of_mem_zeros (k := 1))) (by simp)
    rwa [digitsValue_append_zeros, digitsValue_toDigits, Nat.pow_one, Nat.mul_comm] at hn
  have hword := @DecimalWord.point x.isNegative _ _ _ hwhole hnumeral
  have hread : Binary64.ofDecimal x.isNegative (10 * w) (-(['0'].length : Int)) = x :=
    Binary64.ofDecimal_whole hx h
  rwa [hread, List.append_assoc] at hword

/-- A number is written with the digits that are read back as it. -/
theorem decimalWord_boundText {x : Binary64} (hx : x.isFinite = true) :
    DecimalWord x.boundText.toList x := by
  have hsign : x.sign = sign x.isNegative := rfl
  have hnan : x.isNaN = false := by
    simp only [Binary64.isFinite, Binary64.isNaN, decide_eq_true_eq, decide_eq_false_iff_not] at hx ⊢
    omega
  have hinf : x.isInfinite = false := by
    simp only [Binary64.isFinite, Binary64.isInfinite, decide_eq_true_eq,
      decide_eq_false_iff_not] at hx ⊢
    omega
  simp only [Binary64.boundText, hnan, hinf, Bool.false_eq_true, ↓reduceIte, String.toList_ofList,
    hsign]
  split
  · next hwhole =>
    simp only [Binary64.isWhole, Bool.and_eq_true, decide_eq_true_eq] at hwhole
    have hunits : x.units = x.units / Binary64.one * Binary64.one := by
      have hdiv := Nat.div_add_mod x.units Binary64.one
      rw [hwhole.2, Nat.add_zero, Nat.mul_comm] at hdiv
      exact hdiv.symm
    have hdigits : (toString (x.units / Binary64.one)).toList =
        Nat.toDigits 10 (x.units / Binary64.one) := Nat.toList_repr
    rw [hdigits]
    exact decimalWord_of_whole hx hunits
  · next hwhole =>
    have hunits : x.units ≠ 0 := by
      intro hzero
      simp [Binary64.isWhole, hx, hzero] at hwhole
    have hshows := Binary64.shows_shortest .up hx hunits
    rcases Int.lt_or_le (x.shortest .up).exponent 0 with hneg | hpos
    · have hword := decimalWord_of_point x.isNegative hshows.coefficient_ne_zero hneg
      rwa [Binary64.ofDecimal_shortest .up hx] at hword
    · have hword := decimalWord_of_zeros x.isNegative hshows.coefficient_ne_zero hpos
      have hread := Binary64.ofDecimal_of_shows hx (Binary64.shows_of_zeros hshows hpos)
      rwa [hread] at hword

end CompactSchema.Definition
