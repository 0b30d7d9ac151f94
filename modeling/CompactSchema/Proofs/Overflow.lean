import CompactSchema.Definition.Printer
import CompactSchema.Proofs.Digits
import CompactSchema.Proofs.Literals
import CompactSchema.Proofs.Serialization

set_option autoImplicit false

/-!
# Decimals beyond the largest number

A decimal is read as infinity when it lies above the midpoint behind the largest finite number, or
on it. The grammar does not bound the length of a decimal, so such bounds are read as all others.
-/

namespace CompactSchema

namespace Binary64

/-! ## Rounding beyond the largest number -/

theorem roundQuotient_cases (n d : Nat) : roundQuotient n d = n / d ∨
    roundQuotient n d = n / d + 1 := by
  unfold roundQuotient
  dsimp only
  split
  · exact .inl rfl
  · split
    · exact .inr rfl
    · omega

/-- A tie below an even number is rounded to that number. -/
theorem roundQuotient_lt_iff {n d q : Nat} (hd : 0 < d) (hq : q % 2 = 0) :
    roundQuotient n d < q ↔ 2 * n < (2 * q - 1) * d := by
  have hn := Nat.div_add_mod n d
  have hr := Nat.mod_lt n hd
  have hround := roundQuotient_cases n d
  rcases Nat.lt_trichotomy (n / d + 1) q with hbelow | heq | habove
  · have hle : (2 * (n / d) + 3) * d ≤ (2 * q - 1) * d := Nat.mul_le_mul_right d (by omega)
    have hprod : (2 * (n / d) + 3) * d = 2 * (d * (n / d)) + 3 * d := by
      rw [Nat.add_mul, Nat.mul_assoc, Nat.mul_comm d]
    refine iff_of_true ?_ ?_
    · omega
    · omega
  · have hprod : (2 * q - 1) * d = 2 * (d * (n / d)) + d := by
      have hodd : 2 * q - 1 = 2 * (n / d) + 1 := by omega
      rw [hodd, Nat.add_mul, Nat.mul_assoc, Nat.mul_comm d, Nat.one_mul]
    have hlow : roundQuotient n d < q ↔ 2 * (n % d) < d := by
      unfold roundQuotient
      dsimp only
      split
      · omega
      · split <;> omega
    rw [hlow, hprod]
    omega
  · have hle : (2 * q - 1) * d ≤ (2 * (n / d)) * d := Nat.mul_le_mul_right d (by omega)
    have hprod : 2 * (n / d) * d = 2 * (d * (n / d)) := by
      rw [Nat.mul_assoc, Nat.mul_comm d]
    refine iff_of_false ?_ ?_
    · omega
    · omega

theorem shift_bounds (n : Nat) {d s : Nat} (hd : 0 < d) (hs : (n / d).log2 - 52 = s) :
    n < 2 ^ 53 * (2 ^ s * d) ∧ (s = 0 ∨ 2 ^ 52 * (2 ^ s * d) ≤ n) := by
  have hupper : n / d < 2 ^ (53 + s) := by
    refine Nat.lt_of_lt_of_le Nat.lt_log2_self (Nat.pow_le_pow_right (by decide) ?_)
    omega
  rw [Nat.div_lt_iff_lt_mul hd, Nat.pow_add, Nat.mul_assoc] at hupper
  refine ⟨hupper, ?_⟩
  rcases Nat.eq_zero_or_pos s with hzero | hpos
  · exact .inl hzero
  · right
    have hne : n / d ≠ 0 := by
      intro h
      rw [h, Nat.log2_zero] at hs
      omega
    have hlower : 2 ^ (52 + s) ≤ n / d :=
      Nat.le_trans (Nat.pow_le_pow_right (by decide) (by omega)) (Nat.log2_self_le hne)
    rwa [Nat.le_div_iff_mul_le hd, Nat.pow_add, Nat.mul_assoc] at hlower

/-- What `ofRatio` rounds to lies below the least number with the step `t + 2` exactly when the
    ratio lies below the midpoint in front of that number. -/
theorem rounded_lt_iff (n t : Nat) {d s : Nat} (hd : 0 < d) (hs : (n / d).log2 - 52 = s) :
    s * 2 ^ 52 + roundQuotient n (d * 2 ^ s) < (t + 3) * 2 ^ 52 ↔
      n < (2 ^ 54 - 1) * (2 ^ t * d) := by
  obtain ⟨hupper, hlower⟩ := shift_bounds n hd hs
  have hgap : 0 < 2 ^ s * d := Nat.mul_pos (Nat.two_pow_pos s) hd
  rw [Nat.mul_comm d]
  -- With a smaller step all is rounded to less, with a larger one nothing is.
  rcases Nat.lt_trichotomy s (t + 1) with hbelow | rfl | habove
  · have hstep : 2 ^ s * d ≤ 2 ^ t * d :=
      Nat.mul_le_mul_right d (Nat.pow_le_pow_right (by decide) (by omega))
    have hround : roundQuotient n (2 ^ s * d) < 2 ^ 53 + 2 :=
      (roundQuotient_lt_iff hgap (by decide)).mpr (by omega)
    refine iff_of_true ?_ ?_
    · omega
    · omega
  · have hstep : 2 ^ (t + 1) * d = 2 * (2 ^ t * d) := by
      rw [Nat.pow_succ, Nat.mul_comm (2 ^ t), Nat.mul_assoc]
    have hround := roundQuotient_lt_iff (n := n) (q := 2 ^ 53) hgap (by decide)
    omega
  · have hstep : 4 * (2 ^ t * d) ≤ 2 ^ s * d := by
      have hpow : 2 ^ (t + 2) ≤ 2 ^ s := Nat.pow_le_pow_right (by decide) habove
      rw [Nat.pow_add, Nat.mul_comm (2 ^ t)] at hpow
      rw [← Nat.mul_assoc]
      exact Nat.mul_le_mul_right d hpow
    have hround := roundQuotient_lt_iff (n := n) (q := 2 ^ 52) hgap (by decide)
    refine iff_of_false ?_ ?_
    · omega
    · omega

/-- The midpoint between the largest finite number and the power of two behind it. -/
def limit : Nat := (2 ^ 54 - 1) * 2 ^ 970

theorem limit_mul_one : ∃ t, t + 3 = 0x7ff ∧ limit * one = (2 ^ 54 - 1) * 2 ^ t := by
  refine ⟨970 + 1074, rfl, ?_⟩
  unfold limit one
  generalize 970 = m
  generalize 1074 = n
  rw [Nat.mul_assoc, Nat.pow_add]

theorem limit_pos : 0 < limit := by
  unfold limit
  generalize 970 = m
  exact Nat.mul_pos (by decide) (Nat.two_pow_pos m)

theorem isFinite_ofMagnitude_min (negative : Bool) (m : Nat) :
    (ofMagnitude negative (min m infinite)).isFinite = true ↔ m < infinite := by
  have hinfinite : infinite < 2 ^ 63 := by decide
  rw [isFinite, magnitude_ofMagnitude negative (by omega), decide_eq_true_eq]
  omega

theorem isFinite_ofRatio (negative : Bool) (n : Nat) {d : Nat} (hd : 0 < d) :
    (ofRatio negative n d).isFinite = true ↔ n < limit * d := by
  obtain ⟨t, ht, hlimit⟩ := limit_mul_one
  have hscaled : n < limit * d ↔ n * one < (2 ^ 54 - 1) * (2 ^ t * d) := by
    rw [← Nat.mul_assoc, ← hlimit, Nat.mul_right_comm, Nat.mul_lt_mul_right one_pos]
  rw [hscaled, ← rounded_lt_iff (n * one) t hd rfl, ht]
  exact isFinite_ofMagnitude_min negative _

/-- A decimal is finite exactly below the midpoint. -/
theorem isFinite_ofDecimal (negative : Bool) (coefficient places : Nat) :
    (ofDecimal negative coefficient (-(places : Int))).isFinite = true ↔
      coefficient < limit * 10 ^ places := by
  have hpower : 0 < 10 ^ places := Nat.pow_pos (by decide)
  have hpos : 0 < limit * 10 ^ places := Nat.mul_pos limit_pos hpower
  have hzero : (ofMagnitude negative 0).isFinite = true := by cases negative <;> decide
  unfold ofDecimal
  by_cases hc : coefficient = 0
  · rw [if_pos hc, hc]
    exact iff_of_true hzero hpos
  · rw [if_neg hc, if_neg (by omega)]
    by_cases hfar : -(places : Int) < -400 - (coefficient.log2 : Int)
    · rw [if_pos hfar]
      refine iff_of_true hzero ?_
      calc coefficient < 2 ^ (coefficient.log2 + 1) := Nat.lt_log2_self
        _ ≤ 2 ^ places := Nat.pow_le_pow_right (by decide) (by omega)
        _ ≤ 10 ^ places := Nat.pow_le_pow_left (by decide) places
        _ ≤ limit * 10 ^ places := Nat.le_mul_of_pos_left _ limit_pos
    · have hwhole : (-(places : Int)).toNat = 0 := by omega
      have hplaces : (-(-(places : Int))).toNat = places := by omega
      rw [if_neg hfar, hwhole, hplaces, Nat.pow_zero, Nat.mul_one]
      exact isFinite_ofRatio negative coefficient hpower

theorem isInfinite_eq_not_isFinite {x : Binary64} (h : x.isNaN = false) :
    x.isInfinite = !x.isFinite := by
  rw [isNaN, decide_eq_false_iff_not] at h
  rw [isInfinite, isFinite, ← decide_not, decide_eq_decide]
  omega

end Binary64

/-! ## Decimals in a text -/

namespace Grammar

open Text Definition.Parser

/-- All digits of a decimal as one number. -/
def coefficient (word : List Char) : Nat := digitsValue (word.filter isDigit)

/-- The number of digits behind the point. -/
def places (word : List Char) : Nat := (word.dropWhile (· ≠ '.')).length - 1

/-- Whether the decimal, sign aside, lies on or above the midpoint behind the largest finite
    number. -/
def overflows (word : List Char) : Bool := Binary64.limit * 10 ^ places word ≤ coefficient word

theorem filter_sign (negative : Bool) (word : List Char) :
    (sign negative ++ word).filter isDigit = word.filter isDigit := by
  cases negative <;> rfl

theorem dropWhile_digits {digits : List Char} (h : ∀ c ∈ digits, isDigit c = true)
    (negative : Bool) (rest : List Char) :
    (sign negative ++ digits ++ rest).dropWhile (· ≠ '.') = rest.dropWhile (· ≠ '.') := by
  rw [List.dropWhile_append_of_pos]
  intro c hc
  rw [decide_eq_true_eq]
  rintro rfl
  rcases List.mem_append.mp hc with hc | hc
  · cases negative <;> exact absurd hc (by decide)
  · exact absurd (h '.' hc) (by decide)

theorem isFinite_eq_not_overflows {word : List Char} {n p : Nat}
    (hcoefficient : coefficient word = n) (hplaces : places word = p) (negative : Bool) :
    (Binary64.ofDecimal negative n (-(p : Int))).isFinite = !overflows word := by
  rw [Bool.eq_iff_iff, Binary64.isFinite_ofDecimal, overflows, hcoefficient, hplaces, ← decide_not,
    decide_eq_true_eq, Nat.not_le]

theorem isFinite_of_decimalWord {word : List Char} {x : Binary64} (h : DecimalWord word x) :
    x.isFinite = !overflows word := by
  cases h with
  | @whole negative digits n _ hn =>
    refine isFinite_eq_not_overflows (p := 0) ?_ ?_ negative
    · rw [coefficient, filter_sign, List.filter_eq_self.mpr hn.isDigit, ← hn.eq_digitsValue]
    · have hdrop := dropWhile_digits hn.isDigit negative []
      rw [List.append_nil] at hdrop
      rw [places, hdrop]
      rfl
  | @point negative whole fraction n _ hn =>
    obtain ⟨hwhole, hfraction⟩ := List.forall_mem_append.mp hn.isDigit
    refine isFinite_eq_not_overflows ?_ ?_ negative
    · have hpoint : ('.' :: fraction).filter isDigit = fraction :=
        List.filter_eq_self.mpr hfraction
      rw [coefficient, List.filter_append, filter_sign, hpoint, List.filter_eq_self.mpr hwhole,
        ← hn.eq_digitsValue]
    · rw [places, dropWhile_digits hwhole]
      rfl

/-- A decimal gives a finite number or an infinite one. -/
theorem isInfinite_of_decimalWord {word : List Char} {x : Binary64} (h : DecimalWord word x) :
    x.isInfinite = overflows word := by
  have hnan : x.isNaN = false := by
    cases h with
    | whole | point => exact Binary64.isNaN_ofDecimal _ _ _
  rw [Binary64.isInfinite_eq_not_isFinite hnan, isFinite_of_decimalWord h, Bool.not_not]

/-- The words occur in the text one behind the other. -/
inductive InOrder : List (List Char) → List Char → Prop
  | nil {text : List Char} : InOrder [] text
  | cons {word front back : List Char} {words : List (List Char)} :
    InOrder words back → InOrder (word :: words) (front ++ word ++ back)

namespace InOrder

variable {words others : List (List Char)} {a b : List Char}

theorem behind (front : List Char) (h : InOrder words b) : InOrder words (front ++ b) := by
  cases h with
  | nil => exact .nil
  | @cons word more back _ h =>
    have hcons : InOrder (word :: _) (front ++ more ++ word ++ back) := .cons h
    simpa using hcons

theorem append (ha : InOrder words a) (hb : InOrder others b) :
    InOrder (words ++ others) (a ++ b) := by
  induction ha with
  | nil => exact hb.behind _
  | cons _ ih =>
    rw [List.append_assoc]
    exact .cons ih

end InOrder

/-- In the text there are decimals for the numbers, in this order. -/
def Writes (text : List Char) (numbers : List Binary64) : Prop :=
  ∃ words, InOrder words text ∧ List.Forall₂ DecimalWord words numbers

theorem writes_nil (text : List Char) : Writes text [] := ⟨[], .nil, .nil⟩

theorem Writes.append {a b : List Char} {xs ys : List Binary64} (ha : Writes a xs)
    (hb : Writes b ys) : Writes (a ++ b) (xs ++ ys) := by
  obtain ⟨words, hwords, hxs⟩ := ha
  obtain ⟨others, hothers, hys⟩ := hb
  exact ⟨words ++ others, hwords.append hothers, List.rel_append hxs hys⟩

theorem Writes.behind (front : List Char) {a : List Char} {xs : List Binary64} (h : Writes a xs) :
    Writes (front ++ a) xs :=
  (writes_nil front).append h

theorem Writes.before {a : List Char} {xs : List Binary64} (h : Writes a xs) (back : List Char) :
    Writes (a ++ back) xs := by
  have happend := h.append (writes_nil back)
  rwa [List.append_nil] at happend

theorem writes_token {word a : List Char} {x : Binary64} (ha : Token word a)
    (h : DecimalWord word x) : Writes a [x] := by
  obtain ⟨blanks, -, rfl⟩ := ha
  have hword : InOrder [word] (blanks ++ word ++ []) := .cons .nil
  rw [List.append_nil] at hword
  exact ⟨[word], hword, .cons h .nil⟩

theorem writes_listed {α : Type} {Item : List Char → α → Prop} {numbers : α → List Binary64}
    {close : Char} {a : List Char} {xs : List α} (h : Listed Item close a xs)
    (hitem : ∀ x ∈ xs, ∀ b, Item b x → Writes b (numbers x)) : Writes a (xs.flatMap numbers) := by
  induction h with
  | done _ => exact writes_nil _
  | last ha _ =>
    rw [List.flatMap_singleton]
    exact (hitem _ List.mem_cons_self _ ha).before _
  | @more a b c x xs ha _ _ ih =>
    have htail := ih fun y hy => hitem y (List.mem_cons_of_mem _ hy)
    rw [List.flatMap_cons]
    exact ((hitem x List.mem_cons_self _ ha).before b).append htail

end Grammar

/-! ## Decimal bounds -/

def Bound.float? : Bound → Option Binary64
  | int _ => none
  | float x => some x

theorem Bound.isFinite_of_reread? {b c : Bound} (h : b.reread? = some c) :
    ∀ x, b.float? = some x → x.isFinite = true := by
  cases b with
  | int i => exact fun x hx => absurd hx (by simp [float?])
  | float y =>
    rintro x ⟨⟩
    rw [reread?] at h
    split at h
    · assumption
    · exact absurd h (by simp)

namespace Definition

open Grammar Definition.Parser Stripper

/-- The decimal bounds from the outside in, members in their order. -/
def decimals (d : Definition) : List Binary64 := d.bounds.filterMap Bound.float?

theorem membersBounds_eq_flatMap (members : List (Member Definition)) :
    membersBounds members = members.flatMap fun m => m.value.bounds := by
  induction members with
  | nil => rfl
  | cons m members ih => rw [membersBounds, List.flatMap_cons, ih]

theorem decimals_object (parts : List (Member Definition × List Char)) :
    decimals (.object (parts.map Prod.fst)) = parts.flatMap fun p => p.1.value.decimals := by
  rw [decimals, bounds, membersBounds_eq_flatMap, List.flatMap_map, List.filterMap_flatMap]
  rfl

theorem decimals_ofBounds (keyword : Keyword) (low high : Option Bound) :
    decimals (.ofBounds keyword low high) = (low.toList ++ high.toList).filterMap Bound.float? := by
  cases low <;> cases high <;> rfl

theorem writes_bound {keyword : Keyword} {a : List Char} {b : Option Bound}
    (h : BoundOf keyword a b) : Writes a (b.toList.filterMap Bound.float?) := by
  cases h with
  | absent => exact writes_nil _
  | int _ _ _ => exact writes_nil _
  | float _ hx ha => exact writes_token ha hx

theorem writes_bounds {keyword : Keyword} {a : List Char} {low high : Option Bound}
    (h : Bounds keyword a low high) :
    Writes a ((low.toList ++ high.toList).filterMap Bound.float?) := by
  rw [List.filterMap_append]
  cases h with
  | one ha _ => exact (writes_bound ha).append (writes_nil _)
  | two ha _ hc _ => exact (((writes_bound ha).before _).append (writes_bound hc)).before _

theorem writes_value {accepts : PatternLiteral → Bool} {a : List Char} {d : Definition}
    (h : Value accepts a d) : Writes a d.decimals := by
  induction h with
  | primitive _ => exact writes_nil _
  | range _ _ _ hc =>
    rw [decimals_ofBounds]
    exact (writes_bounds hc).behind _
  | pattern _ _ _ => exact writes_nil _
  | enumeration _ _ => exact writes_nil _
  | object _ hb _ ih =>
    rw [decimals_object]
    refine (writes_listed hb ?_).behind _
    rintro p hp b ⟨head, -, rfl⟩
    exact (ih p hp).behind head
  | emptyArray _ _ => exact writes_nil _
  | keywordArray _ _ _ => exact writes_nil _
  | array _ _ _ _ ih => exact (ih.behind _).before _

/-- Nothing is read from the serialized text of a definition with an infinite bound. -/
theorem isFinite_of_deserialize? {d e : Definition} (h : deserialize? d.serialize = some e) :
    ∀ x ∈ d.decimals, x.isFinite = true := by
  have hbounds : List.Forall₂ (fun b c => (∀ x, b.float? = some x → x.isFinite = true) ∧
      b.reread? = some c) d.bounds e.bounds :=
    (rereads_of_deserialize? h).1.bounds_eq.imp fun _ _ hbc => ⟨Bound.isFinite_of_reread? hbc, hbc⟩
  have hfinite := ((List.forall₂_and_left _ _).mp hbounds).1
  intro x hx
  obtain ⟨b, hb, hfloat⟩ := List.mem_filterMap.mp hx
  exact hfinite b hb x hfloat

/-! ## Reading decimal bounds -/

theorem all_finite_iff {words : List (List Char)} {numbers : List Binary64}
    (h : List.Forall₂ DecimalWord words numbers) :
    (∀ x ∈ numbers, x.isFinite = true) ↔ ∀ word ∈ words, overflows word = false := by
  induction h with
  | nil => simp
  | cons hx _ ih =>
    rw [List.forall_mem_cons, List.forall_mem_cons, ih, isFinite_of_decimalWord hx,
      Bool.not_eq_true']

theorem ofText_of_decimalWord {word : List Char} {x : Binary64} (h : DecimalWord word x) :
    ofText (String.ofList ("double<".toList ++ word ++ ['>'])) =
      .ok (.range ⟨.double, some (.float x), none⟩) := by
  have hbound : BoundOf .double word (some (.float x)) := .float rfl h (token_self word)
  have hbounds : Bounds .double (word ++ ['>']) (some (.float x)) none :=
    .one hbound (token_self ['>'])
  have hvalue : Value PatternLiteral.compiles ("double<".toList ++ word ++ ['>'])
      (.range ⟨.double, some (.float x), none⟩) := by
    rw [List.append_assoc]
    exact .range rfl (token_self _) (token_self ['<']) hbounds
  have hslash : '/' ∉ "double<".toList ++ word ++ ['>'] :=
    slash_notMem_append (slash_notMem_append (by decide) (slash_notMem_decimal h)) (by decide)
  have hbare : Bare none ("double<".toList ++ word ++ ['>'] ++ []) :=
    (bare_append hslash []).mpr .done
  rw [List.append_nil] at hbare
  refine bind_eq_ok.mpr ⟨String.ofList ("double<".toList ++ word ++ ['>']),
    stripComments_eq_ok.mpr ?_, ofBareText_of_derives ?_⟩
  · rw [String.toList_ofList]
    exact stripChars_of_bare hbare
  · refine ⟨_, [], ?_, blanks_nil, hvalue⟩
    rw [String.toList_ofList, List.append_nil]

/-- A decimal bound is finite when its decimal lies below the midpoint behind the largest finite
    number and infinite otherwise, and what is serialized is read back only when all are finite. The
    size of a decimal is no reason to refuse it. -/
theorem isFinite_decimals {text : String} {d : Definition} (h : ofText text = .ok d) :
    (∃ bare words, stripComments text = .ok bare ∧ InOrder words bare.toList ∧
      List.Forall₂ (fun word x => DecimalWord word x ∧ x.isInfinite = overflows word)
        words d.decimals ∧
      ((∀ x ∈ d.decimals, x.isFinite = true) ↔ ∀ word ∈ words, overflows word = false)) ∧
    ((deserialize? d.serialize).isSome → ∀ x ∈ d.decimals, x.isFinite = true) ∧
    ∀ word x, DecimalWord word x →
      ofText (String.ofList ("double<".toList ++ word ++ ['>'])) =
        .ok (.range ⟨.double, some (.float x), none⟩) := by
  refine ⟨?_, fun hread => ?_, fun word x hx => ofText_of_decimalWord hx⟩
  · obtain ⟨bare, hbare, hd⟩ := bind_eq_ok.mp h
    obtain ⟨a, blanks, htext, -, ha⟩ := derives_of_ofBareText hd
    obtain ⟨words, hwords, hdecimals⟩ := (writes_value ha).before blanks
    have hinfinite := hdecimals.imp fun word x hx => And.intro hx (isInfinite_of_decimalWord hx)
    exact ⟨bare, words, hbare, htext ▸ hwords, hinfinite, all_finite_iff hdecimals⟩
  · obtain ⟨e, he⟩ := Option.isSome_iff_exists.mp hread
    exact isFinite_of_deserialize? he

theorem decimalWord_power (k : Nat) :
    DecimalWord ('1' :: List.replicate k '0') (.ofDecimal false (10 ^ k) 0) := by
  have hdigits : ∀ c ∈ '1' :: List.replicate k '0', Text.isDigit c = true :=
    List.forall_mem_cons.mpr ⟨rfl, isDigit_of_mem_zeros⟩
  have hnumeral := numeral_digitsValue hdigits (List.cons_ne_nil _ _)
  have hvalue : digitsValue ('1' :: List.replicate k '0') = 1 * 10 ^ k :=
    digitsValue_append_zeros k ['1']
  rw [hvalue, Nat.one_mul] at hnumeral
  have hhead : some '1' ≠ some '0' := by decide
  exact @DecimalWord.whole false _ _ hhead hnumeral

theorem decimalWord_infinite :
    DecimalWord ('1' :: List.replicate 309 '0') ⟨0x7ff0000000000000⟩ := by
  have hinfinite : Binary64.ofDecimal false (10 ^ 309) 0 = ⟨0x7ff0000000000000⟩ := by decide +kernel
  exact hinfinite ▸ decimalWord_power 309

theorem isFinite_decimals_infinite :
    ofText (String.ofList ("double<".toList ++ '1' :: List.replicate 309 '0' ++ ['>'])) =
        .ok (.range ⟨.double, some (.float ⟨0x7ff0000000000000⟩), none⟩) ∧
      ∃ word, DecimalWord word ⟨0x7ff0000000000000⟩ ∧ overflows word = true := by
  have h := ofText_of_decimalWord decimalWord_infinite
  obtain ⟨-, words, -, -, hwords, -⟩ := (isFinite_decimals h).1
  obtain ⟨word, -, ⟨hword, hinfinite⟩, -⟩ := List.forall₂_cons_right_iff.mp hwords
  exact ⟨h, word, hword, hinfinite.symm.trans (by decide)⟩

/-- A one with 309 zeros behind it is read as infinity, whose text and serialized text are not read
    back. -/
theorem not_refused_for_size :
    ofText (String.ofList ("double<".toList ++ '1' :: List.replicate 309 '0' ++ ['>'])) =
        .ok (.range ⟨.double, some (.float ⟨0x7ff0000000000000⟩), none⟩) ∧
      Binary64.isFinite ⟨0x7ff0000000000000⟩ = false ∧
      (ofText (range ⟨.double, some (.float ⟨0x7ff0000000000000⟩), none⟩).text).toOption = none ∧
      deserialize? (range ⟨.double, some (.float ⟨0x7ff0000000000000⟩), none⟩).serialize =
        none := by
  refine ⟨ofText_of_decimalWord decimalWord_infinite, by decide, ?_, ?_⟩
  · decide +kernel
  · decide +kernel

end Definition

end CompactSchema
