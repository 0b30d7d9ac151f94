import CompactSchema.Proofs.Occurrences
import Mathlib.Data.List.TakeWhile

set_option autoImplicit false

/-!
# Checks of whole numbers and of lengths

A range compares a whole number, or the number of characters of a string, with its bounds as
integers. Ranges, enumerations and the primitive types therefore agree wherever they say the same.
-/

namespace CompactSchema

open Text

/-! ## All numbers between two -/

/-- The words from `a` to `b`, in ascending order. -/
def interval (a b : Int64) : List Int64 :=
  (List.range (b.toInt + 1 - a.toInt).toNat).map fun k : Nat => .ofInt (a.toInt + k)

theorem mem_interval {a b i : Int64} : i ∈ interval a b ↔ a ≤ i ∧ i ≤ b := by
  have hlow := a.le_toInt
  have hhigh := b.toInt_lt
  simp only [interval, List.mem_map, List.mem_range, Int64.le_iff_toInt_le]
  constructor
  · rintro ⟨k, hk, rfl⟩
    rw [Int64.toInt_ofInt_of_le (by omega) (by omega)]
    omega
  · rintro ⟨ha, hb⟩
    refine ⟨(i.toInt - a.toInt).toNat, by omega, ?_⟩
    have hindex : a.toInt + ((i.toInt - a.toInt).toNat : Int) = i.toInt := by omega
    rw [hindex, Int64.ofInt_toInt]

theorem enumerates_interval {a b : Int64} {j : Json} :
    enumerates (interval a b) j = true ↔
      ∃ n, j = .number (.whole n) ∧ Within (some a) (some b) n := by
  rw [Definition.enumerates_iff]
  simp only [mem_interval, Int64.le_iff_toInt_le, Within, Option.mem_some_iff, forall_eq']
  constructor
  · rintro ⟨i, hi, rfl⟩
    exact ⟨i.toInt, rfl, hi⟩
  · rintro ⟨n, rfl, ha, hb⟩
    have hlow := a.le_toInt
    have hhigh := b.toInt_lt
    have hword : (Int64.ofInt n).toInt = n := Int64.toInt_ofInt_of_le (by omega) (by omega)
    exact ⟨.ofInt n, by rw [hword]; exact ⟨ha, hb⟩, by rw [hword]⟩

theorem Keyword.accepts_byte_iff {j : Json} : byte.accepts j = true ↔
    ∃ n, j = .number (.whole n) ∧ Within (some 0) (some 255) n := by
  simp only [Within, Option.mem_some_iff, forall_eq']
  constructor
  · intro h
    cases j with
    | number n =>
      cases n with
      | whole n =>
        rw [accepts, Bool.and_eq_true, decide_eq_true_eq, decide_eq_true_eq] at h
        exact ⟨n, rfl, h⟩
      | float x => exact absurd h Bool.false_ne_true
    | _ => exact absurd h Bool.false_ne_true
  · rintro ⟨n, rfl, h⟩
    rw [accepts, Bool.and_eq_true, decide_eq_true_eq, decide_eq_true_eq]
    exact h

theorem Keyword.accepts_int_iff {j : Json} : int.accepts j = true ↔
    ∃ n, j = .number (.whole n) ∧ Within none none n := by
  constructor
  · intro h
    cases j with
    | number n =>
      cases n with
      | whole n => exact ⟨n, rfl, nofun, nofun⟩
      | float x => exact absurd h Bool.false_ne_true
    | _ => exact absurd h Bool.false_ne_true
  · rintro ⟨n, rfl, -⟩
    rfl

theorem Within.lt_of_maximum {a : Option Int64} {b : Int64} {n : Int} (h : Within a (some b) n) :
    n < 2 ^ 63 := Int.lt_of_le_of_lt (h.2 b rfl) b.toInt_lt

theorem not_within_of_reversed {a b : Int64} (h : b < a) (n : Int) :
    ¬ Within (some a) (some b) n := by
  rintro ⟨ha, hb⟩
  have hlow := ha a rfl
  have hhigh := hb b rfl
  have hlt := Int64.lt_iff_toInt_lt.mp h
  omega

/-! ## Lengths -/

/-- What is left of a text without the white space at its ends. -/
def Trimmed (cs core : List Char) : Prop :=
  ∃ front back, cs = front ++ core ++ back ∧ (∀ c ∈ front, Unicode.isBlank c = true) ∧
    (∀ c ∈ back, Unicode.isBlank c = true) ∧ Stops Unicode.isBlank core ∧
      Stops Unicode.isBlank core.reverse

theorem trim_eq_of_trimmed {cs core : List Char} (h : Trimmed cs core) :
    Unicode.trim cs = core := by
  obtain ⟨front, back, rfl, hfront, hback, hhead, hlast⟩ := h
  have hreverse : ∀ c ∈ back.reverse, Unicode.isBlank c = true :=
    fun c hc => hback c (List.mem_reverse.mp hc)
  unfold Unicode.trim
  cases core with
  | nil =>
    -- Everything is white space, and nothing of it is left for the second pass.
    have hall : ∀ c ∈ front ++ [] ++ back, Unicode.isBlank c = true := by
      rw [List.append_nil]
      exact List.forall_mem_append.mpr ⟨hfront, hback⟩
    have hdrop := dropWhile_of_stops hall (stops_nil Unicode.isBlank)
    rw [List.append_nil _ ] at hdrop
    rw [hdrop]
    rfl
  | cons c core =>
    have hfirst : Stops Unicode.isBlank (c :: core ++ back) := hhead
    rw [List.append_assoc, dropWhile_of_stops hfront hfirst, List.reverse_append,
      dropWhile_of_stops hreverse hlast, List.reverse_reverse]

theorem trimmed_trim (cs : List Char) : Trimmed cs (Unicode.trim cs) := by
  have hfront := List.takeWhile_append_dropWhile (p := Unicode.isBlank) (l := cs)
  generalize hmiddle : cs.dropWhile Unicode.isBlank = middle at hfront
  have hback := List.takeWhile_append_dropWhile (p := Unicode.isBlank) (l := middle.reverse)
  have hcore : middle = Unicode.trim cs ++ (middle.reverse.takeWhile Unicode.isBlank).reverse := by
    rw [Unicode.trim, hmiddle, ← List.reverse_append, hback, List.reverse_reverse]
  refine ⟨cs.takeWhile Unicode.isBlank, (middle.reverse.takeWhile Unicode.isBlank).reverse, ?_,
    fun c hc => List.mem_takeWhile_imp hc,
    fun c hc => List.mem_takeWhile_imp (List.mem_reverse.mp hc), ?_, ?_⟩
  · rw [List.append_assoc, ← hcore, hfront]
  · intro c hc
    apply stops_dropWhile Unicode.isBlank cs
    rw [hmiddle, hcore, List.head?_append, hc]
    rfl
  · rw [Unicode.trim, List.reverse_reverse]
    exact stops_dropWhile Unicode.isBlank _

/-- The characters of a string that count for its length. -/
def Options.Counts (o : Options) (s : String) (core : List Char) : Prop :=
  if o.trim then Trimmed s.toList core else core = s.toList

theorem Options.existsUnique_counts (o : Options) (s : String) : ∃! core, o.Counts s core := by
  unfold Counts
  split
  · exact ⟨Unicode.trim s.toList, trimmed_trim s.toList, fun _ h => (trim_eq_of_trimmed h).symm⟩
  · exact ⟨s.toList, rfl, fun _ h => h⟩

theorem Options.length_eq {o : Options} {s : String} {core : List Char} (h : o.Counts s core) :
    o.length s = core.length := by
  unfold Counts at h
  unfold length
  split at h
  · next htrim => rw [if_pos htrim, trim_eq_of_trimmed h]
  · next htrim => rw [if_neg htrim, h, String.length_toList]

theorem Options.exists_counts_iff (o : Options) {s : String} {P : Nat → Prop} :
    (∃ core, o.Counts s core ∧ P core.length) ↔ P (o.length s) := by
  constructor
  · rintro ⟨core, hcore, h⟩
    rwa [length_eq hcore]
  · intro h
    obtain ⟨core, hcore, -⟩ := o.existsUnique_counts s
    exact ⟨core, hcore, length_eq hcore ▸ h⟩

theorem Range.accepts_string_iff {o : Options} {minimum maximum : Option Int64} {j : Json} :
    (Range.whole .string minimum maximum).accepts o j = true ↔
      ∃ s, j = .string s ∧ Within minimum maximum (o.length s) := by
  rw [accepts_iff]
  constructor
  · rintro ⟨m, hm, hbounds⟩
    change magnitude? o .string j = some m at hm
    cases j with
    | string s =>
      obtain rfl := Option.some.inj hm
      exact ⟨s, rfl, (Magnitude.within_iff minimum maximum _).mp hbounds⟩
    | _ => exact absurd hm nofun
  · rintro ⟨s, rfl, hs⟩
    exact ⟨.whole (o.length s), rfl, (Magnitude.within_iff minimum maximum _).mpr hs⟩

/-! ## Definitions -/

namespace Definition

/-- Whether a new validator reports success. -/
def isValid (o : Options) (d : Definition) (j : Json) : Bool :=
  ((Validator.new d o).validate j).1.success

variable {o : Options} {j : Json}

theorem isValid_primitive {keyword : Keyword} :
    isValid o (.primitive keyword) j = keyword.accepts j :=
  Bool.eq_iff_iff.mpr (Validator.success_iff.trans accepts_primitive_iff)

theorem isValid_range {r : Range} : isValid o (.range r) j = r.accepts o j :=
  Bool.eq_iff_iff.mpr (Validator.success_iff.trans accepts_range_iff)

theorem isValid_enumeration {values : List Int64} :
    isValid o (.enumeration values) j = enumerates values j :=
  Bool.eq_iff_iff.mpr (Validator.success_iff.trans accepts_enumeration_iff)

theorem isValid_int_iff {a b : Option Int64} :
    isValid o (.range (.whole .int a b)) j = true ↔
      ∃ n, j = .number (.whole n) ∧ Within a b n := by
  rw [isValid_range]
  exact Range.accepts_int_iff

theorem isValid_string_iff {a b : Option Int64} :
    isValid o (.range (.whole .string a b)) j = true ↔
      ∃ s, j = .string s ∧ Within a b (o.length s) := by
  rw [isValid_range]
  exact Range.accepts_string_iff

theorem isValid_interval {a b : Int64} :
    isValid o (.range (.whole .int (some a) (some b))) j =
      isValid o (.enumeration (interval a b)) j := by
  rw [Bool.eq_iff_iff, isValid_int_iff, isValid_enumeration]
  exact enumerates_interval.symm

theorem isValid_byte : isValid o (.range (.whole .int (some 0) (some 255))) j =
    isValid o (.primitive .byte) j := by
  rw [Bool.eq_iff_iff, isValid_int_iff, isValid_primitive]
  exact Keyword.accepts_byte_iff.symm

theorem isValid_int : isValid o (.range (.whole .int none none)) j =
    isValid o (.primitive .int) j := by
  rw [Bool.eq_iff_iff, isValid_int_iff, isValid_primitive]
  exact Keyword.accepts_int_iff.symm

theorem isValid_reversed {a b : Int64} (h : b < a) {keyword : Keyword}
    (hkeyword : keyword = .int ∨ keyword = .string) :
    isValid o (.range (.whole keyword (some a) (some b))) j = false := by
  rw [Bool.eq_false_iff]
  intro hvalid
  obtain rfl | rfl := hkeyword
  · obtain ⟨n, -, hn⟩ := isValid_int_iff.mp hvalid
    exact not_within_of_reversed h n hn
  · obtain ⟨s, -, hs⟩ := isValid_string_iff.mp hvalid
    exact not_within_of_reversed h _ hs

theorem isValid_negative {a : Option Int64} {b : Int64} (h : b < 0) :
    isValid o (.range (.whole .string a (some b))) j = false := by
  rw [Bool.eq_false_iff]
  intro hvalid
  obtain ⟨s, -, -, hs⟩ := isValid_string_iff.mp hvalid
  have hlength := hs b rfl
  have hbelow : b.toInt < 0 := Int64.lt_iff_toInt_lt.mp h
  omega

/-- How a value is checked by definitions with whole bounds. -/
structure ExactIntegers (o : Options) (j : Json) (minimum maximum : Option Int64) : Prop where
  int : isValid o (.range (.whole .int minimum maximum)) j = true ↔
    ∃ n, j = .number (.whole n) ∧ Within minimum maximum n
  interval : ∀ a b, isValid o (.range (.whole .int (some a) (some b))) j =
    isValid o (.enumeration (interval a b)) j
  byte : isValid o (.range (.whole .int (some 0) (some 255))) j = isValid o (.primitive .byte) j
  unbounded : isValid o (.range (.whole .int none none)) j = isValid o (.primitive .int) j
  enumerated : ∀ values, isValid o (.enumeration values) j = true →
    ∃ n ≤ 2 ^ 63 - 1, j = .number (.whole n)
  belowMaximum : ∀ b, isValid o (.range (.whole .int minimum (some b))) j = true →
    ∃ n ≤ 2 ^ 63 - 1, j = .number (.whole n)
  string : isValid o (.range (.whole .string minimum maximum)) j = true ↔
    ∃ s, j = .string s ∧ ∃ core, o.Counts s core ∧ Within minimum maximum core.length
  counts : ∀ s, ∃! core, o.Counts s core
  reversed : ∀ a b, b < a → isValid o (.range (.whole .int (some a) (some b))) j = false ∧
    isValid o (.range (.whole .string (some a) (some b))) j = false
  negative : ∀ b < 0, isValid o (.range (.whole .string minimum (some b))) j = false

/-- The checks that ask for a number as a word of one kind or the other. -/
structure ExactWords (o : Options) (s : Stored) (minimum maximum : Option Int64) : Prop where
  int : s.isInteger = isValid o (.primitive .int) (.number s.number)
  byte : s.isByte = isValid o (.primitive .byte) (.number s.number)
  enumeration : ∀ values,
    s.isEnumerated values = isValid o (.enumeration values) (.number s.number)
  range : s.isInRange minimum maximum =
    isValid o (.range (.whole .int minimum maximum)) (.number s.number)

theorem exactIntegers (o : Options) (j : Json) (minimum maximum : Option Int64) :
    ExactIntegers o j minimum maximum where
  int := isValid_int_iff
  interval _ _ := isValid_interval
  byte := isValid_byte
  unbounded := isValid_int
  enumerated := by
    intro values h
    rw [isValid_enumeration] at h
    obtain ⟨i, -, rfl⟩ := enumerates_iff.mp h
    exact ⟨i.toInt, Int.le_sub_one_of_lt i.toInt_lt, rfl⟩
  belowMaximum := by
    intro b h
    obtain ⟨n, rfl, hn⟩ := isValid_int_iff.mp h
    exact ⟨n, Int.le_sub_one_of_lt hn.lt_of_maximum, rfl⟩
  string := by
    rw [isValid_string_iff]
    apply exists_congr
    intro s
    apply and_congr_right
    intro _
    exact (o.exists_counts_iff (P := fun n => Within minimum maximum n)).symm
  counts := o.existsUnique_counts
  reversed _ _ h := ⟨isValid_reversed h (.inl rfl), isValid_reversed h (.inr rfl)⟩
  negative _ h := isValid_negative h

theorem exactWords (o : Options) (s : Stored) (minimum maximum : Option Int64) :
    ExactWords o s minimum maximum where
  int := by
    rw [isValid_primitive]
    exact s.isInteger_eq
  byte := by
    rw [isValid_primitive]
    exact s.isByte_eq
  enumeration := by
    intro values
    rw [isValid_enumeration]
    exact s.isEnumerated_eq values
  range := by
    rw [isValid_range]
    exact s.isInRange_eq o minimum maximum

/-- Checks of whole numbers and lengths compare them with the bounds as integers, whatever the
bounds are. So a range of `int` accepts the same values as the enumeration of all that is between
its bounds, as `byte` for the bounds of a byte, and as `int` without any. No number that a signed
word does not hold is in an enumeration or below a bound. On the numbers as they are held in 64
bits, and there are no others in a text, the checks of the words come to the same. -/
theorem isValid_exact (o : Options) (minimum maximum : Option Int64) :
    (∀ j, ExactIntegers o j minimum maximum) ∧
    (∀ s, ExactWords o s minimum maximum) ∧
    (∀ n : Int, (∃ s : Stored, s.number = .whole n) ↔ -2 ^ 63 ≤ n ∧ n ≤ 2 ^ 64 - 1) ∧
    ∀ text j, Json.ofText text = .ok j → ∀ n, Json.Occurs n j → ∃ s : Stored, s.number = n := by
  refine ⟨fun j => exactIntegers o j minimum maximum, fun s => exactWords o s minimum maximum,
    fun n => Stored.exists_whole_iff, ?_⟩
  intro text j h n hn
  exact Json.stored_of_ofText h hn

theorem isValid_exact_limits :
    isValid ⟨true⟩ (.range (.whole .string (some 1) (some 1))) (.string " a ") = true ∧
      isValid ⟨true⟩ (.range (.whole .string (some 3) (some 1))) (.string "ab") = false ∧
        isValid ⟨true⟩ (.range (.whole .int (some 1) (some Int64.maxValue)))
          (.number (.whole (2 ^ 64 - 1))) = false := by
  have hexact := (isValid_exact ⟨true⟩ (some 1) (some 1)).1
  have hcounts : Options.Counts ⟨true⟩ " a " ['a'] := by
    have hstops : Stops Unicode.isBlank ['a'] := stops_cons (by decide) []
    have hblank : ∀ c ∈ [' '], Unicode.isBlank c = true := by
      intro c hc
      rw [List.mem_singleton.mp hc]
      decide
    exact ⟨[' '], [' '], rfl, hblank, hblank, hstops, hstops⟩
  refine ⟨?_, ?_, ?_⟩
  · apply (hexact (.string " a ")).string.mpr
    exact ⟨" a ", rfl, ['a'], hcounts, by simp, by simp⟩
  · exact ((hexact (.string "ab")).reversed 3 1 (by decide)).2
  · rw [Bool.eq_false_iff]
    intro h
    obtain ⟨n, hn, hj⟩ := (hexact _).belowMaximum Int64.maxValue h
    obtain rfl := JsonNumber.whole.inj (Json.number.inj hj)
    exact absurd hn (by decide)

end Definition

end CompactSchema
