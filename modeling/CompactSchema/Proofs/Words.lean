import CompactSchema.Proofs.Relaxation

set_option autoImplicit false

/-!
# Whole numbers in 64 bits

A document holds a whole number in an unsigned word, or in a signed one if it is negative. A check
asks for the number as a word of one kind or the other and gets nothing if it is not of that kind.
These checks come to the same as those on the number itself.
-/

namespace CompactSchema

/-! ## Ranges of whole numbers -/

/-- The number is not outside of the bounds that there are. -/
def Within (minimum maximum : Option Int64) (n : Int) : Prop :=
  (∀ a ∈ minimum, a.toInt ≤ n) ∧ ∀ b ∈ maximum, n ≤ b.toInt

/-- A range with whole bounds. -/
def Range.whole (keyword : Keyword) (minimum maximum : Option Int64) : Range :=
  ⟨keyword, minimum.map .int, maximum.map .int⟩

theorem Magnitude.within_iff (minimum maximum : Option Int64) (n : Int) :
    (whole n).notBelow (minimum.map .int) = true ∧ (whole n).notAbove (maximum.map .int) = true ↔
      Within minimum maximum n := by
  apply and_congr
  · cases minimum with
    | none => exact iff_of_true rfl nofun
    | some a => simp [notBelow_int_iff]
  · cases maximum with
    | none => exact iff_of_true rfl nofun
    | some b => simp [notAbove_int_iff]

theorem Range.accepts_int_iff {o : Options} {minimum maximum : Option Int64} {j : Json} :
    (Range.whole .int minimum maximum).accepts o j = true ↔
      ∃ n, j = .number (.whole n) ∧ Within minimum maximum n := by
  rw [accepts_iff]
  constructor
  · rintro ⟨m, hm, hbounds⟩
    change magnitude? o .int j = some m at hm
    cases j with
    | number n =>
      cases n with
      | whole n =>
        obtain rfl := Option.some.inj hm
        exact ⟨n, rfl, (Magnitude.within_iff minimum maximum n).mp hbounds⟩
      | float x => exact absurd hm nofun
    | _ => exact absurd hm nofun
  · rintro ⟨n, rfl, hn⟩
    exact ⟨.whole n, rfl, (Magnitude.within_iff minimum maximum n).mpr hn⟩

/-! ## Numbers as they are held -/

/-- A number as it is held. -/
inductive Stored
  | natural (value : UInt64)
  | negative (value : Int64) (below : value < 0)
  | float (value : Binary64)

namespace Stored

def number : Stored → JsonNumber
  | natural n => .whole n.toNat
  | negative i _ => .whole i.toInt
  | float x => .float x

/-- The number as a signed word. -/
def int64? : Stored → Option Int64
  | natural n => if n.toNat < 2 ^ 63 then some (.ofNat n.toNat) else none
  | negative i _ => some i
  | float _ => none

/-- The number as an unsigned word. -/
def uint64? : Stored → Option UInt64
  | natural n => some n
  | _ => none

def isInteger (s : Stored) : Bool := s.int64?.isSome || s.uint64?.isSome

def isByte (s : Stored) : Bool := s.uint64?.any (· ≤ 255)

def isEnumerated (values : List Int64) (s : Stored) : Bool := s.int64?.any (values.contains ·)

def magnitude? (s : Stored) : Option Int :=
  (s.int64?.map Int64.toInt).or (s.uint64?.map fun n => (n.toNat : Int))

def isInRange (minimum maximum : Option Int64) (s : Stored) : Bool :=
  s.magnitude?.any fun m =>
    minimum.all (fun a => compare m a.toInt ≠ .lt) && maximum.all (fun b => compare m b.toInt ≠ .gt)

variable {s : Stored}

theorem int64?_eq_some {i : Int64} : s.int64? = some i ↔ s.number = .whole i.toInt := by
  cases s with
  | natural n =>
    have hhigh := i.toInt_lt
    simp only [int64?, number, JsonNumber.whole.injEq]
    split
    · next hn =>
      have hword : (Int64.ofNat n.toNat).toInt = n.toNat := Int64.toInt_ofNat_of_lt hn
      rw [Option.some.injEq, ← Int64.toInt_inj, hword]
    · next hn =>
      refine iff_of_false nofun ?_
      omega
  | negative j hj =>
    simp only [int64?, number, Option.some.injEq, JsonNumber.whole.injEq, Int64.toInt_inj]
  | float x => exact iff_of_false nofun nofun

theorem magnitude?_eq_some {m : Int} : s.magnitude? = some m ↔ s.number = .whole m := by
  unfold magnitude?
  cases hsigned : s.int64? with
  | some i =>
    rw [int64?_eq_some.mp hsigned]
    simp
  | none =>
    cases s with
    | natural n => simp [uint64?, number]
    | negative i hi => exact absurd hsigned nofun
    | float x => simp [uint64?, number]

/-- The whole numbers that are held. -/
theorem exists_whole_iff {n : Int} :
    (∃ s : Stored, s.number = .whole n) ↔ -2 ^ 63 ≤ n ∧ n ≤ 2 ^ 64 - 1 := by
  constructor
  · rintro ⟨s, hs⟩
    cases s with
    | natural m =>
      have hm := m.toNat_lt
      obtain rfl := JsonNumber.whole.inj hs
      omega
    | negative i hi =>
      have hlow := i.le_toInt
      have hhigh := i.toInt_lt
      obtain rfl := JsonNumber.whole.inj hs
      omega
    | float x => exact absurd hs nofun
  · rintro ⟨hlow, hhigh⟩
    rcases Int.lt_or_le n 0 with hn | hn
    · have hword : (Int64.ofInt n).toInt = n := Int64.toInt_ofInt_of_le hlow (by omega)
      have hbelow : Int64.ofInt n < 0 := by
        rw [Int64.lt_iff_toInt_lt, hword]
        exact hn
      exact ⟨.negative (.ofInt n) hbelow, congrArg JsonNumber.whole hword⟩
    · have hword : ((UInt64.ofNat n.toNat).toNat : Int) = n := by
        rw [UInt64.toNat_ofNat', Nat.mod_eq_of_lt (by omega)]
        omega
      exact ⟨.natural (.ofNat n.toNat), congrArg JsonNumber.whole hword⟩

theorem isInteger_eq (s : Stored) : s.isInteger = Keyword.int.accepts (.number s.number) := by
  cases s with
  | natural n => simp [isInteger, uint64?, number, Keyword.accepts]
  | negative i hi => rfl
  | float x => rfl

theorem isByte_eq (s : Stored) : s.isByte = Keyword.byte.accepts (.number s.number) := by
  cases s with
  | natural n =>
    have hle : n ≤ 255 ↔ (n.toNat : Int) ≤ 255 := by
      rw [UInt64.le_iff_toNat_le]
      exact Int.ofNat_le.symm
    simp [isByte, uint64?, number, Keyword.accepts, hle]
  | negative i hi =>
    have hbelow : ¬ 0 ≤ i.toInt := Int.not_le.mpr (Int64.lt_iff_toInt_lt.mp hi)
    simp [isByte, uint64?, number, Keyword.accepts, hbelow]
  | float x => rfl

theorem isEnumerated_eq (values : List Int64) (s : Stored) :
    s.isEnumerated values = enumerates values (.number s.number) := by
  rw [Bool.eq_iff_iff, Definition.enumerates_iff, isEnumerated, Option.any_eq_true]
  simp only [int64?_eq_some, List.contains_iff_mem, Json.number.injEq]
  exact exists_congr fun _ => and_comm

theorem isInRange_iff {minimum maximum : Option Int64} :
    s.isInRange minimum maximum = true ↔
      ∃ n, s.number = .whole n ∧ Within minimum maximum n := by
  rw [isInRange, Option.any_eq_true]
  apply exists_congr
  intro n
  rw [magnitude?_eq_some, Within]
  apply and_congr_right
  intro _
  rw [Bool.and_eq_true, Option.all_eq_true, Option.all_eq_true]
  simp only [decide_eq_true_eq, ne_eq, Int.compare_eq_lt, Int.compare_eq_gt, Int.not_lt]
  rfl

theorem isInRange_eq (o : Options) (minimum maximum : Option Int64) (s : Stored) :
    s.isInRange minimum maximum =
      (Range.whole .int minimum maximum).accepts o (.number s.number) := by
  rw [Bool.eq_iff_iff, isInRange_iff, Range.accepts_int_iff]
  simp only [Json.number.injEq]

end Stored

end CompactSchema
