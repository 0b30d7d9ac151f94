import CompactSchema.Calendar
import CompactSchema.Number.Binary64
import Mathlib.Data.List.Induction
import Mathlib.Tactic.IntervalCases

set_option autoImplicit false

/-!
# Texts of dates and times

Days, clock times and offsets with the texts that are written for them, digit by digit. A text is
accepted exactly if it is written for something real.
-/

namespace CompactSchema.Calendar

/-! ## Digits -/

/-- The last `places` digits of a number. -/
def padded : Nat → Nat → List Char
  | 0, _ => []
  | places + 1, n => padded places (n / 10) ++ [Nat.digitChar (n % 10)]

@[simp] theorem length_padded (places n : Nat) : (padded places n).length = places := by
  induction places generalizing n with
  | zero => rfl
  | succ places ih => simp [padded, ih]

theorem padded_two (n : Nat) :
    padded 2 n = [Nat.digitChar (n / 10 % 10), Nat.digitChar (n % 10)] := rfl

theorem padded_four (n m : Nat) (hm : m < 100) :
    padded 4 (100 * n + m) = padded 2 n ++ padded 2 m := by
  have htens : (100 * n + m) / 10 % 10 = m / 10 % 10 := by omega
  have hunits : (100 * n + m) % 10 = m % 10 := by omega
  have hfront : (100 * n + m) / 10 / 10 = n := by omega
  simp only [padded, htens, hunits, hfront, List.nil_append, List.append_assoc]

theorem digitChar_of_isDigit {c : Char} (h : c.isDigit = true) :
    c.toNat - '0'.toNat < 10 ∧ Nat.digitChar (c.toNat - '0'.toNat) = c := by
  obtain ⟨hlow, hhigh⟩ := Char.isDigit_iff_toNat.mp h
  have hzero : '0'.toNat = 48 := rfl
  have hnine : '9'.toNat = 57 := rfl
  rw [hzero] at hlow ⊢
  rw [hnine] at hhigh
  have hlt : c.toNat - 48 < 10 := by omega
  refine ⟨hlt, ?_⟩
  apply Char.toNat_inj.mp
  rw [Nat.toNat_digitChar_of_lt_ten hlt]
  omega

theorem isDigit_digitChar_mod (n : Nat) : (Nat.digitChar (n % 10)).isDigit = true := by
  rw [Nat.isDigit_digitChar, decide_eq_true_eq]
  exact Nat.mod_lt n (by decide)

theorem toNat_digitChar_mod (n : Nat) :
    (Nat.digitChar (n % 10)).toNat - '0'.toNat = n % 10 := by
  have hzero : '0'.toNat = 48 := rfl
  rw [Nat.toNat_digitChar_of_lt_ten (Nat.mod_lt n (by decide)), hzero]
  omega

theorem isDigit_of_mem_padded {places n : Nat} {c : Char} (h : c ∈ padded places n) :
    c.isDigit = true := by
  induction places generalizing n with
  | zero => exact absurd h List.not_mem_nil
  | succ places ih =>
    rcases List.mem_append.mp h with h | h
    · exact ih h
    · rw [List.mem_singleton.mp h]
      exact isDigit_digitChar_mod n

/-- Digits are the text of the number that they write. -/
theorem exists_padded {ds : List Char} (h : ∀ c ∈ ds, c.isDigit = true) :
    ∃ n, n < 10 ^ ds.length ∧ ds = padded ds.length n := by
  induction ds using List.reverseRecOn with
  | nil => exact ⟨0, by decide, rfl⟩
  | append_singleton ds c ih =>
    obtain ⟨n, hn, hds⟩ := ih fun d hd => h d (List.mem_append_left _ hd)
    obtain ⟨hlt, hc⟩ := digitChar_of_isDigit (h c (by simp))
    refine ⟨10 * n + (c.toNat - '0'.toNat), ?_, ?_⟩
    · rw [List.length_append, List.length_singleton, Nat.pow_succ]
      omega
    · have hfront : (10 * n + (c.toNat - '0'.toNat)) / 10 = n := by omega
      have hlast : (10 * n + (c.toNat - '0'.toNat)) % 10 = c.toNat - '0'.toNat := by omega
      rw [List.length_append, List.length_singleton, padded, hfront, hlast, hc, ← hds]

theorem twoDigits?_eq_some {a b : Char} {n : Nat} :
    twoDigits? a b = some n ↔ n < 100 ∧ [a, b] = padded 2 n := by
  unfold twoDigits?
  constructor
  · intro h
    split at h
    · next hdigits =>
      obtain ⟨ha, hb⟩ := Bool.and_eq_true_iff.mp hdigits
      obtain ⟨hlt, hca⟩ := digitChar_of_isDigit ha
      obtain ⟨hlt', hcb⟩ := digitChar_of_isDigit hb
      obtain rfl := Option.some.inj h
      generalize a.toNat - '0'.toNat = tens at *
      generalize b.toNat - '0'.toNat = units at *
      have htens : (10 * tens + units) / 10 % 10 = tens := by omega
      have hunits : (10 * tens + units) % 10 = units := by omega
      rw [padded_two, htens, hunits, hca, hcb]
      exact ⟨by omega, rfl⟩
    · exact absurd h nofun
  · rintro ⟨hn, hab⟩
    rw [padded_two, List.cons.injEq, List.cons.injEq] at hab
    obtain ⟨rfl, rfl, -⟩ := hab
    rw [isDigit_digitChar_mod, isDigit_digitChar_mod, toNat_digitChar_mod, toNat_digitChar_mod,
      Bool.and_self, if_pos rfl, Option.some.injEq]
    omega

/-! ## Days -/

structure Day where
  year : Nat
  month : Nat
  day : Nat

namespace Day

/-- The year with four digits, the month and the day with two. -/
def text (d : Day) : List Char :=
  padded 4 d.year ++ '-' :: (padded 2 d.month ++ '-' :: padded 2 d.day)

/-- Every number has a place for each of its digits. -/
structure Fits (d : Day) : Prop where
  year : d.year < 10000
  month : d.month < 100
  day : d.day < 100

def InLeapYear (d : Day) : Prop := 4 ∣ d.year ∧ (100 ∣ d.year → 400 ∣ d.year)

/-- A day of the Gregorian calendar, taken to hold for all years. -/
structure Real (d : Day) : Prop where
  month : 1 ≤ d.month ∧ d.month ≤ 12
  day : 1 ≤ d.day ∧ d.day ≤ 31
  thirty : d.month ∈ [4, 6, 9, 11] → d.day ≤ 30
  february : d.month = 2 → d.day ≤ 28 ∨ d.day = 29 ∧ d.InLeapYear

@[simp] theorem length_text (d : Day) : d.text.length = 10 := by
  simp [text]

theorem isLeap_iff (d : Day) : isLeap d.year = true ↔ d.InLeapYear := by
  unfold isLeap InLeapYear
  simp only [Bool.or_eq_true, Bool.and_eq_true, decide_eq_true_eq]
  omega

theorem daysIn_of_outside {year month : Nat} (h : ¬ (1 ≤ month ∧ month ≤ 12)) :
    daysIn year month = 0 := by
  unfold daysIn
  split
  all_goals first | rfl | exact absurd (by decide) h

theorem isDay_iff (d : Day) : isDay d.year d.month d.day = true ↔ d.Real := by
  have hleap := d.isLeap_iff
  obtain ⟨year, month, day⟩ := d
  have hreal : Real ⟨year, month, day⟩ ↔ (1 ≤ month ∧ month ≤ 12) ∧ (1 ≤ day ∧ day ≤ 31) ∧
      (month ∈ [4, 6, 9, 11] → day ≤ 30) ∧
        (month = 2 → day ≤ 28 ∨ day = 29 ∧ isLeap year = true) := by
    rw [hleap]
    exact ⟨fun h => ⟨h.1, h.2, h.3, h.4⟩, fun h => ⟨h.1, h.2.1, h.2.2.1, h.2.2.2⟩⟩
  rw [hreal, isDay, Bool.and_eq_true, decide_eq_true_eq, decide_eq_true_eq]
  by_cases hmonth : 1 ≤ month ∧ month ≤ 12
  · obtain ⟨hlow, hhigh⟩ := hmonth
    interval_cases month
    case «2» =>
      cases hyear : isLeap year <;> simp [daysIn, hyear] <;> omega
    all_goals simp [daysIn] <;> omega
  · rw [daysIn_of_outside hmonth]
    omega

theorem dateChars_iff (cs : List Char) :
    dateChars cs = true ↔ ∃ d : Day, d.Fits ∧ d.Real ∧ cs = d.text := by
  constructor
  · intro h
    unfold dateChars at h
    split at h
    · split at h
      · next hcentury hrest hmonth hday =>
        obtain ⟨hcentury, hab⟩ := twoDigits?_eq_some.mp hcentury
        obtain ⟨hrest, hcd⟩ := twoDigits?_eq_some.mp hrest
        obtain ⟨hmonth, hef⟩ := twoDigits?_eq_some.mp hmonth
        obtain ⟨hday, hgh⟩ := twoDigits?_eq_some.mp hday
        refine ⟨⟨_, _, _⟩, ⟨?_, hmonth, hday⟩, (isDay_iff ⟨_, _, _⟩).mp h, ?_⟩
        · dsimp only
          omega
        · rw [text, padded_four _ _ hrest, ← hab, ← hcd, ← hef, ← hgh]
          rfl
      · exact absurd h Bool.false_ne_true
    · exact absurd h Bool.false_ne_true
  · rintro ⟨⟨year, month, day⟩, hfits, hreal, rfl⟩
    have hsplit : 100 * (year / 100) + year % 100 = year := Nat.div_add_mod year 100
    have hrest : year % 100 < 100 := Nat.mod_lt year (by decide)
    have hyear : padded 4 year = padded 2 (year / 100) ++ padded 2 (year % 100) := by
      rw [← padded_four _ _ hrest, hsplit]
    rw [text, hyear]
    simp only [padded_two, List.cons_append, List.nil_append, dateChars,
      twoDigits?_eq_some.mpr ⟨Nat.div_lt_of_lt_mul hfits.year, padded_two (year / 100)⟩,
      twoDigits?_eq_some.mpr ⟨hrest, padded_two (year % 100)⟩,
      twoDigits?_eq_some.mpr ⟨hfits.month, padded_two month⟩,
      twoDigits?_eq_some.mpr ⟨hfits.day, padded_two day⟩, hsplit]
    exact (isDay_iff ⟨year, month, day⟩).mpr hreal

end Day

/-! ## Clock times -/

structure Clock where
  hour : Nat
  minute : Nat
  second : Nat

namespace Clock

/-- Hour, minute and second with two digits each. -/
def text (c : Clock) : List Char :=
  padded 2 c.hour ++ ':' :: (padded 2 c.minute ++ ':' :: padded 2 c.second)

structure Fits (c : Clock) : Prop where
  hour : c.hour < 100
  minute : c.minute < 100
  second : c.second < 100

/-- A time before midnight that is no leap second. -/
structure Real (c : Clock) : Prop where
  hour : c.hour ≤ 23
  minute : c.minute ≤ 59
  second : c.second ≤ 59

theorem Real.fits {c : Clock} (h : c.Real) : c.Fits where
  hour := Nat.lt_of_le_of_lt h.hour (by decide)
  minute := Nat.lt_of_le_of_lt h.minute (by decide)
  second := Nat.lt_of_le_of_lt h.second (by decide)

@[simp] theorem length_text (c : Clock) : c.text.length = 8 := by
  simp [text]

theorem isClock_iff (c : Clock) : isClock c.hour c.minute c.second = true ↔ c.Real := by
  rw [isClock, Bool.and_eq_true, Bool.and_eq_true, decide_eq_true_eq, decide_eq_true_eq,
    decide_eq_true_eq]
  exact ⟨fun h => ⟨h.1.1, h.1.2, h.2⟩, fun h => ⟨⟨h.hour, h.minute⟩, h.second⟩⟩

theorem timeChars_iff (cs : List Char) :
    timeChars cs = true ↔ ∃ c : Clock, c.Real ∧ cs = c.text := by
  constructor
  · intro h
    unfold timeChars at h
    split at h
    · split at h
      · next hhour hminute hsecond =>
        obtain ⟨-, hab⟩ := twoDigits?_eq_some.mp hhour
        obtain ⟨-, hcd⟩ := twoDigits?_eq_some.mp hminute
        obtain ⟨-, hef⟩ := twoDigits?_eq_some.mp hsecond
        refine ⟨⟨_, _, _⟩, (isClock_iff ⟨_, _, _⟩).mp h, ?_⟩
        rw [text, ← hab, ← hcd, ← hef]
        rfl
      · exact absurd h Bool.false_ne_true
    · exact absurd h Bool.false_ne_true
  · rintro ⟨⟨hour, minute, second⟩, hreal, rfl⟩
    have hfits := hreal.fits
    simp only [text, padded_two, List.cons_append, List.nil_append, timeChars,
      twoDigits?_eq_some.mpr ⟨hfits.hour, padded_two hour⟩,
      twoDigits?_eq_some.mpr ⟨hfits.minute, padded_two minute⟩,
      twoDigits?_eq_some.mpr ⟨hfits.second, padded_two second⟩]
    exact (isClock_iff ⟨hour, minute, second⟩).mpr hreal

end Clock

/-! ## Offsets -/

/-- Hours and minutes by which a clock is ahead of the universal time or behind it. -/
structure Offset where
  behind : Bool
  hour : Nat
  minute : Nat

namespace Offset

def sign (z : Offset) : Char := if z.behind then '-' else '+'

/-- A sign, then hour and minute with two digits each. -/
def text (z : Offset) : List Char := z.sign :: (padded 2 z.hour ++ ':' :: padded 2 z.minute)

structure Fits (z : Offset) : Prop where
  hour : z.hour < 100
  minute : z.minute < 100

structure Real (z : Offset) : Prop where
  hour : z.hour ≤ 23
  minute : z.minute ≤ 59

/-- The offset is `-00:00`. -/
def NegativeZero (z : Offset) : Prop := z.behind = true ∧ z.hour = 0 ∧ z.minute = 0

theorem Real.fits {z : Offset} (h : z.Real) : z.Fits where
  hour := Nat.lt_of_le_of_lt h.hour (by decide)
  minute := Nat.lt_of_le_of_lt h.minute (by decide)

theorem isClock_iff (z : Offset) : isClock z.hour z.minute 0 = true ↔ z.Real := by
  apply (Clock.isClock_iff ⟨z.hour, z.minute, 0⟩).trans
  exact ⟨fun h => ⟨h.hour, h.minute⟩, fun h => ⟨h.hour, h.minute, Nat.zero_le 59⟩⟩

theorem offsetChars_iff (cs : List Char) :
    offsetChars cs = true ↔ ∃ z : Offset, z.Real ∧ ¬ z.NegativeZero ∧ cs = z.text := by
  constructor
  · intro h
    unfold offsetChars at h
    split at h
    · split at h
      · next hhour hminute =>
        obtain ⟨-, hab⟩ := twoDigits?_eq_some.mp hhour
        obtain ⟨-, hcd⟩ := twoDigits?_eq_some.mp hminute
        simp only [Bool.and_eq_true, Bool.or_eq_true, decide_eq_true_eq, Bool.not_eq_true',
          Bool.and_eq_false_imp, decide_eq_false_iff_not] at h
        obtain ⟨hclock, rfl | ⟨rfl, hzero⟩⟩ := h
        · refine ⟨⟨false, _, _⟩, (isClock_iff ⟨false, _, _⟩).mp hclock, nofun, ?_⟩
          rw [text, ← hab, ← hcd]
          rfl
        · refine ⟨⟨true, _, _⟩, (isClock_iff ⟨true, _, _⟩).mp hclock, ?_, ?_⟩
          · rintro ⟨-, hhour, hminute⟩
            exact hzero hhour hminute
          · rw [text, ← hab, ← hcd]
            rfl
      · exact absurd h Bool.false_ne_true
    · exact absurd h Bool.false_ne_true
  · rintro ⟨⟨behind, hour, minute⟩, hreal, hzero, rfl⟩
    have hfits := hreal.fits
    have hclock := (isClock_iff ⟨behind, hour, minute⟩).mpr hreal
    simp only [text, sign, padded_two, List.cons_append, List.nil_append, offsetChars,
      twoDigits?_eq_some.mpr ⟨hfits.hour, padded_two hour⟩,
      twoDigits?_eq_some.mpr ⟨hfits.minute, padded_two minute⟩]
    rw [hclock, Bool.true_and]
    cases behind with
    | false => rfl
    | true =>
      have hzero : ¬ (hour = 0 ∧ minute = 0) := fun h => hzero ⟨rfl, h⟩
      simpa using Decidable.not_and_iff_or_not.mp hzero

end Offset

/-! ## Moments -/

theorem length_of_dateChars {cs : List Char} (h : dateChars cs = true) : cs.length = 10 := by
  obtain ⟨d, -, -, rfl⟩ := (Day.dateChars_iff cs).mp h
  exact d.length_text

theorem length_of_timeChars {cs : List Char} (h : timeChars cs = true) : cs.length = 8 := by
  obtain ⟨c, -, rfl⟩ := (Clock.timeChars_iff cs).mp h
  exact c.length_text

/-- What may stand between date and time and behind them: a space alone, or `T` with a zone. -/
inductive Joined : Char → List Char → Prop where
  | spaced : Joined ' ' []
  | utc : Joined 'T' ['Z']
  | zoned {z : List Char} : offsetChars z = true → Joined 'T' z

theorem joined_iff (separator : Char) (zone : List Char) :
    ((separator = ' ' && zone.isEmpty) ||
      (separator = 'T' && (zone = ['Z'] || offsetChars zone))) = true ↔ Joined separator zone := by
  simp only [Bool.or_eq_true, Bool.and_eq_true, decide_eq_true_eq, List.isEmpty_iff]
  constructor
  · rintro (⟨rfl, rfl⟩ | ⟨rfl, rfl | h⟩)
    · exact .spaced
    · exact .utc
    · exact .zoned h
  · rintro (_ | _ | h)
    · exact .inl ⟨rfl, rfl⟩
    · exact .inr ⟨rfl, .inl rfl⟩
    · exact .inr ⟨rfl, .inr h⟩

theorem momentChars_iff (cs : List Char) :
    momentChars cs = true ↔ ∃ ds ts separator zone, dateChars ds = true ∧ timeChars ts = true ∧
      Joined separator zone ∧ cs = ds ++ separator :: (ts ++ zone) := by
  constructor
  · intro h
    unfold momentChars at h
    split at h
    · next separator rest hdrop =>
      rw [Bool.and_eq_true, Bool.and_eq_true, joined_iff] at h
      obtain ⟨⟨hdate, htime⟩, hjoined⟩ := h
      refine ⟨cs.take 10, rest.take 8, separator, rest.drop 8, hdate, htime, hjoined, ?_⟩
      rw [List.take_append_drop, ← hdrop, List.take_append_drop]
    · exact absurd h Bool.false_ne_true
  · rintro ⟨ds, ts, separator, zone, hdate, htime, hjoined, rfl⟩
    unfold momentChars
    rw [List.drop_left' (length_of_dateChars hdate), List.take_left' (length_of_dateChars hdate)]
    dsimp only
    rw [List.drop_left' (length_of_timeChars htime), List.take_left' (length_of_timeChars htime),
      hdate, htime, (joined_iff separator zone).mpr hjoined]
    rfl

end CompactSchema.Calendar
