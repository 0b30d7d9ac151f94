import CompactSchema.Json.Outline
import CompactSchema.Json.Writer
import CompactSchema.Proofs.Digits

set_option autoImplicit false

/-!
# Numbers in documents

Every number is written by the grammar: digits without a leading zero, perhaps digits behind a
point, perhaps an exponent. So it is read, or found to be out of range, in front of anything that
does not go on with it. Whole numbers that 64 bits hold are read back as they are. Which other
numbers are read back is not decided here.
-/

namespace CompactSchema.Json

open Text

/-- What a number goes on with. -/
def isNumberPart (c : Char) : Bool := isDigit c || c = '.' || c = 'e' || c = 'E'

theorem isNumberPart_of_isDigit {c : Char} (h : isDigit c = true) : isNumberPart c = true := by
  simp [isNumberPart, h]

theorem stops_isDigit {rest : List Char} (h : Stops isNumberPart rest) : Stops isDigit rest :=
  h.mono fun _ => isNumberPart_of_isDigit

theorem head?_ne_of_stops {rest : List Char} (h : Stops isNumberPart rest) {c : Char}
    (hc : isNumberPart c = true) : rest.head? ≠ some c :=
  fun hhead => absurd hc (by simp [h c hhead])

def Digits (ds : List Char) : Prop := ds ≠ [] ∧ ∀ c ∈ ds, isDigit c = true

/-- A zero at the front stands alone. -/
def Leading (ds : List Char) : Prop := ds = ['0'] ∨ ds.head? ≠ some '0'

/-- An exponent with its sign, or none. -/
inductive ExponentText : List Char → Prop
  | absent : ExponentText []
  | signed {c : Char} {digits : List Char} : c = '+' ∨ c = '-' → Digits digits →
      ExponentText ('e' :: c :: digits)

/-- What a number consists of behind its sign. -/
inductive NumeralText : List Char → Prop
  | whole {digits exponent : List Char} : Digits digits → Leading digits →
      ExponentText exponent → NumeralText (digits ++ exponent)
  | point {digits places exponent : List Char} : Digits digits → Leading digits →
      Digits places → ExponentText exponent → NumeralText (digits ++ '.' :: (places ++ exponent))

variable {ds places tail cs rest : List Char}

theorem Digits.exists_cons (h : Digits ds) : ∃ d more, ds = d :: more ∧ isDigit d = true := by
  obtain ⟨d, more, rfl⟩ := List.exists_cons_of_ne_nil h.1
  exact ⟨d, more, rfl, h.2 d List.mem_cons_self⟩

theorem NumeralText.exists_cons (h : NumeralText cs) :
    ∃ d more, cs = d :: more ∧ isDigit d = true := by
  cases h with
  | whole hds _ _ | point hds _ _ _ =>
    obtain ⟨d, more, rfl, hd⟩ := hds.exists_cons
    exact ⟨d, _, List.cons_append, hd⟩

theorem Leading.ne_zero_cons (h : Leading ds) (second : Char) (more : List Char) :
    ds ≠ '0' :: second :: more := by
  rcases h with rfl | h
  · simp
  · rintro rfl
    exact h rfl

theorem ExponentText.stops (h : ExponentText cs) (hrest : Stops isNumberPart rest) :
    Stops isDigit (cs ++ rest) ∧ (cs ++ rest).head? ≠ some '.' := by
  cases h with
  | absent => exact ⟨stops_isDigit hrest, head?_ne_of_stops hrest (by decide)⟩
  | signed => exact ⟨stops_cons (by decide) _, by simp⟩

/-! ## Reading -/

/-- The reader takes the text from the front of anything that does not go on with a number, and
    finds the same in it. -/
def Settles (read : List Char → Except Fault (JsonNumber × List Char)) (cs : List Char) : Prop :=
  ∃ n? : Option JsonNumber, ∀ rest, Stops isNumberPart rest →
    (read (cs ++ rest)).toOption = n?.map (·, rest)

namespace Numeral

/-- Of digits that are too many for 32 bits the last ones are left over. -/
theorem fittingExponent_digits (h : ∀ c ∈ ds, isDigit c = true) (n : Nat) :
    ∃ size? unused, (∀ c ∈ unused, isDigit c = true) ∧ (size? ≠ none → unused = []) ∧
      ∀ rest, Stops isDigit rest → fittingExponent n (ds ++ rest) = (size?, unused ++ rest) := by
  induction ds generalizing n with
  | nil =>
    refine ⟨some n, [], by simp, fun _ => rfl, fun rest hrest => ?_⟩
    cases rest with
    | nil => rfl
    | cons c rest => simp [fittingExponent, hrest c rfl]
  | cons c ds ih =>
    have hc : isDigit c = true := h c List.mem_cons_self
    have hds : ∀ c ∈ ds, isDigit c = true := fun d hd => h d (List.mem_cons_of_mem c hd)
    by_cases hfits : 10 * n + (c.toNat - '0'.toNat) < 2 ^ 31
    · obtain ⟨size?, unused, hunused, hall, hfit⟩ := ih hds (10 * n + (c.toNat - '0'.toNat))
      refine ⟨size?, unused, hunused, hall, fun rest hrest => ?_⟩
      rw [List.cons_append, fittingExponent, if_pos hc]
      simp only [hfits, ↓reduceIte]
      exact hfit rest hrest
    · refine ⟨none, ds, hds, fun hsome => absurd rfl hsome, fun rest _ => ?_⟩
      rw [List.cons_append, fittingExponent, if_pos hc]
      simp only [hfits, ↓reduceIte]

theorem toOption_settled (x? : Option JsonNumber) (rest : List Char) :
    (match x? with
      | some x => .ok (x, rest)
      | none => .error (.behind .numberOutOfRange rest) :
        Except Fault (JsonNumber × List Char)).toOption = x?.map (·, rest) := by
  cases x? <;> rfl

theorem settles_scaled (h : ExponentText cs) (negative : Bool) (value : Nat) (scale : Int) :
    Settles (scaled negative value scale) cs := by
  cases h with
  | absent =>
    refine ⟨float? negative value scale, fun rest hrest => ?_⟩
    rw [List.nil_append]
    cases rest with
    | nil => exact toOption_settled _ _
    | cons c rest =>
      have hc : ¬ (c = 'e' ∨ c = 'E') := by
        rintro (rfl | rfl) <;> exact absurd (hrest _ rfl) (by decide)
      simp only [scaled, if_neg hc]
      exact toOption_settled _ _
  | @signed c digits hc hdigits =>
    obtain ⟨size?, unused, hunused, hall, hfit⟩ := fittingExponent_digits hdigits.2 0
    have hexponent : ∀ rest, Stops isDigit rest →
        exponent (c :: (digits ++ rest)) = .ok (decide (c = '-'), size?, unused ++ rest) := by
      intro rest hrest
      have hread := hfit rest hrest
      obtain ⟨d, more, rfl, hd⟩ := hdigits.exists_cons
      rw [List.cons_append] at hread ⊢
      rcases hc with rfl | rfl <;> simp [exponent, hd, hread]
    cases size? with
    | some size =>
      obtain rfl : unused = [] := hall (by simp)
      refine ⟨float? negative value (if c = '-' then scale - size else scale + size),
        fun rest hrest => ?_⟩
      simp only [List.cons_append, scaled, true_or, ↓reduceIte,
        hexponent rest (stops_isDigit hrest), bind, Except.bind, List.nil_append, decide_eq_true_eq]
      exact toOption_settled _ _
    | none =>
      refine ⟨if value ≠ 0 ∧ c ≠ '-' then none else some (.float (.ofMagnitude negative 0)),
        fun rest hrest => ?_⟩
      have hdrop : (unused ++ rest).dropWhile isDigit = rest :=
        dropWhile_of_stops hunused (stops_isDigit hrest)
      simp only [List.cons_append, scaled, true_or, ↓reduceIte,
        hexponent rest (stops_isDigit hrest), bind, Except.bind, decide_eq_true_eq, hdrop]
      split <;> rfl

variable {negative : Bool}

theorem read_point (hds : Digits ds) (hleading : Leading ds) (hplaces : Digits places)
    (htail : Stops isDigit tail) : read negative (ds ++ '.' :: (places ++ tail)) =
      scaled negative (takeFitting (takeFitting 0 ds).1 places).1
        ((takeFitting 0 ds).2.length -
          ((places.length : Int) - (takeFitting (takeFitting 0 ds).1 places).2.length)) tail := by
  have hpoint : Stops isDigit ('.' :: (places ++ tail)) := stops_cons (by decide) _
  unfold read
  simp only [takeWhile_of_stops hds.2 hpoint, dropWhile_of_stops hds.2 hpoint]
  split
  · exact absurd rfl hds.1
  · exact absurd rfl hds.1
  · exact absurd rfl (hleading.ne_zero_cons _ _)
  · simp only [takeWhile_of_stops hplaces.2 htail, dropWhile_of_stops hplaces.2 htail]
    split
    · exact absurd rfl hplaces.1
    · exact absurd rfl hplaces.1
    · rfl

theorem read_whole (hds : Digits ds) (hleading : Leading ds) (htail : Stops isDigit tail)
    (hpoint : tail.head? ≠ some '.') : read negative (ds ++ tail) =
      if tail.head? = some 'e' ∨ tail.head? = some 'E' ∨ (takeFitting 0 ds).2 ≠ [] then
        scaled negative (takeFitting 0 ds).1 (takeFitting 0 ds).2.length tail
      else .ok (whole negative (takeFitting 0 ds).1, tail) := by
  unfold read
  simp only [takeWhile_of_stops hds.2 htail, dropWhile_of_stops hds.2 htail]
  split
  · exact absurd rfl hds.1
  · exact absurd rfl hds.1
  · exact absurd rfl (hleading.ne_zero_cons _ _)
  · cases tail with
    | nil =>
      by_cases hextra : (takeFitting 0 ds).2 = []
      · simp [hextra]
      · simp [hextra]
    | cons c tail =>
      have hc : c ≠ '.' := by simpa using hpoint
      by_cases hextra : (takeFitting 0 ds).2 = []
      · simp [hextra]
      · simp [hextra]

theorem settles_read (h : NumeralText cs) (negative : Bool) : Settles (read negative) cs := by
  cases h with
  | @whole digits exponent hdigits hleading hexponent =>
    by_cases htaken : exponent = [] ∧ (takeFitting 0 digits).2 = []
    · obtain ⟨rfl, hextra⟩ := htaken
      refine ⟨some (whole negative (takeFitting 0 digits).1), fun rest hrest => ?_⟩
      obtain ⟨htail, hpoint⟩ := hexponent.stops hrest
      have he := head?_ne_of_stops hrest (c := 'e') (by decide)
      have hE := head?_ne_of_stops hrest (c := 'E') (by decide)
      rw [List.append_assoc, read_whole hdigits hleading htail hpoint, if_neg]
      · rfl
      · simp [hextra, he, hE]
    · obtain ⟨n?, hn⟩ := settles_scaled hexponent negative (takeFitting 0 digits).1
        (takeFitting 0 digits).2.length
      refine ⟨n?, fun rest hrest => ?_⟩
      obtain ⟨htail, hpoint⟩ := hexponent.stops hrest
      rw [List.append_assoc, read_whole hdigits hleading htail hpoint, if_pos]
      · exact hn rest hrest
      · cases hexponent with
        | absent => exact .inr (.inr fun hextra => htaken ⟨rfl, hextra⟩)
        | signed => exact .inl rfl
  | point hdigits hleading hplaces hexponent =>
    obtain ⟨n?, hn⟩ := settles_scaled hexponent negative _ _
    refine ⟨n?, fun rest hrest => ?_⟩
    rw [List.append_assoc, List.cons_append, List.append_assoc,
      read_point hdigits hleading hplaces (hexponent.stops hrest).1]
    exact hn rest hrest

end Numeral

/-! ## Passing over -/

theorem skipDigits_digits (hds : Digits ds) (htail : Stops isDigit tail) :
    Outline.skipDigits (ds ++ tail) = .ok tail := by
  have hdrop := dropWhile_of_stops hds.2 htail
  obtain ⟨d, more, rfl, hd⟩ := hds.exists_cons
  rw [List.cons_append, List.dropWhile_cons, if_pos hd] at hdrop
  rw [List.cons_append, Outline.skipDigits, if_pos hd, hdrop]

theorem skipExponent_text (h : ExponentText cs) (hrest : Stops isNumberPart rest) :
    Outline.skipExponent (cs ++ rest) = .ok rest := by
  cases h with
  | absent =>
    have he := head?_ne_of_stops hrest (c := 'e') (by decide)
    have hE := head?_ne_of_stops hrest (c := 'E') (by decide)
    rw [List.nil_append]
    unfold Outline.skipExponent
    split <;> simp_all
  | signed hc hdigits =>
    have hskip := skipDigits_digits hdigits (stops_isDigit hrest)
    rcases hc with rfl | rfl <;> exact hskip

/-- What is left behind the digits in front of the point. -/
def skipPlaces : List Char → Except Fault (List Char)
  | '.' :: rest => do Outline.skipExponent (← Outline.skipDigits rest)
  | rest => Outline.skipExponent rest

theorem skipNumber_digits {ds tail : List Char} (hds : Digits ds) (hleading : Leading ds)
    (htail : Stops isDigit tail) : Outline.skipNumber (ds ++ tail) = skipPlaces tail := by
  have hskip := skipDigits_digits hds htail
  unfold Outline.skipNumber
  split
  · next c more hcs =>
    rcases hleading with rfl | hzero
    · obtain ⟨-, rfl⟩ := List.cons.inj hcs
      rw [htail c rfl]
      rfl
    · obtain ⟨d, more, rfl, -⟩ := hds.exists_cons
      exact absurd (congrArg some (List.cons.inj hcs).1) hzero
  · rw [hskip]
    rfl

theorem skipNumber_text (h : NumeralText cs) (hrest : Stops isNumberPart rest) :
    Outline.skipNumber (cs ++ rest) = .ok rest := by
  cases h with
  | whole hdigits hleading hexponent =>
    obtain ⟨htail, hpoint⟩ := hexponent.stops hrest
    rw [List.append_assoc, skipNumber_digits hdigits hleading htail]
    unfold skipPlaces
    split
    · next heq => exact absurd (congrArg List.head? heq) hpoint
    · exact skipExponent_text hexponent hrest
  | point hdigits hleading hplaces hexponent =>
    have htail := (hexponent.stops hrest).1
    rw [List.append_assoc, List.cons_append,
      skipNumber_digits hdigits hleading (stops_cons (by decide) _), List.append_assoc, skipPlaces]
    simp only [skipDigits_digits hplaces htail, bind, Except.bind]
    exact skipExponent_text hexponent hrest

/-! ## What is written -/

theorem digits_toDigits (n : Nat) : Digits (Nat.toDigits 10 n) :=
  ⟨Nat.toDigits_ne_nil, Definition.isDigit_of_mem_toDigits⟩

theorem digits_zero : Digits ['0'] :=
  ⟨List.cons_ne_nil _ _, Definition.isDigit_of_mem_zeros (k := 1)⟩

theorem leading_toDigits (n : Nat) : Leading (Nat.toDigits 10 n) := by
  by_cases hn : n = 0
  · rw [hn]
    exact .inl (Nat.toDigits_zero 10)
  · exact .inr (Definition.head?_toDigits hn)

theorem numeralText_toDigits (n : Nat) : NumeralText (Nat.toDigits 10 n) := by
  have h := NumeralText.whole (digits_toDigits n) (leading_toDigits n) .absent
  rwa [List.append_nil] at h

variable {d : Decimal}

/-- A whole number with a zero behind its point. -/
theorem numeralText_zeros (hc : d.coefficient ≠ 0) (he : 0 ≤ d.exponent) :
    NumeralText (d.plain ++ ['.', '0']) := by
  have hplain : d.plain =
      Nat.toDigits 10 d.coefficient ++ List.replicate d.exponent.toNat '0' := by
    rw [Decimal.plain, if_pos he, Definition.digits_eq]
  have hdigits : Digits d.plain := by
    rw [hplain]
    exact ⟨by simp [Nat.toDigits_ne_nil],
      Definition.isDigit_append Definition.isDigit_of_mem_toDigits Definition.isDigit_of_mem_zeros⟩
  have hleading : Leading d.plain := by
    rw [hplain]
    refine .inr ?_
    rw [Definition.head?_append_digits]
    exact Definition.head?_toDigits hc
  exact .point hdigits hleading digits_zero .absent

theorem numeralText_plain (hc : d.coefficient ≠ 0) (he : d.exponent < 0) :
    NumeralText d.plain := by
  obtain ⟨whole, fraction, hplain, hwhole, hlength, hnumeral⟩ :=
    Definition.plain_of_point hc he
  have hdigits := hnumeral.isDigit
  have hne : fraction ≠ [] := by
    rintro rfl
    rw [List.length_nil] at hlength
    omega
  have htext : NumeralText (whole ++ '.' :: (fraction ++ [])) := by
    refine .point ⟨?_, fun c hc => hdigits c (List.mem_append_left _ hc)⟩ ?_
      ⟨hne, fun c hc => hdigits c (List.mem_append_right _ hc)⟩ .absent
    · rcases hwhole with rfl | ⟨hne, -⟩
      · simp
      · exact hne
    · exact hwhole.imp_right And.right
  rwa [hplain, ← List.append_nil fraction]

theorem numeralText_scientific (hc : d.coefficient ≠ 0) : NumeralText d.scientific := by
  have hdigits : Digits d.digits := Definition.digits_eq d ▸ digits_toDigits _
  have hhead : d.digits.head? ≠ some '0' := Definition.digits_eq d ▸ Definition.head?_toDigits hc
  have hexponent : ∀ (down : Prop) [Decidable down] (n : Nat),
      ExponentText ('e' :: (if down then '-' else '+') :: (toString n).toList) := by
    intro down _ n
    have hn : (toString n).toList = Nat.toDigits 10 n := Nat.toList_repr
    rw [hn]
    refine .signed ?_ (digits_toDigits n)
    split <;> simp
  obtain ⟨first, rest, hcons, hfirst⟩ := hdigits.exists_cons
  rw [hcons] at hdigits hhead
  have hone : Digits [first] := ⟨by simp, by simpa using hfirst⟩
  unfold Decimal.scientific
  rw [hcons]
  cases rest with
  | nil => exact .whole hone (.inr hhead) (hexponent _ _)
  | cons second rest =>
    have hplaces : Digits (second :: rest) :=
      ⟨by simp, fun c hc => hdigits.2 c (List.mem_cons_of_mem _ hc)⟩
    exact .point hone (.inr hhead) hplaces (hexponent _ _)

/-- The number is written by the grammar, behind its sign. -/
def Legible (n : JsonNumber) : Prop :=
  ∃ negative cs, numberChars n = Grammar.sign negative ++ cs ∧ NumeralText cs

theorem legible_whole (i : Int) : Legible (.whole i) := by
  rcases Int.lt_or_le i 0 with hneg | hpos
  · obtain ⟨n, rfl⟩ : ∃ n : Nat, i = -(n : Int) := ⟨i.natAbs, by omega⟩
    exact ⟨true, _, Definition.toList_int_neg (by omega), numeralText_toDigits n⟩
  · obtain ⟨n, rfl⟩ : ∃ n : Nat, i = n := ⟨i.natAbs, by omega⟩
    exact ⟨false, _, Definition.toList_int_ofNat n, numeralText_toDigits n⟩

theorem legible_float {x : Binary64} (hx : x.isFinite = true) : Legible (.float x) := by
  obtain ⟨d, hd⟩ : ∃ d, d = x.shortest .toEven := ⟨_, rfl⟩
  obtain ⟨first, hfirst⟩ : ∃ first, first = d.exponent + (d.digits.length - 1 : Nat) := ⟨_, rfl⟩
  have hchars : numberChars (.float x) = Grammar.sign x.isNegative ++
      if first < -5 ∨ 15 < first then d.scientific
      else if 0 ≤ d.exponent then d.plain ++ ['.', '0'] else d.plain := by
    simp only [numberChars, Binary64.serializedText?, hx, Bool.not_true, Bool.false_eq_true,
      ↓reduceIte, Option.getD_some, String.toList_ofList, ← hd, ← hfirst]
    rfl
  refine ⟨x.isNegative, _, hchars, ?_⟩
  by_cases hzero : x.units = 0
  · obtain rfl : d = ⟨0, 0⟩ := hd.trans (if_pos hzero)
    subst hfirst
    exact .point digits_zero (.inl rfl) digits_zero .absent
  · have hshows := hd ▸ Binary64.shows_shortest .toEven hx hzero
    have hc : d.coefficient ≠ 0 := hshows.coefficient_ne_zero
    split
    · exact numeralText_scientific hc
    · split
      · next he => exact numeralText_zeros hc he
      · next he => exact numeralText_plain hc (Int.not_le.mp he)

/-! ## Reading back -/

/-- A number with its sign. -/
def readNumber : List Char → Except Fault (JsonNumber × List Char)
  | '-' :: cs => Numeral.read true cs
  | cs => Numeral.read false cs

/-- Read from what is written of it, the number is the same. -/
def ReadsBack (n : JsonNumber) : Prop := readNumber (numberChars n) = .ok (n, [])

/-- What is read from what is written of the number, unless that is out of range. -/
def reread (n : JsonNumber) : Option JsonNumber :=
  (readNumber (numberChars n)).toOption.map Prod.fst

theorem readNumber_of_digit {c : Char} (h : isDigit c = true) (cs : List Char) :
    readNumber (c :: cs) = Numeral.read false (c :: cs) := by
  rw [readNumber]
  rintro _ heq
  obtain rfl := (List.cons.inj heq).1
  exact absurd h (by decide)

theorem readNumber_sign (h : NumeralText cs) (negative : Bool) :
    readNumber (Grammar.sign negative ++ cs) = Numeral.read negative cs := by
  cases negative with
  | true => rfl
  | false =>
    obtain ⟨d, more, rfl, hd⟩ := h.exists_cons
    exact readNumber_of_digit hd more

/-- In front of what does not go on with a number, its text is read and passed over as a whole. -/
structure Taken (negative : Bool) (cs : List Char) (n? : Option JsonNumber) : Prop where
  numeral : ∀ rest, Stops isNumberPart rest → Outline.numeral negative (cs ++ rest) = .ok (n?, rest)
  skipNumber : ∀ rest, Stops isNumberPart rest → Outline.skipNumber (cs ++ rest) = .ok rest

theorem exists_taken (h : NumeralText cs) (negative : Bool) : ∃ n?, Taken negative cs n? ∧
    (Numeral.read negative cs).toOption = n?.map (·, []) := by
  obtain ⟨n?, hn⟩ := Numeral.settles_read h negative
  refine ⟨n?, ⟨fun rest hrest => ?_, fun rest => skipNumber_text h⟩, ?_⟩
  · have hread := hn rest hrest
    have hskip := skipNumber_text h hrest
    unfold Outline.numeral
    cases hresult : Numeral.read negative (cs ++ rest) with
    | ok r =>
      rw [hresult] at hread
      obtain ⟨n, rfl, hr⟩ := Option.map_eq_some_iff.mp hread.symm
      rw [← hr]
    | error f =>
      rw [hresult] at hread
      obtain rfl := Option.map_eq_none_iff.mp hread.symm
      dsimp only
      rw [hskip]
      rfl
  · have hread := hn [] (stops_nil _)
    rwa [List.append_nil] at hread

namespace Numeral

theorem le_foldl_digits (ds : List Char) (value : Nat) :
    value ≤ ds.foldl (fun n c => 10 * n + (c.toNat - '0'.toNat)) value := by
  induction ds generalizing value with
  | nil => exact Nat.le_refl value
  | cons c ds ih =>
    have hc := ih (10 * value + (c.toNat - '0'.toNat))
    rw [List.foldl_cons]
    omega

theorem takeFitting_eq {ds : List Char} {value : Nat}
    (h : ds.foldl (fun n c => 10 * n + (c.toNat - '0'.toNat)) value ≤ wordLimit) :
    takeFitting value ds = (ds.foldl (fun n c => 10 * n + (c.toNat - '0'.toNat)) value, []) := by
  induction ds generalizing value with
  | nil => rfl
  | cons c ds ih =>
    rw [List.foldl_cons] at h
    have hfits : 10 * value + (c.toNat - '0'.toNat) ≤ wordLimit :=
      Nat.le_trans (le_foldl_digits ds _) h
    rw [takeFitting, if_pos hfits, ih h, List.foldl_cons]

theorem read_toDigits (negative : Bool) {n : Nat} (h : n ≤ wordLimit) :
    read negative (Nat.toDigits 10 n) = .ok (whole negative n, []) := by
  have hvalue := Definition.digitsValue_toDigits n
  have hfit : takeFitting 0 (Nat.toDigits 10 n) = (n, []) := by
    have hfold : takeFitting 0 (Nat.toDigits 10 n) = (Definition.Parser.digitsValue _, []) :=
      takeFitting_eq (Nat.le_trans (Nat.le_of_eq hvalue) h)
    rw [hfold, hvalue]
  have hread : read negative (Nat.toDigits 10 n ++ []) = _ :=
    read_whole (digits_toDigits n) (leading_toDigits n) (stops_nil _) (by simp)
  rw [List.append_nil] at hread
  rw [hread, hfit, if_neg (by simp)]

end Numeral

theorem readsBack_whole {i : Int} (hlow : -2 ^ 63 ≤ i) (hhigh : i < 2 ^ 64) :
    ReadsBack (.whole i) := by
  have hlimit : Numeral.wordLimit = 2 ^ 64 - 1 := rfl
  unfold ReadsBack
  rcases Int.lt_or_le i 0 with hneg | hpos
  · obtain ⟨n, rfl⟩ : ∃ n : Nat, i = -(n : Int) := ⟨i.natAbs, by omega⟩
    have hn : ¬ (n = 0 ∨ 2 ^ 63 < n) := by omega
    rw [numberChars, Definition.toList_int_neg (by omega), readNumber,
      Numeral.read_toDigits true (by omega), Numeral.whole, if_pos rfl, if_neg hn]
  · obtain ⟨n, rfl⟩ : ∃ n : Nat, i = n := ⟨i.natAbs, by omega⟩
    have hread := readNumber_sign (numeralText_toDigits n) false
    rw [Numeral.read_toDigits false (by omega)] at hread
    rw [numberChars, Definition.toList_int_ofNat]
    exact hread

variable {n : JsonNumber}

theorem Legible.read (h : Legible n) : (readNumber (numberChars n)).toOption =
    (reread n).map (·, []) := by
  obtain ⟨negative, cs, hchars, htext⟩ := h
  obtain ⟨n?, -, hread⟩ := exists_taken htext negative
  rw [reread, hchars, readNumber_sign htext, hread]
  cases n? <;> rfl

theorem Legible.readsBack_iff (h : Legible n) : ReadsBack n ↔ reread n = some n := by
  have hread := h.read
  constructor
  · intro hn
    rw [reread, show readNumber (numberChars n) = .ok (n, []) from hn]
    rfl
  · intro hn
    rw [hn] at hread
    unfold ReadsBack
    cases hresult : readNumber (numberChars n) with
    | ok r =>
      rw [hresult] at hread
      exact congrArg Except.ok (Option.some.inj hread)
    | error f =>
      rw [hresult] at hread
      exact nomatch hread

/-- The text starts with the sign, or with a digit if there is none. -/
theorem Legible.cases (h : Legible n) :
    (∃ cs, numberChars n = '-' :: cs ∧ Taken true cs (reread n)) ∨
      ∃ c cs, numberChars n = c :: cs ∧ isDigit c = true ∧ Taken false (c :: cs) (reread n) := by
  have hn := h.read
  obtain ⟨negative, cs, hchars, htext⟩ := h
  obtain ⟨n?, htaken, hread⟩ := exists_taken htext negative
  rw [hchars, readNumber_sign htext, hread] at hn
  obtain rfl : n? = reread n := by
    cases n? <;> cases hr : reread n <;> simp_all
  cases negative with
  | true => exact .inl ⟨cs, hchars, htaken⟩
  | false =>
    obtain ⟨c, more, rfl, hc⟩ := htext.exists_cons
    exact .inr ⟨c, more, hchars, hc, htaken⟩

end CompactSchema.Json
