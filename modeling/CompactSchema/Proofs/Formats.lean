import CompactSchema.Proofs.Shapes

set_option autoImplicit false

/-!
# Dates and times read by a library

A text is checked against the shape of a format, read in the format, and printed in it again to
see that nothing was lost. With any library that reads and prints what it should, these checks
accept the texts of the calendar and no others.
-/

namespace CompactSchema.Calendar

/-! ## Formats -/

/-- A clock time that can be read, with leap seconds. -/
structure Clock.Readable (c : Clock) : Prop where
  hour : c.hour ≤ 23
  minute : c.minute ≤ 59
  second : c.second ≤ 60

/-- The offset as it is printed, where no time is behind by nothing. -/
def Offset.normal (z : Offset) : Offset :=
  { z with behind := z.behind && !(z.hour = 0 && z.minute = 0) }

instance : DecidablePred Day.Real := fun d => decidable_of_iff _ d.isDay_iff

instance : DecidablePred Clock.Readable := fun c =>
  decidable_of_iff (c.hour ≤ 23 ∧ c.minute ≤ 59 ∧ c.second ≤ 60)
    ⟨fun h => ⟨h.1, h.2.1, h.2.2⟩, fun h => ⟨h.hour, h.minute, h.second⟩⟩

instance : DecidablePred Offset.Real := fun z => decidable_of_iff _ z.isClock_iff

/-- A format with the texts of its shape. Of the things that have a text only some can be read,
and not for all of them the same text is printed. -/
structure Format (ι : Type) where
  directives : String
  shape : String
  Fits : ι → Prop
  text : ι → List Char
  Readable : ι → Prop
  [decidableReadable : DecidablePred Readable]
  LeapSecond : ι → Prop
  printed : ι → List Char
  hasShape_iff_text : ∀ s, hasShape s shape = true ↔ ∃ x, Fits x ∧ s.toList = text x

def dateFormat : Format Day where
  directives := "%Y-%m-%d"
  shape := "9999-99-99"
  Fits := Day.Fits
  text := Day.text
  Readable := Day.Real
  LeapSecond _ := False
  printed := Day.text
  hasShape_iff_text s := (hasShape_iff (by decide) s).trans (shaped_date s.toList)

def timeFormat : Format Clock where
  directives := "%H:%M:%S"
  shape := "99:99:99"
  Fits := Clock.Fits
  text := Clock.text
  Readable := Clock.Readable
  LeapSecond c := c.second = 60
  printed := Clock.text
  hasShape_iff_text s := (hasShape_iff (by decide) s).trans (shaped_time s.toList)

/-- The text of a day and a clock time with something between them and something behind them. -/
def momentText (separator : Char) (zone : List Char) (d : Day) (c : Clock) : List Char :=
  d.text ++ separator :: (c.text ++ zone)

theorem shaped_moment {separator : Char} (hnine : separator ≠ '9') (hplus : separator ≠ '+')
    (zone cs : List Char) :
    Shaped (dateShape ++ separator :: (timeShape ++ zone)) cs ↔
      ∃ (d : Day) (c : Clock) (rest : List Char), d.Fits ∧ c.Fits ∧ Shaped zone rest ∧
        cs = momentText separator rest d c := by
  simp only [shaped_append, shaped_cons hnine hplus, shaped_date, shaped_time]
  constructor
  · rintro ⟨_, _, ⟨d, hd, rfl⟩, ⟨_, ⟨_, rest, ⟨c, hc, rfl⟩, hrest, rfl⟩, rfl⟩, rfl⟩
    exact ⟨d, c, rest, hd, hc, hrest, rfl⟩
  · rintro ⟨d, c, rest, hd, hc, hrest, rfl⟩
    exact ⟨d.text, _, ⟨d, hd, rfl⟩, ⟨_, ⟨c.text, rest, ⟨c, hc, rfl⟩, hrest, rfl⟩, rfl⟩, rfl⟩

theorem shaped_moment_exact {separator : Char} (hnine : separator ≠ '9') (hplus : separator ≠ '+')
    {zone : List Char} (hzone : ∀ rest, Shaped zone rest ↔ rest = zone) (cs : List Char) :
    Shaped (dateShape ++ separator :: (timeShape ++ zone)) cs ↔
      ∃ x : Day × Clock, (x.1.Fits ∧ x.2.Fits) ∧ cs = momentText separator zone x.1 x.2 := by
  rw [shaped_moment hnine hplus]
  simp only [hzone]
  constructor
  · rintro ⟨d, c, _, hd, hc, rfl, rfl⟩
    exact ⟨(d, c), ⟨hd, hc⟩, rfl⟩
  · rintro ⟨⟨d, c⟩, ⟨hd, hc⟩, rfl⟩
    exact ⟨d, c, zone, hd, hc, rfl, rfl⟩

/-- A format of a day and a clock time that says the same of the zone for all of them. -/
def plainFormat (directives shape : String) (separator : Char) (zone : List Char)
    (hshape : ∀ s, hasShape s shape = true ↔
      ∃ x : Day × Clock, (x.1.Fits ∧ x.2.Fits) ∧ s.toList = momentText separator zone x.1 x.2) :
    Format (Day × Clock) where
  directives := directives
  shape := shape
  Fits x := x.1.Fits ∧ x.2.Fits
  text x := momentText separator zone x.1 x.2
  Readable x := x.1.Real ∧ x.2.Readable
  LeapSecond x := x.2.second = 60
  printed x := momentText separator zone x.1 x.2
  hasShape_iff_text := hshape

def spacedFormat : Format (Day × Clock) :=
  plainFormat "%Y-%m-%d %H:%M:%S" "9999-99-99 99:99:99" ' ' [] fun s =>
    (hasShape_iff (by decide) s).trans
      (shaped_moment_exact (by decide) (by decide) (fun _ => List.forall₂_nil_left_iff) s.toList)

theorem shaped_utc (rest : List Char) : Shaped ['Z'] rest ↔ rest = ['Z'] := by
  rw [shaped_cons (by decide) (by decide)]
  constructor
  · rintro ⟨_, hrest, rfl⟩
    rw [List.forall₂_nil_left_iff.mp hrest]
  · rintro rfl
    exact ⟨[], List.forall₂_nil_left_iff.mpr rfl, rfl⟩

def utcFormat : Format (Day × Clock) :=
  plainFormat "%Y-%m-%dT%H:%M:%SZ" "9999-99-99T99:99:99Z" 'T' ['Z'] fun s =>
    (hasShape_iff (by decide) s).trans
      (shaped_moment_exact (by decide) (by decide) shaped_utc s.toList)

theorem shaped_zoned (cs : List Char) :
    Shaped (dateShape ++ 'T' :: (timeShape ++ offsetShape)) cs ↔
      ∃ x : Day × Clock × Offset, (x.1.Fits ∧ x.2.1.Fits ∧ x.2.2.Fits) ∧
        cs = momentText 'T' x.2.2.text x.1 x.2.1 := by
  rw [shaped_moment (by decide) (by decide)]
  simp only [shaped_offset]
  constructor
  · rintro ⟨d, c, _, hd, hc, ⟨z, hz, rfl⟩, rfl⟩
    exact ⟨(d, c, z), ⟨hd, hc, hz⟩, rfl⟩
  · rintro ⟨⟨d, c, z⟩, ⟨hd, hc, hz⟩, rfl⟩
    exact ⟨d, c, z.text, hd, hc, ⟨z, hz, rfl⟩, rfl⟩

def zonedFormat : Format (Day × Clock × Offset) where
  directives := "%Y-%m-%dT%H:%M:%S%:z"
  shape := "9999-99-99T99:99:99+99:99"
  Fits x := x.1.Fits ∧ x.2.1.Fits ∧ x.2.2.Fits
  text x := momentText 'T' x.2.2.text x.1 x.2.1
  Readable x := x.1.Real ∧ x.2.1.Readable ∧ x.2.2.Real
  LeapSecond x := x.2.1.second = 60
  printed x := momentText 'T' x.2.2.normal.text x.1 x.2.1
  hasShape_iff_text s := (hasShape_iff (by decide) s).trans (shaped_zoned s.toList)

/-! ## The library -/

/-- Values that are read and printed in a format that is given by its directives. -/
structure Values where
  Value : Type
  read? : String → String → Option Value
  print : String → Value → String

structure ClockValues extends Values where
  nanosecond : Value → Nat

/-- The library's days, clock times, days with clock times, and those with an offset. -/
structure Library where
  date : Values
  time : ClockValues
  moment : ClockValues
  zoned : ClockValues

/-- Second 60 is represented as a second with too many nanoseconds. -/
def ClockValues.isLeapSecond (k : ClockValues) (v : k.Value) : Bool := 1000000000 ≤ k.nanosecond v

def ClockValues.accepts {ι : Type} (k : ClockValues) (f : Format ι) (s : String) : Bool :=
  hasShape s f.shape &&
    (k.read? f.directives s).any fun v => !k.isLeapSecond v && k.print f.directives v = s

namespace Library

def isDate (l : Library) (s : String) : Bool :=
  hasShape s dateFormat.shape &&
    (l.date.read? dateFormat.directives s).any fun d => l.date.print dateFormat.directives d = s

def isTime (l : Library) (s : String) : Bool := l.time.accepts timeFormat s

def isMoment (l : Library) (s : String) : Bool :=
  l.moment.accepts spacedFormat s || l.moment.accepts utcFormat s || l.zoned.accepts zonedFormat s

end Library

/-- Texts are read in the format exactly if they can be, and what was read is printed as the format
says. -/
structure Format.KeptBy {ι : Type} (f : Format ι) (k : Values) (isLeapSecond : k.Value → Bool) :
    Prop where
  reads : ∀ x, f.Fits x → f.Readable x →
    ∃ v, k.read? f.directives (String.ofList (f.text x)) = some v ∧
      k.print f.directives v = String.ofList (f.printed x) ∧
        (isLeapSecond v = true ↔ f.LeapSecond x)
  refuses : ∀ x, f.Fits x → ¬ f.Readable x →
    k.read? f.directives (String.ofList (f.text x)) = none

/-- The library keeps to its documentation in the five formats. -/
structure Library.Documented (l : Library) : Prop where
  date : dateFormat.KeptBy l.date fun _ => false
  time : timeFormat.KeptBy l.time.toValues l.time.isLeapSecond
  spaced : spacedFormat.KeptBy l.moment.toValues l.moment.isLeapSecond
  utc : utcFormat.KeptBy l.moment.toValues l.moment.isLeapSecond
  zoned : zonedFormat.KeptBy l.zoned.toValues l.zoned.isLeapSecond

/-- What is accepted in a format: a text of something that can be read, is no leap second and is
printed as it was written. -/
def Format.Accepted {ι : Type} (f : Format ι) (s : String) : Prop :=
  ∃ x, f.Fits x ∧ f.Readable x ∧ ¬ f.LeapSecond x ∧ f.printed x = f.text x ∧ s.toList = f.text x

section Accepted

variable {ι : Type} {f : Format ι}

theorem Format.KeptBy.accepts_iff {k : Values} {isLeapSecond : k.Value → Bool}
    (h : f.KeptBy k isLeapSecond) (s : String) :
    (hasShape s f.shape && (k.read? f.directives s).any fun v =>
      !isLeapSecond v && k.print f.directives v = s) = true ↔ f.Accepted s := by
  simp only [Bool.and_eq_true, f.hasShape_iff_text, Option.any_eq_true, Bool.not_eq_true',
    decide_eq_true_eq]
  constructor
  · rintro ⟨⟨x, hfits, hs⟩, v, hread, hleap, hprint⟩
    obtain rfl : s = String.ofList (f.text x) := by rw [← hs, String.ofList_toList]
    have hreadable : f.Readable x := by
      by_contra hnot
      rw [h.refuses x hfits hnot] at hread
      exact absurd hread nofun
    obtain ⟨v', hread', hprint', hleap'⟩ := h.reads x hfits hreadable
    obtain rfl : v = v' := Option.some.inj (hread.symm.trans hread')
    refine ⟨x, hfits, hreadable, ?_, ?_, hs⟩
    · rw [← hleap', hleap]
      exact Bool.false_ne_true
    · exact String.ofList_injective (hprint'.symm.trans hprint)
  · rintro ⟨x, hfits, hreadable, hleap, hprinted, hs⟩
    obtain rfl : s = String.ofList (f.text x) := by rw [← hs, String.ofList_toList]
    obtain ⟨v, hread, hprint, hleap'⟩ := h.reads x hfits hreadable
    refine ⟨⟨x, hfits, hs⟩, v, hread, ?_, ?_⟩
    · exact Bool.eq_false_iff.mpr fun htrue => hleap (hleap'.mp htrue)
    · rw [hprint, hprinted]

end Accepted

/-! ## The calendar -/

theorem Clock.real_iff (c : Clock) : c.Real ↔ c.Readable ∧ ¬ c.second = 60 := by
  constructor
  · intro h
    have hsecond := h.second
    exact ⟨⟨h.hour, h.minute, by omega⟩, by omega⟩
  · rintro ⟨h, hsixty⟩
    have hsecond := h.second
    exact ⟨h.hour, h.minute, by omega⟩

/-- Nothing is lost by printing, save for `-00:00`. -/
theorem Offset.text_normal (z : Offset) : z.normal.text = z.text ↔ ¬ z.NegativeZero := by
  by_cases h : z.NegativeZero
  · obtain ⟨behind, hour, minute⟩ := z
    obtain ⟨rfl, rfl, rfl⟩ := h
    exact iff_of_false (by decide) (not_not.mpr ⟨rfl, rfl, rfl⟩)
  · have hkept : (z.behind && !(z.hour = 0 && z.minute = 0)) = z.behind := by
      cases hbehind : z.behind with
      | false => rfl
      | true =>
        have hzero : ¬ (z.hour = 0 ∧ z.minute = 0) := fun hzero => h ⟨hbehind, hzero⟩
        simpa using Decidable.not_and_iff_or_not.mp hzero
    rw [normal, hkept]
    exact iff_of_true rfl h

theorem dateFormat_accepted (s : String) : dateFormat.Accepted s ↔ isDate s = true := by
  apply Iff.trans _ (Day.dateChars_iff s.toList).symm
  constructor
  · rintro ⟨d, hfits, hreal, -, -, hs⟩
    exact ⟨d, hfits, hreal, hs⟩
  · rintro ⟨d, hfits, hreal, hs⟩
    exact ⟨d, hfits, hreal, not_false, rfl, hs⟩

theorem timeFormat_accepted (s : String) : timeFormat.Accepted s ↔ isTime s = true := by
  apply Iff.trans _ (Clock.timeChars_iff s.toList).symm
  constructor
  · rintro ⟨c, -, hreadable, hsixty, -, hs⟩
    exact ⟨c, c.real_iff.mpr ⟨hreadable, hsixty⟩, hs⟩
  · rintro ⟨c, hreal, hs⟩
    obtain ⟨hreadable, hsixty⟩ := c.real_iff.mp hreal
    exact ⟨c, hreal.fits, hreadable, hsixty, rfl, hs⟩

/-- The text of a real day and a real time, joined with a separator and a zone. -/
def WrittenWith (separator : Char) (zone : List Char) (s : String) : Prop :=
  ∃ (d : Day) (c : Clock), d.Fits ∧ d.Real ∧ c.Real ∧ s.toList = momentText separator zone d c

theorem plainFormat_accepted {directives shape : String} {separator : Char} {zone : List Char}
    {hshape} (s : String) :
    (plainFormat directives shape separator zone hshape).Accepted s ↔
      WrittenWith separator zone s := by
  constructor
  · rintro ⟨⟨d, c⟩, ⟨hfits, -⟩, ⟨hreal, hreadable⟩, hsixty, -, hs⟩
    exact ⟨d, c, hfits, hreal, c.real_iff.mpr ⟨hreadable, hsixty⟩, hs⟩
  · rintro ⟨d, c, hfits, hreal, hclock, hs⟩
    obtain ⟨hreadable, hsixty⟩ := c.real_iff.mp hclock
    exact ⟨(d, c), ⟨hfits, hclock.fits⟩, ⟨hreal, hreadable⟩, hsixty, rfl, hs⟩

theorem zonedFormat_accepted (s : String) :
    zonedFormat.Accepted s ↔
      ∃ z : Offset, z.Real ∧ ¬ z.NegativeZero ∧ WrittenWith 'T' z.text s := by
  have hprinted (d : Day) (c : Clock) (z : Offset) :
      momentText 'T' z.normal.text d c = momentText 'T' z.text d c ↔ ¬ z.NegativeZero := by
    rw [← z.text_normal, momentText, momentText, List.append_cancel_left_eq, List.cons.injEq,
      List.append_cancel_left_eq, and_iff_right rfl]
  constructor
  · rintro ⟨⟨d, c, z⟩, ⟨hfits, -, -⟩, ⟨hreal, hreadable, hz⟩, hsixty, hsame, hs⟩
    exact ⟨z, hz, (hprinted d c z).mp hsame, d, c, hfits, hreal,
      c.real_iff.mpr ⟨hreadable, hsixty⟩, hs⟩
  · rintro ⟨z, hz, hzero, d, c, hfits, hreal, hclock, hs⟩
    obtain ⟨hreadable, hsixty⟩ := c.real_iff.mp hclock
    exact ⟨(d, c, z), ⟨hfits, hclock.fits, hz.fits⟩, ⟨hreal, hreadable, hz⟩, hsixty,
      (hprinted d c z).mpr hzero, hs⟩

theorem isMoment_iff (s : String) :
    isMoment s = true ↔ WrittenWith ' ' [] s ∨ WrittenWith 'T' ['Z'] s ∨
      ∃ z : Offset, z.Real ∧ ¬ z.NegativeZero ∧ WrittenWith 'T' z.text s := by
  rw [isMoment, momentChars_iff]
  constructor
  · rintro ⟨ds, ts, separator, zone, hds, hts, hjoined, hs⟩
    obtain ⟨d, hfits, hreal, rfl⟩ := (Day.dateChars_iff ds).mp hds
    obtain ⟨c, hclock, rfl⟩ := (Clock.timeChars_iff ts).mp hts
    have hwritten : WrittenWith separator zone s := ⟨d, c, hfits, hreal, hclock, hs⟩
    cases hjoined with
    | spaced => exact .inl hwritten
    | utc => exact .inr (.inl hwritten)
    | zoned hoffset =>
      obtain ⟨z, hz, hzero, rfl⟩ := (Offset.offsetChars_iff zone).mp hoffset
      exact .inr (.inr ⟨z, hz, hzero, hwritten⟩)
  · have hjoin {separator : Char} {zone : List Char} (hjoined : Joined separator zone)
        (h : WrittenWith separator zone s) :
        ∃ ds ts separator zone, dateChars ds = true ∧ timeChars ts = true ∧
          Joined separator zone ∧ s.toList = ds ++ separator :: (ts ++ zone) := by
      obtain ⟨d, c, hfits, hreal, hclock, hs⟩ := h
      exact ⟨d.text, c.text, separator, zone, (Day.dateChars_iff _).mpr ⟨d, hfits, hreal, rfl⟩,
        (Clock.timeChars_iff _).mpr ⟨c, hclock, rfl⟩, hjoined, hs⟩
    rintro (h | h | ⟨z, hz, hzero, h⟩)
    · exact hjoin .spaced h
    · exact hjoin .utc h
    · exact hjoin (.zoned ((Offset.offsetChars_iff _).mpr ⟨z, hz, hzero, rfl⟩)) h

namespace Library

variable {l : Library}

theorem isDate_eq (h : l.Documented) (s : String) : l.isDate s = Calendar.isDate s := by
  rw [Bool.eq_iff_iff, ← dateFormat_accepted, ← h.date.accepts_iff s]
  simp only [Bool.not_false, Bool.true_and]
  rfl

theorem isTime_eq (h : l.Documented) (s : String) : l.isTime s = Calendar.isTime s := by
  rw [Bool.eq_iff_iff, ← timeFormat_accepted]
  exact h.time.accepts_iff s

theorem isMoment_eq (h : l.Documented) (s : String) : l.isMoment s = Calendar.isMoment s := by
  have hspaced : l.moment.accepts spacedFormat s = true ↔ WrittenWith ' ' [] s :=
    (h.spaced.accepts_iff s).trans (plainFormat_accepted s)
  have hutc : l.moment.accepts utcFormat s = true ↔ WrittenWith 'T' ['Z'] s :=
    (h.utc.accepts_iff s).trans (plainFormat_accepted s)
  have hzoned := (h.zoned.accepts_iff s).trans (zonedFormat_accepted s)
  rw [Bool.eq_iff_iff, isMoment_iff, isMoment, Bool.or_eq_true, Bool.or_eq_true, hspaced, hutc,
    or_assoc]
  exact or_congr_right (or_congr_right hzoned)

end Library

theorem writtenWith_iff {separator : Char} {zone : List Char} (between behind s : String)
    (hbetween : between.toList = [separator]) (hbehind : behind.toList = zone) :
    WrittenWith separator zone s ↔
      ∃ d t : String, isDate d = true ∧ isTime t = true ∧ s = d ++ between ++ t ++ behind := by
  have htext (ds ts : List Char) :
      s.toList = ds ++ separator :: (ts ++ zone) ↔
        s = String.ofList ds ++ between ++ String.ofList ts ++ behind := by
    rw [← String.toList_inj, String.toList_append, String.toList_append, String.toList_append,
      String.toList_ofList, String.toList_ofList, hbetween, hbehind, List.append_assoc,
      List.append_assoc, List.singleton_append]
  constructor
  · rintro ⟨d, c, hfits, hreal, hclock, hs⟩
    refine ⟨String.ofList d.text, String.ofList c.text, ?_, ?_, (htext d.text c.text).mp hs⟩
    · rw [isDate, String.toList_ofList]
      exact (Day.dateChars_iff d.text).mpr ⟨d, hfits, hreal, rfl⟩
    · rw [isTime, String.toList_ofList]
      exact (Clock.timeChars_iff c.text).mpr ⟨c, hclock, rfl⟩
  · rintro ⟨d, t, hd, ht, hs⟩
    obtain ⟨day, hfits, hreal, hday⟩ := (Day.dateChars_iff d.toList).mp hd
    obtain ⟨clock, hclock, htime⟩ := (Clock.timeChars_iff t.toList).mp ht
    refine ⟨day, clock, hfits, hreal, hclock, ?_⟩
    rw [momentText, ← hday, ← htime, htext, String.ofList_toList, String.ofList_toList]
    exact hs

theorem isMoment_iff_joined (s : String) :
    isMoment s = true ↔ ∃ d t : String, isDate d = true ∧ isTime t = true ∧
      (s = d ++ " " ++ t ∨ s = d ++ "T" ++ t ++ "Z" ∨
        ∃ z : Offset, z.Real ∧ ¬ z.NegativeZero ∧ s = d ++ "T" ++ t ++ String.ofList z.text) := by
  have hspaced : WrittenWith ' ' [] s ↔
      ∃ d t : String, isDate d = true ∧ isTime t = true ∧ s = d ++ " " ++ t := by
    have h := writtenWith_iff " " "" s (rfl : _ = [' ']) rfl
    simp only [String.append_empty] at h
    exact h
  have hutc : WrittenWith 'T' ['Z'] s ↔
      ∃ d t : String, isDate d = true ∧ isTime t = true ∧ s = d ++ "T" ++ t ++ "Z" :=
    writtenWith_iff "T" "Z" s rfl rfl
  have hzoned (z : Offset) : WrittenWith 'T' z.text s ↔ ∃ d t : String,
      isDate d = true ∧ isTime t = true ∧ s = d ++ "T" ++ t ++ String.ofList z.text :=
    writtenWith_iff "T" (String.ofList z.text) s rfl String.toList_ofList
  rw [isMoment_iff, hspaced, hutc]
  simp only [hzoned]
  constructor
  · rintro (⟨d, t, hd, ht, hs⟩ | ⟨d, t, hd, ht, hs⟩ | ⟨z, hz, hzero, d, t, hd, ht, hs⟩)
    · exact ⟨d, t, hd, ht, .inl hs⟩
    · exact ⟨d, t, hd, ht, .inr (.inl hs)⟩
    · exact ⟨d, t, hd, ht, .inr (.inr ⟨z, hz, hzero, hs⟩)⟩
  · rintro ⟨d, t, hd, ht, hs | hs | ⟨z, hz, hzero, hs⟩⟩
    · exact .inl ⟨d, t, hd, ht, hs⟩
    · exact .inr (.inl ⟨d, t, hd, ht, hs⟩)
    · exact .inr (.inr ⟨z, hz, hzero, d, t, hd, ht, hs⟩)

/-- A date is accepted exactly if it is the text of a day of the calendar, a time if it is the text
of a time of day, and a moment if it is put together from accepted ones with a space, with `T` and
`Z`, or with `T` and an offset that is not `-00:00`. Checking through a library comes to the
same. -/
theorem accepted_iff_written (s : String) :
    (isDate s = true ↔ ∃ d : Day, d.Fits ∧ d.Real ∧ s.toList = d.text) ∧
    (isTime s = true ↔ ∃ c : Clock, c.Real ∧ s.toList = c.text) ∧
    (isMoment s = true ↔ ∃ d t : String, isDate d = true ∧ isTime t = true ∧
      (s = d ++ " " ++ t ∨ s = d ++ "T" ++ t ++ "Z" ∨
        ∃ z : Offset, z.Real ∧ ¬ z.NegativeZero ∧ s = d ++ "T" ++ t ++ String.ofList z.text)) ∧
    ∀ l : Library, l.Documented →
      l.isDate s = isDate s ∧ l.isTime s = isTime s ∧ l.isMoment s = isMoment s := by
  refine ⟨Day.dateChars_iff s.toList, Clock.timeChars_iff s.toList, isMoment_iff_joined s, ?_⟩
  intro l h
  exact ⟨Library.isDate_eq h s, Library.isTime_eq h s, Library.isMoment_eq h s⟩

/-! ### A library that keeps to its documentation -/

/-- The number that some digits write. -/
def valueOf (ds : List Char) : Nat := ds.foldl (fun n c => 10 * n + (c.toNat - '0'.toNat)) 0

theorem valueOf_padded (places : Nat) {n : Nat} (h : n < 10 ^ places) :
    valueOf (padded places n) = n := by
  unfold valueOf
  induction places generalizing n with
  | zero =>
    rw [Nat.pow_zero, Nat.lt_one_iff] at h
    exact h.symm
  | succ places ih =>
    have hfront : n / 10 < 10 ^ places := by
      rw [Nat.pow_succ] at h
      omega
    rw [padded, List.foldl_append, ih hfront, List.foldl_cons, List.foldl_nil,
      toNat_digitChar_mod]
    omega

def Day.read (cs : List Char) : Day where
  year := valueOf (cs.take 4)
  month := valueOf ((cs.drop 5).take 2)
  day := valueOf ((cs.drop 8).take 2)

theorem Day.read_text {d : Day} (h : d.Fits) (rest : List Char) :
    Day.read (d.text ++ rest) = d := by
  have hyear : valueOf ((d.text ++ rest).take 4) = d.year := valueOf_padded 4 h.year
  have hmonth : valueOf (((d.text ++ rest).drop 5).take 2) = d.month := valueOf_padded 2 h.month
  have hday : valueOf (((d.text ++ rest).drop 8).take 2) = d.day := valueOf_padded 2 h.day
  rw [Day.read, hyear, hmonth, hday]

def Clock.read (cs : List Char) : Clock where
  hour := valueOf (cs.take 2)
  minute := valueOf ((cs.drop 3).take 2)
  second := valueOf ((cs.drop 6).take 2)

theorem Clock.read_text {c : Clock} (h : c.Fits) (rest : List Char) :
    Clock.read (c.text ++ rest) = c := by
  have hhour : valueOf ((c.text ++ rest).take 2) = c.hour := valueOf_padded 2 h.hour
  have hminute : valueOf (((c.text ++ rest).drop 3).take 2) = c.minute := valueOf_padded 2 h.minute
  have hsecond : valueOf (((c.text ++ rest).drop 6).take 2) = c.second := valueOf_padded 2 h.second
  rw [Clock.read, hhour, hminute, hsecond]

def Offset.read (cs : List Char) : Offset where
  behind := cs.head? = some '-'
  hour := valueOf ((cs.drop 1).take 2)
  minute := valueOf ((cs.drop 4).take 2)

theorem Offset.read_text {z : Offset} (h : z.Fits) : Offset.read z.text = z := by
  have hbehind : decide (z.text.head? = some '-') = z.behind := by
    rw [text, List.head?_cons, sign]
    cases z.behind <;> rfl
  have hhour : valueOf ((z.text.drop 1).take 2) = z.hour := valueOf_padded 2 h.hour
  have hminute : valueOf ((z.text.drop 4).take 2) = z.minute := valueOf_padded 2 h.minute
  rw [Offset.read, hbehind, hhour, hminute]

section Reading

attribute [local instance] Format.decidableReadable

/-- Takes a text apart and refuses what cannot be read. -/
def Format.read? {ι : Type} (f : Format ι) (take : List Char → ι) (s : String) : Option ι :=
  if f.Readable (take s.toList) then some (take s.toList) else none

variable {ι : Type} {f : Format ι} {take : List Char → ι} {reader : String → String → Option ι}
variable {printer : String → ι → String} {isLeapSecond : ι → Bool}

theorem Format.keptBy (htake : ∀ x, f.Fits x → take (f.text x) = x)
    (hread : reader f.directives = f.read? take)
    (hprint : ∀ x, printer f.directives x = String.ofList (f.printed x))
    (hleap : ∀ x, isLeapSecond x = true ↔ f.LeapSecond x) :
    f.KeptBy ⟨ι, reader, printer⟩ isLeapSecond where
  reads := by
    intro x hfits hreadable
    refine ⟨x, ?_, hprint x, hleap x⟩
    change reader f.directives (String.ofList (f.text x)) = some x
    rw [hread, Format.read?, String.toList_ofList, htake x hfits, if_pos hreadable]
  refuses := by
    intro x hfits hnot
    change reader f.directives (String.ofList (f.text x)) = none
    rw [hread, Format.read?, String.toList_ofList, htake x hfits, if_neg hnot]

end Reading

def nanosecondOf (c : Clock) : Nat := if c.second = 60 then 1000000000 else 0

theorem nanosecondOf_iff (c : Clock) :
    decide (1000000000 ≤ nanosecondOf c) = true ↔ c.second = 60 := by
  unfold nanosecondOf
  rw [decide_eq_true_eq]
  split
  · next h => exact ⟨fun _ => h, fun _ => Nat.le_refl _⟩
  · next h => exact ⟨fun hle => absurd hle (by decide), fun hsixty => absurd hsixty h⟩

def readMoment (cs : List Char) : Day × Clock := (Day.read cs, Clock.read (cs.drop 11))

theorem readMoment_text (separator : Char) (zone : List Char) {d : Day} {c : Clock} (hd : d.Fits)
    (hc : c.Fits) : readMoment (momentText separator zone d c) = (d, c) := by
  have hdrop : (momentText separator zone d c).drop 11 = c.text ++ zone := rfl
  rw [readMoment, hdrop, Clock.read_text hc, momentText, Day.read_text hd]

def readZoned (cs : List Char) : Day × Clock × Offset :=
  ((readMoment cs).1, (readMoment cs).2, Offset.read (cs.drop 19))

theorem readZoned_text (separator : Char) {d : Day} {c : Clock} {z : Offset} (hd : d.Fits)
    (hc : c.Fits) (hz : z.Fits) : readZoned (momentText separator z.text d c) = (d, c, z) := by
  have hdrop : (momentText separator z.text d c).drop 19 = z.text := rfl
  rw [readZoned, hdrop, readMoment_text separator z.text hd hc, Offset.read_text hz]

/-- A library that reads the numbers of a text by their places. -/
def library : Library where
  date :=
    { Value := Day
      read? _ := dateFormat.read? Day.read
      print _ d := String.ofList d.text }
  time :=
    { Value := Clock
      read? _ := timeFormat.read? Clock.read
      print _ c := String.ofList c.text
      nanosecond := nanosecondOf }
  moment :=
    { Value := Day × Clock
      read? directives :=
        if directives = spacedFormat.directives then spacedFormat.read? readMoment
        else utcFormat.read? readMoment
      print directives x :=
        if directives = spacedFormat.directives then String.ofList (spacedFormat.printed x)
        else String.ofList (utcFormat.printed x)
      nanosecond x := nanosecondOf x.2 }
  zoned :=
    { Value := Day × Clock × Offset
      read? _ := zonedFormat.read? readZoned
      print _ x := String.ofList (zonedFormat.printed x)
      nanosecond x := nanosecondOf x.2.1 }

theorem library_documented : library.Documented where
  date := by
    apply Format.keptBy _ rfl (fun _ => rfl) (fun _ => by simp [dateFormat])
    intro d hd
    have h := Day.read_text hd []
    rwa [List.append_nil] at h
  time := by
    apply Format.keptBy _ rfl (fun _ => rfl) nanosecondOf_iff
    intro c hc
    have h := Clock.read_text hc []
    rwa [List.append_nil] at h
  spaced := by
    apply Format.keptBy _ (if_pos rfl) (fun _ => if_pos rfl) (fun x => nanosecondOf_iff x.2)
    intro x hx
    exact readMoment_text ' ' [] hx.1 hx.2
  utc := by
    have hother : utcFormat.directives ≠ spacedFormat.directives := by decide
    apply Format.keptBy _ (if_neg hother) (fun _ => if_neg hother) (fun x => nanosecondOf_iff x.2)
    intro x hx
    exact readMoment_text 'T' ['Z'] hx.1 hx.2
  zoned := by
    apply Format.keptBy _ rfl (fun _ => rfl) (fun x => nanosecondOf_iff x.2.1)
    intro x hx
    exact readZoned_text 'T' hx.1 hx.2.1 hx.2.2

theorem accepted_iff_written_zoned :
    library.Documented ∧ library.isMoment "2020-02-29T23:59:59-05:30" = true ∧
      library.isMoment "2020-02-29T23:59:59-00:00" = false := by
  have hbehind := accepted_iff_written "2020-02-29T23:59:59-05:30"
  have hzero := accepted_iff_written "2020-02-29T23:59:59-00:00"
  refine ⟨library_documented, ?_, ?_⟩
  · exact (hbehind.2.2.2 library library_documented).2.2.trans (by decide)
  · exact (hzero.2.2.2 library library_documented).2.2.trans (by decide)

end CompactSchema.Calendar
