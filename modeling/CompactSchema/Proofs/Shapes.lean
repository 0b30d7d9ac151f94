import CompactSchema.Proofs.Dates
import Mathlib.Data.List.Forall2

set_option autoImplicit false

/-!
# Shapes of dates and times

A shape is a text of ASCII characters that is compared with another text byte by byte. The texts of
a shape are exactly those that can be written with as many digits.
-/

namespace CompactSchema.Calendar

/-! ## Bytes and characters -/

/-- The byte `9` of a shape stands for a digit and `+` for either sign. -/
def fitsByte (p b : UInt8) : Bool :=
  if p = 57 then 48 ≤ b && b ≤ 57
  else if p = 43 then b = 43 || b = 45
  else b = p

def hasShape (s shape : String) : Bool :=
  s.utf8ByteSize = shape.utf8ByteSize &&
    (s.toUTF8.data.toList.zip shape.toUTF8.data.toList).all fun (b, p) => fitsByte p b

/-- What the bytes of a shape say about characters. -/
def FitsChar (p c : Char) : Prop :=
  if p = '9' then c.isDigit = true else if p = '+' then c = '+' ∨ c = '-' else c = p

def Shaped (ps cs : List Char) : Prop := List.Forall₂ FitsChar ps cs

section Bytes

theorem encode_narrow {c : Char} (h : c.toNat < 128) :
    String.utf8EncodeChar c = [UInt8.ofNat c.toNat] := by
  change c.val.toNat < 128 at h
  unfold String.utf8EncodeChar
  exact if_pos (Nat.le_of_lt_succ h)

/-- A character outside ASCII starts with a byte outside ASCII. -/
theorem encode_wide {c : Char} (h : 128 ≤ c.toNat) :
    ∃ b bs, String.utf8EncodeChar c = b :: bs ∧ 128 ≤ b.toNat := by
  change 128 ≤ c.val.toNat at h
  unfold String.utf8EncodeChar
  dsimp only
  rw [if_neg (by omega)]
  split
  · refine ⟨_, _, rfl, ?_⟩
    rw [UInt8.toNat_ofNat']
    omega
  · split
    · refine ⟨_, _, rfl, ?_⟩
      rw [UInt8.toNat_ofNat']
      omega
    · refine ⟨_, _, rfl, ?_⟩
      rw [UInt8.toNat_ofNat']
      omega

theorem fitsByte_narrow {p b : UInt8} (hp : p.toNat < 128) (h : fitsByte p b = true) :
    b.toNat < 128 := by
  unfold fitsByte at h
  split at h
  · rw [Bool.and_eq_true, decide_eq_true_eq, decide_eq_true_eq, UInt8.le_iff_toNat_le,
      UInt8.le_iff_toNat_le] at h
    exact Nat.lt_of_le_of_lt h.2 (by decide)
  · split at h
    · rw [Bool.or_eq_true, decide_eq_true_eq, decide_eq_true_eq] at h
      obtain rfl | rfl := h <;> decide
    · rwa [decide_eq_true_eq.mp h]

theorem fitsChar_narrow {p c : Char} (hp : p.toNat < 128) (h : FitsChar p c) : c.toNat < 128 := by
  unfold FitsChar at h
  split at h
  · exact Nat.lt_of_le_of_lt (Char.isDigit_iff_toNat.mp h).2 (by decide)
  · split at h
    · obtain rfl | rfl := h <;> decide
    · rwa [h]

theorem ofNat_eq_iff {c : Char} (hc : c.toNat < 128) (d : Char) (hd : d.toNat < 128) :
    UInt8.ofNat c.toNat = UInt8.ofNat d.toNat ↔ c = d := by
  rw [← UInt8.toNat_inj, UInt8.toNat_ofNat', UInt8.toNat_ofNat', Nat.mod_eq_of_lt (by omega),
    Nat.mod_eq_of_lt (by omega), Char.toNat_inj]

theorem fitsByte_iff {p c : Char} (hp : p.toNat < 128) (hc : c.toNat < 128) :
    fitsByte (UInt8.ofNat p.toNat) (UInt8.ofNat c.toNat) = true ↔ FitsChar p c := by
  have hnine : UInt8.ofNat p.toNat = 57 ↔ p = '9' := ofNat_eq_iff hp '9' (by decide)
  have hplus : UInt8.ofNat p.toNat = 43 ↔ p = '+' := ofNat_eq_iff hp '+' (by decide)
  unfold fitsByte FitsChar
  simp only [hnine, hplus]
  split
  · have hbyte : (UInt8.ofNat c.toNat).toNat = c.toNat := by
      rw [UInt8.toNat_ofNat', Nat.mod_eq_of_lt (by omega)]
    rw [Bool.and_eq_true, decide_eq_true_eq, decide_eq_true_eq, UInt8.le_iff_toNat_le,
      UInt8.le_iff_toNat_le, hbyte, Char.isDigit_iff_toNat]
    rfl
  · split
    · rw [Bool.or_eq_true, decide_eq_true_eq, decide_eq_true_eq]
      exact or_congr (ofNat_eq_iff hc '+' (by decide)) (ofNat_eq_iff hc '-' (by decide))
    · rw [decide_eq_true_eq]
      exact ofNat_eq_iff hc p hp

/-- Only the bytes are compared, but a byte of an ASCII shape never is a part of a longer
character. -/
theorem forall₂_encoded {ps : List Char} (hps : ∀ p ∈ ps, p.toNat < 128) (cs : List Char) :
    List.Forall₂ (fun b p => fitsByte p b = true) (cs.flatMap String.utf8EncodeChar)
      (ps.flatMap String.utf8EncodeChar) ↔ Shaped ps cs := by
  unfold Shaped
  induction ps generalizing cs with
  | nil =>
    cases cs with
    | nil => simp
    | cons c cs => simp
  | cons p ps ih =>
    have hp := hps p List.mem_cons_self
    have hbyte : (UInt8.ofNat p.toNat).toNat < 128 := by
      rw [UInt8.toNat_ofNat', Nat.mod_eq_of_lt (by omega)]
      exact hp
    rw [List.flatMap_cons, encode_narrow hp, List.singleton_append]
    cases cs with
    | nil => simp
    | cons c cs =>
      rw [List.flatMap_cons, List.forall₂_cons]
      rcases Nat.lt_or_ge c.toNat 128 with hc | hc
      · rw [encode_narrow hc, List.singleton_append, List.forall₂_cons, fitsByte_iff hp hc,
          ih (fun q hq => hps q (List.mem_cons_of_mem p hq)) cs]
      · obtain ⟨b, bs, hencode, hb⟩ := encode_wide hc
        rw [hencode, List.cons_append, List.forall₂_cons]
        constructor
        · intro h
          exact absurd (fitsByte_narrow hbyte h.1) (Nat.not_lt.mpr hb)
        · intro h
          exact absurd (fitsChar_narrow hp h.1) (Nat.not_lt.mpr hc)

theorem toList_toUTF8 (s : String) :
    s.toUTF8.data.toList = s.toList.flatMap String.utf8EncodeChar := by
  change s.toByteArray.data.toList = _
  rw [← String.utf8Encode_toList, List.utf8Encode, List.toList_data_toByteArray]

theorem hasShape_iff {shape : String} (h : (shape.toList.all fun p => p.toNat < 128) = true)
    (s : String) : hasShape s shape = true ↔ Shaped shape.toList s.toList := by
  have hnarrow : ∀ p ∈ shape.toList, p.toNat < 128 :=
    fun p hp => of_decide_eq_true (List.all_eq_true.mp h p hp)
  have hsize (t : String) : t.utf8ByteSize = t.toUTF8.data.toList.length := rfl
  rw [← forall₂_encoded hnarrow, ← toList_toUTF8, ← toList_toUTF8, List.forall₂_iff_zip, ← hsize,
    ← hsize, hasShape, Bool.and_eq_true, decide_eq_true_eq, List.all_eq_true]
  exact and_congr_right fun _ => ⟨fun hall _ _ hmem => hall _ hmem, fun hall _ hmem => hall hmem⟩

end Bytes

/-! ## Parts of a shape -/

theorem shaped_append (ps qs cs : List Char) :
    Shaped (ps ++ qs) cs ↔ ∃ as bs, Shaped ps as ∧ Shaped qs bs ∧ cs = as ++ bs := by
  unfold Shaped
  induction ps generalizing cs with
  | nil =>
    simp only [List.nil_append, List.forall₂_nil_left_iff]
    constructor
    · intro h
      exact ⟨[], cs, rfl, h, rfl⟩
    · rintro ⟨_, bs, rfl, h, rfl⟩
      exact h
  | cons p ps ih =>
    simp only [List.cons_append, List.forall₂_cons_left_iff, ih]
    constructor
    · rintro ⟨c, _, hc, ⟨as, bs, has, hbs, rfl⟩, rfl⟩
      exact ⟨c :: as, bs, ⟨c, as, hc, has, rfl⟩, hbs, rfl⟩
    · rintro ⟨_, bs, ⟨c, as, hc, has, rfl⟩, hbs, rfl⟩
      exact ⟨c, as ++ bs, hc, ⟨as, bs, has, hbs, rfl⟩, rfl⟩

theorem shaped_digits (places : Nat) (cs : List Char) :
    Shaped (List.replicate places '9') cs ↔ ∃ n, n < 10 ^ places ∧ cs = padded places n := by
  have hdigits : Shaped (List.replicate places '9') cs ↔
      cs.length = places ∧ ∀ c ∈ cs, c.isDigit = true := by
    unfold Shaped
    induction places generalizing cs with
    | zero => simp +contextual
    | succ places ih =>
      cases cs with
      | nil => simp
      | cons c cs =>
        rw [List.replicate_succ, List.forall₂_cons, ih, List.length_cons, List.forall_mem_cons,
          Nat.succ_inj, FitsChar, if_pos rfl]
        exact and_left_comm
  rw [hdigits]
  constructor
  · rintro ⟨rfl, h⟩
    exact exists_padded h
  · rintro ⟨n, -, rfl⟩
    exact ⟨length_padded places n, fun c hc => isDigit_of_mem_padded hc⟩

theorem shaped_cons {p : Char} (hnine : p ≠ '9') (hplus : p ≠ '+') (ps cs : List Char) :
    Shaped (p :: ps) cs ↔ ∃ rest, Shaped ps rest ∧ cs = p :: rest := by
  unfold Shaped
  simp only [List.forall₂_cons_left_iff, FitsChar, if_neg hnine, if_neg hplus]
  constructor
  · rintro ⟨_, rest, rfl, hrest, rfl⟩
    exact ⟨rest, hrest, rfl⟩
  · rintro ⟨rest, hrest, rfl⟩
    exact ⟨p, rest, rfl, hrest, rfl⟩

theorem shaped_sign (ps cs : List Char) :
    Shaped ('+' :: ps) cs ↔
      ∃ sign rest, (sign = '+' ∨ sign = '-') ∧ Shaped ps rest ∧ cs = sign :: rest := by
  unfold Shaped
  simp only [List.forall₂_cons_left_iff]
  rfl

/-! ## Shapes of the formats -/

def dateShape : List Char := "9999-99-99".toList

def timeShape : List Char := "99:99:99".toList

def offsetShape : List Char := "+99:99".toList

theorem shaped_date (cs : List Char) :
    Shaped dateShape cs ↔ ∃ d : Day, d.Fits ∧ cs = d.text := by
  have hshape : dateShape = List.replicate 4 '9' ++
      '-' :: (List.replicate 2 '9' ++ '-' :: List.replicate 2 '9') := by decide
  have hdash (ps : List Char) := shaped_cons (by decide : '-' ≠ '9') (by decide) ps
  simp only [hshape, shaped_append, shaped_digits, hdash]
  constructor
  · rintro ⟨_, _, ⟨year, hyear, rfl⟩, ⟨_, ⟨_, _, ⟨month, hmonth, rfl⟩, ⟨_, ⟨day, hday, rfl⟩, rfl⟩,
      rfl⟩, rfl⟩, rfl⟩
    exact ⟨⟨year, month, day⟩, ⟨hyear, hmonth, hday⟩, rfl⟩
  · rintro ⟨d, h, rfl⟩
    exact ⟨_, _, ⟨d.year, h.year, rfl⟩, ⟨_, ⟨_, _, ⟨d.month, h.month, rfl⟩,
      ⟨_, ⟨d.day, h.day, rfl⟩, rfl⟩, rfl⟩, rfl⟩, rfl⟩

theorem shaped_time (cs : List Char) :
    Shaped timeShape cs ↔ ∃ c : Clock, c.Fits ∧ cs = c.text := by
  have hshape : timeShape = List.replicate 2 '9' ++
      ':' :: (List.replicate 2 '9' ++ ':' :: List.replicate 2 '9') := by decide
  have hcolon (ps : List Char) := shaped_cons (by decide : ':' ≠ '9') (by decide) ps
  simp only [hshape, shaped_append, shaped_digits, hcolon]
  constructor
  · rintro ⟨_, _, ⟨hour, hhour, rfl⟩, ⟨_, ⟨_, _, ⟨minute, hminute, rfl⟩,
      ⟨_, ⟨second, hsecond, rfl⟩, rfl⟩, rfl⟩, rfl⟩, rfl⟩
    exact ⟨⟨hour, minute, second⟩, ⟨hhour, hminute, hsecond⟩, rfl⟩
  · rintro ⟨c, h, rfl⟩
    exact ⟨_, _, ⟨c.hour, h.hour, rfl⟩, ⟨_, ⟨_, _, ⟨c.minute, h.minute, rfl⟩,
      ⟨_, ⟨c.second, h.second, rfl⟩, rfl⟩, rfl⟩, rfl⟩, rfl⟩

theorem shaped_offset (cs : List Char) :
    Shaped offsetShape cs ↔ ∃ z : Offset, z.Fits ∧ cs = z.text := by
  have hshape : offsetShape =
      '+' :: (List.replicate 2 '9' ++ ':' :: List.replicate 2 '9') := by decide
  have hcolon (ps : List Char) := shaped_cons (by decide : ':' ≠ '9') (by decide) ps
  simp only [hshape, shaped_sign, shaped_append, shaped_digits, hcolon]
  constructor
  · rintro ⟨sign, _, hsign, ⟨_, _, ⟨hour, hhour, rfl⟩, ⟨_, ⟨minute, hminute, rfl⟩, rfl⟩, rfl⟩, rfl⟩
    obtain rfl | rfl := hsign
    · exact ⟨⟨false, hour, minute⟩, ⟨hhour, hminute⟩, rfl⟩
    · exact ⟨⟨true, hour, minute⟩, ⟨hhour, hminute⟩, rfl⟩
  · rintro ⟨z, h, rfl⟩
    have hsign : z.sign = '+' ∨ z.sign = '-' := by
      unfold Offset.sign
      split
      · exact .inr rfl
      · exact .inl rfl
    exact ⟨z.sign, _, hsign, ⟨_, _, ⟨z.hour, h.hour, rfl⟩, ⟨_, ⟨z.minute, h.minute, rfl⟩, rfl⟩,
      rfl⟩, rfl⟩

end CompactSchema.Calendar
