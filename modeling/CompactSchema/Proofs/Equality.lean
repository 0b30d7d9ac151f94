import CompactSchema.Definition.Equality
import CompactSchema.Proofs.Serialization
import CompactSchema.Proofs.Rounding
import Mathlib.Data.List.Perm.Subperm

set_option autoImplicit false

/-!
# Equality up to the order of members

Equality counts members, and counts only those of the left object. Definitions without a bound that
is not a number are equal exactly when they have the same shape, where the members of an object are
matched one to one with members of the other, wherever they stand.
-/

namespace CompactSchema

/-! ## Numbers and ranges -/

/-- Equal as numbers: with the same bits, or both zero. -/
def Binary64.SameNumber (x y : Binary64) : Prop := x = y ∨ x.magnitude = 0 ∧ y.magnitude = 0

namespace Binary64

variable {x y z : Binary64}

theorem SameNumber.symm (h : x.SameNumber y) : y.SameNumber x := h.imp Eq.symm And.symm

theorem SameNumber.trans (hxy : x.SameNumber y) (hyz : y.SameNumber z) : x.SameNumber z := by
  rcases hxy with rfl | ⟨hx, hy⟩
  · exact hyz
  · rcases hyz with rfl | ⟨-, hz⟩
    · exact .inr ⟨hx, hy⟩
    · exact .inr ⟨hx, hz⟩

theorem key_eq_iff : x.key = y.key ↔ x.SameNumber y := by
  constructor
  · intro h
    by_cases hsign : x.isNegative = y.isNegative
    · have hmagnitude : x.magnitude = y.magnitude := by
        rw [key, key, hsign] at h
        split at h <;> omega
      left
      rw [← ofMagnitude_magnitude x, hmagnitude, hsign, ofMagnitude_magnitude]
    · right
      rw [key, key, Bool.eq_not_of_ne hsign] at h
      cases hy : y.isNegative <;> simp only [hy, Bool.not_true, Bool.not_false, ↓reduceIte,
        Bool.false_eq_true] at h <;> omega
  · rintro (rfl | ⟨hx, hy⟩)
    · rfl
    · simp [key, hx, hy]

theorem SameNumber.compare?_eq (h : x.SameNumber y) (z : Binary64) :
    z.compare? x = z.compare? y := by
  have hkey := key_eq_iff.mpr h
  have hnan : x.isNaN = y.isNaN := by
    rcases h with rfl | ⟨hx, hy⟩
    · rfl
    · rw [isNaN, isNaN, hx, hy]
  rw [compare?, compare?, hkey, hnan]

theorem equal_iff (hx : x.isNaN = false) (hy : y.isNaN = false) :
    x.equal y = true ↔ x.SameNumber y := by
  rw [← key_eq_iff]
  simp [equal, compare?, hx, hy]

end Binary64

namespace Bound

/-- Of the same kind, with the same whole number or with decimals that are equal as numbers. -/
inductive SameValue : Bound → Bound → Prop
  | int {i : Int64} : SameValue (.int i) (.int i)
  | float {x y : Binary64} : x.SameNumber y → SameValue (.float x) (.float y)

variable {a b c : Bound}

theorem SameValue.refl (a : Bound) : SameValue a a := by
  cases a with
  | int i => exact .int
  | float x => exact .float (.inl rfl)

theorem SameValue.symm (h : SameValue a b) : SameValue b a := by
  cases h with
  | int => exact .int
  | float h => exact .float h.symm

theorem SameValue.trans (hab : SameValue a b) (hbc : SameValue b c) : SameValue a c := by
  cases hab with
  | int => exact hbc
  | float hab =>
    cases hbc with
    | float hbc => exact .float (hab.trans hbc)

theorem equal_iff (ha : ∀ x, a = .float x → x.isNaN = false)
    (hb : ∀ x, b = .float x → x.isNaN = false) : a.equal b = true ↔ SameValue a b := by
  cases a with
  | int i =>
    cases b with
    | int j =>
      simp only [equal, decide_eq_true_eq]
      exact ⟨fun h => h ▸ .int, fun h => by cases h; rfl⟩
    | float y => exact ⟨fun h => absurd h (by simp [equal]), fun h => nomatch h⟩
  | float x =>
    cases b with
    | int j => exact ⟨fun h => absurd h (by simp [equal]), fun h => nomatch h⟩
    | float y =>
      have hequal := Binary64.equal_iff (ha x rfl) (hb y rfl)
      exact hequal.trans ⟨.float, fun h => by cases h; assumption⟩

/-- Both bounds are absent, or both are there with the same value. -/
inductive SameValue? : Option Bound → Option Bound → Prop
  | absent : SameValue? none none
  | present {a b : Bound} : SameValue a b → SameValue? (some a) (some b)

variable {a? b? c? : Option Bound}

theorem SameValue?.refl (a? : Option Bound) : SameValue? a? a? := by
  cases a? with
  | none => exact .absent
  | some a => exact .present (.refl a)

theorem SameValue?.symm (h : SameValue? a? b?) : SameValue? b? a? := by
  cases h with
  | absent => exact .absent
  | present h => exact .present h.symm

theorem SameValue?.trans (hab : SameValue? a? b?) (hbc : SameValue? b? c?) : SameValue? a? c? := by
  cases hab with
  | absent => exact hbc
  | present hab =>
    cases hbc with
    | present hbc => exact .present (hab.trans hbc)

theorem equal?_iff (ha : ∀ x, a? = some (.float x) → x.isNaN = false)
    (hb : ∀ x, b? = some (.float x) → x.isNaN = false) :
    equal? a? b? = true ↔ SameValue? a? b? := by
  cases a? with
  | none =>
    cases b? with
    | none => exact ⟨fun _ => .absent, fun _ => rfl⟩
    | some b => exact ⟨fun h => absurd h (by simp [equal?]), fun h => nomatch h⟩
  | some a =>
    cases b? with
    | none => exact ⟨fun h => absurd h (by simp [equal?]), fun h => nomatch h⟩
    | some b =>
      have hequal := equal_iff (fun x hx => ha x (hx ▸ rfl)) (fun x hx => hb x (hx ▸ rfl))
      exact hequal.trans ⟨.present, fun h => by cases h; assumption⟩

end Bound

structure Range.SameShape (r s : Range) : Prop where
  keyword : r.keyword = s.keyword
  minimum : Bound.SameValue? r.minimum s.minimum
  maximum : Bound.SameValue? r.maximum s.maximum

/-! ## Matched lists -/

/-- The items of the one list are paired with those of the other, wherever they stand. -/
def Matched {α : Type} (r : α → α → Prop) (here there : List α) : Prop :=
  ∃ pairs : List (α × α), here.Perm (pairs.map Prod.fst) ∧ there.Perm (pairs.map Prod.snd) ∧
    ∀ p ∈ pairs, r p.1 p.2

namespace Matched

variable {α : Type} {r s t : α → α → Prop} {here there beyond : List α}

theorem forall₂_comp (h : ∀ x y z, r x y → s y z → t x z) (hr : List.Forall₂ r here there)
    (hs : List.Forall₂ s there beyond) : List.Forall₂ t here beyond := by
  induction hr generalizing beyond with
  | nil =>
    cases hs
    exact .nil
  | cons hxy _ ih =>
    cases hs with
    | cons hyz hs => exact .cons (h _ _ _ hxy hyz) (ih hs)

/-- What stands in another order on the right can be moved on the left instead. -/
theorem exists_moved {β : Type} {r : α → β → Prop} {there beyond : List β}
    (h : List.Forall₂ r here there) (hperm : there.Perm beyond) :
    ∃ moved, here.Perm moved ∧ List.Forall₂ r moved beyond := by
  have hcomp : Relation.Comp (List.Forall₂ r) List.Perm here beyond := ⟨there, h, hperm⟩
  rwa [List.forall₂_comp_perm_eq_perm_comp_forall₂] at hcomp

theorem iff_forall₂ : Matched r here there ↔
    ∃ moved, here.Perm moved ∧ List.Forall₂ r moved there := by
  constructor
  · rintro ⟨pairs, hhere, hthere, hpairs⟩
    have hall : List.Forall₂ r (pairs.map Prod.fst) (pairs.map Prod.snd) := by
      rw [List.forall₂_map_left_iff, List.forall₂_map_right_iff, List.forall₂_same]
      exact hpairs
    obtain ⟨moved, hmoved, hforall⟩ := exists_moved hall hthere.symm
    exact ⟨moved, hhere.trans hmoved, hforall⟩
  · rintro ⟨moved, hmoved, hforall⟩
    have hlength := hforall.length_eq
    refine ⟨moved.zip there, ?_, ?_, fun p hp => List.forall₂_zip hforall hp⟩
    · rwa [List.map_fst_zip (Nat.le_of_eq hlength)]
    · rw [List.map_snd_zip (Nat.le_of_eq hlength.symm)]

theorem comp (h : ∀ x y z, r x y → s y z → t x z) (hr : Matched r here there)
    (hs : Matched s there beyond) : Matched t here beyond := by
  obtain ⟨moved, hmoved, hfirst⟩ := iff_forall₂.mp hr
  obtain ⟨others, hothers, hsecond⟩ := iff_forall₂.mp hs
  obtain ⟨items, hitems, hthird⟩ := exists_moved hfirst hothers
  exact iff_forall₂.mpr ⟨items, hmoved.trans hitems, forall₂_comp h hthird hsecond⟩

variable [c : Setoid α]

/-- Lists are matched when they hold every class equally often. -/
theorem iff_perm_classes : Matched (· ≈ ·) here there ↔
    (here.map (Quotient.mk c)).Perm (there.map (Quotient.mk c)) := by
  constructor
  · rintro ⟨pairs, hhere, hthere, hpairs⟩
    have hclasses : (pairs.map Prod.fst).map (Quotient.mk c) =
        (pairs.map Prod.snd).map (Quotient.mk c) := by
      rw [List.map_map, List.map_map]
      exact List.map_congr_left fun p hp => Quotient.sound (hpairs p hp)
    exact ((hhere.map _).trans (.of_eq hclasses)).trans (hthere.map _).symm
  · intro hperm
    have hclasses :
        List.Forall₂ (fun x q => Quotient.mk c x = q) here (here.map (Quotient.mk c)) := by
      rw [List.forall₂_map_right_iff, List.forall₂_same]
      exact fun _ _ => rfl
    obtain ⟨moved, hmoved, hforall⟩ := exists_moved hclasses hperm
    rw [List.forall₂_map_right_iff] at hforall
    exact iff_forall₂.mpr ⟨moved, hmoved, hforall.imp fun x y => Quotient.exact⟩

end Matched

/-! ## Definitions of the same shape -/

namespace Definition

/-- The same definition up to the order of members at every depth, and up to the sign of bounds
    that are zero. -/
inductive SameShape : Definition → Definition → Prop
  | primitive {keyword : Keyword} : SameShape (.primitive keyword) (.primitive keyword)
  | range {r s : Range} : r.SameShape s → SameShape (.range r) (.range s)
  | pattern {literal : PatternLiteral} : SameShape (.pattern literal) (.pattern literal)
  | object {members others : List (Member Definition)}
    {pairs : List (Member Definition × Member Definition)} : members.Perm (pairs.map Prod.fst) →
      others.Perm (pairs.map Prod.snd) →
        (∀ p ∈ pairs, p.1.name = p.2.name ∧ p.1.optional = p.2.optional) →
          (∀ p ∈ pairs, SameShape p.1.value p.2.value) → SameShape (.object members) (.object others)
  | enumeration {values : List Int64} : SameShape (.enumeration values) (.enumeration values)
  | emptyArray : SameShape (.array none) (.array none)
  | array {element other : Definition} : SameShape element other →
    SameShape (.array (some element)) (.array (some other))

end Definition

structure Member.SameShape (m n : Member Definition) : Prop where
  name : m.name = n.name
  optional : m.optional = n.optional
  value : m.value.SameShape n.value

namespace Definition

variable {a b c : Definition} {members others : List (Member Definition)}

theorem sameShape_object_iff : SameShape (.object members) (.object others) ↔
    Matched Member.SameShape members others := by
  constructor
  · intro h
    cases h with
    | @object _ _ pairs hhere hthere hheads hvalues =>
      exact ⟨pairs, hhere, hthere, fun p hp => ⟨(hheads p hp).1, (hheads p hp).2, hvalues p hp⟩⟩
  · rintro ⟨pairs, hhere, hthere, hpairs⟩
    exact .object hhere hthere (fun p hp => ⟨(hpairs p hp).name, (hpairs p hp).optional⟩)
      fun p hp => (hpairs p hp).value

mutual

theorem SameShape.refl : ∀ d : Definition, SameShape d d
  | primitive _ => .primitive
  | range _ => .range ⟨rfl, .refl _, .refl _⟩
  | pattern _ => .pattern
  | object members =>
    sameShape_object_iff.mpr <| Matched.iff_forall₂.mpr
      ⟨members, .refl _, List.forall₂_same.mpr (sameShape_members members)⟩
  | enumeration _ => .enumeration
  | array none => .emptyArray
  | array (some element) => .array (SameShape.refl element)

theorem sameShape_members : ∀ members : List (Member Definition), ∀ m ∈ members, m.SameShape m
  | [] => fun _ hm => absurd hm List.not_mem_nil
  | ⟨_, _, value⟩ :: members => List.forall_mem_cons.mpr
      ⟨⟨rfl, rfl, SameShape.refl value⟩, sameShape_members members⟩

end

theorem SameShape.symm (h : SameShape a b) : SameShape b a := by
  induction h with
  | primitive => exact .primitive
  | range h => exact .range ⟨h.keyword.symm, h.minimum.symm, h.maximum.symm⟩
  | pattern => exact .pattern
  | @object _ _ pairs hhere hthere hheads _ ih =>
    refine @SameShape.object _ _ (pairs.map Prod.swap) ?_ ?_ ?_ ?_
    · rwa [List.map_map]
    · rwa [List.map_map]
    · exact List.forall_mem_map.mpr fun p hp => ⟨(hheads p hp).1.symm, (hheads p hp).2.symm⟩
    · exact List.forall_mem_map.mpr ih
  | enumeration => exact .enumeration
  | emptyArray => exact .emptyArray
  | array _ ih => exact .array ih

theorem SameShape.trans (hab : SameShape a b) (hbc : SameShape b c) : SameShape a c := by
  induction hab generalizing c with
  | primitive | pattern | enumeration | emptyArray => exact hbc
  | range hab =>
    cases hbc with
    | range hbc =>
      exact .range ⟨hab.keyword.trans hbc.keyword, hab.minimum.trans hbc.minimum,
        hab.maximum.trans hbc.maximum⟩
  | @object members others pairs hhere hthere hheads _ ih =>
    cases hbc with
    | object hhere' hthere' hheads' hvalues' =>
      have hbc := sameShape_object_iff.mp (.object hhere' hthere' hheads' hvalues')
      -- Matched members carry what the induction gives for their values.
      have hab : Matched (fun m n => m.name = n.name ∧ m.optional = n.optional ∧
          ∀ d, SameShape n.value d → SameShape m.value d) members others :=
        ⟨pairs, hhere, hthere, fun p hp => ⟨(hheads p hp).1, (hheads p hp).2, fun _ => ih p hp⟩⟩
      refine sameShape_object_iff.mpr (hab.comp ?_ hbc)
      rintro x y z ⟨hname, hoptional, hvalue⟩ hyz
      exact ⟨hname.trans hyz.name, hoptional.trans hyz.optional, hvalue _ hyz.value⟩
  | array _ ih =>
    cases hbc with
    | array hbc => exact .array (ih hbc)

end Definition

instance Member.shapes : Setoid (Member Definition) where
  r := Member.SameShape
  iseqv :=
    { refl := fun _ => ⟨rfl, rfl, .refl _⟩
      symm := fun h => ⟨h.name.symm, h.optional.symm, h.value.symm⟩
      trans := fun h h' =>
        ⟨h.name.trans h'.name, h.optional.trans h'.optional, h.value.trans h'.value⟩ }

/-! ## Counting -/

namespace Member

/-- What a member has in common with those of the same shape. -/
abbrev shape : Member Definition → Quotient shapes := Quotient.mk shapes

variable {same : Definition → Definition → Bool} {here there : List (Member Definition)}

open scoped Classical in
theorem count_eq_count_shape {m : Member Definition}
    (h : ∀ n ∈ here, n.equal same m = true ↔ n ≈ m) :
    m.count same here = (here.map shape).count m.shape := by
  rw [count, List.count, List.countP_map]
  refine List.countP_congr fun n hn => ?_
  rw [h n hn, Function.comp_apply, beq_iff_eq]
  exact ⟨Quotient.sound, Quotient.exact⟩

/-- Counts are compared for the members of the one list only; since both lists are of one length,
    no others are left in the other. -/
theorem sameCounts_iff
    (h : ∀ m ∈ here ++ there, ∀ n ∈ here ++ there, m.equal same n = true ↔ m ≈ n) :
    sameCounts same here there = true ↔ Matched SameShape here there := by
  classical
  have hhere : ∀ m ∈ here, m.count same here = (here.map shape).count m.shape := fun m hm =>
    count_eq_count_shape fun n hn => h n (List.mem_append_left _ hn) m (List.mem_append_left _ hm)
  have hthere : ∀ m ∈ here, m.count same there = (there.map shape).count m.shape := fun m hm =>
    count_eq_count_shape fun n hn => h n (List.mem_append_right _ hn) m (List.mem_append_left _ hm)
  have hcounts : sameCounts same here there = true ↔ here.length = there.length ∧
      ∀ m ∈ here, m.count same here = m.count same there := by
    simp [sameCounts]
  rw [hcounts]
  refine Iff.trans ?_ Matched.iff_perm_classes.symm
  constructor
  · rintro ⟨hlength, hcount⟩
    have hsub : (here.map shape).Subperm (there.map shape) := by
      rw [List.subperm_ext_iff, List.forall_mem_map]
      intro m hm
      exact Nat.le_of_eq ((hhere m hm).symm.trans ((hcount m hm).trans (hthere m hm)))
    exact hsub.perm_of_length_le (by simp [hlength])
  · intro hperm
    refine ⟨by simpa using hperm.length_eq, fun m hm => ?_⟩
    rw [hhere m hm, hthere m hm, hperm.count_eq]

end Member

/-! ## Equality -/

namespace Definition

/-- No bound is something else than a number. -/
def NaNFree (d : Definition) : Prop := ∀ x, .float x ∈ d.bounds → x.isNaN = false

theorem nanFree_object_iff {members : List (Member Definition)} :
    (object members).NaNFree ↔ ∀ m ∈ members, m.value.NaNFree := by
  unfold NaNFree
  rw [bounds]
  induction members with
  | nil => simp [membersBounds]
  | cons m members ih =>
    rw [List.forall_mem_cons, ← ih, membersBounds]
    simp only [List.mem_append, or_imp, forall_and]

theorem NaNFree.bounds_range {r : Range} (h : (range r).NaNFree) :
    (∀ x, r.minimum = some (.float x) → x.isNaN = false) ∧
      ∀ x, r.maximum = some (.float x) → x.isNaN = false := by
  simpa [NaNFree, bounds, or_imp, forall_and] using h

theorem range_equal_iff {r s : Range} (hr : (range r).NaNFree) (hs : (range s).NaNFree) :
    r.equal s = true ↔ r.SameShape s := by
  have hminimum := Bound.equal?_iff hr.bounds_range.1 hs.bounds_range.1
  have hmaximum := Bound.equal?_iff hr.bounds_range.2 hs.bounds_range.2
  rw [Range.equal, Bool.and_eq_true, Bool.and_eq_true, decide_eq_true_eq, hminimum, hmaximum]
  exact ⟨fun h => ⟨h.1.1, h.1.2, h.2⟩, fun h => ⟨⟨h.keyword, h.minimum⟩, h.maximum⟩⟩

theorem member_equal_iff {same : Definition → Definition → Bool} {m n : Member Definition}
    (h : same m.value n.value = true ↔ m.value.SameShape n.value) :
    m.equal same n = true ↔ m.SameShape n := by
  rw [Member.equal, Bool.and_eq_true, Bool.and_eq_true, decide_eq_true_eq, decide_eq_true_eq, h]
  exact ⟨fun h => ⟨h.1.1, h.1.2, h.2⟩, fun h => ⟨⟨h.name, h.optional⟩, h.value⟩⟩

theorem depth_pos (d : Definition) : 0 < d.depth := by
  cases d <;> simp [depth]

theorem depth_le_of_mem {members : List (Member Definition)} {m : Member Definition}
    (h : m ∈ members) : m.value.depth ≤ membersDepth members := by
  induction members with
  | nil => exact absurd h List.not_mem_nil
  | cons n members ih =>
    rw [membersDepth]
    rcases List.mem_cons.mp h with rfl | h
    · exact Nat.le_max_left _ _
    · exact Nat.le_trans (ih h) (Nat.le_max_right _ _)

variable {a b : Definition}

theorem equalWithin_iff {n : Nat} (ha : a.NaNFree) (hb : b.NaNFree) (hda : a.depth ≤ n)
    (hdb : b.depth ≤ n) : equalWithin n a b = true ↔ SameShape a b := by
  induction n generalizing a b with
  | zero =>
    have hpos := a.depth_pos
    omega
  | succ n ih =>
    -- Definitions of two kinds are neither equal nor of the same shape.
    have hdiffers : equalWithin (n + 1) a b = false → ¬ SameShape a b →
        (equalWithin (n + 1) a b = true ↔ SameShape a b) := fun h h' => by simp [h, h']
    cases a with
    | primitive k =>
      cases b with
      | primitive l =>
        simp only [equalWithin, decide_eq_true_eq]
        exact ⟨fun h => h ▸ .primitive, fun h => by cases h; rfl⟩
      | _ => exact hdiffers rfl nofun
    | range r =>
      cases b with
      | range s =>
        rw [equalWithin, range_equal_iff ha hb]
        exact ⟨.range, fun h => by cases h; assumption⟩
      | _ => exact hdiffers rfl nofun
    | pattern literal =>
      cases b with
      | pattern other =>
        simp only [equalWithin, decide_eq_true_eq]
        exact ⟨fun h => h ▸ .pattern, fun h => by cases h; rfl⟩
      | _ => exact hdiffers rfl nofun
    | object members =>
      cases b with
      | object others =>
        rw [equalWithin, sameShape_object_iff]
        refine Member.sameCounts_iff fun x hx y hy => member_equal_iff ?_
        have hparts : ∀ m ∈ members ++ others, m.value.NaNFree ∧ m.value.depth ≤ n := by
          intro m hm
          rw [depth] at hda hdb
          rcases List.mem_append.mp hm with hm | hm
          · exact ⟨nanFree_object_iff.mp ha m hm, Nat.le_trans (depth_le_of_mem hm) (by omega)⟩
          · exact ⟨nanFree_object_iff.mp hb m hm, Nat.le_trans (depth_le_of_mem hm) (by omega)⟩
        exact ih (hparts x hx).1 (hparts y hy).1 (hparts x hx).2 (hparts y hy).2
      | _ => exact hdiffers rfl nofun
    | enumeration values =>
      cases b with
      | enumeration others =>
        simp only [equalWithin, decide_eq_true_eq]
        exact ⟨fun h => h ▸ .enumeration, fun h => by cases h; rfl⟩
      | _ => exact hdiffers rfl nofun
    | array element =>
      cases b with
      | array other =>
        cases element with
        | none =>
          cases other with
          | none => exact ⟨fun _ => .emptyArray, fun _ => rfl⟩
          | some other => exact hdiffers rfl nofun
        | some element =>
          cases other with
          | none => exact hdiffers rfl nofun
          | some other =>
            rw [depth, elementDepth] at hda hdb
            have hequal := ih (a := element) (b := other) ha hb (by omega) (by omega)
            exact hequal.trans ⟨.array, fun h => by cases h; assumption⟩
      | _ => exact hdiffers (by cases element <;> rfl) nofun

theorem equal_iff (ha : a.NaNFree) (hb : b.NaNFree) : a.equal b = true ↔ SameShape a b :=
  equalWithin_iff ha hb (Nat.le_max_left _ _) (Nat.le_max_right _ _)

/-- Members are matched when each one occurs in both objects equally often. -/
theorem matched_iff_counts {members others : List (Member Definition)}
    (hmembers : (object members).NaNFree) (hothers : (object others).NaNFree) :
    Matched Member.SameShape members others ↔ ∀ m : Member Definition, m.value.NaNFree →
      m.count equal members = m.count equal others := by
  classical
  rw [nanFree_object_iff] at hmembers hothers
  have hcount : ∀ {list : List (Member Definition)}, (∀ n ∈ list, n.value.NaNFree) →
      ∀ m : Member Definition, m.value.NaNFree →
        m.count equal list = (list.map Member.shape).count m.shape :=
    fun hlist m hm => Member.count_eq_count_shape fun n hn =>
      member_equal_iff (equal_iff (hlist n hn) hm)
  refine Matched.iff_perm_classes.trans ⟨fun h m hm => ?_, fun h => ?_⟩
  · rw [hcount hmembers m hm, hcount hothers m hm, h.count_eq]
  · refine List.perm_iff_count.mpr fun q => ?_
    -- A shape that occurs at all is the one of a member of the two objects.
    by_cases hq : q ∈ members.map Member.shape ++ others.map Member.shape
    · rw [← List.map_append] at hq
      obtain ⟨m, hm, rfl⟩ := List.mem_map.mp hq
      have hvalue : m.value.NaNFree := (List.mem_append.mp hm).elim (hmembers m) (hothers m)
      rw [← hcount hmembers m hvalue, ← hcount hothers m hvalue, h m hvalue]
    · rw [List.mem_append, not_or] at hq
      rw [List.count_eq_zero_of_not_mem hq.1, List.count_eq_zero_of_not_mem hq.2]

/-- On definitions without a bound that is not a number, equality is to have the same shape: an
    equivalence, for which objects are equal when every member occurs equally often in both. -/
theorem equal_sameShape :
    (∀ a b : Definition, a.NaNFree → b.NaNFree → (a.equal b = true ↔ SameShape a b)) ∧
      Equivalence (fun a b : { d : Definition // d.NaNFree } => a.val.equal b.val = true) ∧
        ∀ members others : List (Member Definition), (object members).NaNFree →
          (object others).NaNFree → ((object members).equal (object others) = true ↔
            ∀ m : Member Definition, m.value.NaNFree →
              m.count equal members = m.count equal others) := by
  refine ⟨fun a b => equal_iff, ⟨fun a => ?_, fun {a b} h => ?_, fun {a b c} h h' => ?_⟩, ?_⟩
  · exact (equal_iff a.property a.property).mpr (.refl _)
  · rw [equal_iff a.property b.property] at h
    exact (equal_iff b.property a.property).mpr h.symm
  · rw [equal_iff a.property b.property] at h
    rw [equal_iff b.property c.property] at h'
    exact (equal_iff a.property c.property).mpr (h.trans h')
  · intro members others hmembers hothers
    rw [equal_iff hmembers hothers, sameShape_object_iff, matched_iff_counts hmembers hothers]

/-- Members in another order at two depths, and both zeros. -/
theorem equal_sameShape_reordered :
    let flat := object [⟨"x", false, .primitive .int⟩, ⟨"y", false, .primitive .bool⟩]
    let turned := object [⟨"y", false, .primitive .bool⟩, ⟨"x", false, .primitive .int⟩]
    let a := object [⟨"n", false, .range ⟨.double, some (.float ⟨0⟩), none⟩⟩, ⟨"s", true, flat⟩]
    let b := object
      [⟨"s", true, turned⟩, ⟨"n", false, .range ⟨.double, some (.float ⟨0x8000000000000000⟩), none⟩⟩]
    a.NaNFree ∧ b.NaNFree ∧ a.equal b = true ∧ SameShape a b := by
  intro flat turned a b
  have ha : a.NaNFree := by
    intro x hx
    obtain rfl : x = ⟨0⟩ := by simpa [a, flat, bounds, membersBounds] using hx
    rfl
  have hb : b.NaNFree := by
    intro x hx
    obtain rfl : x = ⟨0x8000000000000000⟩ := by simpa [b, turned, bounds, membersBounds] using hx
    rfl
  have hequal : a.equal b = true := by decide
  exact ⟨ha, hb, hequal, (equal_sameShape.1 a b ha hb).mp hequal⟩

end Definition

end CompactSchema
