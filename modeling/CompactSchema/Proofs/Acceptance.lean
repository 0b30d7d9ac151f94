import CompactSchema.Proofs.Equality
import CompactSchema.Proofs.Rejection

set_option autoImplicit false

/-!
# Accepted values

What it takes for a value to be accepted, by the kind of the definition: no member and no item asks
for more than its own definition does, and none of them depends on the others. Definitions of the
same shape therefore accept the same values, in whatever order their members are checked.
-/

namespace CompactSchema

namespace Definition

/-- No pair that lies below is rejected. -/
def Accepts (o : Options) (d : Definition) (j : Json) : Prop :=
  ∀ route path e k, Reach d j route path e k → rejects o e k = false

/-- What a member asks of the entries of an object. -/
def Meets (o : Options) (entries : List (String × Json)) (m : Member Definition) : Prop :=
  (m.optional && isAbsent (Json.lookup? m.name entries)) = false →
    Accepts o m.value ((Json.lookup? m.name entries).getD .null)

variable {o : Options} {d : Definition} {j : Json}

theorem accepts_iff_below : Accepts o d j ↔
    rejects o d j = false ∧ ∀ i s e k, Below d j i s e k → Accepts o e k := by
  constructor
  · intro h
    exact ⟨h _ _ _ _ .here, fun i s e k hb route path f l hr => h _ _ _ _ (.down hb hr)⟩
  · rintro ⟨hself, hbelow⟩ route path e k hr
    cases hr with
    | here => exact hself
    | down hb hr => exact hbelow _ _ _ _ hb _ _ _ _ hr

theorem accepts_iff_of_leaf (hleaf : ∀ i s e k, ¬ Below d j i s e k) :
    Accepts o d j ↔ rejects o d j = false :=
  accepts_iff_below.trans (and_iff_left fun i s e k hb => absurd hb (hleaf i s e k))

@[simp] theorem accepts_primitive_iff {keyword : Keyword} :
    Accepts o (.primitive keyword) j ↔ keyword.accepts j = true := by
  refine (accepts_iff_of_leaf fun _ _ _ _ h => by cases h).trans ?_
  rw [rejects, Bool.not_eq_false']

@[simp] theorem accepts_range_iff {r : Range} : Accepts o (.range r) j ↔ r.accepts o j = true := by
  refine (accepts_iff_of_leaf fun _ _ _ _ h => by cases h).trans ?_
  rw [rejects, Bool.not_eq_false']

@[simp] theorem accepts_enumeration_iff {values : List Int64} :
    Accepts o (.enumeration values) j ↔ enumerates values j = true := by
  refine (accepts_iff_of_leaf fun _ _ _ _ h => by cases h).trans ?_
  rw [rejects, Bool.not_eq_false']

@[simp] theorem accepts_pattern_iff {literal : PatternLiteral} :
    Accepts o (.pattern literal) j ↔ ∃ s, j = .string s ∧ literal.isMatch s = true := by
  refine (accepts_iff_of_leaf fun _ _ _ _ h => by cases h).trans ?_
  cases j <;> simp [rejects]

@[simp] theorem accepts_object_iff {members : List (Member Definition)} :
    Accepts o (.object members) j ↔
      ∃ entries, j = .object entries ∧ ∀ m ∈ members, Meets o entries m := by
  rw [accepts_iff_below]
  constructor
  · rintro ⟨hself, hbelow⟩
    cases j with
    | object entries =>
      refine ⟨entries, rfl, fun m hm hasks => ?_⟩
      obtain ⟨i, hi⟩ := List.mem_iff_getElem?.mp hm
      exact hbelow _ _ _ _ (.member hi hasks)
    | _ => exact absurd hself (by simp [rejects])
  · rintro ⟨entries, rfl, hmeets⟩
    refine ⟨rfl, fun i s e k hb => ?_⟩
    cases hb with
    | member hm hasks => exact hmeets _ (List.mem_of_getElem? hm) hasks

@[simp] theorem accepts_array_iff {element : Option Definition} :
    Accepts o (.array element) j ↔
      ∃ items, j = .array items ∧ ∀ e ∈ element, ∀ item ∈ items, Accepts o e item := by
  rw [accepts_iff_below]
  constructor
  · rintro ⟨hself, hbelow⟩
    cases j with
    | array items =>
      refine ⟨items, rfl, fun e he item hitem => ?_⟩
      obtain rfl := Option.mem_def.mp he
      obtain ⟨i, hi⟩ := List.mem_iff_getElem?.mp hitem
      exact hbelow _ _ _ _ (.item hi)
    | _ => exact absurd hself (by simp [rejects])
  · rintro ⟨items, rfl, hitems⟩
    refine ⟨rfl, fun i s e k hb => ?_⟩
    cases hb with
    | item hi => exact hitems _ rfl _ (List.mem_of_getElem? hi)

end Definition

theorem Validator.success_iff {d : Definition} {o : Options} {j : Json} :
    ((new d o).validate j).1.success = true ↔ d.Accepts o j := by
  have hfirst := firstRejection_validate d o j
  rw [Outcome.success, Option.isNone_iff_eq_none]
  cases hrejection : ((new d o).validate j).1.rejection with
  | none =>
    rw [hrejection] at hfirst
    exact iff_of_true rfl hfirst
  | some r =>
    rw [hrejection] at hfirst
    obtain ⟨route, k, hr, hrejects, -⟩ := hfirst
    refine iff_of_false (Option.some_ne_none r) fun haccepts => ?_
    rw [haccepts _ _ _ _ hr] at hrejects
    exact Bool.false_ne_true hrejects

/-! ## Definitions of the same shape -/

namespace Bound

variable {a b : Bound} {a? b? : Option Bound}

theorem SameValue.compare?_eq (h : SameValue a b) (m : Magnitude) : m.compare? a = m.compare? b := by
  cases h with
  | int => rfl
  | float h => cases m <;> exact h.compare?_eq _

theorem SameValue?.notBelow_eq (h : SameValue? a? b?) (m : Magnitude) :
    m.notBelow a? = m.notBelow b? := by
  cases h with
  | absent => rfl
  | present h => simp [Magnitude.notBelow, h.compare?_eq]

theorem SameValue?.notAbove_eq (h : SameValue? a? b?) (m : Magnitude) :
    m.notAbove a? = m.notAbove b? := by
  cases h with
  | absent => rfl
  | present h => simp [Magnitude.notAbove, h.compare?_eq]

end Bound

theorem Range.SameShape.accepts_eq {r s : Range} (h : r.SameShape s) (o : Options) (j : Json) :
    r.accepts o j = s.accepts o j := by
  simp only [Range.accepts, h.keyword, h.minimum.notBelow_eq, h.maximum.notAbove_eq]

namespace Definition

theorem SameShape.accepts_iff {a b : Definition} (h : SameShape a b) {o : Options} {j : Json} :
    Accepts o a j ↔ Accepts o b j := by
  induction h generalizing j with
  | primitive | pattern | enumeration | emptyArray => rfl
  | range h => rw [accepts_range_iff, accepts_range_iff, h.accepts_eq]
  | object hhere hthere hheads _ ih =>
    rw [accepts_object_iff, accepts_object_iff]
    refine exists_congr fun entries => and_congr_right fun _ => ?_
    simp only [hhere.mem_iff, hthere.mem_iff, List.forall_mem_map]
    refine forall₂_congr fun p hp => ?_
    rw [Meets, Meets, (hheads p hp).1, (hheads p hp).2, ih p hp]
  | array _ ih => simp [ih]

/-- Equal definitions accept the same values. -/
theorem success_of_equal {a b : Definition} (ha : a.NaNFree) (hb : b.NaNFree)
    (h : a.equal b = true) (o : Options) (j : Json) :
    ((Validator.new a o).validate j).1.success = ((Validator.new b o).validate j).1.success := by
  have hshape := (equal_iff ha hb).mp h
  rw [Bool.eq_iff_iff, Validator.success_iff, Validator.success_iff]
  exact hshape.accepts_iff

/-- Both reject, and each of them names the member that it checks first. -/
theorem success_of_equal_reordered :
    let a := object [⟨"x", false, .primitive .int⟩, ⟨"y", false, .primitive .bool⟩]
    let b := object [⟨"y", false, .primitive .bool⟩, ⟨"x", false, .primitive .int⟩]
    let outcome := fun d => ((Validator.new d {}).validate (.object [])).1
    a.NaNFree ∧ b.NaNFree ∧ a.equal b = true ∧ (outcome a).success = (outcome b).success ∧
      (outcome a).path = [.name "x"] ∧ (outcome b).path = [.name "y"] := by
  intro a b outcome
  have ha : a.NaNFree := fun x hx => by simp [a, bounds, membersBounds] at hx
  have hb : b.NaNFree := fun x hx => by simp [b, bounds, membersBounds] at hx
  have hequal : a.equal b = true := by decide
  exact ⟨ha, hb, hequal, success_of_equal ha hb hequal {} (.object []), rfl, rfl⟩

end Definition

end CompactSchema
