import CompactSchema.Proofs.Acceptance
import Mathlib.Logic.Relation

set_option autoImplicit false

/-!
# Relaxed definitions

Changes after which a definition still accepts what it accepted: every check that is left was made
before, or follows from one that was.
-/

namespace CompactSchema

/-! ## Values without parts -/

namespace Magnitude

variable {i : Int} {a b : Int64}

theorem notBelow_int_iff : (whole i).notBelow (some (.int a)) = true ↔ a.toInt ≤ i := by
  simp [notBelow, compare?, Int.compare_eq_lt]

theorem notAbove_int_iff : (whole i).notAbove (some (.int a)) = true ↔ i ≤ a.toInt := by
  simp [notAbove, compare?, Int.compare_eq_gt]

end Magnitude

namespace Range

variable {o : Options} {j : Json} {r s : Range}

theorem accepts_iff : r.accepts o j = true ↔ ∃ m, magnitude? o r.keyword j = some m ∧
    m.notBelow r.minimum = true ∧ m.notAbove r.maximum = true := by
  unfold accepts
  cases magnitude? o r.keyword j <;> simp

theorem magnitude?_whole {keyword : Keyword} (h : keyword = .int ∨ keyword = .string) {m : Magnitude}
    (hm : magnitude? o keyword j = some m) : ∃ i, m = .whole i := by
  unfold magnitude? at hm
  split at hm
  · exact ⟨_, (Option.some.inj hm).symm⟩
  · exact absurd h (by simp)
  · exact ⟨_, (Option.some.inj hm).symm⟩
  · exact absurd hm nofun

/-- What a range measures is of its primitive type. -/
theorem accepts_keyword (h : r.accepts o j = true) : r.keyword.accepts j = true := by
  obtain ⟨m, hm, -⟩ := accepts_iff.mp h
  unfold magnitude? at hm
  split at hm
  · next hkeyword => rw [hkeyword, Keyword.accepts]
  · next hkeyword => rw [hkeyword, Keyword.accepts]
  · next hkeyword => rw [hkeyword, Keyword.accepts]
  · exact absurd hm nofun

theorem accepts_mono (h : r.accepts o j = true) (hkeyword : s.keyword = r.keyword)
    (hbounds : ∀ m, magnitude? o r.keyword j = some m →
      (m.notBelow r.minimum = true → m.notBelow s.minimum = true) ∧
        (m.notAbove r.maximum = true → m.notAbove s.maximum = true)) : s.accepts o j = true := by
  obtain ⟨m, hm, hminimum, hmaximum⟩ := accepts_iff.mp h
  obtain ⟨hlow, hhigh⟩ := hbounds m hm
  exact accepts_iff.mpr ⟨m, hkeyword ▸ hm, hlow hminimum, hhigh hmaximum⟩

end Range

namespace Definition

/-- One change that relaxes a definition, at any depth. -/
inductive Relaxed : Definition → Definition → Prop
  | delete {front back : List (Member Definition)} {m : Member Definition} :
    Relaxed (.object (front ++ m :: back)) (.object (front ++ back))
  | reorder {members others : List (Member Definition)} : members.Perm others →
    Relaxed (.object members) (.object others)
  | makeOptional {front back : List (Member Definition)} {m : Member Definition} :
    Relaxed (.object (front ++ m :: back)) (.object (front ++ { m with optional := true } :: back))
  | member {front back : List (Member Definition)} {m : Member Definition} {value : Definition} :
    Relaxed m.value value →
      Relaxed (.object (front ++ m :: back)) (.object (front ++ { m with value } :: back))
  | dropMinimum {r : Range} : Relaxed (.range r) (.range { r with minimum := none })
  | dropMaximum {r : Range} : Relaxed (.range r) (.range { r with maximum := none })
  | dropRange {r : Range} : Relaxed (.range r) (.primitive r.keyword)
  | lowerMinimum {r : Range} {a b : Int64} : r.keyword = .int ∨ r.keyword = .string →
    r.minimum = some (.int a) → b ≤ a →
      Relaxed (.range r) (.range { r with minimum := some (.int b) })
  | raiseMaximum {r : Range} {a b : Int64} : r.keyword = .int ∨ r.keyword = .string →
    r.maximum = some (.int a) → a ≤ b →
      Relaxed (.range r) (.range { r with maximum := some (.int b) })
  | addValues {values others : List Int64} : values ⊆ others →
    Relaxed (.enumeration values) (.enumeration others)
  | enumerationToInt {values : List Int64} : Relaxed (.enumeration values) (.primitive .int)
  | byteToInt : Relaxed (.primitive .byte) (.primitive .int)
  | intToDouble : Relaxed (.primitive .int) (.primitive .double)
  | timeToString {keyword : Keyword} : keyword ∈ [.date, .datetime, .time] →
    Relaxed (.primitive keyword) (.primitive .string)
  | patternToString {literal : PatternLiteral} : Relaxed (.pattern literal) (.primitive .string)
  | dropElement {element : Definition} : Relaxed (.array (some element)) (.array none)
  | element {element other : Definition} : Relaxed element other →
    Relaxed (.array (some element)) (.array (some other))

variable {o : Options} {d e : Definition} {j : Json}

theorem enumerates_iff {values : List Int64} :
    enumerates values j = true ↔ ∃ i ∈ values, j = .number (.whole i.toInt) := by
  cases j with
  | number n =>
    cases n with
    | whole i =>
      simp only [enumerates, List.any_eq_true, decide_eq_true_eq, Json.number.injEq,
        JsonNumber.whole.injEq]
      exact exists_congr fun _ => and_congr_right fun _ => eq_comm
    | float x => simp [enumerates]
  | _ => simp [enumerates]

theorem int_of_byte (h : Keyword.byte.accepts j = true) : Keyword.int.accepts j = true := by
  cases j with
  | number n =>
    cases n with
    | whole i => rfl
    | float x => exact absurd h nofun
  | _ => exact absurd h nofun

theorem double_of_int (h : Keyword.int.accepts j = true) : Keyword.double.accepts j = true := by
  cases j with
  | number n => rfl
  | _ => exact absurd h nofun

theorem string_of_time {keyword : Keyword} (hkeyword : keyword ∈ [.date, .datetime, .time])
    (h : keyword.accepts j = true) : Keyword.string.accepts j = true := by
  simp only [List.mem_cons, List.not_mem_nil, or_false] at hkeyword
  cases j with
  | string s => rfl
  | _ => rcases hkeyword with rfl | rfl | rfl <;> exact absurd h nofun

/-- Each member that is left asks no more than one that was there. -/
theorem accepts_members {members others : List (Member Definition)}
    (h : Accepts o (.object members) j)
    (hmeets : ∀ entries, ∀ n ∈ others, ∃ m ∈ members, Meets o entries m → Meets o entries n) :
    Accepts o (.object others) j := by
  rw [accepts_object_iff] at h ⊢
  obtain ⟨entries, rfl, hmembers⟩ := h
  refine ⟨entries, rfl, fun n hn => ?_⟩
  obtain ⟨m, hm, hweaker⟩ := hmeets entries n hn
  exact hweaker (hmembers m hm)

theorem accepts_replaced {front back : List (Member Definition)} {m n : Member Definition}
    (h : Accepts o (.object (front ++ m :: back)) j)
    (hmeets : ∀ entries, Meets o entries m → Meets o entries n) :
    Accepts o (.object (front ++ n :: back)) j := by
  refine accepts_members h fun entries k hk => ?_
  rcases List.mem_append.mp hk with hk | hk
  · exact ⟨k, List.mem_append_left _ hk, id⟩
  · rcases List.mem_cons.mp hk with rfl | hk
    · exact ⟨m, by simp, hmeets entries⟩
    · exact ⟨k, by simp [hk], id⟩

theorem Relaxed.accepts (h : Relaxed d e) (haccepts : Accepts o d j) : Accepts o e j := by
  induction h generalizing j with
  | @delete front back m =>
    refine accepts_members haccepts fun entries n hn => ⟨n, ?_, id⟩
    exact List.mem_append.mpr ((List.mem_append.mp hn).imp_right (List.mem_cons_of_mem m))
  | reorder hperm => exact accepts_members haccepts fun entries n hn => ⟨n, hperm.mem_iff.mpr hn, id⟩
  | makeOptional =>
    refine accepts_replaced haccepts fun entries hm hasks => hm ?_
    rw [Bool.true_and] at hasks
    rw [hasks, Bool.and_false]
  | member _ ih =>
    exact accepts_replaced haccepts fun entries hm hasks => ih (hm hasks)
  | dropMinimum =>
    rw [accepts_range_iff] at haccepts ⊢
    exact Range.accepts_mono haccepts rfl fun m _ => ⟨fun _ => rfl, id⟩
  | dropMaximum =>
    rw [accepts_range_iff] at haccepts ⊢
    exact Range.accepts_mono haccepts rfl fun m _ => ⟨id, fun _ => rfl⟩
  | dropRange =>
    rw [accepts_range_iff] at haccepts
    exact accepts_primitive_iff.mpr (Range.accepts_keyword haccepts)
  | lowerMinimum hkeyword hminimum hle =>
    rw [accepts_range_iff] at haccepts ⊢
    refine Range.accepts_mono haccepts rfl fun m hm => ⟨fun hlow => ?_, id⟩
    obtain ⟨i, rfl⟩ := Range.magnitude?_whole hkeyword hm
    rw [hminimum, Magnitude.notBelow_int_iff] at hlow
    exact Magnitude.notBelow_int_iff.mpr (Int.le_trans (Int64.le_iff_toInt_le.mp hle) hlow)
  | raiseMaximum hkeyword hmaximum hle =>
    rw [accepts_range_iff] at haccepts ⊢
    refine Range.accepts_mono haccepts rfl fun m hm => ⟨id, fun hhigh => ?_⟩
    obtain ⟨i, rfl⟩ := Range.magnitude?_whole hkeyword hm
    rw [hmaximum, Magnitude.notAbove_int_iff] at hhigh
    exact Magnitude.notAbove_int_iff.mpr (Int.le_trans hhigh (Int64.le_iff_toInt_le.mp hle))
  | addValues hsub =>
    rw [accepts_enumeration_iff, enumerates_iff] at haccepts ⊢
    obtain ⟨i, hi, rfl⟩ := haccepts
    exact ⟨i, hsub hi, rfl⟩
  | enumerationToInt =>
    rw [accepts_enumeration_iff, enumerates_iff] at haccepts
    obtain ⟨i, -, rfl⟩ := haccepts
    exact accepts_primitive_iff.mpr rfl
  | byteToInt => exact accepts_primitive_iff.mpr (int_of_byte (accepts_primitive_iff.mp haccepts))
  | intToDouble => exact accepts_primitive_iff.mpr (double_of_int (accepts_primitive_iff.mp haccepts))
  | timeToString hkeyword =>
    exact accepts_primitive_iff.mpr (string_of_time hkeyword (accepts_primitive_iff.mp haccepts))
  | patternToString =>
    obtain ⟨s, rfl, -⟩ := accepts_pattern_iff.mp haccepts
    exact accepts_primitive_iff.mpr rfl
  | dropElement =>
    obtain ⟨items, rfl, -⟩ := accepts_array_iff.mp haccepts
    exact accepts_array_iff.mpr ⟨items, rfl, nofun⟩
  | element _ ih =>
    obtain ⟨items, rfl, hitems⟩ := accepts_array_iff.mp haccepts
    refine accepts_array_iff.mpr ⟨items, rfl, fun other hother item hitem => ?_⟩
    obtain rfl := Option.some.inj hother
    exact ih (hitems _ rfl item hitem)

/-- A value that is accepted is accepted however often the definition is relaxed. -/
theorem success_of_relaxed (h : Relation.ReflTransGen Relaxed d e) {o : Options} {j : Json}
    (hsuccess : ((Validator.new d o).validate j).1.success = true) :
    ((Validator.new e o).validate j).1.success = true := by
  rw [Validator.success_iff] at hsuccess ⊢
  induction h with
  | refl => exact hsuccess
  | tail _ hstep ih => exact hstep.accepts ih

theorem success_of_relaxed_nested :
    let bytes := fun keyword => (⟨"b", true, .array (some (.primitive keyword))⟩ : Member Definition)
    let d := object [⟨"n", false, .range ⟨.int, some (.int 5), some (.int 9)⟩⟩, bytes .byte]
    let e := object [bytes .double, ⟨"n", true, .range ⟨.int, some (.int (-1)), none⟩⟩]
    let j := Json.object [("b", .array [.number (.whole 200)]), ("n", .number (.whole 7))]
    Relation.ReflTransGen Relaxed d e ∧ ((Validator.new d {}).validate j).1.success = true ∧
      ((Validator.new e {}).validate j).1.success = true := by
  intro bytes d e j
  have hrelaxed : Relation.ReflTransGen Relaxed d e := by
    refine .head (@Relaxed.member [] _ _ _ (.lowerMinimum (b := -1) (.inl rfl) rfl (by decide))) ?_
    refine .head (@Relaxed.member [] _ _ _ .dropMaximum) ?_
    refine .head (@Relaxed.makeOptional [] _ _) ?_
    refine .head (@Relaxed.member [_] [] _ _ (.element .byteToInt)) ?_
    refine .head (@Relaxed.member [_] [] _ _ (.element .intToDouble)) ?_
    exact .single (.reorder (.swap _ _ _))
  have hsuccess : ((Validator.new d {}).validate j).1.success = true := rfl
  exact ⟨hrelaxed, hsuccess, success_of_relaxed hrelaxed hsuccess⟩

end Definition

end CompactSchema
