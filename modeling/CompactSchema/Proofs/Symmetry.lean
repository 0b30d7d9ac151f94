import CompactSchema.Proofs.Equality

set_option autoImplicit false

/-!
# Symmetry of equality

Equality is symmetric as long as the bounds in the members of objects are numbers; elsewhere a bound
may be something else. A member that is not equal to itself occurs nowhere, in its own object
neither, so an object of such members has the same counts as any other of the same length.
-/

namespace CompactSchema

theorem Binary64.equal_comm (x y : Binary64) : x.equal y = y.equal x := by
  have hkey : compare x.key y.key = .eq ↔ compare y.key x.key = .eq := by
    rw [Std.LawfulEqCmp.compare_eq_iff_eq, Std.LawfulEqCmp.compare_eq_iff_eq, eq_comm]
  unfold equal compare?
  rw [Bool.or_comm]
  split
  · rfl
  · simpa using hkey

theorem Bound.equal_comm (a b : Bound) : a.equal b = b.equal a := by
  cases a with
  | int i =>
    cases b with
    | int j => exact decide_eq_decide.mpr eq_comm
    | float y => rfl
  | float x =>
    cases b with
    | int j => rfl
    | float y => exact Binary64.equal_comm x y

theorem Bound.equal?_comm (a? b? : Option Bound) : equal? a? b? = equal? b? a? := by
  cases a? with
  | none => cases b? <;> rfl
  | some a =>
    cases b? with
    | none => rfl
    | some b => exact Bound.equal_comm a b

theorem Range.equal_comm (r s : Range) : r.equal s = s.equal r := by
  rw [Range.equal, Range.equal, Bound.equal?_comm r.minimum, Bound.equal?_comm r.maximum,
    decide_eq_decide.mpr eq_comm]

namespace Definition

/-- The members of an object, also of one inside of arrays. -/
def innerMembers : Definition → List (Member Definition)
  | object members => members
  | array (some element) => element.innerMembers
  | _ => []

variable {a b : Definition}

theorem equal_comm_of_within (h : ∀ n, equalWithin (n + 1) a b = equalWithin (n + 1) b a) :
    a.equal b = b.equal a := by
  rw [equal, equal, Nat.max_comm]
  cases max b.depth a.depth with
  | zero => rfl
  | succ n => exact h n

theorem equal_array (element other : Definition) :
    (array (some element)).equal (array (some other)) = element.equal other := by
  rw [equal, depth, depth, elementDepth, elementDepth, Nat.add_max_add_right, equalWithin, equal]

theorem equal_object (members others : List (Member Definition)) :
    (object members).equal (object others) =
      Member.sameCounts (equalWithin (max (membersDepth members) (membersDepth others)))
        members others := by
  rw [equal, depth, depth, Nat.add_max_add_right, equalWithin]

theorem equalWithin_comm_of_leaf (hobject : ∀ members, a ≠ object members)
    (harray : ∀ element, a ≠ array (some element)) (n : Nat) :
    equalWithin n a b = equalWithin n b a := by
  cases n with
  | zero => rfl
  | succ n =>
    cases a with
    | primitive k =>
      cases b with
      | primitive l => exact decide_eq_decide.mpr eq_comm
      | _ => simp [equalWithin]
    | range r =>
      cases b with
      | range s => exact Range.equal_comm r s
      | _ => simp [equalWithin]
    | pattern p =>
      cases b with
      | pattern q => exact decide_eq_decide.mpr eq_comm
      | _ => simp [equalWithin]
    | object members => exact absurd rfl (hobject members)
    | enumeration values =>
      cases b with
      | enumeration others => exact decide_eq_decide.mpr eq_comm
      | _ => simp [equalWithin]
    | array element =>
      cases element with
      | none =>
        cases b with
        | array other => cases other <;> rfl
        | _ => rfl
      | some element => exact absurd rfl (harray element)

/-- Equality is symmetric as far as it is for the objects that are compared. -/
theorem equal_comm_of_objects (a b : Definition)
    (h : (object a.innerMembers).equal (object b.innerMembers) =
      (object b.innerMembers).equal (object a.innerMembers)) : a.equal b = b.equal a := by
  fun_induction innerMembers a generalizing b with
  | case1 members =>
    cases b with
    | object others => exact h
    | array _ => exact equal_comm_of_within fun _ => by simp [equalWithin]
    | _ => exact equal_comm_of_within fun _ => rfl
  | case2 element ih =>
    cases b with
    | array other =>
      cases other with
      | none => exact equal_comm_of_within fun _ => rfl
      | some other =>
        rw [equal_array, equal_array]
        exact ih other h
    | _ => exact equal_comm_of_within fun _ => rfl
  | case3 a hobject harray =>
    exact equal_comm_of_within fun n => equalWithin_comm_of_leaf hobject harray (n + 1)

/-- Objects whose members have numbers as bounds. -/
theorem equal_object_comm {members others : List (Member Definition)}
    (hmembers : ∀ m ∈ members, m.value.NaNFree) (hothers : ∀ m ∈ others, m.value.NaNFree) :
    (object members).equal (object others) = (object others).equal (object members) := by
  have ha := nanFree_object_iff.mpr hmembers
  have hb := nanFree_object_iff.mpr hothers
  rw [Bool.eq_iff_iff, equal_iff ha hb, equal_iff hb ha]
  exact ⟨SameShape.symm, SameShape.symm⟩

theorem equal_empty_comm (others : List (Member Definition)) :
    (object []).equal (object others) = (object others).equal (object []) := by
  rw [equal_object, equal_object]
  cases others with
  | nil => rfl
  | cons m others => rfl

/-! ## Members that occur nowhere -/

/-- An object of one member, written `n` times. -/
def copies (v : Definition) (n : Nat) : Definition := object (List.replicate n ⟨"", false, v⟩)

/-- A range whose bound is not a number. -/
def unordered : Definition := range ⟨.double, some (.float ⟨0x7ff8000000000000⟩), none⟩

theorem equalWithin_unordered (n : Nat) (d : Definition) : equalWithin n d unordered = false := by
  cases n with
  | zero => rfl
  | succ n =>
    cases d with
    | range r =>
      have hminimum : Bound.equal? r.minimum (some (.float ⟨0x7ff8000000000000⟩)) = false := by
        rcases r.minimum with _ | i | x
        · rfl
        · rfl
        · have hnan : Binary64.isNaN ⟨0x7ff8000000000000⟩ = true := by decide
          simp [Bound.equal?, Bound.equal, Binary64.equal, Binary64.compare?, hnan]
      simp [equalWithin, unordered, Range.equal, hminimum]
    | array _ => simp [equalWithin, unordered]
    | _ => rfl

theorem unordered_equalWithin (n : Nat) (d : Definition) : equalWithin n unordered d = false := by
  have hcomm : equalWithin n unordered d = equalWithin n d unordered :=
    equalWithin_comm_of_leaf (by simp [unordered]) (by simp [unordered]) n
  rw [hcomm, equalWithin_unordered]

theorem eq_of_equalWithin_int {n : Nat} {d : Definition}
    (h : equalWithin n d (primitive .int) = true) : d = primitive .int := by
  cases n with
  | zero => exact absurd h (by simp [equalWithin])
  | succ n =>
    cases d with
    | primitive k =>
      rw [equalWithin, decide_eq_true_eq] at h
      rw [h]
    | _ => exact absurd h (by simp [equalWithin])

theorem eq_of_int_equalWithin {n : Nat} {d : Definition}
    (h : equalWithin n (primitive .int) d = true) : d = primitive .int := by
  have hcomm : equalWithin n (primitive .int) d = equalWithin n d (primitive .int) :=
    equalWithin_comm_of_leaf (by simp) (by simp) n
  exact eq_of_equalWithin_int (hcomm ▸ h)

variable {members : List (Member Definition)} {v : Definition}

theorem depth_copies (hv : v.depth = 1) (n : Nat) :
    membersDepth (List.replicate n ⟨"", false, v⟩) ≤ 1 := by
  induction n with
  | zero => exact Nat.zero_le 1
  | succ n ih =>
    rw [List.replicate_succ, membersDepth, hv]
    exact Nat.max_le.mpr ⟨Nat.le_refl 1, ih⟩

theorem membersDepth_pos (h : members ≠ []) : 0 < membersDepth members := by
  obtain ⟨m, hm⟩ := List.exists_mem_of_ne_nil members h
  exact Nat.lt_of_lt_of_le m.value.depth_pos (depth_le_of_mem hm)

theorem equal_copies_iff (h : members ≠ []) (hv : v.depth = 1) :
    (object members).equal (copies v members.length) = true ↔
      ∀ m ∈ members, m.count (equalWithin (membersDepth members)) members =
        if Member.equal (equalWithin (membersDepth members)) ⟨"", false, v⟩ m
          then members.length else 0 := by
  have hdepth : max (membersDepth members)
      (membersDepth (List.replicate members.length ⟨"", false, v⟩)) = membersDepth members :=
    Nat.max_eq_left (Nat.le_trans (depth_copies hv _) (membersDepth_pos h))
  rw [copies, equal_object, hdepth]
  simp [Member.sameCounts, Member.count, List.countP_replicate]

theorem copies_equal_iff (h : members ≠ []) (hv : v.depth = 1) :
    (copies v members.length).equal (object members) = true ↔
      (if equalWithin (membersDepth members) v v then members.length else 0) =
        Member.count (equalWithin (membersDepth members)) ⟨"", false, v⟩ members := by
  have hdepth : max (membersDepth (List.replicate members.length ⟨"", false, v⟩))
      (membersDepth members) = membersDepth members :=
    Nat.max_eq_right (Nat.le_trans (depth_copies hv _) (membersDepth_pos h))
  rw [copies, equal_object, hdepth]
  simp [Member.sameCounts, Member.count, List.countP_replicate, Member.equal, h]

/-- Copies of a member that occurs nowhere are equal to any object of as many members. If that
    object is equal to them as well then none of its members occurs anywhere. -/
theorem count_eq_zero_of_comm (h : members ≠ [])
    (hcomm : (object members).equal (copies unordered members.length) =
      (copies unordered members.length).equal (object members)) :
    ∀ m ∈ members, m.count (equalWithin (membersDepth members)) members = 0 := by
  have hcopies : (copies unordered members.length).equal (object members) = true := by
    rw [copies_equal_iff h rfl, equalWithin_unordered]
    simp [Member.count, Member.equal, equalWithin_unordered]
  rw [← hcomm, equal_copies_iff h rfl] at hcopies
  simpa [Member.equal, unordered_equalWithin] using hcopies

theorem equalWithin_int {n : Nat} (h : 0 < n) :
    equalWithin n (primitive .int) (primitive .int) = true := by
  obtain ⟨n, rfl⟩ := Nat.exists_eq_succ_of_ne_zero (Nat.ne_of_gt h)
  rfl

/-- A member with an equal value would occur at least once. -/
theorem value_ne_int (h : members ≠ [])
    (hcount : ∀ m ∈ members, m.count (equalWithin (membersDepth members)) members = 0) :
    ∀ m ∈ members, m.value ≠ primitive .int := by
  intro m hm hvalue
  have hself := List.countP_eq_zero.mp (hcount m hm) m hm
  simp [Member.equal, hvalue, equalWithin_int (membersDepth_pos h)] at hself

/-- An object of members that occur nowhere is equal to copies of any other member, too. -/
theorem exists_asymmetric (h : members ≠ []) :
    ∃ b : Definition, (object members).equal b ≠ b.equal (object members) := by
  by_contra hnone
  have hcomm : ∀ b : Definition, (object members).equal b = b.equal (object members) := by
    simpa using hnone
  have hcount := count_eq_zero_of_comm h (hcomm _)
  have hvalue := value_ne_int h hcount
  have hhere : (object members).equal (copies (primitive .int) members.length) = true := by
    refine (equal_copies_iff h rfl).mpr fun m hm => ?_
    rw [hcount m hm, if_neg]
    intro hequal
    rw [Member.equal, Bool.and_eq_true] at hequal
    exact hvalue m hm (eq_of_int_equalWithin hequal.2)
  have hnowhere : Member.count (equalWithin (membersDepth members)) ⟨"", false, primitive .int⟩
      members = 0 := by
    refine List.countP_eq_zero.mpr fun m hm hequal => ?_
    rw [Member.equal, Bool.and_eq_true] at hequal
    exact hvalue m hm (eq_of_equalWithin_int hequal.2)
  have hthere := equalWithin_int (membersDepth_pos h)
  rw [hcomm, copies_equal_iff h rfl, hthere, if_pos rfl, hnowhere] at hhere
  exact h (List.eq_nil_of_length_eq_zero hhere)

theorem innerMembers_of_symmetric (a : Definition) (h : ∀ b, a.equal b = b.equal a) :
    a.innerMembers = [] := by
  fun_induction innerMembers a with
  | case1 members =>
    by_contra hmembers
    obtain ⟨b, hb⟩ := exists_asymmetric hmembers
    exact hb (h b)
  | case2 element ih =>
    refine ih fun b => ?_
    rw [← equal_array element b, ← equal_array b element, h]
  | case3 => rfl

/-- Equality is symmetric on definitions whose objects have numbers as bounds. Just the definitions
    that hold no object with members are equal to all others whatsoever as those are to them. -/
theorem equal_comm_of_numbers (a : Definition) :
    ((∀ m ∈ a.innerMembers, m.value.NaNFree) → ∀ b : Definition,
      (∀ m ∈ b.innerMembers, m.value.NaNFree) → a.equal b = b.equal a) ∧
    ((∀ b, a.equal b = b.equal a) ↔ a.innerMembers = []) := by
  refine ⟨fun ha b hb => ?_, innerMembers_of_symmetric a, fun h b => ?_⟩
  · exact equal_comm_of_objects a b (equal_object_comm ha hb)
  · refine equal_comm_of_objects a b ?_
    rw [h]
    exact equal_empty_comm b.innerMembers

theorem equal_comm_of_numbers_zeros :
    let a := array (some (object [⟨"x", false, .range ⟨.double, some (.float ⟨0⟩), none⟩⟩,
      ⟨"y", true, .primitive .bool⟩]))
    let b := array (some (object [⟨"y", true, .primitive .bool⟩,
      ⟨"x", false, .range ⟨.double, some (.float ⟨0x8000000000000000⟩), none⟩⟩]))
    (∀ m ∈ a.innerMembers, m.value.NaNFree) ∧ (∀ m ∈ b.innerMembers, m.value.NaNFree) ∧
      a.equal b = true ∧ b.equal a = true := by
  intro a b
  have ha : ∀ m ∈ a.innerMembers, m.value.NaNFree := by
    refine nanFree_object_iff.mp fun x hx => ?_
    obtain rfl : x = ⟨0⟩ := by simpa [a, innerMembers, bounds, membersBounds] using hx
    rfl
  have hb : ∀ m ∈ b.innerMembers, m.value.NaNFree := by
    refine nanFree_object_iff.mp fun x hx => ?_
    obtain rfl : x = ⟨0x8000000000000000⟩ := by
      simpa [b, innerMembers, bounds, membersBounds] using hx
    rfl
  have hequal : a.equal b = true := by decide
  exact ⟨ha, hb, hequal, (equal_comm_of_numbers a).1 ha b hb ▸ hequal⟩

/-- A member that is not equal to itself occurs nowhere. -/
theorem not_equal_comm :
    (object [⟨"x", false, unordered⟩]).equal (object [⟨"y", false, .primitive .int⟩]) = true ∧
      (object [⟨"y", false, .primitive .int⟩]).equal (object [⟨"x", false, unordered⟩]) =
        false := by
  decide

end Definition

end CompactSchema
