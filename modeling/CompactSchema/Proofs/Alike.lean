import CompactSchema.Proofs.Equality
import CompactSchema.Proofs.Rejection

set_option autoImplicit false

/-!
# Documents that a definition does not tell apart

Two documents are alike under a definition when they differ only in entries that it does not
declare, in whether an entry is absent or null, and in the items of an array of no declared element.
A step down in the one document has its counterpart in the other, so both have the same first
rejection.
-/

namespace CompactSchema

theorem Binary64.SameNumber.compare?_left {x y : Binary64} (h : x.SameNumber y) (z : Binary64) :
    x.compare? z = y.compare? z := by
  have hnan : x.isNaN = y.isNaN := by
    rcases h with rfl | ⟨hx, hy⟩
    · rfl
    · rw [isNaN, isNaN, hx, hy]
  rw [compare?, compare?, key_eq_iff.mpr h, hnan]

/-! ## Equal values -/

inductive JsonNumber.Same : JsonNumber → JsonNumber → Prop
  | whole {i : Int} : Same (.whole i) (.whole i)
  | float {x y : Binary64} : x.SameNumber y → Same (.float x) (.float y)

namespace JsonNumber

variable {m n : JsonNumber}

theorem Same.symm (h : Same m n) : Same n m := by
  cases h with
  | whole => exact .whole
  | float h => exact .float h.symm

theorem Same.toBinary64 (h : Same m n) : m.toBinary64.SameNumber n.toBinary64 := by
  cases h with
  | whole => exact .inl rfl
  | float h => exact h

end JsonNumber

namespace Json

/-- Equality of documents: entries stand in any order, of several with one name the last one
    counts, and both zeros are equal. -/
inductive Same : Json → Json → Prop
  | null : Same .null .null
  | bool {b : Bool} : Same (.bool b) (.bool b)
  | number {m n : JsonNumber} : m.Same n → Same (.number m) (.number n)
  | string {s : String} : Same (.string s) (.string s)
  | array {items others : List Json} : items.length = others.length →
      (∀ (i : Nat) (a b : Json), items[i]? = some a → others[i]? = some b → Same a b) →
        Same (.array items) (.array others)
  | object {entries others : List (String × Json)} :
      (∀ name, (lookup? name entries).isSome = (lookup? name others).isSome) →
        (∀ name a b, lookup? name entries = some a → lookup? name others = some b → Same a b) →
          Same (.object entries) (.object others)

variable {v w : Json} {entries others : List (String × Json)}

theorem Same.symm (h : Same v w) : Same w v := by
  induction h with
  | null => exact .null
  | bool => exact .bool
  | number h => exact .number h.symm
  | string => exact .string
  | array hlength _ ih => exact .array hlength.symm fun i a b ha hb => ih i b a hb ha
  | object hnames _ ih =>
    exact .object (fun name => (hnames name).symm) fun name a b ha hb => ih name b a hb ha

theorem Same.eq_null_iff (h : Same v w) : v = .null ↔ w = .null := by
  cases h <;> simp

/-- Read as null where it is absent, an entry is the same in both. -/
theorem Same.entry (h : Same (.object entries) (.object others)) (name : String) :
    Same ((lookup? name entries).getD .null) ((lookup? name others).getD .null) := by
  cases h with
  | object hnames hvalues =>
    have hname := hnames name
    cases ha : lookup? name entries with
    | none =>
      rw [ha, Option.isSome_none, eq_comm, Option.isSome_eq_false_iff, Option.isNone_iff_eq_none]
        at hname
      rw [hname]
      exact .null
    | some a =>
      rw [ha, Option.isSome_some, eq_comm, Option.isSome_iff_exists] at hname
      obtain ⟨b, hb⟩ := hname
      rw [hb]
      exact hvalues name a b ha hb

end Json

namespace Definition

theorem isAbsent_iff {entry : Option Json} : isAbsent entry = true ↔ entry.getD .null = .null := by
  rcases entry with _ | (_ | _ | _ | _ | _ | _) <;> simp [isAbsent]

/-! ## Alike under a definition -/

/-- Two documents that `d` does not tell apart. -/
inductive Alike : Definition → Json → Json → Prop
  | same {d : Definition} {v w : Json} : v.Same w → Alike d v w
  | object {members : List (Member Definition)} {entries others : List (String × Json)} :
      (∀ m ∈ members, isAbsent (Json.lookup? m.name entries) =
        isAbsent (Json.lookup? m.name others)) →
        (∀ m ∈ members, ∀ a b, Json.lookup? m.name entries = some a → a ≠ .null →
          Json.lookup? m.name others = some b → b ≠ .null → Alike m.value a b) →
          Alike (.object members) (.object entries) (.object others)
  | items {element : Definition} {items others : List Json} : items.length = others.length →
      (∀ (i : Nat) (a b : Json), items[i]? = some a → others[i]? = some b → Alike element a b) →
        Alike (.array (some element)) (.array items) (.array others)
  | anyItems {items others : List Json} : Alike (.array none) (.array items) (.array others)

variable {d e : Definition} {v w a : Json} {i : Nat} {s : Segment} {o : Options}

theorem Alike.symm (h : Alike d v w) : Alike d w v := by
  induction h with
  | same h => exact .same h.symm
  | object habsent _ ih =>
    exact .object (fun m hm => (habsent m hm).symm) fun m hm a b ha hna hb hnb =>
      ih m hm b a hb hnb ha hna
  | items hlength _ ih => exact .items hlength.symm fun i a b ha hb => ih i b a hb ha
  | anyItems => exact .anyItems

/-- An entry that a member asks for, read as null where it is absent, is alike in both. -/
theorem Alike.entry {m : Member Definition} {entries others : List (String × Json)}
    (habsent : isAbsent (Json.lookup? m.name entries) = isAbsent (Json.lookup? m.name others))
    (hvalue : ∀ a b, Json.lookup? m.name entries = some a → a ≠ .null →
      Json.lookup? m.name others = some b → b ≠ .null → Alike m.value a b) :
    Alike m.value ((Json.lookup? m.name entries).getD .null)
      ((Json.lookup? m.name others).getD .null) := by
  have hpresent : ∀ {entry : Option Json}, isAbsent entry = false →
      ∃ a, entry = some a ∧ a ≠ .null := by
    intro entry h
    cases entry with
    | none => exact absurd h (by simp [isAbsent])
    | some a => exact ⟨a, rfl, fun hnull => by simp [isAbsent, hnull] at h⟩
  by_cases h : isAbsent (Json.lookup? m.name entries) = true
  · rw [isAbsent_iff.mp h, isAbsent_iff.mp (habsent ▸ h)]
    exact .same .null
  · rw [Bool.not_eq_true] at h
    obtain ⟨a, ha, hna⟩ := hpresent h
    obtain ⟨b, hb, hnb⟩ := hpresent (habsent ▸ h)
    rw [ha, hb]
    exact hvalue a b ha hna hb hnb

/-! ## Walking two documents that are alike -/

theorem getElem?_of_length_eq {α : Type} {items others : List α} {x : α}
    (hlength : items.length = others.length) (h : items[i]? = some x) :
    ∃ y, others[i]? = some y := by
  obtain ⟨hlt, -⟩ := List.getElem?_eq_some_iff.mp h
  exact ⟨_, List.getElem?_eq_getElem (hlength ▸ hlt)⟩

/-- A step down in the one document has its counterpart in the other. -/
theorem Alike.down (h : Alike d v w) (hb : Below d v i s e a) :
    ∃ b, Below d w i s e b ∧ Alike e a b := by
  cases h with
  | same h =>
    cases hb with
    | @member _ entries _ m hm hskip =>
      cases h with
      | @object _ others hnames hvalues =>
        have hentry := Json.Same.entry (.object hnames hvalues) m.name
        have habsent : isAbsent (Json.lookup? m.name entries) =
            isAbsent (Json.lookup? m.name others) := by
          rw [Bool.eq_iff_iff, isAbsent_iff, isAbsent_iff, hentry.eq_null_iff]
        exact ⟨_, .member hm (habsent ▸ hskip), .same hentry⟩
    | item hitem =>
      cases h with
      | array hlength hitems =>
        obtain ⟨b, hother⟩ := getElem?_of_length_eq hlength hitem
        exact ⟨b, .item hother, .same (hitems _ _ _ hitem hother)⟩
  | object habsent hvalues =>
    cases hb with
    | @member _ _ _ m hm hskip =>
      have hmem := List.mem_of_getElem? hm
      exact ⟨_, .member hm (habsent m hmem ▸ hskip), .entry (habsent m hmem) (hvalues m hmem)⟩
  | items hlength hitems =>
    cases hb with
    | item hitem =>
      obtain ⟨b, hother⟩ := getElem?_of_length_eq hlength hitem
      exact ⟨b, .item hother, hitems _ _ _ hitem hother⟩
  | anyItems => exact nomatch hb

theorem Alike.reach {route : List Nat} {path : List Segment} (h : Alike d v w)
    (hr : Reach d v route path e a) : ∃ b, Reach d w route path e b ∧ Alike e a b := by
  induction hr generalizing w with
  | here => exact ⟨w, .here, h⟩
  | down hb _ ih =>
    obtain ⟨b, hbelow, hnext⟩ := h.down hb
    obtain ⟨c, hreach, hend⟩ := ih hnext
    exact ⟨c, .down hbelow hreach, hend⟩

end Definition

theorem Magnitude.compare?_same {m n : JsonNumber} (h : m.Same n) (b : Bound) :
    (Magnitude.float m.toBinary64).compare? b = (Magnitude.float n.toBinary64).compare? b :=
  h.toBinary64.compare?_left _

theorem Range.accepts_same {o : Options} {v w : Json} (r : Range) (h : v.Same w) :
    r.accepts o v = r.accepts o w := by
  cases h with
  | number h =>
    have hdouble := Magnitude.compare?_same h
    obtain ⟨keyword, minimum, maximum⟩ := r
    cases keyword with
    | double => simp only [accepts, magnitude?, Magnitude.notBelow, Magnitude.notAbove, hdouble]
    | int => cases h <;> rfl
    | _ => rfl
  | null | bool | string => rfl
  | array | object => obtain ⟨_ | _ | _ | _ | _ | _ | _ | _, _, _⟩ := r <;> rfl

namespace Definition

variable {d : Definition} {v w : Json} {o : Options}

theorem rejects_same (d : Definition) (h : v.Same w) : rejects o d v = rejects o d w := by
  cases d with
  | range r => exact congrArg not (r.accepts_same h)
  | primitive keyword =>
    refine congrArg not ?_
    cases h with
    | number h => cases h <;> cases keyword <;> rfl
    | null | bool | string => rfl
    | array | object => cases keyword <;> rfl
  | enumeration values =>
    cases h with
    | number h => cases h <;> rfl
    | _ => rfl
  | _ => cases h <;> rfl

theorem Alike.rejects_eq (h : Alike d v w) : rejects o d v = rejects o d w := by
  cases h with
  | same h => exact rejects_same d h
  | object | items | anyItems => rfl

/-! ## One first rejection -/

theorem reach_functional {e f : Definition} {k l : Json} {route : List Nat}
    {path other : List Segment} (h : Reach d v route path e k) (h' : Reach d v route other f l) :
    path = other ∧ e = f ∧ k = l := by
  induction h generalizing other with
  | here =>
    cases h'
    exact ⟨rfl, rfl, rfl⟩
  | down hb _ ih =>
    cases h' with
    | down hb' hr' =>
      obtain ⟨rfl, rfl, rfl⟩ := below_functional hb hb'
      obtain ⟨rfl, hend⟩ := ih hr'
      exact ⟨rfl, hend⟩

theorem firstRejection_unique {found other : Option Rejection} (h : FirstRejection o d v found)
    (h' : FirstRejection o d v other) : found = other := by
  cases found with
  | none =>
    cases other with
    | none => rfl
    | some r =>
      obtain ⟨route, k, hr, hrejects, -⟩ := h'
      exact absurd hrejects (by simp [h _ _ _ _ hr])
  | some r =>
    obtain ⟨route, k, hr, hrejects, hfirst⟩ := h
    cases other with
    | none => exact absurd hrejects (by simp [h' _ _ _ _ hr])
    | some r' =>
      obtain ⟨route', k', hr', hrejects', hfirst'⟩ := h'
      -- Were the two routes different, each would come before the other.
      obtain rfl : route = route' := by
        by_contra hne
        exact List.lt_asymm (hfirst _ _ _ _ hr' hrejects' (Ne.symm hne))
          (hfirst' _ _ _ _ hr hrejects hne)
      obtain ⟨hpath, hdeclaration, -⟩ := reach_functional hr hr'
      obtain ⟨declaration, path⟩ := r
      obtain ⟨declaration', path'⟩ := r'
      rw [show declaration = declaration' from hdeclaration, show path = path' from hpath]

theorem Alike.firstRejection {found : Option Rejection} (h : Alike d v w)
    (hfound : FirstRejection o d v found) : FirstRejection o d w found := by
  cases found with
  | none =>
    intro route path e k hr
    obtain ⟨l, hr', hend⟩ := h.symm.reach hr
    rw [hend.rejects_eq]
    exact hfound _ _ _ _ hr'
  | some r =>
    obtain ⟨route, k, hr, hrejects, hfirst⟩ := hfound
    obtain ⟨l, hr', hend⟩ := h.reach hr
    refine ⟨route, l, hr', hend.rejects_eq ▸ hrejects, ?_⟩
    intro other path e k' hother hrejects' hne
    obtain ⟨l', hother', hend'⟩ := h.symm.reach hother
    exact hfirst _ _ _ _ hother' (hend'.rejects_eq ▸ hrejects') hne

end Definition

namespace Validator

/-- Documents that are alike under a definition have one outcome: the same success, the same
    declaration and the same path. -/
theorem outcome_of_alike {d : Definition} {v w : Json} (h : d.Alike v w) (o : Options) :
    ((new d o).validate v).1 = ((new d o).validate w).1 := by
  have hrejection : ((new d o).validate v).1.rejection = ((new d o).validate w).1.rejection :=
    Definition.firstRejection_unique (h.firstRejection (firstRejection_validate d o v))
      (firstRejection_validate d o w)
  have houtcome : ∀ j, ((new d o).validate j).1 = ⟨d, ((new d o).validate j).1.rejection⟩ :=
    fun _ => rfl
  rw [houtcome v, houtcome w, hrejection]

/-- An entry that is not declared, one that is null here and absent there, and both zeros. -/
theorem outcome_of_alike_nested :
    let item := Definition.object [⟨"c", false, .primitive .int⟩, ⟨"n", true, .primitive .string⟩]
    let d := Definition.object
      [⟨"a", false, .range ⟨.double, some (.int 0), none⟩⟩, ⟨"b", true, .array (some item)⟩]
    let v := Json.object [("a", .number (.float ⟨0⟩)),
      ("b", .array [.object [("c", .string "x"), ("n", .null)]])]
    let w := Json.object [("b", .array [.object [("z", .bool true), ("c", .string "x")]]),
      ("a", .number (.float ⟨0x8000000000000000⟩)), ("y", .null)]
    d.Alike v w ∧ ((new d {}).validate v).1 = ((new d {}).validate w).1 ∧
      ((new d {}).validate w).1.path = [.name "b", .index 0, .name "c"] := by
  intro item d v w
  have hitem : item.Alike (.object [("c", .string "x"), ("n", .null)])
      (.object [("z", .bool true), ("c", .string "x")]) := by
    refine .object (by decide) ?_
    simp only [List.forall_mem_cons]
    refine ⟨?_, ?_, List.forall_mem_nil _⟩
    · rintro a b ⟨⟩ - ⟨⟩ -
      exact .same .string
    · rintro a b ⟨⟩ hnull
      exact absurd rfl hnull
  have hd : d.Alike v w := by
    refine .object (by decide) ?_
    simp only [List.forall_mem_cons]
    refine ⟨?_, ?_, List.forall_mem_nil _⟩
    · rintro a b ⟨⟩ - ⟨⟩ -
      exact .same (.number (.float (.inr ⟨by decide, by decide⟩)))
    · rintro a b ⟨⟩ - ⟨⟩ -
      refine .items rfl fun i a b ha hb => ?_
      cases i with
      | zero =>
        obtain rfl := Option.some.inj ha
        obtain rfl := Option.some.inj hb
        exact hitem
      | succ i => exact nomatch ha
  exact ⟨hd, outcome_of_alike hd {}, by decide +kernel⟩

end Validator

end CompactSchema
