import CompactSchema.Definition.Serialized
import CompactSchema.Proofs.Documents
import Mathlib.Data.List.Forall2

set_option autoImplicit false

/-!
# Serialized definitions read back

What is read from the serialized text of a definition, if anything, is the definition with its
bounds as they are read from what is written of them. Nothing is read when a bound is not finite, or
when the text lies deeper than a document may go.
-/

namespace CompactSchema

open Json

namespace Definition

mutual

/-- The bounds of every range in the definition. -/
def bounds : Definition → List Bound
  | range r => r.minimum.toList ++ r.maximum.toList
  | object members => membersBounds members
  | array element => elementBounds element
  | _ => []

def membersBounds : List (Member Definition) → List Bound
  | [] => []
  | ⟨_, _, value⟩ :: members => value.bounds ++ membersBounds members

def elementBounds : Option Definition → List Bound
  | none => []
  | some element => element.bounds

end

end Definition

namespace Bound

/-- A decimal bound that is finite is read back as it is written. -/
def ReadsBack : Bound → Prop
  | .int _ => True
  | .float x => x.isFinite = true → Json.ReadsBack (.float x)

/-- The bound that is read from what is written of a bound, if any. -/
def reread? : Bound → Option Bound
  | int i => some (int i)
  | float x =>
    if x.isFinite then (Json.reread (.float x)).map fun n => .float n.toBinary64 else none

theorem eq_of_reread? {b c : Bound} (hb : b.ReadsBack) (h : b.reread? = some c) : c = b := by
  cases b with
  | int i => exact (Option.some.inj h).symm
  | float x =>
    rw [reread?] at h
    split at h
    · next hx =>
      rw [(legible_float hx).readsBack_iff.mp (hb hx)] at h
      exact (Option.some.inj h).symm
    · exact nomatch h

end Bound

theorem readsBack_int64 (i : Int64) : ReadsBack (.whole i.toInt) := by
  have hlow := i.le_toInt
  have hhigh := i.toInt_lt
  exact readsBack_whole hlow (by omega)

theorem reread_int64 (i : Int64) : reread (.whole i.toInt) = some (.whole i.toInt) :=
  (legible_whole _).readsBack_iff.mp (readsBack_int64 i)

/-! ## Parts

Each part is written where its reader looks for it.
-/

theorem fields?_two (a b : Outline) {x y : String} (hxy : x ≠ y) :
    (Outline.object [(some x, a), (some y, b)]).fields? [x, y] = some [some a, some b] := by
  simp [Outline.fields?, Outline.field?, List.filter, hxy, hxy.symm]

theorem fields?_three (a b c : Outline) {x y z : String} (hxy : x ≠ y) (hxz : x ≠ z) (hyz : y ≠ z) :
    (Outline.object [(some x, a), (some y, b), (some z, c)]).fields? [x, y, z] =
      some [some a, some b, some c] := by
  simp [Outline.fields?, Outline.field?, List.filter, hxy, hxy.symm, hxz, hxz.symm, hyz, hyz.symm]

theorem outline_tagged (name : String) (value : Json) (depth : Nat) :
    (Json.tagged name value).outline (depth + 1) =
      .object [(some name, value.outline depth)] := rfl

theorem tagged?_tagged (name : String) (value : Json) (depth : Nat) :
    ((Json.tagged name value).outline (depth + 1)).tagged? = some (name, value.outline depth) := rfl

theorem Keyword.ofOutline?_toJson (k : Keyword) (depth : Nat) :
    Keyword.ofOutline? (k.toJson.outline depth) = some k := by
  cases depth <;> cases k <;> rfl

theorem int64?_outline (i : Int64) (depth : Nat) :
    ((Json.number (.whole i.toInt)).outline depth).int64? = some i := by
  have hlow := i.le_toInt
  have hhigh := i.toInt_lt
  cases depth <;> simp [Json.outline, reread_int64, Outline.int64?] <;> omega

theorem Bound.ofOutline?_outline (b : Bound) (depth : Nat) :
    Bound.ofOutline? (b.toJson.outline (depth + 1)) = b.reread? := by
  cases b with
  | int i =>
    simp only [Bound.toJson, Bound.ofOutline?, tagged?_tagged, Option.bind_eq_bind,
      Option.bind_some, int64?_outline, Option.map_some, Bound.reread?]
  | float x =>
    simp only [Bound.toJson, Bound.ofOutline?, tagged?_tagged, Option.bind_eq_bind,
      Option.bind_some, Bound.reread?]
    split
    · cases depth <;> simp [Json.outline, Outline.binary64?, Function.comp_def]
    · cases depth <;> rfl

/-- A bound that is there is never written as `null`. -/
theorem Bound.ofField?_outline (b : Bound) (depth : Nat) :
    Bound.ofField? (some (b.toJson.outline depth)) =
      (Bound.ofOutline? (b.toJson.outline depth)).map some := by
  cases depth <;> cases b <;> rfl

theorem Range.ofOutline?_outline (r : Range) (depth : Nat) :
    Range.ofOutline? (r.toJson.outline (depth + 1)) =
      (Bound.ofField? (some ((Bound.toJson? r.minimum).outline depth))).bind fun minimum =>
        (Bound.ofField? (some ((Bound.toJson? r.maximum).outline depth))).map fun maximum =>
          ⟨r.keyword, minimum, maximum⟩ := by
  have hfields := fields?_three (r.keyword.toJson.outline depth)
    ((Bound.toJson? r.minimum).outline depth) ((Bound.toJson? r.maximum).outline depth)
    (show "keyword" ≠ "minimum" by decide) (show "keyword" ≠ "maximum" by decide)
    (show "minimum" ≠ "maximum" by decide)
  simp only [Range.toJson, Json.outline, Json.entryOutlines, Range.ofOutline?, hfields,
    Option.bind_eq_bind, Option.bind_some, Keyword.ofOutline?_toJson, Option.map_eq_bind,
    Function.comp_def]

theorem Flags.ofOutline?_outline (f : Flags) (depth : Nat) :
    Flags.ofOutline? (f.toJson.outline (depth + 1)) = some f := by
  have hfields := fields?_three (.bool f.everywhere) (.bool f.ignoreCase) (.bool f.multiline)
    (show "global" ≠ "case_insensitive" by decide) (show "global" ≠ "multiline" by decide)
    (show "case_insensitive" ≠ "multiline" by decide)
  simp only [Flags.toJson, Json.outline, Json.entryOutlines, Flags.ofOutline?, hfields,
    Outline.bool?, Option.bind_eq_bind, Option.bind_some]

theorem PatternLiteral.ofOutline?_outline (p : PatternLiteral) (depth : Nat) :
    PatternLiteral.ofOutline? (p.toJson.outline (depth + 1)) =
      (Flags.ofOutline? (p.flags.toJson.outline depth)).map fun flags => ⟨p.body, flags⟩ := by
  have hfields := fields?_two (.string (some p.body)) (p.flags.toJson.outline depth)
    (show "pattern" ≠ "flags" by decide)
  simp only [PatternLiteral.toJson, Json.outline, Json.entryOutlines, PatternLiteral.ofOutline?,
    hfields, Outline.string?, Option.bind_eq_bind, Option.bind_some, Option.map_eq_bind,
    Function.comp_def]

theorem Member.ofOutline?_outline {α : Type} (value? : Outline → Option α) (name : String)
    (optional : Bool) (value : Json) (depth : Nat) :
    Member.ofOutline? value? ((Member.entries name optional value).outline (depth + 1)) =
      (value? (value.outline depth)).map fun a => ⟨name, optional, a⟩ := by
  have hfields := fields?_three (.string (some name)) (.bool optional) (value.outline depth)
    (show "name" ≠ "optional" by decide) (show "name" ≠ "value" by decide)
    (show "optional" ≠ "value" by decide)
  simp only [Member.entries, Json.outline, Json.entryOutlines, Member.ofOutline?, hfields,
    Outline.string?, Outline.bool?, Option.bind_eq_bind, Option.bind_some, Option.map_eq_bind,
    Function.comp_def]

/-! ## Depth -/

theorem depth_tagged (name : String) (value : Json) :
    (Json.tagged name value).depth = value.depth + 1 := by
  simp [Json.tagged, Json.depth, entriesDepth]

theorem depth_entries (name : String) (optional : Bool) (value : Json) :
    (Member.entries name optional value).depth = value.depth + 1 := by
  simp [Member.entries, Json.depth, entriesDepth]

theorem Bound.depth_toJson (b : Bound) : b.toJson.depth = 1 := by
  cases b with
  | int i => rfl
  | float x =>
    rw [Bound.toJson, depth_tagged]
    split <;> rfl

theorem PatternLiteral.depth_toJson (p : PatternLiteral) : p.toJson.depth = 2 := by
  simp [PatternLiteral.toJson, Flags.toJson, Json.depth, entriesDepth]

theorem Definition.depth_enumeration (values : List Int64) :
    (enumeration values).toJson.depth = 3 := by
  have hitems : itemsDepth (values.map fun i => .number (.whole i.toInt)) = 0 := by
    induction values with
    | nil => rfl
    | cons i values ih => simp [itemsDepth, Json.depth, ih]
  rw [toJson, depth_tagged, depth_tagged, Json.depth, hitems]

/-! ## What is read

Of a definition that is read from the text of another one, the bounds are what is read from what is
written of the bounds there, and nothing else is different.
-/

namespace Bound

structure Rereads {α : Type} (bounds : α → List Bound) (x y : α) : Prop where
  bounds_eq : List.Forall₂ (fun b c => b.reread? = some c) (bounds x) (bounds y)
  eq : bounds y = bounds x → y = x

namespace Rereads

variable {α β γ : Type} {f : α → List Bound} {g : β → List Bound} {h : γ → List Bound} {a a' : α}
  {b b' : β}

theorem of_eq_nil (ha : f a = []) : Rereads f a a :=
  ⟨ha ▸ .nil, fun _ => rfl⟩

theorem map (make : α → β) (hmake : ∀ a, g (make a) = f a) (ha : Rereads f a a') :
    Rereads g (make a) (make a') where
  bounds_eq := by
    rw [hmake, hmake]
    exact ha.bounds_eq
  eq heq := by
    rw [hmake, hmake] at heq
    rw [ha.eq heq]

theorem append (make : α → β → γ) (hmake : ∀ a b, h (make a b) = f a ++ g b)
    (ha : Rereads f a a') (hb : Rereads g b b') : Rereads h (make a b) (make a' b') where
  bounds_eq := by
    rw [hmake, hmake]
    exact List.rel_append ha.bounds_eq hb.bounds_eq
  eq heq := by
    rw [hmake, hmake] at heq
    obtain ⟨hleft, hright⟩ := List.append_inj heq ha.bounds_eq.length_eq.symm
    rw [ha.eq hleft, hb.eq hright]

theorem eq_of_readsBack (ha : Rereads f a a') (hbounds : ∀ b ∈ f a, b.ReadsBack) : a' = a := by
  refine ha.eq ?_
  have hread := ha.bounds_eq
  generalize f a = bounds at hread hbounds
  generalize f a' = others at hread
  induction hread with
  | nil => rfl
  | cons h _ ih =>
    rw [List.forall_mem_cons] at hbounds
    rw [eq_of_reread? hbounds.1 h, ih hbounds.2]

end Rereads

theorem rereads_of_ofField? {b? c? : Option Bound} {depth : Nat}
    (h : Bound.ofField? (some ((Bound.toJson? b?).outline depth)) = some c?) :
    Rereads Option.toList b? c? ∧ (Bound.toJson? b?).depth ≤ depth := by
  cases b? with
  | none =>
    have hnone : c? = none := by cases depth <;> exact (Option.some.inj h).symm
    rw [hnone]
    exact ⟨.of_eq_nil rfl, Nat.zero_le _⟩
  | some b =>
    rw [Bound.toJson?, Bound.ofField?_outline, Option.map_eq_some_iff] at h
    obtain ⟨c, hc, rfl⟩ := h
    rw [Bound.toJson?, Bound.depth_toJson]
    cases depth with
    | zero =>
      cases b <;>
        exact absurd hc (by simp [Bound.toJson, Json.tagged, Json.outline, Bound.ofOutline?,
          Outline.tagged?])
    | succ depth =>
      rw [Bound.ofOutline?_outline] at hc
      refine ⟨⟨.cons hc .nil, fun heq => ?_⟩, Nat.le_add_left 1 depth⟩
      rw [(List.cons.inj heq).1]

end Bound

theorem Range.rereads_of_ofOutline? {r s : Range} {depth : Nat}
    (h : Range.ofOutline? (r.toJson.outline depth) = some s) :
    Bound.Rereads Definition.bounds (.range r) (.range s) ∧ r.toJson.depth ≤ depth := by
  cases depth with
  | zero => exact absurd h (by simp [Range.toJson, Json.outline, Range.ofOutline?, Outline.fields?])
  | succ depth =>
    simp only [Range.ofOutline?_outline, Option.bind_eq_some_iff, Option.map_eq_some_iff] at h
    obtain ⟨minimum, hminimum, maximum, hmaximum, rfl⟩ := h
    obtain ⟨hlow, hlowDepth⟩ := Bound.rereads_of_ofField? hminimum
    obtain ⟨hhigh, hhighDepth⟩ := Bound.rereads_of_ofField? hmaximum
    constructor
    · exact .append (h := Definition.bounds) (fun low high => .range ⟨r.keyword, low, high⟩)
        (fun _ _ => rfl) hlow hhigh
    · simp only [Range.toJson, Json.depth, entriesDepth, Keyword.toJson]
      omega

theorem Flags.eq_of_ofOutline? {f g : Flags} {depth : Nat}
    (h : Flags.ofOutline? (f.toJson.outline depth) = some g) : g = f := by
  cases depth with
  | zero => exact absurd h (by simp [Flags.toJson, Json.outline, Flags.ofOutline?, Outline.fields?])
  | succ depth =>
    rw [Flags.ofOutline?_outline] at h
    exact (Option.some.inj h).symm

theorem PatternLiteral.of_ofOutline? {p q : PatternLiteral} {depth : Nat}
    (h : PatternLiteral.ofOutline? (p.toJson.outline depth) = some q) :
    q = p ∧ p.toJson.depth ≤ depth := by
  rw [PatternLiteral.depth_toJson]
  rcases depth with _ | _ | depth
  · exact absurd h (by simp [PatternLiteral.toJson, Json.outline, PatternLiteral.ofOutline?,
      Outline.fields?])
  · rw [PatternLiteral.ofOutline?_outline, Option.map_eq_some_iff] at h
    obtain ⟨flags, hflags, -⟩ := h
    exact absurd hflags (by simp [Flags.toJson, Json.outline, Flags.ofOutline?, Outline.fields?])
  · rw [PatternLiteral.ofOutline?_outline, Option.map_eq_some_iff] at h
    obtain ⟨flags, hflags, rfl⟩ := h
    rw [Flags.eq_of_ofOutline? hflags]
    exact ⟨rfl, Nat.le_add_left 2 depth⟩

namespace Definition

theorem soleField?_tagged (name : String) (value : Json) (depth : Nat) :
    soleField? name ((Json.tagged name value).outline (depth + 1)) =
      some (some (value.outline depth)) := by
  simp [soleField?, outline_tagged, Outline.fields?, Outline.field?, List.filter]

theorem soleField?_deep (name : String) : soleField? name .deep = none := rfl

theorem eq_itemOutlines {name : String} {items : List Json} {depth : Nat} {value : Outline}
    {outlines : List Outline}
    (hvalue : soleField? name ((Json.tagged name (.array items)).outline depth) = some (some value))
    (houtlines : value.list? = some outlines) :
    ∃ below, depth = below + 2 ∧ outlines = itemOutlines below items := by
  cases depth with
  | zero => exact absurd hvalue (by simp [Json.tagged, Json.outline, soleField?_deep])
  | succ depth =>
    rw [soleField?_tagged] at hvalue
    obtain rfl := Option.some.inj (Option.some.inj hvalue)
    cases depth with
    | zero => exact absurd houtlines (by simp [Json.outline, Outline.list?])
    | succ below => exact ⟨below, rfl, (Option.some.inj houtlines).symm⟩

theorem mapM_int64?_outlines (values : List Int64) (depth : Nat) :
    (itemOutlines depth (values.map fun i => .number (.whole i.toInt))).mapM Outline.int64? =
      some values := by
  induction values with
  | nil => rfl
  | cons i values ih =>
    rw [List.map_cons, itemOutlines, List.mapM_cons, int64?_outline, ih]
    rfl

/-- An element is never written as `null`, which would be read as none. -/
theorem outline_toJson_ne_null (d : Definition) (depth : Nat) :
    d.toJson.outline depth ≠ .null := by
  cases d <;> cases depth <;> simp [toJson, Json.tagged, Json.outline]

mutual

/-- However deep the reader goes, and however deep the text may go. -/
theorem rereads_of_ofOutlineWithin : ∀ (d : Definition) (limit depth : Nat) (e : Definition),
    ofOutlineWithin limit (d.toJson.outline depth) = some e →
      Bound.Rereads bounds d e ∧ d.toJson.depth ≤ depth
  | d, 0, _, e, h => by simp [ofOutlineWithin] at h
  | d, limit + 1, 0, e, h => by
    cases d <;>
      exact absurd h (by simp [toJson, Json.tagged, Json.outline, ofOutlineWithin, Outline.tagged?])
  | primitive keyword, limit + 1, depth + 1, e, h => by
    simp only [toJson, ofOutlineWithin, tagged?_tagged, Keyword.ofOutline?_toJson,
      Option.bind_eq_bind, Option.bind_some, Option.map_some, Option.some.injEq] at h
    subst h
    exact ⟨.of_eq_nil rfl, by simp [toJson, depth_tagged, Keyword.toJson, Json.depth]⟩
  | range r, limit + 1, depth + 1, e, h => by
    simp only [toJson, ofOutlineWithin, tagged?_tagged, Option.bind_eq_bind, Option.bind_some,
      Option.map_eq_some_iff] at h
    obtain ⟨s, hs, rfl⟩ := h
    obtain ⟨hreads, hdepth⟩ := Range.rereads_of_ofOutline? hs
    exact ⟨hreads, by rw [toJson, depth_tagged]; omega⟩
  | pattern literal, limit + 1, depth + 1, e, h => by
    simp only [toJson, ofOutlineWithin, tagged?_tagged, Option.bind_eq_bind, Option.bind_some,
      Option.map_eq_some_iff] at h
    obtain ⟨q, hq, rfl⟩ := h
    obtain ⟨rfl, hdepth⟩ := PatternLiteral.of_ofOutline? hq
    exact ⟨.of_eq_nil rfl, by rw [toJson, depth_tagged]; omega⟩
  | object members, limit + 1, depth + 1, e, h => by
    simp only [toJson, ofOutlineWithin, tagged?_tagged, Option.bind_eq_bind, Option.bind_some,
      Option.bind_eq_some_iff, Option.map_eq_some_iff] at h
    obtain ⟨_, hfield, value, rfl, outlines, houtlines, others, hothers, rfl⟩ := h
    obtain ⟨below, rfl, rfl⟩ := eq_itemOutlines hfield houtlines
    obtain ⟨hreads, hdepth⟩ := rereads_of_mapM_ofOutline? members limit below others hothers
    refine ⟨hreads.map object fun _ => rfl, ?_⟩
    rw [toJson, depth_tagged, depth_tagged, Json.depth]
    omega
  | enumeration values, limit + 1, depth + 1, e, h => by
    simp only [toJson, ofOutlineWithin, tagged?_tagged, Option.bind_eq_bind, Option.bind_some,
      Option.bind_eq_some_iff, Option.map_eq_some_iff] at h
    obtain ⟨_, hfield, value, rfl, outlines, houtlines, others, hothers, rfl⟩ := h
    obtain ⟨below, rfl, rfl⟩ := eq_itemOutlines hfield houtlines
    rw [mapM_int64?_outlines] at hothers
    obtain rfl := Option.some.inj hothers
    exact ⟨.of_eq_nil rfl, by rw [depth_enumeration]; omega⟩
  | array none, limit + 1, 0 + 1, e, h => by
    simp [toJson, Json.tagged, Json.outline, Json.entryOutlines, ofOutlineWithin, Outline.tagged?,
      soleField?_deep] at h
  | array none, limit + 1, depth + 1 + 1, e, h => by
    simp only [toJson, ofOutlineWithin, tagged?_tagged, Option.bind_eq_bind, Option.bind_some,
      soleField?_tagged, elementToJson, Json.outline, Option.some.injEq] at h
    subst h
    exact ⟨.of_eq_nil rfl, by simp [toJson, depth_tagged, elementToJson, Json.depth]⟩
  | array (some element), limit + 1, 0 + 1, e, h => by
    simp [toJson, Json.tagged, Json.outline, Json.entryOutlines, ofOutlineWithin, Outline.tagged?,
      soleField?_deep] at h
  | array (some element), limit + 1, depth + 1 + 1, e, h => by
    have hnull := outline_toJson_ne_null element depth
    simp only [toJson, ofOutlineWithin, tagged?_tagged, Option.bind_eq_bind, Option.bind_some,
      soleField?_tagged, elementToJson, Option.map_eq_some_iff] at h
    obtain ⟨other, hother, rfl⟩ := h
    obtain ⟨hreads, hdepth⟩ := rereads_of_ofOutlineWithin element limit depth other hother
    refine ⟨hreads.map (fun d => array (some d)) fun _ => rfl, ?_⟩
    rw [toJson, depth_tagged, depth_tagged, elementToJson]
    omega

theorem rereads_of_mapM_ofOutline? : ∀ (members : List (Member Definition)) (limit depth : Nat)
    (others : List (Member Definition)),
    (itemOutlines depth (membersToJson members)).mapM (Member.ofOutline? (ofOutlineWithin limit)) =
      some others → Bound.Rereads membersBounds members others ∧
        itemsDepth (membersToJson members) ≤ depth
  | [], _, _, others, h => by
    obtain rfl := Option.some.inj h
    exact ⟨.of_eq_nil rfl, Nat.zero_le _⟩
  | ⟨name, optional, value⟩ :: members, limit, depth, others, h => by
    rw [membersToJson, itemOutlines, List.mapM_cons] at h
    simp only [Option.bind_eq_bind, Option.pure_def, Option.bind_eq_some_iff] at h
    obtain ⟨m, hm, more, hmore, hothers⟩ := h
    obtain rfl := Option.some.inj hothers
    obtain ⟨hrest, hrestDepth⟩ := rereads_of_mapM_ofOutline? members limit depth more hmore
    cases depth with
    | zero =>
      exact absurd hm (by simp [Member.entries, Json.outline, Member.ofOutline?, Outline.fields?])
    | succ depth =>
      rw [Member.ofOutline?_outline, Option.map_eq_some_iff] at hm
      obtain ⟨e, he, rfl⟩ := hm
      obtain ⟨hvalue, hvalueDepth⟩ := rereads_of_ofOutlineWithin value limit depth e he
      constructor
      · exact .append (h := membersBounds) (fun value members => ⟨name, optional, value⟩ :: members)
          (fun _ _ => rfl) hvalue hrest
      · rw [membersToJson, itemsDepth, depth_entries]
        omega

end

end Definition

/-! ## The whole text -/

theorem readable_wholes (values : List Int64) :
    ItemsReadable (values.map fun i => .number (.whole i.toInt)) := by
  induction values with
  | nil => exact trivial
  | cons i values ih => exact ⟨legible_whole _, ih⟩

theorem Bound.readable_toJson (b : Bound) : b.toJson.Readable := by
  cases b with
  | int i => exact ⟨legible_whole _, trivial⟩
  | float x =>
    refine ⟨?_, trivial⟩
    split
    · next hx => exact legible_float hx
    · exact trivial

theorem Bound.readable_toJson? (b? : Option Bound) : (Bound.toJson? b?).Readable := by
  cases b? with
  | none => exact trivial
  | some b => exact b.readable_toJson

namespace Definition

mutual

theorem readable_toJson : ∀ d : Definition, d.toJson.Readable
  | primitive _ => ⟨trivial, trivial⟩
  | range _ =>
    ⟨⟨trivial, Bound.readable_toJson? _, Bound.readable_toJson? _, trivial⟩, trivial⟩
  | pattern _ => ⟨⟨trivial, ⟨trivial, trivial, trivial, trivial⟩, trivial⟩, trivial⟩
  | object members => ⟨⟨readable_membersToJson members, trivial⟩, trivial⟩
  | enumeration values => ⟨⟨readable_wholes values, trivial⟩, trivial⟩
  | array element => ⟨⟨readable_elementToJson element, trivial⟩, trivial⟩

theorem readable_membersToJson : ∀ members : List (Member Definition),
    ItemsReadable (membersToJson members)
  | [] => trivial
  | ⟨_, _, value⟩ :: members =>
    ⟨⟨trivial, trivial, readable_toJson value, trivial⟩, readable_membersToJson members⟩

theorem readable_elementToJson : ∀ element : Option Definition, (elementToJson element).Readable
  | none => trivial
  | some element => readable_toJson element

end

theorem deserialize?_serialize (d : Definition) : deserialize? d.serialize =
    ofOutlineWithin (Json.depthLimit + 1) (d.toJson.outline Json.depthLimit) := by
  have houtline := ofText?_text (readable_toJson d)
  simp only [deserialize?, serialize, houtline, Option.bind_eq_bind, Option.bind_some, ofOutline?]

theorem rereads_of_deserialize? {d e : Definition} (h : deserialize? d.serialize = some e) :
    Bound.Rereads bounds d e ∧ d.toJson.depth ≤ Json.depthLimit := by
  rw [deserialize?_serialize] at h
  exact rereads_of_ofOutlineWithin d _ _ e h

/-- What is read from the text of a definition is the definition. -/
theorem eq_of_deserialize? {d e : Definition} (hbounds : ∀ b ∈ d.bounds, b.ReadsBack)
    (h : deserialize? d.serialize = some e) : e = d :=
  (rereads_of_deserialize? h).1.eq_of_readsBack hbounds

end Definition

end CompactSchema
