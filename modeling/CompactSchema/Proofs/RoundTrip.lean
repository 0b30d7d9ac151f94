import CompactSchema.Proofs.Serialization

set_option autoImplicit false

/-!
# What is written is read

The serialized text of a definition is read back unless a bound is not read as it is written or the
text is too deep: every part is written where the reader of that part looks for it, and nothing is
passed over.
-/

namespace CompactSchema

open Json

theorem toOption_eq_some {ε α : Type} {x : Except ε α} {a : α} :
    x.toOption = some a ↔ x = .ok a := by
  cases x <;> simp [Except.toOption]

instance (n : JsonNumber) : Decidable (Json.ReadsBack n) :=
  decidable_of_iff ((readNumber (numberChars n)).toOption = some (n, [])) toOption_eq_some

/-! ## Parts -/

theorem Bound.reread?_float {x : Binary64} (hx : x.isFinite = true)
    (h : Json.ReadsBack (.float x)) : Bound.reread? (.float x) = some (.float x) := by
  rw [Bound.reread?, if_pos hx, (legible_float hx).readsBack_iff.mp h]
  rfl

/-- What is written of the bounds is read as the same bounds. -/
def Bound.AllKept (bounds : List Bound) : Prop := ∀ b ∈ bounds, b.reread? = some b

theorem Bound.AllKept.left {a b : List Bound} (h : AllKept (a ++ b)) : AllKept a :=
  fun x hx => h x (List.mem_append_left _ hx)

theorem Bound.AllKept.right {a b : List Bound} (h : AllKept (a ++ b)) : AllKept b :=
  fun x hx => h x (List.mem_append_right _ hx)

theorem Bound.ofField?_toJson? {b? : Option Bound} (h : Bound.AllKept b?.toList) {depth : Nat}
    (hdepth : (Bound.toJson? b?).depth ≤ depth) :
    Bound.ofField? (some ((Bound.toJson? b?).outline depth)) = some b? := by
  cases b? with
  | none => cases depth <;> rfl
  | some b =>
    obtain ⟨depth, rfl⟩ : ∃ below, depth = below + 1 := by
      rw [Bound.toJson?, Bound.depth_toJson] at hdepth
      exact ⟨depth - 1, by omega⟩
    rw [Bound.toJson?, Bound.ofField?_outline, Bound.ofOutline?_outline,
      h b (List.mem_singleton.mpr rfl)]
    rfl

theorem Range.ofOutline?_toJson {r : Range}
    (h : Bound.AllKept (r.minimum.toList ++ r.maximum.toList)) {depth : Nat}
    (hdepth : r.toJson.depth ≤ depth) :
    Range.ofOutline? (r.toJson.outline depth) = some r := by
  simp only [Range.toJson, Json.depth, entriesDepth] at hdepth
  obtain ⟨depth, rfl⟩ : ∃ below, depth = below + 1 := ⟨depth - 1, by omega⟩
  have hminimum : (Bound.toJson? r.minimum).depth ≤ depth := by omega
  have hmaximum : (Bound.toJson? r.maximum).depth ≤ depth := by omega
  rw [Range.ofOutline?_outline, Bound.ofField?_toJson? h.left hminimum,
    Bound.ofField?_toJson? h.right hmaximum]
  rfl

/-! ## Definitions -/

namespace Definition

mutual

/-- A text that is not deeper than `depth` is kept as a whole, and a definition takes at least one
    step of that depth. -/
theorem ofOutlineWithin_toJson : ∀ (d : Definition) (limit depth : Nat), Bound.AllKept d.bounds →
    d.toJson.depth ≤ depth → depth < limit →
      ofOutlineWithin limit (d.toJson.outline depth) = some d
  | d, 0, depth, _, _, hlimit => absurd hlimit (Nat.not_lt_zero _)
  | d, limit + 1, 0, _, hdepth, _ => by
    cases d <;> simp [toJson, depth_tagged] at hdepth
  | primitive keyword, limit + 1, depth + 1, _, _, _ => by
    simp only [toJson, ofOutlineWithin, tagged?_tagged, Keyword.ofOutline?_toJson,
      Option.bind_eq_bind, Option.bind_some, Option.map_some]
  | range r, limit + 1, depth + 1, hkept, hdepth, _ => by
    rw [toJson, depth_tagged] at hdepth
    have hr := Range.ofOutline?_toJson hkept (Nat.le_of_succ_le_succ hdepth)
    simp only [toJson, ofOutlineWithin, tagged?_tagged, hr, Option.bind_eq_bind, Option.bind_some,
      Option.map_some]
  | pattern literal, limit + 1, depth + 1, _, hdepth, _ => by
    obtain ⟨depth, rfl⟩ : ∃ below, depth = below + 2 := by
      simp only [toJson, depth_tagged, PatternLiteral.toJson, Flags.toJson, Json.depth,
        entriesDepth] at hdepth
      exact ⟨depth - 2, by omega⟩
    simp only [toJson, ofOutlineWithin, tagged?_tagged, PatternLiteral.ofOutline?_outline,
      Flags.ofOutline?_outline, Option.bind_eq_bind, Option.bind_some, Option.map_some]
  | object members, limit + 1, depth + 1, hkept, hdepth, hlimit => by
    simp only [toJson, depth_tagged, Json.depth] at hdepth
    obtain ⟨depth, rfl⟩ : ∃ below, depth = below + 2 := ⟨depth - 2, by omega⟩
    have hmembers := mapM_ofOutline?_members members limit depth hkept (by omega) (by omega)
    simp only [toJson, ofOutlineWithin, tagged?_tagged, soleField?_tagged, Json.outline,
      Outline.list?, hmembers, Option.bind_eq_bind, Option.bind_some, Option.map_some]
  | enumeration values, limit + 1, depth + 1, _, hdepth, _ => by
    simp only [toJson, depth_tagged, Json.depth] at hdepth
    obtain ⟨depth, rfl⟩ : ∃ below, depth = below + 2 := ⟨depth - 2, by omega⟩
    simp only [toJson, ofOutlineWithin, tagged?_tagged, soleField?_tagged, Json.outline,
      Outline.list?, mapM_int64?_outlines, Option.bind_eq_bind, Option.bind_some, Option.map_some]
  | array none, limit + 1, depth + 1, _, hdepth, _ => by
    simp only [toJson, depth_tagged] at hdepth
    obtain ⟨depth, rfl⟩ : ∃ below, depth = below + 1 := ⟨depth - 1, by omega⟩
    simp only [toJson, ofOutlineWithin, tagged?_tagged, soleField?_tagged, elementToJson,
      Json.outline, Option.bind_eq_bind, Option.bind_some]
  | array (some element), limit + 1, depth + 1, hkept, hdepth, hlimit => by
    simp only [toJson, depth_tagged, elementToJson] at hdepth
    obtain ⟨depth, rfl⟩ : ∃ below, depth = below + 1 := ⟨depth - 1, by omega⟩
    have helement := ofOutlineWithin_toJson element limit depth hkept (by omega) (by omega)
    have hnull := outline_toJson_ne_null element depth
    simp only [toJson, ofOutlineWithin, tagged?_tagged, soleField?_tagged, elementToJson,
      Option.bind_eq_bind, Option.bind_some, helement, Option.map_some]

theorem mapM_ofOutline?_members : ∀ (members : List (Member Definition)) (limit depth : Nat),
    Bound.AllKept (membersBounds members) → itemsDepth (membersToJson members) ≤ depth →
      depth < limit → (itemOutlines depth (membersToJson members)).mapM
        (Member.ofOutline? (ofOutlineWithin limit)) = some members
  | [], _, _, _, _, _ => rfl
  | ⟨name, optional, value⟩ :: members, limit, depth, hkept, hdepth, hlimit => by
    rw [membersToJson, itemsDepth, depth_entries] at hdepth
    obtain ⟨depth, rfl⟩ : ∃ below, depth = below + 1 := ⟨depth - 1, by omega⟩
    have hvalue := ofOutlineWithin_toJson value limit depth hkept.left (by omega) (by omega)
    have hmembers := mapM_ofOutline?_members members limit (depth + 1) hkept.right (by omega)
      hlimit
    rw [membersToJson, itemOutlines, List.mapM_cons, Member.ofOutline?_outline, hvalue, hmembers]
    rfl

end

/-- The serialized text of a definition is read back, character for character and bit for bit. -/
theorem deserialize_serialize {d : Definition}
    (hbounds : ∀ x, .float x ∈ d.bounds → x.isFinite = true ∧ Json.ReadsBack (.float x))
    (hdepth : d.toJson.depth ≤ Json.depthLimit) : deserialize? d.serialize = some d := by
  have hkept : Bound.AllKept d.bounds := by
    intro b hb
    cases b with
    | int i => rfl
    | float x => exact Bound.reread?_float (hbounds x hb).1 (hbounds x hb).2
  rw [deserialize?_serialize]
  exact ofOutlineWithin_toJson d _ _ hkept hdepth (Nat.lt_succ_self _)

/-- Escaped characters in a name, a range of a keyword that has none, and an array of arrays. -/
theorem deserialize_serialize_unwritten :
    let d := object
      [⟨"\"\\\n\x01", true, .range ⟨.date, some (.int (-9223372036854775808)),
        some (.float ⟨0x3fe0000000000000⟩)⟩⟩, ⟨"", false, .array (some (.array none))⟩]
    d.toJson.depth = 8 ∧ deserialize? d.serialize = some d := by
  intro d
  have hbounds : ∀ x, .float x ∈ d.bounds → x.isFinite = true ∧ Json.ReadsBack (.float x) := by
    intro x hx
    obtain rfl : x = ⟨0x3fe0000000000000⟩ := by
      simpa [d, bounds, membersBounds, elementBounds] using hx
    exact ⟨rfl, by decide +kernel⟩
  have hdepth : d.toJson.depth = 8 := rfl
  exact ⟨hdepth, deserialize_serialize hbounds (by rw [hdepth]; decide)⟩

end Definition

end CompactSchema
