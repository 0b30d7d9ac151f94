import CompactSchema.Definition.Literal
import CompactSchema.Proofs.Printing
import CompactSchema.Proofs.RoundTrip

set_option autoImplicit false

/-!
# Definitions that can be stored

The serialized text of a definition is read back exactly when each of its bounds is read as it is
written and the text is not nested too deeply.
-/

namespace CompactSchema

open Json

namespace Definition

/-- Every bound is read as it is written, and the text is not nested too deeply for a reader. -/
def Storable (d : Definition) : Prop :=
  Bound.AllKept d.bounds ∧ d.toJson.depth ≤ Json.depthLimit

theorem deserialize?_serialize_iff (d : Definition) :
    deserialize? d.serialize = some d ↔ d.Storable := by
  constructor
  · intro h
    obtain ⟨hreads, hdepth⟩ := rereads_of_deserialize? h
    exact ⟨List.forall₂_same.mp hreads.bounds_eq, hdepth⟩
  · rintro ⟨hkept, hdepth⟩
    rw [deserialize?_serialize]
    exact ofOutlineWithin_toJson d _ _ hkept hdepth (Nat.lt_succ_self _)

theorem deserialize?_of_deep {d : Definition} (h : Json.depthLimit < d.toJson.depth) :
    deserialize? d.serialize = none :=
  Option.eq_none_iff_forall_ne_some.mpr fun _ he =>
    absurd (rereads_of_deserialize? he).2 (Nat.not_le.mpr h)

/-! ## Objects in objects

A text may nest its objects as deeply as it likes, the document that they are stored in may not.
-/

/-- An object whose only member is such an object again, and a keyword at the end. -/
def nested : Nat → Definition
  | 0 => .primitive .int
  | n + 1 => .object [⟨"a", false, nested n⟩]

theorem depth_nested (n : Nat) : (nested n).toJson.depth = 4 * n + 1 := by
  induction n with
  | zero => rfl
  | succ n ih =>
    rw [nested, toJson, depth_tagged, depth_tagged, Json.depth, membersToJson, itemsDepth,
      depth_entries, membersToJson, itemsDepth, ih]
    omega

theorem wellFormed_nested (n : Nat) :
    WellFormed PatternLiteral.compiles Binary64.isFinite (nested n) := by
  have hname : Grammar.IsName "a".toList :=
    ⟨'a', [], rfl, rfl, fun _ h => absurd h List.not_mem_nil⟩
  induction n with
  | zero => exact .primitive
  | succ n ih =>
    refine .object ?_ ?_
    · intro m hm
      obtain rfl := List.mem_singleton.mp hm
      exact hname
    · intro m hm
      obtain rfl := List.mem_singleton.mp hm
      exact ih

theorem ofText_nested (n : Nat) : ofText (nested n).text = .ok (nested n) :=
  Parser.bind_eq_ok.mpr
    ⟨_, stripComments_text (wellFormed_nested n), ofBareText_text (wellFormed_nested n)⟩

end Definition

end CompactSchema
