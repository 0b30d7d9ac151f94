import CompactSchema.Proofs.Digits
import CompactSchema.Proofs.Paths
import CompactSchema.Proofs.Reuse
import CompactSchema.Proofs.WellFormed

set_option autoImplicit false

/-!
# Locations

A location shows the way to a value in one text, where names and indices look alike and a slash
stands in front of each. A member name of the notation holds no slash and is no number, so the way
can be read back from its location.
-/

namespace CompactSchema

open Text Grammar

namespace Segment

/-- An index, or a name of the notation. -/
def Legible : Segment → Prop
  | name text => IsName text.toList
  | index _ => True

/-- Digits are read as an index, all else as a name. -/
def ofText (text : String) : Segment :=
  if text.toList.all isDigit then index (Definition.Parser.digitsValue text.toList) else name text

theorem toList_index (i : Nat) : (index i).text.toList = Nat.toDigits 10 i := Nat.toList_repr

variable {s : Segment}

theorem Legible.isNamePart (h : s.Legible) : ∀ c ∈ s.text.toList, Text.isNamePart c = true := by
  cases s with
  | name text => exact IsName.isNamePart h
  | index i =>
    intro c hc
    rw [toList_index] at hc
    simp [Text.isNamePart, Definition.isDigit_of_mem_toDigits c hc]

theorem Legible.text_ne_nil (h : s.Legible) : s.text.toList ≠ [] := by
  cases s with
  | name text =>
    obtain ⟨c, cs, hword, -⟩ := h
    exact hword ▸ List.cons_ne_nil c cs
  | index i =>
    rw [toList_index]
    exact Nat.toDigits_ne_nil

theorem isDigit_of_isNameStart {c : Char} (h : isNameStart c = true) : isDigit c = false := by
  rw [← Bool.not_eq_true]
  intro hdigit
  have hnumber : Definition.Parser.startsNumber c = true := by
    simp [Definition.Parser.startsNumber, hdigit]
  exact absurd h (by simp [Definition.Parser.isNameStart_of_startsNumber hnumber])

theorem Legible.ofText_eq (h : s.Legible) : ofText s.text = s := by
  cases s with
  | name text =>
    obtain ⟨c, cs, hword, hc, -⟩ := h
    have hdigits : text.toList.all isDigit = false := by
      rw [hword, List.all_cons, isDigit_of_isNameStart hc, Bool.false_and]
    exact if_neg (by rw [Segment.text, hdigits]; simp)
  | index i =>
    have hdigits : (index i).text.toList.all isDigit = true := by
      rw [toList_index]
      exact List.all_eq_true.mpr Definition.isDigit_of_mem_toDigits
    rw [ofText, if_pos hdigits, toList_index, Definition.digitsValue_toDigits]

/-- A name is not read as an index. -/
theorem Legible.text_ne_index {text : String} (h : (name text).Legible) (i : Nat) :
    text ≠ (index i).text := by
  intro heq
  have hindex : ofText (index i).text = index i := Legible.ofText_eq (s := index i) trivial
  rw [← heq] at hindex
  exact absurd (h.ofText_eq.symm.trans hindex) (by simp)

end Segment

namespace Rejection

/-- The way that a location shows. -/
def pathOf (location : String) : List Segment :=
  if location = "/" then [] else (Files.segmentsOf location).tail.map Segment.ofText

variable {r : Rejection}

theorem plain_path (h : ∀ s ∈ r.path, s.Legible) (hne : r.path ≠ []) :
    Files.Names.Plain (r.path.map Segment.text) where
  ne_nil := by simpa using hne
  plain := by
    intro text htext
    obtain ⟨s, hs, rfl⟩ := List.mem_map.mp htext
    have hparts := (h s hs).isNamePart
    refine ⟨?_, ?_, ?_, Definition.slash_notMem_of_all hparts (by decide)⟩
    · intro hempty
      exact (h s hs).text_ne_nil (by rw [hempty]; rfl)
    · intro hpoint
      rw [hpoint] at hparts
      exact absurd (hparts '.' (by decide)) (by decide)
    · intro hpoints
      rw [hpoints] at hparts
      exact absurd (hparts '.' (by decide)) (by decide)

theorem segmentsOf_location (h : ∀ s ∈ r.path, s.Legible) (hne : r.path ≠ []) :
    Files.segmentsOf r.location = "" :: r.path.map Segment.text :=
  Files.Names.segmentsOf_text (plain_path h hne)

/-- Only the way to the whole value is shown by a slash alone. -/
theorem location_eq_slash (h : ∀ s ∈ r.path, s.Legible) : r.location = "/" ↔ r.path = [] := by
  constructor
  · intro hslash
    by_contra hne
    obtain ⟨s, path, hpath⟩ := List.exists_cons_of_ne_nil hne
    have hsegments := segmentsOf_location h hne
    rw [hslash, hpath] at hsegments
    have htext : "" = s.text := (List.cons.inj (List.cons.inj hsegments).2).1
    exact (h s (by simp [hpath])).text_ne_nil (by rw [← htext]; rfl)
  · intro hnil
    rw [location, hnil]
    rfl

/-- The way can be read back from the location. -/
theorem pathOf_location (h : ∀ s ∈ r.path, s.Legible) : pathOf r.location = r.path := by
  by_cases hnil : r.path = []
  · rw [pathOf, if_pos ((location_eq_slash h).mpr hnil), hnil]
  · rw [pathOf, if_neg (fun hslash => hnil ((location_eq_slash h).mp hslash)),
      segmentsOf_location h hnil, List.tail_cons, List.map_map]
    calc r.path.map (Segment.ofText ∘ Segment.text)
        = r.path.map id := List.map_congr_left fun s hs => (h s hs).ofText_eq
      _ = r.path := List.map_id _

end Rejection

namespace Definition

variable {accepts : PatternLiteral → Bool} {admits : Binary64 → Bool} {d e : Definition} {j k : Json}

theorem WellFormed.step {i : Nat} {s : Segment} (hd : d.WellFormed accepts admits)
    (h : Below d j i s e k) : s.Legible ∧ e.WellFormed accepts admits := by
  cases h with
  | member hm hentry =>
    cases hd with
    | object hnames hvalues =>
      have hmem := List.mem_of_getElem? hm
      exact ⟨hnames _ hmem, hvalues _ hmem⟩
  | item hitem =>
    cases hd with
    | array helement he => exact ⟨trivial, he⟩

/-- Every step below a well-formed definition is legible. -/
theorem WellFormed.legible_of_reach {route : List Nat} {path : List Segment}
    (hd : d.WellFormed accepts admits) (h : Reach d j route path e k) : ∀ s ∈ path, s.Legible := by
  induction h with
  | here => simp
  | down hbelow _ ih =>
    obtain ⟨hs, he⟩ := hd.step hbelow
    exact List.forall_mem_cons.mpr ⟨hs, ih he⟩

end Definition

namespace Validator

open Definition

variable {text : String} {d : Definition} {o : Options} {js : List Json} {a : Outcome}

theorem legible_of_ofText (h : Definition.ofText text = .ok d)
    (ha : a ∈ (new d o).validateAll js) : ∀ s ∈ a.path, s.Legible := by
  rw [validateAll_eq_map (faithful_nil d)] at ha
  obtain ⟨j, -, rfl⟩ := List.mem_map.mp ha
  obtain ⟨bare, hbare, hd⟩ := Parser.bind_eq_ok.mp h
  have hfirst := firstRejection_validate d o j
  change ∀ s ∈ ((new d o).validate j).1.path, s.Legible
  rw [Outcome.path]
  cases hrejection : ((new d o).validate j).1.rejection with
  | none => simp
  | some r =>
    rw [hrejection] at hfirst
    obtain ⟨route, k, hreach, -⟩ := hfirst
    exact (wellFormed_of_stripped hbare hd).legible_of_reach hreach

/-- For documents that are checked against a definition that was read from text, the location of an
    outcome shows one path only. The path of no steps is shown by a slash alone, and no name on the
    way can be taken for an index or for more than one step. -/
theorem path_of_location {b : Outcome} {o' : Options} {js' : List Json}
    (h : Definition.ofText text = .ok d) (ha : a ∈ (new d o).validateAll js)
    (hb : b ∈ (new d o').validateAll js') :
    Rejection.pathOf a.location = a.path ∧ (a.location = b.location → a.path = b.path) ∧
      (a.location = "/" ↔ a.path = []) ∧
      ∀ name, .name name ∈ a.path →
        name ≠ "" ∧ '/' ∉ name.toList ∧ ∀ i, name ≠ (Segment.index i).text := by
  have hlegible := legible_of_ofText h ha
  have hpath : Rejection.pathOf a.location = a.path := Rejection.pathOf_location hlegible
  have hpath' : Rejection.pathOf b.location = b.path :=
    Rejection.pathOf_location (legible_of_ofText h hb)
  refine ⟨hpath, fun heq => ?_, Rejection.location_eq_slash hlegible, fun name hname => ?_⟩
  · rw [← hpath, ← hpath', heq]
  · have hn := hlegible _ hname
    refine ⟨?_, slash_notMem_of_all hn.isNamePart (by decide), hn.text_ne_index⟩
    rintro rfl
    exact hn.text_ne_nil rfl

/-- Two items are rejected at one place, the one for the lack of a member and the other one for its
    value. -/
theorem path_of_location_items :
    let d : Definition := .object [⟨"a", false, .array (some (.object
      [⟨"_1", true, .primitive .string⟩, ⟨"b", false, .primitive .int⟩]))⟩]
    let absent := Json.object [("a", .array [.object [("b", .number (.whole 2))], .object []])]
    let wrong := Json.object [("a", .array [.object [("b", .number (.whole 3))],
      .object [("_1", .string "x"), ("b", .bool true)]])]
    ofText "\x7b a: [\x7b _1?: string, b: int \x7d] \x7d" = .ok d ∧
      ∃ a b, (new d {}).validateAll [absent, wrong] = [a, b] ∧ a.location = "/a/1/b" ∧
        a.path = [.name "a", .index 1, .name "b"] ∧ a.path = b.path := by
  intro d absent wrong
  have h : ofText "\x7b a: [\x7b _1?: string, b: int \x7d] \x7d" = .ok d := rfl
  have hpath : ∀ a ∈ (new d {}).validateAll [absent, wrong],
      ∀ b ∈ (new d {}).validateAll [absent, wrong], a.location = b.location → a.path = b.path :=
    fun a ha b hb => (path_of_location h ha hb).2.1
  refine ⟨h, _, _, rfl, rfl, rfl, ?_⟩
  exact hpath _ (List.mem_cons_self ..) _ (List.mem_cons_of_mem _ (List.mem_cons_self ..)) rfl

end Validator

end CompactSchema
