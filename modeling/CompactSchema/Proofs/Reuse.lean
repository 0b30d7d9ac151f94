import CompactSchema.Proofs.Alike

set_option autoImplicit false

/-!
# Validators that are used again

A validator keeps the patterns that it compiled. Which of them are there depends on the documents
that it has seen, and on how far the walk through each of them went; what is kept under a place
depends on nothing but the definition. The outcome for a document is therefore that of a new
validator.
-/

namespace CompactSchema.Validator

open Definition

/-! ## What is kept -/

variable {root : Definition} {memo memo' : Memo} {entry : Place × Option Pattern.Node}

/-- No two entries stand under one place. -/
theorem Fills.nodup (h : Fills root memo memo') (hmemo : (memo.map Prod.fst).Nodup) :
    (memo'.map Prod.fst).Nodup := by
  induction h with
  | refl => exact hmemo
  | tail _ hmatches ih =>
    rcases hmatches.cases with rfl | ⟨place, literal, -, hnone, rfl⟩
    · exact ih
    · apply List.nodup_cons.mpr
      constructor
      · intro hplace
        obtain ⟨entry, hentry, rfl⟩ := List.mem_map.mp hplace
        have hne := List.lookup_eq_none_iff.mp hnone entry hentry
        exact absurd hne (by simp)
      · exact ih

/-- An entry that was made stays as it is. -/
theorem Fills.subset (h : Fills root memo memo') : memo ⊆ memo' := by
  induction h with
  | refl => exact List.Subset.refl memo
  | tail _ hmatches ih =>
    rcases hmatches.cases with rfl | ⟨place, literal, -, -, rfl⟩
    · exact ih
    · exact List.subset_cons_of_subset _ ih

/-- An entry stands under the place of a pattern, and holds what that pattern is compiled to. -/
theorem Fills.compiled (h : Fills root [] memo) (hentry : entry ∈ memo) :
    ∃ literal, At root entry.1 (.pattern literal) ∧ entry.2 = literal.compile? := by
  induction h with
  | refl => exact absurd hentry List.not_mem_nil
  | tail _ hmatches ih =>
    rcases hmatches.cases with rfl | ⟨place, literal, hat, -, rfl⟩
    · exact ih hentry
    · rcases List.mem_cons.mp hentry with rfl | hentry
      · exact ⟨literal, hat, rfl⟩
      · exact ih hentry

theorem rejects_of_uncompiled {literal : PatternLiteral} (h : literal.compile? = none) (o : Options)
    (j : Json) : rejects o (.pattern literal) j = true := by
  cases j with
  | string s => simp [rejects, PatternLiteral.isMatch, PatternLiteral.matchesNode, h]
  | _ => rfl

/-! ## Matching without a memo -/

section Plain

variable {root : Definition} {o : Options}

/-- Matching that keeps nothing. -/
abbrev plainMatch : Place → PatternLiteral → String → Id Bool :=
  fun _ literal s => pure (literal.isMatch s)

theorem gives_plainItems {check : Json → StateM Memo (Option Rejection)}
    {plain : Json → Id (Option Rejection)} (hcheck : ∀ item, Gives root (check item) (· = plain item))
    (index : Nat) (items : List Json) :
    Gives root (walkItems check index items) (· = walkItems plain index items) := by
  induction items generalizing index with
  | nil => exact gives_pure rfl
  | cons item items ih =>
    refine gives_bind (hcheck item) ?_
    rintro found rfl
    rw [walkItems]
    cases plain item with
    | some r => exact gives_pure rfl
    | none => exact ih (index + 1)

mutual

theorem gives_plain {place : Place} (d : Definition) (hat : At root place d) (j : Json) :
    Gives root (walk isMatch o place d j) (· = walk plainMatch o place d j) := by
  cases d with
  | primitive | range | enumeration => exact gives_pure rfl
  | pattern literal =>
    cases j with
    | string s =>
      refine gives_bind (gives_isMatch hat s) ?_
      rintro accepted rfl
      exact gives_pure rfl
    | _ => exact gives_pure rfl
  | object members =>
    cases j with
    | object entries =>
      refine gives_plainMembers 0 members (fun i m hm => ?_) entries
      rw [Nat.zero_add]
      exact .member hat hm
    | _ => exact gives_pure rfl
  | array element =>
    cases j with
    | array items => exact gives_plainElement element (fun e he => .element (he ▸ hat)) items
    | _ => exact gives_pure rfl

theorem gives_plainMembers {place : Place} (index : Nat) (members : List (Member Definition))
    (hat : ∀ i m, members[i]? = some m → At root ((index + i) :: place) m.value)
    (entries : List (String × Json)) : Gives root (walkMembers isMatch o place index members entries)
      (· = walkMembers plainMatch o place index members entries) := by
  cases members with
  | nil => exact gives_pure rfl
  | cons m members =>
    obtain ⟨name, optional, value⟩ := m
    have hrest := gives_plainMembers (index + 1) members (fun i m hm => by
      rw [Nat.add_assoc, Nat.add_comm 1]
      exact hat (i + 1) m hm) entries
    unfold walkMembers
    dsimp only
    split
    · exact hrest
    · refine gives_bind (gives_plain value (hat 0 _ rfl) _) ?_
      rintro found rfl
      cases walk plainMatch o (index :: place) value
        ((Json.lookup? name entries).getD .null) with
      | some r => exact gives_pure rfl
      | none => exact hrest

theorem gives_plainElement {place : Place} (element : Option Definition)
    (hat : ∀ e, element = some e → At root (0 :: place) e) (items : List Json) :
    Gives root (walkElement isMatch o (0 :: place) element items)
      (· = walkElement plainMatch o (0 :: place) element items) := by
  cases element with
  | none => exact gives_pure rfl
  | some e => exact gives_plainItems (fun item => gives_plain e (hat e rfl) item) 0 items

end

/-- A validator reports what the definition reports by itself. -/
theorem validate_eq (d : Definition) (o : Options) (j : Json) :
    ((new d o).validate j).1 = d.validate o j :=
  congrArg (Outcome.mk d) (gives_plain d .root j [] (faithful_nil d)).1

end Plain

/-! ## Documents one after the other -/

/-- The validator after some documents. -/
def after (v : Validator) : List Json → Validator
  | [] => v
  | j :: js => (v.validate j).2.after js

variable {v : Validator}

theorem fills_validate (h : Faithful v.definition v.compiled) (j : Json) :
    Fills v.definition v.compiled (v.validate j).2.compiled :=
  (gives_walk v.definition .root j v.compiled h).2

/-- What a validator has kept does not show in the outcome. -/
theorem outcome_validate (h : Faithful v.definition v.compiled) (j : Json) :
    (v.validate j).1 = ((new v.definition v.options).validate j).1 := by
  have hkept : FirstRejection v.options v.definition j (v.validate j).1.rejection :=
    (gives_walk v.definition .root j v.compiled h).1
  have hfresh := firstRejection_validate v.definition v.options j
  have hrejection := firstRejection_unique hkept hfresh
  change (⟨v.definition, (v.validate j).1.rejection⟩ : Outcome) =
    ⟨v.definition, ((new v.definition v.options).validate j).1.rejection⟩
  rw [hrejection]

theorem fills_after (h : Faithful v.definition v.compiled) (js : List Json) :
    Fills v.definition v.compiled (v.after js).compiled := by
  induction js generalizing v with
  | nil => exact .refl
  | cons j js ih =>
    have hfills := fills_validate h j
    have hfaithful : Faithful (v.validate j).2.definition (v.validate j).2.compiled :=
      hfills.faithful h
    exact hfills.trans (ih hfaithful)

theorem validateAll_eq_map (h : Faithful v.definition v.compiled) (js : List Json) :
    v.validateAll js = js.map fun j => ((new v.definition v.options).validate j).1 := by
  induction js generalizing v with
  | nil => rfl
  | cons j js ih =>
    have hfaithful : Faithful (v.validate j).2.definition (v.validate j).2.compiled :=
      (fills_validate h j).faithful h
    have hrest := ih hfaithful
    change (v.validate j).1 :: (v.validate j).2.validateAll js = _ :: _
    rw [outcome_validate h j, hrest]
    rfl

/-- The outcomes for documents one after the other are those of new validators. Whatever patterns
    were matched, there is at most one entry for a place, it is what the one pattern at that place
    is compiled to, and it is never replaced; a pattern that cannot be compiled matches nothing. -/
theorem validateAll_fresh (d : Definition) (o : Options) :
    (∀ js, (new d o).validateAll js = js.map fun j => ((new d o).validate j).1) ∧
      (∀ js, Fills d [] ((new d o).after js).compiled) ∧
      ∀ memo, Fills d [] memo → (memo.map Prod.fst).Nodup ∧
        (∀ place node, (place, node) ∈ memo → ∃ literal, node = literal.compile? ∧
          (∀ e, At d place e ↔ e = .pattern literal) ∧
            (node = none → ∀ j, rejects o (.pattern literal) j = true)) ∧
        ∀ memo', Fills d memo memo' → memo ⊆ memo' ∧ (memo'.map Prod.fst).Nodup := by
  have hnew : Faithful (new d o).definition (new d o).compiled := faithful_nil d
  refine ⟨validateAll_eq_map hnew, fills_after hnew, ?_⟩
  intro memo hmemo
  have hnodup := hmemo.nodup List.nodup_nil
  refine ⟨hnodup, ?_, fun memo' hfills => ⟨hfills.subset, hfills.nodup hnodup⟩⟩
  intro place node hentry
  obtain ⟨literal, hat, hnode⟩ := hmemo.compiled hentry
  refine ⟨literal, hnode, fun e => ⟨fun he => at_functional he hat, fun he => he ▸ hat⟩, ?_⟩
  intro hnone
  apply rejects_of_uncompiled
  exact hnode.symm.trans hnone

/-- Two patterns with one text and different flags have an entry each. -/
theorem validateAll_fresh_flags :
    let strict : PatternLiteral := ⟨"abc", {}⟩
    let lax : PatternLiteral := ⟨"abc", { ignoreCase := true }⟩
    let d := object [⟨"a", true, .pattern strict⟩, ⟨"b", true, .pattern lax⟩]
    let memo : Memo := [([1], lax.compile?), ([0], strict.compile?)]
    let js := [Json.object [("a", .string "ABC")], .object [("b", .string "ABC")]]
    (new d {}).validateAll js = (js.map fun j => ((new d {}).validate j).1) ∧ Fills d [] memo ∧
      ∃ literal, lax.compile? = literal.compile? ∧ ∀ e, At d [1] e ↔ e = .pattern literal := by
  intro strict lax d memo js
  obtain ⟨houtcomes, -, hmemo⟩ := validateAll_fresh d {}
  have hstrict : At d [0] (.pattern strict) :=
    At.member (m := ⟨"a", true, .pattern strict⟩) .root rfl
  have hlax : At d [1] (.pattern lax) := At.member (m := ⟨"b", true, .pattern lax⟩) .root rfl
  have hfirst : Matches d [] [([0], strict.compile?)] := .intro hstrict "ABC"
  have hsecond : Matches d [([0], strict.compile?)] memo := .intro hlax "ABC"
  have hfills : Fills d [] memo := .tail (.single hfirst) hsecond
  obtain ⟨-, hentries, -⟩ := hmemo memo hfills
  obtain ⟨literal, hcompiled, hat, -⟩ := hentries [1] lax.compile? (by simp [memo])
  exact ⟨houtcomes js, hfills, literal, hcompiled, hat⟩

end CompactSchema.Validator
