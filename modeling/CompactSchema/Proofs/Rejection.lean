import CompactSchema.Validation.Validator
import Mathlib.Logic.Relation

set_option autoImplicit false

/-!
# The first rejection

Which values stand against which definitions when a document is taken apart, said without a walk:
a route of positions leads to every such pair. What is reported is the rejected pair whose route
comes first.
-/

namespace CompactSchema

namespace Definition

/-- One step down: to an entry that a member asks for, or to an item. An optional member whose
    entry is absent leads nowhere; a required one stands for null then. -/
inductive Below : Definition → Json → Nat → Segment → Definition → Json → Prop
  | member {members : List (Member Definition)} {entries : List (String × Json)} {i : Nat}
    {m : Member Definition} : members[i]? = some m →
      (m.optional && isAbsent (Json.lookup? m.name entries)) = false →
        Below (.object members) (.object entries) i (.name m.name) m.value
          ((Json.lookup? m.name entries).getD .null)
  | item {element : Definition} {items : List Json} {i : Nat} {item : Json} :
    items[i]? = some item → Below (.array (some element)) (.array items) i (.index i) element item

/-- The pairs of a definition and a value that lie below, each with the positions that lead to it
    and the path that is shown. -/
inductive Reach : Definition → Json → List Nat → List Segment → Definition → Json → Prop
  | here {d : Definition} {j : Json} : Reach d j [] [] d j
  | down {d e f : Definition} {j k l : Json} {i : Nat} {s : Segment} {route : List Nat}
    {path : List Segment} : Below d j i s e k → Reach e k route path f l →
      Reach d j (i :: route) (s :: path) f l

/-- Whether a value fails a definition by itself, whatever its parts are. -/
def rejects (o : Options) : Definition → Json → Bool
  | .primitive keyword, j => !keyword.accepts j
  | .range r, j => !r.accepts o j
  | .pattern literal, .string s => !literal.isMatch s
  | .pattern _, _ => true
  | .enumeration values, j => !enumerates values j
  | .object _, .object _ => false
  | .object _, _ => true
  | .array _, .array _ => false
  | .array _, _ => true

/-- No pair is rejected, or the route of the one that is found comes before every other. -/
def FirstRejection (o : Options) (d : Definition) (j : Json) : Option Rejection → Prop
  | none => ∀ route path e k, Reach d j route path e k → rejects o e k = false
  | some r => ∃ route k, Reach d j route r.path r.declaration k ∧
      rejects o r.declaration k = true ∧
        ∀ other path e l, Reach d j other path e l → rejects o e l = true →
          other ≠ route → route < other

/-! ## Values without parts -/

theorem reach_of_leaf {d e : Definition} {j k : Json} {route : List Nat} {path : List Segment}
    (hleaf : ∀ i s e k, ¬ Below d j i s e k) (h : Reach d j route path e k) :
    route = [] ∧ path = [] ∧ e = d ∧ k = j := by
  cases h with
  | here => exact ⟨rfl, rfl, rfl, rfl⟩
  | down hb _ => exact absurd hb (hleaf _ _ _ _)

theorem firstRejection_of_leaf {o : Options} {d : Definition} {j : Json}
    (hleaf : ∀ i s e k, ¬ Below d j i s e k) {accepted : Bool}
    (h : rejects o d j = !accepted) : FirstRejection o d j (verdict d accepted) := by
  cases accepted with
  | true =>
    intro route path e k hr
    obtain ⟨-, -, rfl, rfl⟩ := reach_of_leaf hleaf hr
    exact h
  | false =>
    refine ⟨[], j, .here, h, fun other path e l hr _ hne => ?_⟩
    exact absurd (reach_of_leaf hleaf hr).1 hne

/-! ## Values with parts -/

/-- The first rejection among candidates, each at its position, that are checked in order. -/
def FirstAmong (o : Options) (Child : Nat → Segment → Definition → Json → Prop) :
    Option Rejection → Prop
  | none => ∀ i s e k, Child i s e k → FirstRejection o e k none
  | some r => ∃ i s e k inner, Child i s e k ∧ FirstRejection o e k (some inner) ∧
      r = inner.under s ∧
        ∀ i' s' e' k', Child i' s' e' k' → i' < i → FirstRejection o e' k' none

theorem below_functional {d e e' : Definition} {j k k' : Json} {i : Nat} {s s' : Segment}
    (h : Below d j i s e k) (h' : Below d j i s' e' k') : s = s' ∧ e = e' ∧ k = k' := by
  cases h with
  | member hm _ =>
    cases h' with
    | member hm' _ =>
      obtain rfl := Option.some.inj (hm.symm.trans hm')
      exact ⟨rfl, rfl, rfl⟩
  | item hi =>
    cases h' with
    | item hi' =>
      obtain rfl := Option.some.inj (hi.symm.trans hi')
      exact ⟨rfl, rfl, rfl⟩

/-- The first rejection among the parts is the first one of the whole, which is not rejected by
    itself. -/
theorem firstRejection_of_parts {o : Options} {d : Definition} {j : Json}
    (hself : rejects o d j = false) {found : Option Rejection}
    (h : FirstAmong o (Below d j) found) : FirstRejection o d j found := by
  cases found with
  | none =>
    intro route path e k hr
    cases hr with
    | here => exact hself
    | down hb hr => exact h _ _ _ _ hb _ _ _ _ hr
  | some r =>
    obtain ⟨i, s, e, k, inner, hb, ⟨route, l, hr, hrejects, hfirst⟩, rfl, hbefore⟩ := h
    refine ⟨i :: route, l, .down hb hr, hrejects, ?_⟩
    intro other path e' l' hr' hrejects' hne
    cases hr' with
    | here => exact absurd hrejects' (by simp [hself])
    | @down _ e₁ _ _ k₁ _ i' s' route' path' hb' hr' =>
      rw [List.cons_lt_cons_iff]
      rcases Nat.lt_trichotomy i i' with hlt | rfl | hgt
      · exact .inl hlt
      · obtain ⟨rfl, rfl, rfl⟩ := below_functional hb hb'
        refine .inr ⟨rfl, hfirst _ _ _ _ hr' hrejects' fun heq => hne ?_⟩
        rw [heq]
      · have hnone := hbefore _ _ _ _ hb' hgt _ _ _ _ hr'
        exact absurd hrejects' (by simp [hnone])

section Candidates

variable {o : Options} {Child Rest : Nat → Segment → Definition → Json → Prop}

theorem firstAmong_none (h : ∀ i s e k, ¬ Child i s e k) : FirstAmong o Child none :=
  fun i s e k hc => absurd hc (h i s e k)

theorem firstAmong_head {s : Segment} {e : Definition} {k : Json} {inner : Rejection}
    (h : Child 0 s e k) (hinner : FirstRejection o e k (some inner)) :
    FirstAmong o Child (some (inner.under s)) :=
  ⟨0, s, e, k, inner, h, hinner, rfl, fun _ _ _ _ _ hlt => absurd hlt (Nat.not_lt_zero _)⟩

theorem firstAmong_tail {found : Option Rejection}
    (hhead : ∀ s e k, Child 0 s e k → FirstRejection o e k none)
    (htail : ∀ i s e k, Child (i + 1) s e k ↔ Rest i s e k) (h : FirstAmong o Rest found) :
    FirstAmong o Child found := by
  have hnone : ∀ {n : Nat}, (∀ i s e k, Rest i s e k → i < n → FirstRejection o e k none) →
      ∀ i s e k, Child i s e k → i < n + 1 → FirstRejection o e k none := by
    intro n hrest i s e k hc hlt
    cases i with
    | zero => exact hhead s e k hc
    | succ i => exact hrest i s e k ((htail i s e k).mp hc) (by omega)
  cases found with
  | none =>
    intro i s e k hc
    exact hnone (fun i s e k hr _ => h i s e k hr) i s e k hc (Nat.lt_succ_self i)
  | some r =>
    obtain ⟨i, s, e, k, inner, hc, hinner, rfl, hbefore⟩ := h
    exact ⟨i + 1, s, e, k, inner, (htail i s e k).mpr hc, hinner, rfl, hnone hbefore⟩

end Candidates

theorem below_cons {m : Member Definition} {members : List (Member Definition)}
    {entries : List (String × Json)} (i : Nat) (s : Segment) (e : Definition) (k : Json) :
    Below (.object (m :: members)) (.object entries) (i + 1) s e k ↔
      Below (.object members) (.object entries) i s e k := by
  constructor
  · intro h
    cases h with
    | member hm hs => exact .member hm hs
  · intro h
    cases h with
    | member hm hs => exact .member hm hs

theorem below_items (element : Definition) (items : List Json) :
    (fun i s e k => items[i]? = some k ∧ s = .index (0 + i) ∧ e = element) =
      Below (.array (some element)) (.array items) := by
  funext i s e k
  refine propext ⟨?_, fun h => ?_⟩
  · rintro ⟨hk, rfl, rfl⟩
    rw [Nat.zero_add]
    exact .item hk
  · cases h with
    | item hk => exact ⟨hk, by rw [Nat.zero_add], rfl⟩

/-! ## Places and compiled patterns -/

/-- The definition at a place. -/
inductive At (root : Definition) : Place → Definition → Prop
  | root : At root [] root
  | member {place : Place} {members : List (Member Definition)} {i : Nat} {m : Member Definition} :
    At root place (.object members) → members[i]? = some m → At root (i :: place) m.value
  | element {place : Place} {element : Definition} :
    At root place (.array (some element)) → At root (0 :: place) element

theorem at_functional {root d e : Definition} {place : Place} (h : At root place d)
    (h' : At root place e) : d = e := by
  induction h generalizing e with
  | root =>
    cases h'
    rfl
  | member hp hm ih =>
    cases h' with
    | member hp' hm' =>
      obtain rfl := Definition.object.inj (ih hp')
      rw [Option.some.inj (hm.symm.trans hm')]
    | element hp' => exact absurd (ih hp') (by simp)
  | element hp ih =>
    cases h' with
    | member hp' hm' => exact absurd (ih hp') (by simp)
    | element hp' => exact Option.some.inj (Definition.array.inj (ih hp'))

end Definition

namespace Validator

open Definition

abbrev Memo := List (Place × Option Pattern.Node)

/-- What is kept under a place is the pattern at that place, compiled. -/
def Faithful (root : Definition) (memo : Memo) : Prop :=
  ∀ place node, memo.lookup place = some node →
    ∃ literal, At root place (.pattern literal) ∧ node = literal.compile?

theorem faithful_nil (root : Definition) : Faithful root [] :=
  fun _ _ h => absurd h (by simp)

theorem faithful_cons {root : Definition} {memo : Memo} {place : Place} {literal : PatternLiteral}
    (hat : At root place (.pattern literal)) (h : Faithful root memo) :
    Faithful root ((place, literal.compile?) :: memo) := by
  intro other node hnode
  rw [List.lookup_cons] at hnode
  split at hnode
  · next heq =>
    obtain rfl := Option.some.inj hnode
    rw [beq_iff_eq.mp heq]
    exact ⟨literal, hat, rfl⟩
  · exact h other node hnode

/-- A pattern of the definition is matched at its place. -/
inductive Matches (root : Definition) (memo : Memo) : Memo → Prop
  | intro {place : Place} {literal : PatternLiteral} (hat : At root place (.pattern literal))
    (s : String) : Matches root memo ((isMatch place literal s).run memo).2

/-- Patterns of the definition are matched one after the other. -/
abbrev Fills (root : Definition) : Memo → Memo → Prop := Relation.ReflTransGen (Matches root)

theorem run_isMatch_of_some {memo : Memo} {place : Place} {node : Option Pattern.Node}
    (h : memo.lookup place = some node) (literal : PatternLiteral) (s : String) :
    (isMatch place literal s).run memo = (PatternLiteral.matchesNode node s, memo) := by
  simp only [isMatch, StateT.run_bind, StateT.run_get, h, pure_bind]
  rfl

theorem run_isMatch_of_none {memo : Memo} {place : Place} (h : memo.lookup place = none)
    (literal : PatternLiteral) (s : String) :
    (isMatch place literal s).run memo =
      (PatternLiteral.matchesNode literal.compile? s, (place, literal.compile?) :: memo) := by
  simp only [isMatch, StateT.run_bind, StateT.run_get, h, pure_bind]
  rfl

/-- What is in the memo is kept, and a pattern may come under a place where nothing was. -/
theorem Matches.cases {root : Definition} {memo memo' : Memo} (h : Matches root memo memo') :
    memo' = memo ∨ ∃ place literal, At root place (.pattern literal) ∧
      memo.lookup place = none ∧ memo' = (place, literal.compile?) :: memo := by
  cases h with
  | @intro place literal hat s =>
    cases hl : memo.lookup place with
    | some node => exact .inl (by rw [run_isMatch_of_some hl])
    | none => exact .inr ⟨place, literal, hat, hl, by rw [run_isMatch_of_none hl]⟩

theorem Fills.faithful {root : Definition} {memo memo' : Memo} (h : Fills root memo memo')
    (hmemo : Faithful root memo) : Faithful root memo' := by
  induction h with
  | refl => exact hmemo
  | tail _ hmatches ih =>
    rcases hmatches.cases with rfl | ⟨place, literal, hat, -, rfl⟩
    · exact ih
    · exact faithful_cons hat ih

/-- Run on a faithful memo, `x` gives a result with `P`, and matches nothing but patterns of the
    definition. -/
def Gives {α : Type} (root : Definition) (x : StateM Memo α) (P : α → Prop) : Prop :=
  ∀ memo, Faithful root memo → P (x.run memo).1 ∧ Fills root memo (x.run memo).2

section Gives

variable {α β : Type} {root : Definition}

theorem gives_pure {P : α → Prop} {a : α} (h : P a) : Gives root (pure a) P :=
  fun _ _ => ⟨h, .refl⟩

theorem gives_bind {x : StateM Memo α} {f : α → StateM Memo β} {P : α → Prop} {Q : β → Prop}
    (hx : Gives root x P) (hf : ∀ a, P a → Gives root (f a) Q) : Gives root (x >>= f) Q := by
  intro memo hmemo
  obtain ⟨ha, hfills⟩ := hx memo hmemo
  obtain ⟨hb, hfills'⟩ := hf _ ha _ (hfills.faithful hmemo)
  exact ⟨hb, hfills.trans hfills'⟩

theorem gives_mono {x : StateM Memo α} {P Q : α → Prop} (hx : Gives root x P)
    (h : ∀ a, P a → Q a) : Gives root x Q :=
  fun memo hmemo => (hx memo hmemo).imp_left (h _)

end Gives

theorem gives_isMatch {root : Definition} {place : Place} {literal : PatternLiteral}
    (hat : At root place (.pattern literal)) (s : String) :
    Gives root (isMatch place literal s) (· = literal.isMatch s) := by
  intro memo hmemo
  refine ⟨?_, .single (.intro hat s)⟩
  cases hl : memo.lookup place with
  | some node =>
    obtain ⟨other, hother, rfl⟩ := hmemo place node hl
    -- the place leads to one definition only, so the kept pattern is this one
    obtain rfl := Definition.pattern.inj (at_functional hat hother)
    rw [run_isMatch_of_some hl]
    rfl
  | none =>
    rw [run_isMatch_of_none hl]
    rfl

/-! ## The walk -/

section Walk

variable {root : Definition} {o : Options}

theorem gives_walkItems {check : Json → StateM Memo (Option Rejection)} {element : Definition}
    (hcheck : ∀ item, Gives root (check item) (FirstRejection o element item)) (index : Nat)
    (items : List Json) : Gives root (walkItems check index items)
      (FirstAmong o fun i s e k => items[i]? = some k ∧ s = .index (index + i) ∧ e = element) := by
  induction items generalizing index with
  | nil =>
    refine gives_pure (firstAmong_none fun i s e k h => ?_)
    exact absurd h.1 (by simp)
  | cons item items ih =>
    refine gives_bind (hcheck item) fun found hfound => ?_
    cases found with
    | some r => exact gives_pure (firstAmong_head ⟨rfl, rfl, rfl⟩ hfound)
    | none =>
      refine gives_mono (ih (index + 1)) fun found h => firstAmong_tail ?_ ?_ h
      · rintro s e k ⟨hk, -, rfl⟩
        obtain rfl := Option.some.inj hk
        exact hfound
      · intro i s e k
        rw [List.getElem?_cons_succ, Nat.add_assoc, Nat.add_comm 1]

mutual

theorem gives_walk {place : Place} (d : Definition) (hat : At root place d) (j : Json) :
    Gives root (walk isMatch o place d j) (FirstRejection o d j) := by
  have hleaf : ∀ {accepted : Bool}, (∀ i s e k, ¬ Below d j i s e k) → rejects o d j = !accepted →
      Gives root (pure (verdict d accepted)) (FirstRejection o d j) :=
    fun hno h => gives_pure (firstRejection_of_leaf hno h)
  cases d with
  | primitive keyword => exact hleaf (fun _ _ _ _ h => by cases h) (by simp [rejects])
  | range r => exact hleaf (fun _ _ _ _ h => by cases h) (by simp [rejects])
  | enumeration values => exact hleaf (fun _ _ _ _ h => by cases h) (by simp [rejects])
  | pattern literal =>
    cases j with
    | string s =>
      refine gives_bind (gives_isMatch hat s) fun accepted h => ?_
      exact hleaf (fun _ _ _ _ h => by cases h) (by simp [rejects, h])
    | _ => exact hleaf (fun _ _ _ _ h => by cases h) rfl
  | object members =>
    cases j with
    | object entries =>
      refine gives_mono ?_ fun found h => firstRejection_of_parts rfl h
      refine gives_walkMembers 0 members (fun i m hm => ?_) entries
      rw [Nat.zero_add]
      exact .member hat hm
    | _ => exact hleaf (fun _ _ _ _ h => by cases h) rfl
  | array element =>
    cases j with
    | array items =>
      refine gives_mono ?_ fun found h => firstRejection_of_parts rfl h
      exact gives_walkElement element (fun e he => .element (he ▸ hat)) items
    | _ => exact hleaf (fun _ _ _ _ h => by cases h) rfl

theorem gives_walkMembers {place : Place} (index : Nat) (members : List (Member Definition))
    (hat : ∀ i m, members[i]? = some m → At root ((index + i) :: place) m.value)
    (entries : List (String × Json)) : Gives root (walkMembers isMatch o place index members entries)
      (FirstAmong o (Below (.object members) (.object entries))) := by
  cases members with
  | nil =>
    refine gives_pure (firstAmong_none fun i s e k h => ?_)
    cases h with
    | member hm _ => exact absurd hm (by simp)
  | cons m members =>
    obtain ⟨name, optional, value⟩ := m
    have hrest := gives_walkMembers (index + 1) members (fun i m hm => by
      rw [Nat.add_assoc, Nat.add_comm 1]
      exact hat (i + 1) m hm) entries
    unfold walkMembers
    by_cases hskip : (optional && isAbsent (Json.lookup? name entries)) = true
    · rw [if_pos hskip]
      refine gives_mono hrest fun found h => firstAmong_tail ?_ below_cons h
      intro s e k hb
      cases hb with
      | member hm hs =>
        obtain rfl := Option.some.inj hm
        exact absurd hskip (by simp [hs])
    · rw [if_neg hskip]
      have hhead : Below (.object (⟨name, optional, value⟩ :: members)) (.object entries) 0
          (.name name) value ((Json.lookup? name entries).getD .null) :=
        Below.member (m := ⟨name, optional, value⟩) rfl (by simpa using hskip)
      refine gives_bind (gives_walk value (hat 0 _ rfl) _) fun found hfound => ?_
      cases found with
      | some r => exact gives_pure (firstAmong_head hhead hfound)
      | none =>
        refine gives_mono hrest fun found h => firstAmong_tail ?_ below_cons h
        intro s e k hb
        obtain ⟨-, rfl, rfl⟩ := below_functional hhead hb
        exact hfound

theorem gives_walkElement {place : Place} (element : Option Definition)
    (hat : ∀ e, element = some e → At root (0 :: place) e) (items : List Json) :
    Gives root (walkElement isMatch o (0 :: place) element items)
      (FirstAmong o (Below (.array element) (.array items))) := by
  cases element with
  | none =>
    refine gives_pure (firstAmong_none fun i s e k h => ?_)
    cases h
  | some e =>
    have hcheck := fun item => gives_walk e (hat e rfl) item
    have hitems := gives_walkItems hcheck 0 items
    rwa [below_items] at hitems

end

end Walk

theorem firstRejection_validate (d : Definition) (o : Options) (j : Json) :
    FirstRejection o d j ((new d o).validate j).1.rejection :=
  (gives_walk d .root j [] (faithful_nil d)).1

/-- A validator accepts a document when no pair is rejected. Otherwise it reports the definition
    and the path of the rejected pair whose route comes first. -/
theorem validate_first (d : Definition) (o : Options) (j : Json) :
    let outcome := ((new d o).validate j).1
    (outcome.success = true ↔
        ∀ route path e k, Reach d j route path e k → rejects o e k = false) ∧
      (outcome.success = true → outcome.declaration = d ∧ outcome.path = []) ∧
      (outcome.success = false →
        ∃ route k, Reach d j route outcome.path outcome.declaration k ∧
          rejects o outcome.declaration k = true ∧
            ∀ other path e l, Reach d j other path e l → rejects o e l = true →
              other ≠ route → route < other) := by
  intro outcome
  have hfirst : FirstRejection o d j outcome.rejection := firstRejection_validate d o j
  have hd : outcome.definition = d := rfl
  obtain ⟨definition, rejection⟩ := outcome
  cases rejection with
  | none =>
    exact ⟨⟨fun _ => hfirst, fun _ => rfl⟩, fun _ => ⟨hd, rfl⟩,
      fun h => absurd h (by simp [Outcome.success])⟩
  | some r =>
    refine ⟨⟨fun h => absurd h (by simp [Outcome.success]), fun hnone => ?_⟩,
      fun h => absurd h (by simp [Outcome.success]), fun _ => hfirst⟩
    obtain ⟨route, k, hr, hrejects, -⟩ := hfirst
    exact absurd hrejects (by simp [hnone _ _ _ _ hr])

end Validator

end CompactSchema
