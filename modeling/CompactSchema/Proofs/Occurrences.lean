import CompactSchema.Json.Reader
import CompactSchema.Proofs.Words

set_option autoImplicit false

/-!
# Numbers of a text

Whatever number stands in a document that was read from a text, it was read by itself somewhere in
the text. So each is held in 64 bits, or is a binary number.
-/

namespace CompactSchema.Json

open Definition.Parser (bind_eq_ok map_eq_ok)

/-! ## Numbers by themselves -/

/-- A number stands somewhere in a document. -/
inductive Occurs (n : JsonNumber) : Json → Prop
  | here : Occurs n (.number n)
  | item {items : List Json} {item : Json} : item ∈ items → Occurs n item → Occurs n (.array items)
  | entry {entries : List (String × Json)} {name : String} {value : Json} :
    (name, value) ∈ entries → Occurs n value → Occurs n (.object entries)

namespace Numeral

theorem takeFitting_le {value : Nat} (h : value ≤ wordLimit) (cs : List Char) :
    (takeFitting value cs).1 ≤ wordLimit := by
  induction cs generalizing value with
  | nil => exact h
  | cons c cs ih =>
    by_cases hmore : 10 * value + (c.toNat - '0'.toNat) ≤ wordLimit
    · rw [takeFitting, if_pos hmore]
      exact ih hmore
    · rw [takeFitting, if_neg hmore]
      exact h

theorem stored_whole (negative : Bool) {value : Nat} (h : value ≤ wordLimit) :
    ∃ s : Stored, s.number = whole negative value := by
  have hlimit : wordLimit = 2 ^ 64 - 1 := rfl
  unfold whole
  split
  · split
    · exact ⟨.float _, rfl⟩
    · exact Stored.exists_whole_iff.mpr ⟨by omega, by omega⟩
  · exact Stored.exists_whole_iff.mpr ⟨by omega, by omega⟩

theorem stored_float? {negative : Bool} {value : Nat} {exponent : Int} {x n : JsonNumber}
    {cs rest : List Char} (hx : float? negative value exponent = some x)
    (h : (.ok (x, cs) : Except Fault _) = .ok (n, rest)) : ∃ s : Stored, s.number = n := by
  obtain ⟨rfl, -⟩ := Prod.mk.inj (Except.ok.inj h)
  obtain ⟨y, -, rfl⟩ := Option.map_eq_some_iff.mp hx
  exact ⟨.float _, rfl⟩

theorem stored_scaled {negative : Bool} {value : Nat} {scale : Int} {cs rest : List Char}
    {n : JsonNumber} (h : scaled negative value scale cs = .ok (n, rest)) :
    ∃ s : Stored, s.number = n := by
  unfold scaled at h
  split at h
  · split at h
    · obtain ⟨⟨down, size, behind⟩, -, h⟩ := bind_eq_ok.mp h
      dsimp only at h
      split at h
      · split at h
        · next hx => exact stored_float? hx h
        · exact absurd h nofun
      · split at h
        · exact absurd h nofun
        · obtain ⟨rfl, -⟩ := Prod.mk.inj (Except.ok.inj h)
          exact ⟨.float _, rfl⟩
    · split at h
      · next hx => exact stored_float? hx h
      · exact absurd h nofun
  · split at h
    · next hx => exact stored_float? hx h
    · exact absurd h nofun

theorem stored_read {negative : Bool} {cs rest : List Char} {n : JsonNumber}
    (h : read negative cs = .ok (n, rest)) : ∃ s : Stored, s.number = n := by
  have hwhole (digits behind : List Char)
      (h : (.ok (whole negative (takeFitting 0 digits).1, behind) : Except Fault _) =
        .ok (n, rest)) : ∃ s : Stored, s.number = n := by
    obtain ⟨rfl, -⟩ := Prod.mk.inj (Except.ok.inj h)
    exact stored_whole negative (takeFitting_le (Nat.zero_le wordLimit) digits)
  unfold read at h
  dsimp only at h
  split at h
  · exact absurd h nofun
  · exact absurd h nofun
  · exact absurd h nofun
  · split at h
    · split at h
      · exact absurd h nofun
      · exact absurd h nofun
      · exact stored_scaled h
    · split at h
      · exact stored_scaled h
      · exact hwhole _ _ h
    · split at h
      · exact hwhole _ _ h
      · exact stored_scaled h

end Numeral

/-! ## Items and entries -/

section Lists

variable {α κ : Type} {value : List Char → Except Fault (α × List Char)}
variable {key : List Char → Except Fault (κ × List Char)}

/-- The items from one on that begins here. -/
def itemsFrom (value : List Char → Except Fault (α × List Char)) (steps : Nat) (cs : List Char) :
    Except Fault (List α × List Char) := do
  let (item, cs) ← value cs
  let (items, cs) ← itemsWithin value steps false cs
  .ok (item :: items, cs)

theorem itemsFrom_of_itemsWithin {steps : Nat} {first : Bool} {cs rest : List Char} {items : List α}
    (h : itemsWithin value (steps + 1) first cs = .ok (items, rest)) :
    items = [] ∨ ∃ cs, itemsFrom value steps cs = .ok (items, rest) := by
  unfold itemsWithin at h
  dsimp only at h
  split at h
  · contradiction
  · split at h
    · exact .inl (Prod.mk.inj (Except.ok.inj h)).1.symm
    · split at h
      · exact .inr ⟨_, h⟩
      · split at h
        · split at h
          · contradiction
          · contradiction
          · exact .inr ⟨_, h⟩
        · contradiction

theorem of_mem_itemsWithin {steps : Nat} {first : Bool} {cs rest : List Char} {items : List α}
    (h : itemsWithin value steps first cs = .ok (items, rest)) {item : α} (hitem : item ∈ items) :
    ∃ cs rest, value cs = .ok (item, rest) := by
  induction steps generalizing first cs items with
  | zero => contradiction
  | succ steps ih =>
    obtain rfl | ⟨cs, h⟩ := itemsFrom_of_itemsWithin h
    · exact absurd hitem List.not_mem_nil
    · obtain ⟨⟨head, front⟩, hhead, h⟩ := bind_eq_ok.mp h
      obtain ⟨⟨tail, back⟩, htail, h⟩ := bind_eq_ok.mp h
      obtain ⟨rfl, rfl⟩ := Prod.mk.inj (Except.ok.inj h)
      rcases List.mem_cons.mp hitem with rfl | hitem
      · exact ⟨cs, front, hhead⟩
      · exact ih htail hitem

/-- The entries from one on whose name begins here, behind its quote. -/
def entriesFrom (key : List Char → Except Fault (κ × List Char))
    (value : List Char → Except Fault (α × List Char)) (steps : Nat) (cs : List Char) :
    Except Fault (List (κ × α) × List Char) := do
  let (name, cs) ← key cs
  match skipBlanks cs with
  | [] => .error (.facing .objectEnds [])
  | c :: cs =>
    if c = ':' then
      let (item, cs) ← value cs
      let (entries, cs) ← entriesWithin key value steps false cs
      .ok ((name, item) :: entries, cs)
    else .error (.facing .expectedColon (c :: cs))

theorem entriesFrom_of_entriesWithin {steps : Nat} {first : Bool} {cs rest : List Char}
    {entries : List (κ × α)}
    (h : entriesWithin key value (steps + 1) first cs = .ok (entries, rest)) :
    entries = [] ∨ ∃ cs, entriesFrom key value steps cs = .ok (entries, rest) := by
  unfold entriesWithin at h
  dsimp only at h
  split at h
  · contradiction
  · split at h
    · exact .inl (Prod.mk.inj (Except.ok.inj h)).1.symm
    · split at h
      · split at h
        · exact .inr ⟨_, h⟩
        · contradiction
      · split at h
        · split at h
          · contradiction
          · exact .inr ⟨_, h⟩
          · contradiction
          · contradiction
        · contradiction

theorem entriesFrom_eq_ok {steps : Nat} {cs rest : List Char} {entries : List (κ × α)}
    (h : entriesFrom key value steps cs = .ok (entries, rest)) :
    ∃ name item behind front tail, value behind = .ok (item, front) ∧
      entriesWithin key value steps false front = .ok (tail, rest) ∧
        entries = (name, item) :: tail := by
  obtain ⟨⟨name, colon⟩, -, h⟩ := bind_eq_ok.mp h
  dsimp only at h
  split at h
  · contradiction
  · split at h
    · obtain ⟨⟨item, front⟩, hitem, h⟩ := bind_eq_ok.mp h
      obtain ⟨⟨tail, back⟩, htail, h⟩ := bind_eq_ok.mp h
      obtain ⟨rfl, rfl⟩ := Prod.mk.inj (Except.ok.inj h)
      exact ⟨name, item, _, front, tail, hitem, htail, rfl⟩
    · contradiction

theorem of_mem_entriesWithin {steps : Nat} {first : Bool} {cs rest : List Char}
    {entries : List (κ × α)} (h : entriesWithin key value steps first cs = .ok (entries, rest))
    {entry : κ × α} (hentry : entry ∈ entries) : ∃ cs rest, value cs = .ok (entry.2, rest) := by
  induction steps generalizing first cs entries with
  | zero => contradiction
  | succ steps ih =>
    obtain rfl | ⟨cs, h⟩ := entriesFrom_of_entriesWithin h
    · exact absurd hentry List.not_mem_nil
    · obtain ⟨name, item, behind, front, tail, hitem, htail, rfl⟩ := entriesFrom_eq_ok h
      rcases List.mem_cons.mp hentry with rfl | hentry
      · exact ⟨behind, front, hitem⟩
      · exact ih htail hentry

end Lists

/-! ## Documents -/

theorem eq_of_word {α : Type} {value x : α} {expected cs rest : List Char}
    (h : word value expected cs = .ok (x, rest)) : x = value := by
  induction expected generalizing cs with
  | nil => exact (Prod.mk.inj (Except.ok.inj h)).1.symm
  | cons e expected ih =>
    cases cs with
    | nil => exact absurd h nofun
    | cons c cs =>
      unfold word at h
      split at h
      · exact ih h
      · exact absurd h nofun

/-- What a value was read as, by its kind. -/
inductive ReadAs (depth : Nat) : Json → Prop
  | plain {j : Json} : (∀ n, ¬ Occurs n j) → ReadAs depth j
  | number {negative : Bool} {cs rest : List Char} {n : JsonNumber} :
    Numeral.read negative cs = .ok (n, rest) → ReadAs depth (.number n)
  | array {inner steps : Nat} {cs rest : List Char} {items : List Json} : depth = inner + 1 →
    itemsWithin (valueWithin inner) steps true cs = .ok (items, rest) → ReadAs depth (.array items)
  | object {inner steps : Nat} {cs rest : List Char} {entries : List (String × Json)} :
    depth = inner + 1 →
      entriesWithin stringText (valueWithin inner) steps true cs = .ok (entries, rest) →
        ReadAs depth (.object entries)

theorem readAs_of_valueWithin {depth : Nat} {cs rest : List Char} {j : Json}
    (h : valueWithin depth cs = .ok (j, rest)) : ReadAs depth j := by
  unfold valueWithin at h
  split at h
  · exact absurd h nofun
  · exact eq_of_word h ▸ .plain nofun
  · exact eq_of_word h ▸ .plain nofun
  · exact eq_of_word h ▸ .plain nofun
  · obtain ⟨_, -, h⟩ := map_eq_ok.mp h
    obtain ⟨rfl, -⟩ := Prod.mk.inj h
    exact .plain nofun
  · obtain ⟨_, hread, h⟩ := map_eq_ok.mp h
    obtain ⟨rfl, -⟩ := Prod.mk.inj h
    exact .number hread
  · split at h
    · exact absurd h nofun
    · obtain ⟨_, hitems, h⟩ := map_eq_ok.mp h
      obtain ⟨rfl, -⟩ := Prod.mk.inj h
      exact .array rfl hitems
  · split at h
    · exact absurd h nofun
    · obtain ⟨_, hentries, h⟩ := map_eq_ok.mp h
      obtain ⟨rfl, -⟩ := Prod.mk.inj h
      exact .object rfl hentries
  · split at h
    · obtain ⟨_, hread, h⟩ := map_eq_ok.mp h
      obtain ⟨rfl, -⟩ := Prod.mk.inj h
      exact .number hread
    · exact absurd h nofun

theorem stored_of_valueWithin {depth : Nat} {cs rest : List Char} {j : Json}
    (h : valueWithin depth cs = .ok (j, rest)) {n : JsonNumber} (hn : Occurs n j) :
    ∃ s : Stored, s.number = n := by
  induction depth using Nat.strongRecOn generalizing cs rest j with
  | _ depth ih =>
    cases readAs_of_valueWithin h with
    | plain hplain => exact absurd hn (hplain n)
    | number hread =>
      cases hn
      exact Numeral.stored_read hread
    | array hdepth hitems =>
      cases hn with
      | item hitem hn =>
        obtain ⟨_, _, hvalue⟩ := of_mem_itemsWithin hitems hitem
        exact ih _ (hdepth ▸ Nat.lt_succ_self _) hvalue hn
    | object hdepth hentries =>
      cases hn with
      | entry hentry hn =>
        obtain ⟨_, _, hvalue⟩ := of_mem_entriesWithin hentries hentry
        exact ih _ (hdepth ▸ Nat.lt_succ_self _) hvalue hn

/-- Numbers of a text are held in 64 bits, or they are binary numbers. -/
theorem stored_of_ofText {text : String} {j : Json} (h : ofText text = .ok j) {n : JsonNumber}
    (hn : Occurs n j) : ∃ s : Stored, s.number = n := by
  unfold ofText at h
  split at h
  · next value hchars =>
    obtain rfl := Except.ok.inj h
    obtain ⟨⟨value, rest⟩, hvalue, h⟩ := bind_eq_ok.mp hchars
    dsimp only at h
    split at h
    · obtain rfl := Except.ok.inj h
      exact stored_of_valueWithin hvalue hn
    · exact absurd h nofun
  · exact absurd h nofun

end CompactSchema.Json
