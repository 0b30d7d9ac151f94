import CompactSchema.Proofs.Leaves

set_option autoImplicit false

/-!
# Reading values

The recursive descent against the rules of the grammar. Depth and number of steps never run out,
since each level and each item takes a character of the text.
-/

namespace CompactSchema.Definition.Parser

open Text SyntaxError Grammar

variable {α β : Type}

/-! ## Lists of items -/

theorem peekNext?_any {k : Cursor} {p : Nat × Char → Bool} :
    k.peekNext?.any p = true ↔ ∃ i c, k.next = (some (i, c), k.next.2) ∧ p (i, c) = true := by
  rw [Cursor.peekNext?_eq, Option.any_eq_true]
  constructor
  · rintro ⟨⟨i, c⟩, h, hp⟩
    exact ⟨i, c, Prod.ext h rfl, hp⟩
  · rintro ⟨i, c, h, hp⟩
    exact ⟨(i, c), congrArg Prod.fst h, hp⟩

theorem itemsWithin_sound {item : Reader α} {P : List Char → α → Prop} (hitem : Sound item P)
    (close : Char) (missing : Cause) (steps : Nat) :
    Sound (itemsWithin close missing item steps) (Listed P close) := by
  induction steps with
  | zero =>
    intro k xs k' h
    exact absurd h (by simp [itemsWithin])
  | succ steps ih =>
    intro k xs k' h
    unfold itemsWithin at h
    split at h
    · next hp =>
      obtain ⟨rfl, rfl⟩ := Prod.mk.inj (Except.ok.inj h)
      obtain ⟨i, c, hn, hc⟩ := peekNext?_any.mp hp
      obtain rfl : c = close := by simpa using hc
      obtain ⟨-, a, ha, hk⟩ := Cursor.token_of_next hn
      exact ⟨a, hk, .done ha⟩
    · obtain ⟨⟨x, s⟩, hx, h⟩ := bind_eq_ok.mp h
      obtain ⟨a, hk, ha⟩ := hitem k x s hx
      dsimp only at h
      split at h
      · next i c t hn =>
        obtain ⟨-, b, hb, hs⟩ := Cursor.token_of_next hn
        split at h
        · next hc =>
          subst hc
          obtain ⟨⟨ys, u⟩, hys, h⟩ := bind_eq_ok.mp h
          obtain ⟨rfl, rfl⟩ := Prod.mk.inj (Except.ok.inj h)
          obtain ⟨d, ht, hd⟩ := ih t ys u hys
          exact ⟨a ++ b ++ d, by simp [hk, hs, ht], .more ha hb hd⟩
        · split at h
          · next hclose =>
            obtain ⟨rfl, rfl⟩ := Prod.mk.inj (Except.ok.inj h)
            exact ⟨a ++ b, by simp [hk, hs], .last ha (hclose ▸ hb)⟩
          · exact absurd h (by simp)
      · exact absurd h (by simp)

/-- An item is followed by a comma or by the closing character. -/
def Continues (close : Char) (rest : List Char) : Prop := Starts (fun c => c = ',' ∨ c = close) rest

/-- The steps suffice because every item brings a comma or the closing character with it. -/
theorem itemsWithin_complete {item : Reader α} {P : List Char → α → Prop} {close : Char}
    (hblank : isBlank close = false) (hcomma : close ≠ ',')
    (hitem : Complete item P (Continues close)) (hstart : ∀ a x, P a x → Starts (· ≠ close) a)
    (missing : Cause) {a : List Char} {xs : List α} (h : Listed P close a xs) :
    ∀ steps k rest, a.length ≤ steps → k.rest = a ++ rest →
      ∃ k', itemsWithin close missing item steps k = .ok (xs, k') ∧ k'.rest = rest := by
  have hopen : ∀ {k : Cursor} {a rest : List Char} {x : α}, P a x → k.rest = a ++ rest →
      k.peekNext?.any (·.2 = close) = false := by
    intro k a rest x hx hk
    obtain ⟨i, c, s, hn, hc⟩ := next_of_starts (hk ▸ (hstart a x hx).append rest)
    simp [Cursor.peekNext?_eq, hn, hc]
  induction h with
  | @done a ha =>
    intro steps k rest hsteps hk
    have hlen := ha.length_pos
    obtain ⟨steps, rfl⟩ := Nat.exists_eq_succ_of_ne_zero (show steps ≠ 0 by omega)
    obtain ⟨i, s, hs, hsr⟩ := Cursor.next_of_token ha hblank hk
    refine ⟨s, ?_, hsr⟩
    simp [itemsWithin, Cursor.peekNext?_eq, hs]
  | @last a b x hx hb =>
    intro steps k rest hsteps hk
    have hlen := hb.length_pos
    rw [List.length_append] at hsteps
    obtain ⟨steps, rfl⟩ := Nat.exists_eq_succ_of_ne_zero (show steps ≠ 0 by omega)
    rw [List.append_assoc] at hk
    have hr : Continues close (b ++ rest) :=
      (starts_of_token hb hblank (.inr rfl)).append rest
    obtain ⟨s, hs, hsr⟩ := hitem k a _ x hk hx hr
    obtain ⟨i, t, ht, htr⟩ := Cursor.next_of_token hb hblank hsr
    refine ⟨t, ?_, htr⟩
    simp [itemsWithin, hopen hx hk, hs, ht, hcomma, bind, Except.bind]
  | @more a b c x xs hx hb hc ih =>
    intro steps k rest hsteps hk
    have hlen := hb.length_pos
    simp only [List.length_append] at hsteps
    obtain ⟨steps, rfl⟩ := Nat.exists_eq_succ_of_ne_zero (show steps ≠ 0 by omega)
    simp only [List.append_assoc] at hk
    have hr : Continues close (b ++ (c ++ rest)) :=
      (starts_of_token hb (by decide) (.inl rfl)).append _
    obtain ⟨s, hs, hsr⟩ := hitem k a _ x hk hx hr
    obtain ⟨i, t, ht, htr⟩ := Cursor.next_of_token hb (by decide) hsr
    obtain ⟨u, hu, hur⟩ := ih steps t rest (by omega) htr
    refine ⟨u, ?_, hur⟩
    simp [itemsWithin, hopen hx hk, hs, ht, hu, bind, Except.bind]

theorem items_sound {item : Reader α} {P : List Char → α → Prop} (hitem : Sound item P)
    (close : Char) (missing : Cause) : Sound (items close missing item) (Listed P close) := by
  intro k xs k' h
  exact itemsWithin_sound hitem close missing _ k xs k' h

theorem items_complete {item : Reader α} {P : List Char → α → Prop} {close : Char}
    (hblank : isBlank close = false) (hcomma : close ≠ ',')
    (hitem : Complete item P (Continues close)) (hstart : ∀ a x, P a x → Starts (· ≠ close) a)
    (missing : Cause) :
    Complete (items close missing item) (Listed P close) fun _ => True := by
  intro k a rest xs hk h _
  refine itemsWithin_complete hblank hcomma hitem hstart missing h _ k rest ?_ hk
  rw [hk, List.length_append]
  omega

/-! ## Enumerations -/

theorem isNameStart_of_startsNumber {c : Char} (h : startsNumber c = true) :
    isNameStart c = false := by
  simp only [startsNumber, isDigit, Bool.or_eq_true, Bool.and_eq_true, decide_eq_true_eq,
    Char.le_def, UInt32.le_iff_toNat_le] at h
  rcases h with rfl | ⟨-, h⟩
  · decide
  · have h9 : ('9' : Char).val.toNat = 57 := rfl
    have ha : ('a' : Char).val.toNat = 97 := rfl
    have hA : ('A' : Char).val.toNat = 65 := rfl
    have hc : c ≠ '_' := by
      rintro rfl
      exact absurd h (by decide)
    simp only [isNameStart, isLetter, Bool.or_eq_false_iff, Bool.and_eq_false_iff,
      decide_eq_false_iff_not, Char.le_def, UInt32.le_iff_toNat_le]
    exact ⟨⟨.inl (by omega), .inl (by omega)⟩, hc⟩

theorem label_sound {k k' : Cursor} (h : label k = .ok k') :
    k' = k ∨ ∃ word a b, IsName word ∧ Token word a ∧ Token ['='] b ∧
      k.rest = a ++ b ++ k'.rest := by
  unfold label at h
  split at h
  · obtain ⟨⟨s, t⟩, hs, h⟩ := bind_eq_ok.mp h
    obtain ⟨a, hk, word, hword, ha, -⟩ := name_sound _ k s t hs
    dsimp only at h
    split at h
    · next i u hn =>
      obtain rfl := Except.ok.inj h
      obtain ⟨-, b, hb, ht⟩ := Cursor.token_of_next hn
      exact .inr ⟨word, a, b, hword, ha, hb, by simp [hk, ht]⟩
    · exact absurd h (by simp)
  · exact .inl (Except.ok.inj h).symm

theorem label_of_number {k : Cursor} (h : Starts (startsNumber · = true) k.rest) :
    label k = .ok k := by
  obtain ⟨i, c, s, hn, hc⟩ := next_of_starts h
  simp [label, Cursor.peekNext?_eq, hn, isNameStart_of_startsNumber hc]

theorem starts_of_word {word a : List Char} (ha : Token word a)
    (hw : ∀ c ∈ word, isNamePart c = true) (hn : word ≠ []) :
    Starts (isNamePart · = true) a := by
  obtain ⟨c, cs, rfl⟩ := List.exists_cons_of_ne_nil hn
  have hc := hw c (by simp)
  exact starts_of_token ha (isBlank_of_isWordPart (isWordPart_of_isNamePart hc)) hc

theorem starts_of_name {word a : List Char} (hword : IsName word) (ha : Token word a) :
    Starts (isNameStart · = true) a := by
  obtain ⟨c, cs, rfl, hc, -⟩ := hword
  exact starts_of_token ha
    (isBlank_of_isWordPart (isWordPart_of_isNamePart (isNamePart_of_isNameStart hc))) hc

theorem label_of_name {k : Cursor} {word a b rest : List Char} (hword : IsName word)
    (ha : Token word a) (hb : Token ['='] b) (hk : k.rest = a ++ b ++ rest) :
    ∃ k', label k = .ok k' ∧ k'.rest = rest := by
  rw [List.append_assoc] at hk
  obtain ⟨i, c, s, hn, hc⟩ := next_of_starts (hk ▸ (starts_of_name hword ha).append (b ++ rest))
  have hst : Stops isWordPart (b ++ rest) :=
    stops_of_comma ((starts_of_token hb (by decide) rfl).append rest) (by rintro d rfl; decide)
  obtain ⟨t, ht, htr⟩ := name_complete .invalidEnumerationValue k a _ _ hk ⟨word, hword, ha, rfl⟩ hst
  obtain ⟨j, u, hu, hur⟩ := Cursor.next_of_token hb (by decide) htr
  refine ⟨u, ?_, hur⟩
  simp [label, Cursor.peekNext?_eq, hn, hc, ht, hu, bind, Except.bind]

theorem enumerationItem_sound : Sound enumerationItem Item := by
  intro k i k' h
  simp only [enumerationItem, bind_eq_ok] at h
  obtain ⟨s, hs, h⟩ := h
  split at h
  · obtain ⟨c, hr, word, hc, hi⟩ := integer_sound s i k' h
    rcases label_sound hs with rfl | ⟨name, a, b, hname, ha, hb, hk⟩
    · exact ⟨c, hr, .bare hi hc⟩
    · exact ⟨a ++ b ++ c, by simp [hk, hr], .labelled hname ha hb hi hc⟩
  · exact absurd h (by simp)

theorem enumerationItem_complete : Complete enumerationItem Item (Continues ')') := by
  intro k a rest i hk hi hr
  have hst : Stops isWordPart rest := stops_of_comma hr (by rintro c (rfl | rfl) <;> decide)
  have hread : ∀ {s : Cursor} {c : List Char}, IntegerToken c i → s.rest = c ++ rest →
      label k = .ok s → ∃ k', enumerationItem k = .ok (i, k') ∧ k'.rest = rest := by
    intro s c hc hs hlabel
    obtain ⟨j, d, t, hn, hd⟩ := next_of_starts (hs ▸ (starts_of_integerToken hc).append rest)
    obtain ⟨u, hu, hur⟩ := integer_complete s c rest i hs hc hst
    refine ⟨u, ?_, hur⟩
    simp [enumerationItem, hlabel, Cursor.peekNext?_eq, hn, hd, hu, bind, Except.bind]
  cases hi with
  | @bare word _ _ hi ha =>
    have hc : IntegerToken a i := ⟨word, ha, hi⟩
    exact hread hc hk (label_of_number (hk ▸ (starts_of_integerToken hc).append rest))
  | @labelled name a b word c _ hname ha hb hi hc =>
    rw [List.append_assoc] at hk
    obtain ⟨s, hs, hsr⟩ := label_of_name hname ha hb hk
    exact hread ⟨word, hc, hi⟩ hsr hs

theorem starts_of_item {a : List Char} {i : Int64} (h : Item a i) : Starts (· ≠ ')') a := by
  cases h with
  | @bare word _ _ hi ha =>
    exact (starts_of_integerToken ⟨word, ha, hi⟩).mono (by rintro c hc rfl; exact absurd hc (by decide))
  | @labelled name a b word c _ hname ha hb hi hc =>
    rw [List.append_assoc]
    exact ((starts_of_name hname ha).append _).mono (by rintro c hc rfl; exact absurd hc (by decide))

/-- What stands behind the opening bracket of an enumeration. -/
def EnumerationTail (a : List Char) (d : Definition) : Prop :=
  ∃ values, d = .enumeration values ∧ Listed Item ')' a values

theorem enumeration_sound : Sound enumeration EnumerationTail := by
  intro k d k' h
  obtain ⟨⟨values, s⟩, hv, h⟩ := map_eq_ok.mp h
  obtain ⟨rfl, rfl⟩ := Prod.mk.inj h
  obtain ⟨a, hk, ha⟩ := items_sound enumerationItem_sound _ _ k values s hv
  exact ⟨a, hk, values, rfl, ha⟩

theorem enumeration_complete : Complete enumeration EnumerationTail fun _ => True := by
  rintro k a rest d hk ⟨values, rfl, ha⟩ -
  obtain ⟨s, hs, hsr⟩ := items_complete (by decide) (by decide) enumerationItem_complete
    (fun _ _ => starts_of_item) .missingEnumerationDelimiter k a rest values hk ha trivial
  exact ⟨s, by simp [enumeration, hs, Except.map], hsr⟩

/-! ## Objects -/

variable {V : List Char → Definition → Prop}

/-- A member whose value has a text of the form `V`. -/
def MemberOf (V : List Char → Definition → Prop) (a : List Char) (m : Member Definition) : Prop :=
  ∃ v, MemberText a (m, v) ∧ V v m.value

theorem member_sound {value : Reader Definition} (hvalue : Sound value V) :
    Sound (member value) (MemberOf V) := by
  intro k m k' h
  obtain ⟨⟨s, t⟩, hname, h⟩ := bind_eq_ok.mp h
  obtain ⟨a, hk, word, hword, ha, rfl⟩ := name_sound _ k s t hname
  dsimp only at h
  split at h
  · next i v hn =>
    obtain ⟨-, c, hc, hu⟩ := Cursor.token_of_next hn
    obtain ⟨⟨d, w⟩, hd, h⟩ := bind_eq_ok.mp h
    obtain ⟨e, hv, he⟩ := hvalue v d w hd
    split at hu
    · next j after hq =>
      obtain ⟨-, b, hb, ht⟩ := Cursor.token_of_next hq
      simp only [hq, Except.ok.injEq, Prod.mk.injEq] at h hu
      obtain ⟨rfl, rfl⟩ := h
      exact ⟨a ++ b ++ c ++ e, by simp [hk, ht, hu, hv], e, ⟨_, .optional hword ha hb hc, rfl⟩, he⟩
    · next hne =>
      dsimp only at hu
      split at h
      · next j after hq => exact absurd hq (hne j after)
      · obtain ⟨rfl, rfl⟩ := Prod.mk.inj (Except.ok.inj h)
        exact ⟨a ++ c ++ e, by simp [hk, hu, hv], e, ⟨_, .required hword ha hc, rfl⟩, he⟩
  · exact absurd h (by simp)

theorem member_complete {value : Reader Definition} {Follow : List Char → Prop}
    (hvalue : Complete value V Follow) : Complete (member value) (MemberOf V) Follow := by
  rintro k a rest ⟨s, optional, d⟩ hk ⟨e, ⟨head, hhead, rfl⟩, he⟩ hr
  dsimp only at hhead he
  generalize hs : s = s' at hhead
  cases hhead with
  | @required word a c hword ha hc =>
    simp only [List.append_assoc] at hk
    have hst : Stops isWordPart (c ++ (e ++ rest)) :=
      stops_of_comma ((starts_of_token hc (by decide) rfl).append _) (by rintro x rfl; decide)
    obtain ⟨t, ht, htr⟩ := name_complete .invalidMemberName k a _ s hk ⟨word, hword, ha, hs⟩ hst
    obtain ⟨i, v, hv, hvr⟩ := Cursor.next_of_token hc (by decide) htr
    obtain ⟨w, hw, hwr⟩ := hvalue v e rest d hvr he hr
    refine ⟨w, ?_, hwr⟩
    simp [member, ht, hv, hw, hs, bind, Except.bind]
  | @optional word a b c hword ha hb hc =>
    simp only [List.append_assoc] at hk
    have hst : Stops isWordPart (b ++ (c ++ (e ++ rest))) :=
      stops_of_comma ((starts_of_token hb (by decide) rfl).append _) (by rintro x rfl; decide)
    obtain ⟨t, ht, htr⟩ := name_complete .invalidMemberName k a _ s hk ⟨word, hword, ha, hs⟩ hst
    obtain ⟨i, u, hu, hur⟩ := Cursor.next_of_token hb (by decide) htr
    obtain ⟨j, v, hv, hvr⟩ := Cursor.next_of_token hc (by decide) hur
    obtain ⟨w, hw, hwr⟩ := hvalue v e rest d hvr he hr
    refine ⟨w, ?_, hwr⟩
    simp [member, ht, hu, hv, hw, hs, bind, Except.bind]

theorem starts_of_head {head : List Char} {s : String} {optional : Bool}
    (h : Head head s optional) : Starts (isNameStart · = true) head := by
  cases h with
  | required hword ha _ => exact (starts_of_name hword ha).append _
  | optional hword ha _ _ =>
    rw [List.append_assoc]
    exact (starts_of_name hword ha).append _

theorem starts_of_memberOf {a : List Char} {m : Member Definition} (h : MemberOf V a m) :
    Starts (· ≠ '\x7d') a := by
  obtain ⟨v, ⟨head, hhead, rfl⟩, -⟩ := h
  refine ((starts_of_head hhead).append v).mono ?_
  rintro c hc rfl
  exact absurd hc (by decide)

/-- What stands behind the opening brace of an object. -/
def ObjectTail (V : List Char → Definition → Prop) (a : List Char) (d : Definition) : Prop :=
  ∃ members, d = .object members ∧ Listed (MemberOf V) '\x7d' a members

theorem object_sound {value : Reader Definition} (hvalue : Sound value V) :
    Sound (object value) (ObjectTail V) := by
  intro k d k' h
  obtain ⟨⟨members, s⟩, hm, h⟩ := map_eq_ok.mp h
  obtain ⟨rfl, rfl⟩ := Prod.mk.inj h
  obtain ⟨a, hk, ha⟩ := items_sound (member_sound hvalue) _ _ k members s hm
  exact ⟨a, hk, members, rfl, ha⟩

theorem object_complete {value : Reader Definition}
    (hvalue : Complete value V (Continues '\x7d')) :
    Complete (object value) (ObjectTail V) fun _ => True := by
  rintro k a rest d hk ⟨members, rfl, ha⟩ -
  obtain ⟨s, hs, hsr⟩ := items_complete (by decide) (by decide) (member_complete hvalue)
    (fun _ _ => starts_of_memberOf) .missingObjectDelimiter k a rest members hk ha trivial
  exact ⟨s, by simp [object, hs, Except.map], hsr⟩

/-- The texts of the values set aside. -/
theorem exists_parts {a : List Char} {members : List (Member Definition)}
    (h : Listed (MemberOf V) '\x7d' a members) :
    ∃ parts, members = parts.map Prod.fst ∧ Listed MemberText '\x7d' a parts ∧
      ∀ p ∈ parts, V p.2 p.1.value := by
  induction h with
  | done ha => exact ⟨[], rfl, .done ha, by simp⟩
  | @last a b m hm hb =>
    obtain ⟨v, hv, hval⟩ := hm
    exact ⟨[(m, v)], rfl, .last hv hb, by simpa using hval⟩
  | @more a b c m ms hm hb _ ih =>
    obtain ⟨v, hv, hval⟩ := hm
    obtain ⟨parts, rfl, hparts, hvals⟩ := ih
    exact ⟨(m, v) :: parts, rfl, .more hv hb hparts, List.forall_mem_cons.mpr ⟨hval, hvals⟩⟩

theorem listed_of_parts {a : List Char} {parts : List (Member Definition × List Char)}
    (h : Listed MemberText '\x7d' a parts)
    (hV : ∀ p ∈ parts, p.2.length ≤ a.length → V p.2 p.1.value) :
    Listed (MemberOf V) '\x7d' a (parts.map Prod.fst) := by
  induction h with
  | done ha => exact .done ha
  | @last a b p hp hb =>
    refine .last ⟨p.2, hp, hV p (by simp) ?_⟩ hb
    obtain ⟨head, -, rfl⟩ := hp
    simp only [List.length_append]
    omega
  | @more a b c p ps hp hb _ ih =>
    refine .more ⟨p.2, hp, hV p (by simp) ?_⟩ hb (ih fun q hq hlen => hV q (by simp [hq]) ?_)
    · obtain ⟨head, -, rfl⟩ := hp
      simp only [List.length_append]
      omega
    · simp only [List.length_append]
      omega

/-! ## Arrays -/

/-- The opening bracket of an enumeration or an object belongs to the element. -/
inductive Element (V : List Char → Definition → Prop) : List Char → Definition → Prop
  | keyword {w : Keyword} {a : List Char} : Token w.word.toList a → Element V a (.primitive w)
  | enumeration {d : Definition} {a b : List Char} :
    Token ['('] a → EnumerationTail b d → Element V (a ++ b) d
  | object {d : Definition} {a b : List Char} :
    Token ['\x7b'] a → ObjectTail V b d → Element V (a ++ b) d

theorem bareElement_sound {value : Reader Definition} (hvalue : Sound value V) :
    Sound (bareElement value) (Element V) := by
  intro k d k' h
  unfold bareElement at h
  rw [Cursor.peekNext?_eq] at h
  split at h
  · next i hp =>
    obtain ⟨-, a, ha, hk⟩ := Cursor.token_of_next (Prod.ext hp rfl)
    obtain ⟨b, hs, hb⟩ := enumeration_sound _ d k' h
    exact ⟨a ++ b, by simp [hk, hs], .enumeration ha hb⟩
  · next i hp =>
    obtain ⟨-, a, ha, hk⟩ := Cursor.token_of_next (Prod.ext hp rfl)
    obtain ⟨b, hs, hb⟩ := object_sound hvalue _ d k' h
    exact ⟨a ++ b, by simp [hk, hs], .object ha hb⟩
  · split at h
    · exact absurd h (by simp)
    · obtain ⟨⟨w, s⟩, hw, h⟩ := map_eq_ok.mp h
      obtain ⟨rfl, rfl⟩ := Prod.mk.inj h
      obtain ⟨a, hk, ha⟩ := keyword_sound k w s hw
      exact ⟨a, hk, .keyword ha⟩
  · exact absurd h (by simp)

theorem bareElement_complete {value : Reader Definition}
    (hvalue : Complete value V (Continues '\x7d')) :
    Complete (bareElement value) (Element V) (Stops isWordPart) := by
  intro k a rest d hk h hr
  unfold bareElement
  rw [Cursor.peekNext?_eq]
  cases h with
  | @keyword w _ ha =>
    have hw := Keyword.isNamePart_word w
    have hs : Starts (isNamePart · = true) a := starts_of_word ha hw (Keyword.word_ne_nil w)
    obtain ⟨i, c, s, hn, hc⟩ := next_of_starts (hk ▸ hs.append rest)
    obtain ⟨t, ht, htr⟩ := keyword_complete k a rest w hk ha hr
    refine ⟨t, ?_, htr⟩
    simp only [hn]
    split
    · next heq =>
      obtain rfl : c = '(' := by simpa using congrArg (·.map Prod.snd) heq
      exact absurd hc (by decide)
    · next heq =>
      obtain rfl : c = '\x7b' := by simpa using congrArg (·.map Prod.snd) heq
      exact absurd hc (by decide)
    · next j e _ _ heq =>
      obtain rfl : c = e := by simpa using congrArg (·.map Prod.snd) heq
      have hne : ¬(c = '[' ∨ c = '/') := by
        rintro (rfl | rfl) <;> exact absurd hc (by decide)
      simp [hne, ht, Except.map]
    · next heq => exact absurd heq (by simp)
  | @enumeration _ a b ha hb =>
    rw [List.append_assoc] at hk
    obtain ⟨i, s, hs, hsr⟩ := Cursor.next_of_token ha (by decide) hk
    obtain ⟨t, ht, htr⟩ := enumeration_complete s b rest d hsr hb trivial
    exact ⟨t, by simp [hs, ht], htr⟩
  | @object _ a b ha hb =>
    rw [List.append_assoc] at hk
    obtain ⟨i, s, hs, hsr⟩ := Cursor.next_of_token ha (by decide) hk
    obtain ⟨t, ht, htr⟩ := object_complete hvalue s b rest d hsr hb trivial
    exact ⟨t, by simp [hs, ht], htr⟩

theorem starts_of_element {a : List Char} {d : Definition} (h : Element V a d) :
    Starts (· ≠ ']') a := by
  cases h with
  | @keyword w _ ha =>
    refine (starts_of_word ha (Keyword.isNamePart_word w) (Keyword.word_ne_nil w)).mono ?_
    rintro c hc rfl
    exact absurd hc (by decide)
  | enumeration ha _ => exact (starts_of_token ha (by decide) (by decide)).append _
  | object ha _ => exact (starts_of_token ha (by decide) (by decide)).append _

/-- What stands behind the opening bracket of an array. -/
inductive ArrayTail (V : List Char → Definition → Prop) : List Char → Definition → Prop
  | empty {a : List Char} : Token [']'] a → ArrayTail V a (.array none)
  | element {d : Definition} {a b : List Char} :
    Element V a d → Token [']'] b → ArrayTail V (a ++ b) (.array (some d))

theorem array_sound {value : Reader Definition} (hvalue : Sound value V) :
    Sound (array value) (ArrayTail V) := by
  intro k d k' h
  unfold array at h
  split at h
  · next i t hn =>
    obtain ⟨rfl, rfl⟩ := Prod.mk.inj (Except.ok.inj h)
    obtain ⟨-, a, ha, hk⟩ := Cursor.token_of_next hn
    exact ⟨a, hk, .empty ha⟩
  · obtain ⟨⟨e, s⟩, he, h⟩ := map_eq_ok.mp h
    obtain ⟨rfl, rfl⟩ := Prod.mk.inj h
    unfold element at he
    obtain ⟨⟨d, t⟩, hd, he⟩ := bind_eq_ok.mp he
    obtain ⟨a, hk, ha⟩ := bareElement_sound hvalue k d t hd
    dsimp only at he
    split at he
    · next i u hn =>
      obtain ⟨rfl, rfl⟩ := Prod.mk.inj (Except.ok.inj he)
      obtain ⟨-, b, hb, ht⟩ := Cursor.token_of_next hn
      exact ⟨a ++ b, by simp [hk, ht], .element ha hb⟩
    · exact absurd he (by simp)
    · exact absurd he (by simp)

theorem array_complete {value : Reader Definition}
    (hvalue : Complete value V (Continues '\x7d')) :
    Complete (array value) (ArrayTail V) fun _ => True := by
  intro k a rest d hk h _
  cases h with
  | empty ha =>
    obtain ⟨i, s, hs, hsr⟩ := Cursor.next_of_token ha (by decide) hk
    exact ⟨s, by simp [array, hs], hsr⟩
  | @element e a b ha hb =>
    rw [List.append_assoc] at hk
    have hst : Stops isWordPart (b ++ rest) :=
      stops_of_comma ((starts_of_token hb (by decide) rfl).append rest) (by rintro c rfl; decide)
    obtain ⟨s, hs, hsr⟩ := bareElement_complete hvalue k a _ e hk ha hst
    obtain ⟨i, t, ht, htr⟩ := Cursor.next_of_token hb (by decide) hsr
    refine ⟨t, ?_, htr⟩
    obtain ⟨j, c, u, hn, hc⟩ := next_of_starts (hk ▸ (starts_of_element ha).append (b ++ rest))
    unfold array
    split
    · next l v hclose =>
      rw [hn] at hclose
      exact absurd (by simpa using congrArg (·.1.map Prod.snd) hclose) hc
    · simp [element, hs, ht, bind, Except.bind, Except.map]

/-! ## Values -/

variable {accepts : PatternLiteral → Bool}

theorem value_of_enumerationTail (accepts : PatternLiteral → Bool) {a b : List Char}
    {d : Definition} (ha : Token ['('] a) (hb : EnumerationTail b d) :
    d.isBracketed = true ∧ Value accepts (a ++ b) d := by
  obtain ⟨values, rfl, hb⟩ := hb
  exact ⟨rfl, .enumeration ha hb⟩

theorem value_of_objectTail {a b : List Char} {d : Definition} (ha : Token ['\x7b'] a)
    (hb : ObjectTail (Value accepts) b d) : d.isBracketed = true ∧ Value accepts (a ++ b) d := by
  obtain ⟨members, rfl, hb⟩ := hb
  obtain ⟨parts, rfl, hparts, hvalues⟩ := exists_parts hb
  exact ⟨rfl, .object ha hparts hvalues⟩

theorem value_of_arrayTail {a b : List Char} {d : Definition} (ha : Token ['['] a)
    (hb : ArrayTail (Value accepts) b d) : Value accepts (a ++ b) d := by
  cases hb with
  | empty hb => exact .emptyArray ha hb
  | @element e b c hb hc =>
    rw [← List.append_assoc]
    cases hb with
    | keyword hb => exact .keywordArray ha hb hc
    | enumeration hb hd =>
      obtain ⟨he, hv⟩ := value_of_enumerationTail accepts hb hd
      exact .array ha he hv hc
    | object hb hd =>
      obtain ⟨he, hv⟩ := value_of_objectTail hb hd
      exact .array ha he hv hc

theorem value_sound (accepts : PatternLiteral → Bool) (n : Nat) :
    Sound (value accepts n) (Value accepts) := by
  induction n with
  | zero =>
    intro k d k' h
    exact absurd h (by simp [value])
  | succ n ih =>
    intro k d k' h
    unfold value at h
    split at h
    · next i s hn =>
      obtain ⟨-, a, ha, hk⟩ := Cursor.token_of_next hn
      obtain ⟨b, hs, hb⟩ := object_sound ih s d k' h
      exact ⟨a ++ b, by simp [hk, hs], (value_of_objectTail ha hb).2⟩
    · next i s hn =>
      obtain ⟨-, a, ha, hk⟩ := Cursor.token_of_next hn
      obtain ⟨b, hs, hb⟩ := enumeration_sound s d k' h
      exact ⟨a ++ b, by simp [hk, hs], (value_of_enumerationTail accepts ha hb).2⟩
    · next opened s hn =>
      obtain ⟨-, a, ⟨blanks, hblanks, rfl⟩, hk⟩ := Cursor.token_of_next hn
      obtain ⟨⟨literal, t⟩, hl, h⟩ := map_eq_ok.mp h
      obtain ⟨rfl, rfl⟩ := Prod.mk.inj h
      obtain ⟨b, hs, hb, haccepts⟩ := pattern_sound accepts opened s literal t hl
      exact ⟨blanks ++ '/' :: b, by simp [hk, hs], .pattern hb haccepts ⟨blanks, hblanks, rfl⟩⟩
    · next i s hn =>
      obtain ⟨-, a, ha, hk⟩ := Cursor.token_of_next hn
      obtain ⟨b, hs, hb⟩ := array_sound ih s d k' h
      exact ⟨a ++ b, by simp [hk, hs], value_of_arrayTail ha hb⟩
    · exact primitive_sound accepts k d k' h
    · exact absurd h (by simp)

theorem value_of_word {k : Cursor} (h : Starts (isNamePart · = true) k.rest) (n : Nat) :
    value accepts (n + 1) k = primitive k := by
  obtain ⟨i, c, s, hn, hc⟩ := next_of_starts h
  have hne : ∀ {d : Char} {j : Nat} {t : Cursor}, isNamePart d = false → k.next ≠ (some (j, d), t) := by
    intro d j t hd hd'
    rw [hn] at hd'
    obtain rfl : c = d := by simpa using congrArg (·.1.map Prod.snd) hd'
    simp [hd] at hc
  unfold value
  split
  · next hd => exact absurd hd (hne (by decide))
  · next hd => exact absurd hd (hne (by decide))
  · next hd => exact absurd hd (hne (by decide))
  · next hd => exact absurd hd (hne (by decide))
  · rfl
  · next hd => simp [hn] at hd

theorem length_pos_of_value {a : List Char} {d : Definition} (h : Value accepts a d) :
    0 < a.length := by
  cases h with
  | @primitive w _ ha =>
    exact (starts_of_word ha (Keyword.isNamePart_word w) (Keyword.word_ne_nil w)).length_pos
  | @pattern literal word _ hp _ ha =>
    cases hp
    exact ha.length_pos
  | range _ _ hb _ => simp only [List.length_append]; have := hb.length_pos; omega
  | enumeration ha _ => simp only [List.length_append]; have := ha.length_pos; omega
  | object ha _ _ => simp only [List.length_append]; have := ha.length_pos; omega
  | emptyArray ha _ => simp only [List.length_append]; have := ha.length_pos; omega
  | keywordArray ha _ _ => simp only [List.length_append]; have := ha.length_pos; omega
  | array ha _ _ _ => simp only [List.length_append]; have := ha.length_pos; omega

/-- The texts that a reader of the given depth takes. -/
def ValueWithin (accepts : PatternLiteral → Bool) (n : Nat) (a : List Char) (d : Definition) :
    Prop :=
  Value accepts a d ∧ a.length ≤ n

theorem objectTail_of_value {n : Nat} {b : List Char}
    {parts : List (Member Definition × List Char)} (hb : Listed MemberText '\x7d' b parts)
    (hvalues : ∀ p ∈ parts, Value accepts p.2 p.1.value) (hlen : b.length ≤ n) :
    ObjectTail (ValueWithin accepts n) b (.object (parts.map Prod.fst)) :=
  ⟨_, rfl, listed_of_parts hb fun p hp hle => ⟨hvalues p hp, Nat.le_trans hle hlen⟩⟩

theorem element_of_value {n : Nat} {b : List Char} {d : Definition} (hd : d.isBracketed = true)
    (h : Value accepts b d) (hlen : b.length ≤ n) : Element (ValueWithin accepts n) b d := by
  cases h with
  | enumeration ha hb => exact .enumeration ha ⟨_, rfl, hb⟩
  | @object a b parts ha hb hvalues =>
    rw [List.length_append] at hlen
    exact .object ha (objectTail_of_value hb hvalues (by omega))
  | @range w a b c low high =>
    cases low <;> cases high <;> simp [ofBounds, Definition.isBracketed] at hd
  | primitive => simp [Definition.isBracketed] at hd
  | pattern => simp [Definition.isBracketed] at hd
  | emptyArray => simp [Definition.isBracketed] at hd
  | keywordArray => simp [Definition.isBracketed] at hd
  | array => simp [Definition.isBracketed] at hd

section Within

variable {n : Nat} {k : Cursor} {a b rest : List Char} {d : Definition}

theorem value_of_opening_parenthesis (hk : k.rest = a ++ (b ++ rest)) (ha : Token ['('] a)
    (hb : EnumerationTail b d) : ∃ k', value accepts (n + 1) k = .ok (d, k') ∧ k'.rest = rest := by
  obtain ⟨i, s, hs, hsr⟩ := Cursor.next_of_token ha (by decide) hk
  obtain ⟨t, ht, htr⟩ := enumeration_complete s b rest d hsr hb trivial
  exact ⟨t, by simp [value, hs, ht], htr⟩

theorem value_of_opening_slash {word : List Char} {literal : PatternLiteral}
    (hk : k.rest = a ++ rest) (ha : Token word a) (hp : Grammar.Pattern word literal)
    (haccepts : accepts literal = true) (hr : Follows rest) :
    ∃ k', value accepts (n + 1) k = .ok (.pattern literal, k') ∧ k'.rest = rest := by
  obtain ⟨tail, rfl⟩ : ∃ tail, word = '/' :: tail := by
    cases hp
    exact ⟨_, rfl⟩
  obtain ⟨blanks, hblanks, rfl⟩ := ha
  have hsplit : k.rest = (blanks ++ ['/']) ++ (tail ++ rest) := by simp [hk]
  obtain ⟨opened, s, hs, hsr⟩ := Cursor.next_of_token ⟨blanks, hblanks, rfl⟩ (by decide) hsplit
  obtain ⟨t, ht, htr⟩ :=
    pattern_complete accepts opened s tail rest literal hsr ⟨hp, haccepts⟩ hr.stops
  exact ⟨t, by simp [value, hs, ht, Except.map], htr⟩

variable (hvalue : Complete (value accepts n) (ValueWithin accepts n) (Continues '\x7d'))
include hvalue

theorem value_of_opening_brace (hk : k.rest = a ++ (b ++ rest)) (ha : Token ['\x7b'] a)
    (hb : ObjectTail (ValueWithin accepts n) b d) :
    ∃ k', value accepts (n + 1) k = .ok (d, k') ∧ k'.rest = rest := by
  obtain ⟨i, s, hs, hsr⟩ := Cursor.next_of_token ha (by decide) hk
  obtain ⟨t, ht, htr⟩ := object_complete hvalue s b rest d hsr hb trivial
  exact ⟨t, by simp [value, hs, ht], htr⟩

theorem value_of_opening_bracket (hk : k.rest = a ++ (b ++ rest)) (ha : Token ['['] a)
    (hb : ArrayTail (ValueWithin accepts n) b d) :
    ∃ k', value accepts (n + 1) k = .ok (d, k') ∧ k'.rest = rest := by
  obtain ⟨i, s, hs, hsr⟩ := Cursor.next_of_token ha (by decide) hk
  obtain ⟨t, ht, htr⟩ := array_complete hvalue s b rest d hsr hb trivial
  exact ⟨t, by simp [value, hs, ht], htr⟩

end Within

theorem value_complete (accepts : PatternLiteral → Bool) (n : Nat) :
    Complete (value accepts n) (ValueWithin accepts n) Follows := by
  induction n with
  | zero =>
    rintro k a rest d hk ⟨h, hlen⟩ hr
    exact absurd (length_pos_of_value h) (by omega)
  | succ n ih =>
    have hvalue : Complete (value accepts n) (ValueWithin accepts n) (Continues '\x7d') :=
      fun k a rest d hk h hr => ih k a rest d hk h (.inr hr)
    rintro k a rest d hk ⟨h, hlen⟩ hr
    cases h with
    | @primitive w _ ha =>
      have hs := starts_of_word ha (Keyword.isNamePart_word w) (Keyword.word_ne_nil w)
      rw [value_of_word (hk ▸ hs.append rest)]
      exact primitive_of_keyword hk ha hr
    | @range w a b c low high hw ha hb hc =>
      have hs := starts_of_word ha (Keyword.isNamePart_word w) (Keyword.word_ne_nil w)
      rw [value_of_word (hk ▸ (((hs.append b).append c).append rest))]
      exact primitive_of_range hk hw ha hb hc
    | pattern hp haccepts ha => exact value_of_opening_slash hk ha hp haccepts hr
    | enumeration ha hb =>
      rw [List.append_assoc] at hk
      exact value_of_opening_parenthesis hk ha ⟨_, rfl, hb⟩
    | object ha hb hvalues =>
      -- the opening brace takes a character, so that the members lie one level further down
      have hpos := ha.length_pos
      rw [List.length_append] at hlen
      rw [List.append_assoc] at hk
      exact value_of_opening_brace hvalue hk ha (objectTail_of_value hb hvalues (by omega))
    | emptyArray ha hb =>
      rw [List.append_assoc] at hk
      exact value_of_opening_bracket hvalue hk ha (.empty hb)
    | @keywordArray w a b c ha hb hc =>
      rw [List.append_assoc a, List.append_assoc] at hk
      exact value_of_opening_bracket hvalue hk ha (.element (.keyword hb) hc)
    | @array e a b c ha he hb hc =>
      have hpos := ha.length_pos
      simp only [List.length_append] at hlen
      rw [List.append_assoc a, List.append_assoc] at hk
      exact value_of_opening_bracket hvalue hk ha
        (.element (element_of_value he hb (by omega)) hc)

theorem whole_sound {k : Cursor} {d : Definition} (h : whole accepts k = .ok d) :
    Derives accepts k.rest d := by
  obtain ⟨⟨d', s⟩, hd, h⟩ := bind_eq_ok.mp h
  obtain ⟨a, hk, ha⟩ := value_sound accepts _ k d' s hd
  dsimp only at h
  split at h
  · next hp =>
    obtain rfl := Except.ok.inj h
    rw [Cursor.peekNext?_eq] at hp
    exact ⟨a, s.rest, hk, Cursor.blanks_of_next_none (Prod.ext hp rfl), ha⟩
  · exact absurd h (by simp)

theorem whole_complete {k : Cursor} {d : Definition} (h : Derives accepts k.rest d) :
    whole accepts k = .ok d := by
  obtain ⟨a, blanks, hk, hblanks, ha⟩ := h
  have hlen : a.length ≤ k.rest.length + 1 := by
    rw [hk, List.length_append]
    omega
  obtain ⟨s, hs, hsr⟩ := value_complete accepts _ k a blanks d hk ⟨ha, hlen⟩ (.inl hblanks)
  have hp : s.peekNext? = none := by
    rw [Cursor.peekNext?_eq]
    exact Cursor.next_of_blanks (hsr ▸ hblanks)
  simp [whole, hs, hp, bind, Except.bind]

end Parser

theorem derives_of_ofBareText {accepts : PatternLiteral → Bool} {text : String} {d : Definition}
    (h : ofBareText accepts text = .ok d) : Grammar.Derives accepts text.toList d := by
  unfold ofBareText at h
  split at h
  · next e he =>
    obtain rfl := Except.ok.inj h
    exact Parser.whole_sound he
  · exact absurd h (by simp)

theorem ofBareText_of_derives {accepts : PatternLiteral → Bool} {text : String} {d : Definition}
    (h : Grammar.Derives accepts text.toList d) : ofBareText accepts text = .ok d := by
  have hrest : (Text.Cursor.ofText text).rest = text.toList := rfl
  unfold ofBareText
  rw [Parser.whole_complete (hrest ▸ h)]

/-- Exactly the texts of the grammar are read, whichever patterns are accepted. -/
theorem ofBareText_eq_ok_iff (accepts : PatternLiteral → Bool) (text : String) (d : Definition) :
    ofBareText accepts text = .ok d ↔ Grammar.Derives accepts text.toList d :=
  ⟨derives_of_ofBareText, ofBareText_of_derives⟩

end CompactSchema.Definition
