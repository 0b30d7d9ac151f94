import CompactSchema.Proofs.Tokens

set_option autoImplicit false

/-!
# Reading ranges and patterns

The readers of what has no parts against the rules of the grammar. A primitive type is read up to
a token that cannot go on with it: behind a value an object goes on or the text ends, and in
neither case with an angle bracket.
-/

namespace CompactSchema.Definition.Parser

open Text SyntaxError Grammar

variable {α β : Type}

/-! ## What stands ahead -/

/-- The first character behind the blanks satisfies `p`. -/
def Starts (p : Char → Prop) (a : List Char) : Prop :=
  ∃ blanks c cs, Blanks blanks ∧ isBlank c = false ∧ p c ∧ a = blanks ++ c :: cs

theorem Starts.mono {p q : Char → Prop} {a : List Char} (h : Starts p a) (hq : ∀ c, p c → q c) :
    Starts q a := by
  obtain ⟨blanks, c, cs, hb, hc, hp, rfl⟩ := h
  exact ⟨blanks, c, cs, hb, hc, hq c hp, rfl⟩

theorem Starts.append {p : Char → Prop} {a : List Char} (h : Starts p a) (b : List Char) :
    Starts p (a ++ b) := by
  obtain ⟨blanks, c, cs, hb, hc, hp, rfl⟩ := h
  exact ⟨blanks, c, cs ++ b, hb, hc, hp, by simp⟩

theorem Starts.length_pos {p : Char → Prop} {a : List Char} (h : Starts p a) : 0 < a.length := by
  obtain ⟨blanks, c, cs, -, -, -, rfl⟩ := h
  simp only [List.length_append, List.length_cons]
  omega

theorem starts_of_token {p : Char → Prop} {c : Char} {cs a : List Char} (ha : Token (c :: cs) a)
    (hc : isBlank c = false) (hp : p c) : Starts p a := by
  obtain ⟨blanks, hb, rfl⟩ := ha
  exact ⟨blanks, c, cs, hb, hc, hp, rfl⟩

theorem next_of_starts {k : Cursor} {p : Char → Prop} (h : Starts p k.rest) :
    ∃ i c k', k.next = (some (i, c), k') ∧ p c := by
  obtain ⟨blanks, c, cs, hb, hc, hp, hk⟩ := h
  have hk : k.rest = (blanks ++ [c]) ++ cs := by simp [hk]
  obtain ⟨i, k', hk, -⟩ := Cursor.next_of_token ⟨blanks, hb, rfl⟩ hc hk
  exact ⟨i, c, k', hk, hp⟩

theorem stops_of_starts {p : Char → Bool} {q : Char → Prop} {a : List Char} (ha : Starts q a)
    (hb : ∀ c, isBlank c = true → p c = false) (hq : ∀ c, q c → p c = false) : Stops p a := by
  obtain ⟨blanks, c, cs, hbl, hc, hp, rfl⟩ := ha
  cases blanks with
  | nil => exact stops_cons (hq c hp) cs
  | cons b blanks => exact stops_cons (hb b (hbl b (by simp))) _

theorem stops_of_blanks {p : Char → Bool} {a : List Char} (ha : Blanks a)
    (hb : ∀ c, isBlank c = true → p c = false) : Stops p a := by
  cases a with
  | nil => exact stops_nil p
  | cons b blanks => exact stops_cons (hb b (ha b (by simp))) _

theorem stops_of_comma {q : Char → Prop} {a : List Char} (ha : Starts q a)
    (hq : ∀ c, q c → isWordPart c = false) : Stops isWordPart a :=
  stops_of_starts ha (fun _ => isWordPart_of_isBlank) hq

/-! ## Ranges -/

theorem starts_of_number {negative : Bool} {ds tail a : List Char}
    (ha : Token (sign negative ++ ds ++ tail) a) (hd : ∀ c ∈ ds, isDigit c = true)
    (hn : ds ≠ []) : Starts (startsNumber · = true) a := by
  cases negative with
  | true => exact starts_of_token ha (by decide) (by decide)
  | false =>
    obtain ⟨c, cs, rfl⟩ := List.exists_cons_of_ne_nil hn
    have hc := hd c (by simp)
    exact starts_of_token ha (isBlank_of_isWordPart (isWordPart_of_isDigit hc))
      (by simp [startsNumber, hc])

theorem starts_of_integerToken {a : List Char} {i : Int64} (h : IntegerToken a i) :
    Starts (startsNumber · = true) a := by
  obtain ⟨word, ha, hi⟩ := h
  obtain @⟨negative, digits, n, i, hn, -⟩ := hi
  rw [← List.append_nil digits, ← List.append_assoc] at ha
  exact starts_of_number ha hn.isDigit hn.ne_nil

theorem starts_of_decimalToken {a : List Char} {x : Binary64} (h : DecimalToken a x) :
    Starts (startsNumber · = true) a := by
  obtain ⟨word, ha, hx⟩ := h
  cases hx with
  | @whole negative digits n _ hn =>
    rw [← List.append_nil digits, ← List.append_assoc] at ha
    exact starts_of_number ha hn.isDigit hn.ne_nil
  | @point negative whole fraction n hw hn =>
    refine starts_of_number ha (fun c hc => hn.isDigit c (by simp [hc])) ?_
    rcases hw with rfl | ⟨hw, -⟩
    · simp
    · exact hw

theorem bound?_sound (w : Keyword) : Sound (bound? w) (BoundOf w) := by
  intro k b k' h
  unfold bound? at h
  split at h
  · split at h
    · split at h
      · next hw =>
        obtain ⟨⟨x, s⟩, hx, h⟩ := map_eq_ok.mp h
        obtain ⟨rfl, rfl⟩ := Prod.mk.inj h
        obtain ⟨a, hk, word, ha, hd⟩ := decimal_sound k x s hx
        exact ⟨a, hk, .float hw hd ha⟩
      · next hw =>
        obtain ⟨⟨i, s⟩, hi, h⟩ := map_eq_ok.mp h
        obtain ⟨rfl, rfl⟩ := Prod.mk.inj h
        obtain ⟨a, hk, word, ha, hd⟩ := integer_sound k i s hi
        exact ⟨a, hk, .int (by simpa using hw) hd ha⟩
    · obtain ⟨rfl, rfl⟩ := Prod.mk.inj (Except.ok.inj h)
      exact ⟨[], rfl, .absent⟩
  · obtain ⟨rfl, rfl⟩ := Prod.mk.inj (Except.ok.inj h)
    exact ⟨[], rfl, .absent⟩

/-- What stands behind a bound. -/
def Separates (rest : List Char) : Prop := Starts (fun c => c = ',' ∨ c = '>') rest

theorem bound?_complete (w : Keyword) : Complete (bound? w) (BoundOf w) Separates := by
  intro k a rest b hk hb hr
  have hs : Stops isWordPart rest := stops_of_comma hr (by rintro c (rfl | rfl) <;> decide)
  unfold bound?
  cases hb with
  | absent =>
    rw [List.nil_append] at hk
    obtain ⟨i, c, s, hn, hc⟩ := next_of_starts (hk ▸ hr)
    have hc' : startsNumber c = false := by rcases hc with rfl | rfl <;> decide
    exact ⟨k, by simp [Cursor.peekNext?_eq, hn, hc'], hk⟩
  | @int word a i hw hi ha =>
    obtain ⟨j, c, s, hn, hc⟩ := next_of_starts (hk ▸ (starts_of_integerToken ⟨word, ha, hi⟩).append rest)
    obtain ⟨t, ht, htr⟩ := integer_complete k a rest i hk ⟨word, ha, hi⟩ hs
    exact ⟨t, by simp [Cursor.peekNext?_eq, hn, hc, hw, ht, Except.map], htr⟩
  | @float word a x hw hx ha =>
    obtain ⟨j, c, s, hn, hc⟩ := next_of_starts (hk ▸ (starts_of_decimalToken ⟨word, ha, hx⟩).append rest)
    obtain ⟨t, ht, htr⟩ := decimal_complete k a rest x hk ⟨word, ha, hx⟩ hs
    exact ⟨t, by simp [Cursor.peekNext?_eq, hn, hc, hw, ht, Except.map], htr⟩

def BoundsOf (w : Keyword) (a : List Char) (b : Option Bound × Option Bound) : Prop :=
  Bounds w a b.1 b.2

theorem bounds_sound (w : Keyword) : Sound (bounds w) (BoundsOf w) := by
  intro k b k' h
  simp only [bounds, bind_eq_ok] at h
  obtain ⟨⟨low, s⟩, hlow, h⟩ := h
  obtain ⟨a₁, hk, hb₁⟩ := bound?_sound w k low s hlow
  simp only at h
  split at h
  · next i t hn =>
    obtain ⟨rfl, rfl⟩ := Prod.mk.inj (Except.ok.inj h)
    obtain ⟨-, a₂, ha₂, hs⟩ := Cursor.token_of_next hn
    exact ⟨a₁ ++ a₂, by rw [hk, hs, List.append_assoc], .one hb₁ ha₂⟩
  · next i t hn =>
    obtain ⟨-, a₂, ha₂, hs⟩ := Cursor.token_of_next hn
    obtain ⟨⟨high, u⟩, hhigh, h⟩ := bind_eq_ok.mp h
    obtain ⟨a₃, ht, hb₃⟩ := bound?_sound w t high u hhigh
    simp only at h
    split at h
    · next i v hn =>
      obtain ⟨rfl, rfl⟩ := Prod.mk.inj (Except.ok.inj h)
      obtain ⟨-, a₄, ha₄, hu⟩ := Cursor.token_of_next hn
      exact ⟨a₁ ++ a₂ ++ a₃ ++ a₄, by simp [hk, hs, ht, hu], .two hb₁ ha₂ hb₃ ha₄⟩
    · exact absurd h (by simp)
  · exact absurd h (by simp)

theorem bounds_complete (w : Keyword) : Complete (bounds w) (BoundsOf w) fun _ => True := by
  intro k a rest b hk hb _
  obtain ⟨low, high⟩ := b
  cases hb with
  | @one a₁ a₂ _ hb₁ ha₂ =>
    rw [List.append_assoc] at hk
    have hr : Separates (a₂ ++ rest) :=
      (starts_of_token ha₂ (by decide) (.inr rfl)).append rest
    obtain ⟨s, hs, hsr⟩ := bound?_complete w k a₁ _ low hk hb₁ hr
    obtain ⟨i, t, ht, htr⟩ := Cursor.next_of_token ha₂ (by decide) hsr
    exact ⟨t, by simp [bounds, hs, ht, bind, Except.bind], htr⟩
  | @two a₁ a₂ a₃ a₄ _ _ hb₁ ha₂ hb₃ ha₄ =>
    simp only [List.append_assoc] at hk
    have hr₂ : Separates (a₂ ++ (a₃ ++ (a₄ ++ rest))) :=
      (starts_of_token ha₂ (by decide) (.inl rfl)).append _
    have hr₄ : Separates (a₄ ++ rest) :=
      (starts_of_token ha₄ (by decide) (.inr rfl)).append _
    obtain ⟨s, hs, hsr⟩ := bound?_complete w k a₁ _ low hk hb₁ hr₂
    obtain ⟨i, t, ht, htr⟩ := Cursor.next_of_token ha₂ (by decide) hsr
    obtain ⟨u, hu, hur⟩ := bound?_complete w t a₃ _ high htr hb₃ hr₄
    obtain ⟨j, v, hv, hvr⟩ := Cursor.next_of_token ha₄ (by decide) hur
    exact ⟨v, by simp [bounds, hs, ht, hu, hv, bind, Except.bind], hvr⟩

/-! ## Primitive types -/

theorem primitive_sound (accepts : PatternLiteral → Bool) :
    Sound primitive (Value accepts) := by
  intro k d k' h
  simp only [primitive, bind_eq_ok] at h
  obtain ⟨⟨w, s⟩, hw, h⟩ := h
  obtain ⟨a, hk, ha⟩ := keyword_sound k w s hw
  simp only at h
  split at h
  · next hrange =>
    split at h
    · next i t hn =>
      obtain ⟨-, b, hb, hs⟩ := Cursor.token_of_next hn
      obtain ⟨⟨⟨low, high⟩, u⟩, hbounds, h⟩ := bind_eq_ok.mp h
      obtain ⟨c, ht, hc⟩ := bounds_sound w t (low, high) u hbounds
      have hd : d = .ofBounds w low high ∧ u = k' := by
        cases low <;> cases high <;>
          exact ⟨(Prod.mk.inj (Except.ok.inj h)).1.symm, (Prod.mk.inj (Except.ok.inj h)).2⟩
      obtain ⟨rfl, rfl⟩ := hd
      exact ⟨a ++ b ++ c, by simp [hk, hs, ht], .range hrange ha hb hc⟩
    · obtain ⟨rfl, rfl⟩ := Prod.mk.inj (Except.ok.inj h)
      exact ⟨a, hk, .primitive ha⟩
  · obtain ⟨rfl, rfl⟩ := Prod.mk.inj (Except.ok.inj h)
    exact ⟨a, hk, .primitive ha⟩

/-- Behind a value the text ends, or an object goes on. -/
def Follows (rest : List Char) : Prop :=
  Blanks rest ∨ Starts (fun c => c = ',' ∨ c = '\x7d') rest

theorem Follows.stops {rest : List Char} (h : Follows rest) : Stops isWordPart rest := by
  rcases h with h | h
  · exact stops_of_blanks h fun _ => isWordPart_of_isBlank
  · exact stops_of_comma h (by rintro c (rfl | rfl) <;> decide)

theorem Follows.next_ne {k : Cursor} (h : Follows k.rest) (i : Nat) (k' : Cursor) :
    k.next ≠ (some (i, '<'), k') := by
  intro hn
  rcases h with h | h
  · have hnone := Cursor.next_of_blanks h
    rw [hn] at hnone
    exact absurd hnone (by simp)
  · obtain ⟨j, c, s, hs, hc⟩ := next_of_starts h
    rw [hs] at hn
    obtain rfl : c = '<' := by simpa using congrArg (·.1.map Prod.snd) hn
    exact absurd hc (by decide)

theorem primitive_of_keyword {k : Cursor} {a rest : List Char} {w : Keyword}
    (hk : k.rest = a ++ rest) (ha : Token w.word.toList a) (hr : Follows rest) :
    ∃ k', primitive k = .ok (.primitive w, k') ∧ k'.rest = rest := by
  obtain ⟨s, hs, hsr⟩ := keyword_complete k a rest w hk ha hr.stops
  refine ⟨s, ?_, hsr⟩
  simp only [primitive, hs, bind, Except.bind]
  split
  · split
    · next i t hn => exact absurd hn (Follows.next_ne (hsr ▸ hr) i t)
    · rfl
  · rfl

theorem primitive_of_range {k : Cursor} {a b c rest : List Char} {w : Keyword}
    {low high : Option Bound} (hk : k.rest = a ++ b ++ c ++ rest) (hw : w.acceptsRange = true)
    (ha : Token w.word.toList a) (hb : Token ['<'] b) (hc : Bounds w c low high) :
    ∃ k', primitive k = .ok (.ofBounds w low high, k') ∧ k'.rest = rest := by
  simp only [List.append_assoc] at hk
  have hst : Stops isWordPart (b ++ (c ++ rest)) :=
    stops_of_comma ((starts_of_token hb (by decide) rfl).append _) (by rintro d rfl; decide)
  obtain ⟨s, hs, hsr⟩ := keyword_complete k a _ w hk ha hst
  obtain ⟨i, t, ht, htr⟩ := Cursor.next_of_token hb (by decide) hsr
  obtain ⟨u, hu, hur⟩ := bounds_complete w t c rest (low, high) htr hc trivial
  refine ⟨u, ?_, hur⟩
  simp only [primitive, hs, bind, Except.bind, hw, ↓reduceIte, ht, hu]
  cases low <;> cases high <;> rfl

/-! ## Patterns -/

/-- `Closed` for a body behind the character `last`. -/
def ClosedBehind (last : Char) (body : List Char) : Prop :=
  (∀ front back, body = front ++ '/' :: back → (last :: front).getLast? = some '\\') ∧
    (last :: body).getLast? ≠ some '\\'

theorem closedBehind_slash {body : List Char} : ClosedBehind '/' body ↔ Closed body := by
  have hl : ∀ cs : List Char, ('/' :: cs).getLast? = some '\\' ↔ cs.getLast? = some '\\' := by
    intro cs
    cases cs <;> simp
  simp only [ClosedBehind, Closed, SlashesEscaped, hl, ne_eq]

theorem closedBehind_nil {last : Char} : ClosedBehind last [] ↔ last ≠ '\\' := by
  simp [ClosedBehind]

theorem closedBehind_cons {last c : Char} {body : List Char} :
    ClosedBehind last (c :: body) ↔ (c = '/' → last = '\\') ∧ ClosedBehind c body := by
  have hl : ∀ cs : List Char, (last :: c :: cs).getLast? = (c :: cs).getLast? := by simp
  constructor
  · rintro ⟨hesc, hlast⟩
    refine ⟨fun hc => by simpa using hesc [] body (by simp [hc]), fun front back h => ?_, ?_⟩
    · rw [← hl]
      exact hesc (c :: front) back (by simp [h])
    · rwa [← hl]
  · rintro ⟨hc, hesc, hlast⟩
    refine ⟨fun front back h => ?_, by rwa [hl]⟩
    cases front with
    | nil => simpa using hc (List.cons.inj h).1
    | cons d front =>
      obtain ⟨rfl, hbody⟩ := List.cons.inj h
      rw [hl]
      exact hesc front back hbody

/-- The closing slash that is found is the first one that no backslash precedes. -/
theorem splitPattern?_eq_some {last : Char} {cs body rest : List Char} :
    splitPattern? last cs = some (body, rest) ↔
      cs = body ++ '/' :: rest ∧ ClosedBehind last body := by
  induction cs generalizing last body with
  | nil => simp [splitPattern?]
  | cons c cs ih =>
    by_cases hc : c = '/' ∧ last ≠ '\\'
    · rw [splitPattern?, if_pos hc]
      cases body with
      | nil => simp [closedBehind_nil, hc, eq_comm]
      | cons d body =>
        simp only [Option.some.injEq, Prod.mk.injEq, closedBehind_cons, reduceCtorEq, false_and,
          false_iff, not_and, List.cons_append, List.cons.injEq]
        rintro ⟨rfl, -⟩ hl
        exact absurd (hl hc.1) hc.2
    · rw [splitPattern?, if_neg hc, Option.map_eq_some_iff]
      cases body with
      | nil =>
        simp only [Prod.mk.injEq, reduceCtorEq, false_and, and_false, exists_false, false_iff,
          closedBehind_nil, List.nil_append, List.cons.injEq]
        rintro ⟨⟨h, -⟩, hl⟩
        exact hc ⟨h, hl⟩
      | cons d body =>
        rw [closedBehind_cons]
        constructor
        · rintro ⟨⟨b, r⟩, hb, h⟩
          obtain ⟨hcons, rfl⟩ := Prod.mk.inj h
          obtain ⟨rfl, rfl⟩ := List.cons.inj hcons
          obtain ⟨rfl, hcl⟩ := ih.mp hb
          refine ⟨rfl, fun hs => ?_, hcl⟩
          exact Classical.not_not.mp fun hl => hc ⟨hs, hl⟩
        · rintro ⟨h, -, hcl⟩
          obtain ⟨rfl, rfl⟩ := List.cons.inj h
          exact ⟨(body, rest), ih.mpr ⟨rfl, hcl⟩, rfl⟩

/-- What stands behind the opening slash of a pattern. -/
def PatternTail (accepts : PatternLiteral → Bool) (a : List Char) (literal : PatternLiteral) :
    Prop :=
  Pattern ('/' :: a) literal ∧ accepts literal = true

theorem isFlag_iff {c : Char} : isFlag c = true ↔ c = 'g' ∨ c = 'i' ∨ c = 'm' := by
  simp [isFlag, or_assoc]

theorem pattern_sound (accepts : PatternLiteral → Bool) (opened : Nat) :
    Sound (pattern accepts opened) (PatternTail accepts) := by
  intro k literal k' h
  unfold pattern at h
  split at h
  · exact absurd h (by simp)
  · next body rest hsplit =>
    obtain ⟨hrest, hclosed⟩ := splitPattern?_eq_some.mp hsplit
    obtain ⟨flags, t, hft⟩ : ∃ flags t,
        (k.skipOver (body ++ ['/']) rest).readWhile isFlag = (flags, t) := ⟨_, _, rfl⟩
    have hf : rest.takeWhile isFlag = flags := congrArg Prod.fst hft
    have ht : rest.dropWhile isFlag = t.rest := congrArg (·.2.rest) hft
    have hflags : ∀ c ∈ flags, c = 'g' ∨ c = 'i' ∨ c = 'm' := by
      intro c hc
      rw [← hf] at hc
      exact isFlag_iff.mp (List.all_eq_true.mp List.all_takeWhile c hc)
    rw [hft] at h
    dsimp only at h
    split at h
    · next haccepts =>
      obtain ⟨rfl, rfl⟩ := Prod.mk.inj (Except.ok.inj h)
      refine ⟨body ++ '/' :: flags, ?_, .mk (closedBehind_slash.mp hclosed) hflags, haccepts⟩
      rw [hrest, ← hf, ← ht, List.append_assoc, List.cons_append, List.takeWhile_append_dropWhile]
    · exact absurd h (by simp)

theorem pattern_complete (accepts : PatternLiteral → Bool) (opened : Nat) :
    Complete (pattern accepts opened) (PatternTail accepts) (Stops isWordPart) := by
  intro k a rest literal hk ⟨hp, haccepts⟩ hr
  obtain ⟨body, flags, rfl, hclosed, hflags, rfl⟩ : ∃ body flags,
      a = body ++ '/' :: flags ∧ Closed body ∧ (∀ c ∈ flags, isFlag c = true) ∧
        literal = ⟨String.ofList body,
          ⟨flags.contains 'g', flags.contains 'i', flags.contains 'm'⟩⟩ := by
    generalize hw : '/' :: a = word at hp
    cases hp with
    | @mk body flags hclosed hflags =>
      exact ⟨body, flags, (List.cons.inj hw).2, hclosed, fun c hc => isFlag_iff.mpr (hflags c hc),
        rfl⟩
  have hr' : Stops isFlag rest := hr.mono fun c hc => by
    rcases isFlag_iff.mp hc with rfl | rfl | rfl <;> decide
  have hsplit : splitPattern? '/' k.rest = some (body, flags ++ rest) :=
    splitPattern?_eq_some.mpr ⟨by simp [hk], closedBehind_slash.mpr hclosed⟩
  refine ⟨((k.skipOver (body ++ ['/']) (flags ++ rest)).readWhile isFlag).2, ?_, ?_⟩
  · simp only [pattern, hsplit, Cursor.readWhile_fst, Cursor.rest_skipOver,
      takeWhile_of_stops hflags hr', haccepts, ↓reduceIte]
  · rw [Cursor.rest_readWhile, Cursor.rest_skipOver, dropWhile_of_stops hflags hr']

end CompactSchema.Definition.Parser
