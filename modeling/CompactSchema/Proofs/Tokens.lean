import CompactSchema.Definition.Parser
import CompactSchema.Proofs.Moves

set_option autoImplicit false

/-!
# Reading numbers, names and patterns

Each reader against its rule of the grammar, in both directions. `Sound` says that what a reader
takes off the text has the form `P`; `Complete` that a text of the form `P` is taken off
whenever the text behind it does not go on in a way that `Follow` rules out.
-/

namespace CompactSchema.Grammar

open Text Definition.Parser

theorem digitsValue_concat (ds : List Char) (c : Char) :
    digitsValue (ds ++ [c]) = 10 * digitsValue ds + (c.toNat - '0'.toNat) := by
  simp [digitsValue]

theorem Numeral.isDigit {ds : List Char} {n : Nat} (h : Numeral ds n) :
    ∀ c ∈ ds, isDigit c = true := by
  induction h with
  | digit hc => simpa using hc
  | snoc _ hc ih =>
    intro d hd
    rcases List.mem_append.mp hd with hd | hd
    · exact ih d hd
    · obtain rfl := List.mem_singleton.mp hd
      exact hc

theorem Numeral.ne_nil {ds : List Char} {n : Nat} (h : Numeral ds n) : ds ≠ [] := by
  cases h <;> simp

theorem Numeral.eq_digitsValue {ds : List Char} {n : Nat} (h : Numeral ds n) :
    n = digitsValue ds := by
  induction h with
  | digit hc => simp [digitsValue]
  | snoc _ hc ih => rw [digitsValue_concat, ← ih]

theorem numeral_concat {ds : List Char} {c : Char} (hds : ds = [] ∨ Numeral ds (digitsValue ds))
    (hc : Text.isDigit c = true) : Numeral (ds ++ [c]) (digitsValue (ds ++ [c])) := by
  rcases hds with rfl | hds
  · simpa [digitsValue] using Numeral.digit hc
  · rw [digitsValue_concat]
    exact .snoc hds hc

/-- The digits are taken from the left, but a numeral grows to the right. -/
theorem numeral_append {es : List Char} (he : ∀ c ∈ es, Text.isDigit c = true) :
    ∀ {ds : List Char}, Numeral ds (digitsValue ds) →
      Numeral (ds ++ es) (digitsValue (ds ++ es)) := by
  induction es with
  | nil => simp
  | cons c es ih =>
    intro ds hds
    have h := ih (fun d hd => he d (.tail _ hd)) (numeral_concat (.inr hds) (he c (.head _)))
    simpa using h

theorem numeral_digitsValue {ds : List Char} (hd : ∀ c ∈ ds, Text.isDigit c = true)
    (hn : ds ≠ []) : Numeral ds (digitsValue ds) := by
  obtain ⟨c, cs, rfl⟩ := List.exists_cons_of_ne_nil hn
  have h := numeral_append (fun d h => hd d (.tail _ h)) (numeral_concat (.inl rfl) (hd c (.head _)))
  simpa using h

theorem isNamePart_of_isNameStart {c : Char} (h : isNameStart c = true) :
    isNamePart c = true := by
  simp only [isNameStart, isNamePart, Bool.or_eq_true] at h ⊢
  exact h.imp_left .inl

theorem IsName.isNamePart {word : List Char} (h : IsName word) :
    ∀ c ∈ word, Text.isNamePart c = true := by
  obtain ⟨c, cs, rfl, hc, hcs⟩ := h
  intro d hd
  rcases List.mem_cons.mp hd with rfl | hd
  · exact isNamePart_of_isNameStart hc
  · exact hcs d hd

end CompactSchema.Grammar

namespace CompactSchema.Definition.Parser

open Text SyntaxError Grammar

variable {α β : Type}

def Sound (read : Reader α) (P : List Char → α → Prop) : Prop :=
  ∀ k x k', read k = .ok (x, k') → ∃ a, k.rest = a ++ k'.rest ∧ P a x

def Complete (read : Reader α) (P : List Char → α → Prop) (Follow : List Char → Prop) : Prop :=
  ∀ k a rest x, k.rest = a ++ rest → P a x → Follow rest →
    ∃ k', read k = .ok (x, k') ∧ k'.rest = rest

theorem bind_eq_ok {ε : Type} {x : Except ε α} {f : α → Except ε β} {b : β} :
    (x >>= f) = .ok b ↔ ∃ a, x = .ok a ∧ f a = .ok b := by
  cases x <;> simp [bind, Except.bind]

theorem map_eq_ok {ε : Type} {x : Except ε α} {f : α → β} {b : β} :
    x.map f = .ok b ↔ ∃ a, x = .ok a ∧ f a = b := by
  cases x <;> simp [Except.map]

/-- What a number, a name, a keyword or the flags of a pattern go on with. -/
def isWordPart (c : Char) : Bool := isNamePart c || c = '.'

theorem isWordPart_of_isNamePart {c : Char} (h : isNamePart c = true) : isWordPart c = true := by
  simp [isWordPart, h]

theorem isWordPart_of_isDigit {c : Char} (h : isDigit c = true) : isWordPart c = true :=
  isWordPart_of_isNamePart (by simp [isNamePart, h])

theorem isBlank_of_isWordPart {c : Char} (h : isWordPart c = true) : isBlank c = false := by
  cases hb : isBlank c with
  | false => rfl
  | true =>
    simp only [isBlank, Bool.or_eq_true, decide_eq_true_eq] at hb
    rcases hb with ((rfl | rfl) | rfl) | rfl <;> exact absurd h (by decide)

theorem isWordPart_of_isBlank {c : Char} (h : isBlank c = true) : isWordPart c = false := by
  cases hw : isWordPart c with
  | false => rfl
  | true => simp [isBlank_of_isWordPart hw] at h

/-! ## Numbers -/

/-- What a minus sign takes off the text. -/
theorem rest_of_minus (k : Cursor) : k.rest = sign (minus k).1 ++ (minus k).2.rest := by
  unfold minus
  split
  · next i k' h => exact Cursor.rest_of_read h
  · rfl

theorem minus_of_rest {k : Cursor} {negative : Bool} {rest : List Char}
    (h : k.rest = sign negative ++ rest) (hr : rest.head? ≠ some '-') :
    (minus k).1 = negative ∧ (minus k).2.rest = rest := by
  cases negative with
  | true =>
    obtain ⟨k', hk, hr'⟩ := Cursor.read_of_rest h
    simp [minus, hk, hr']
  | false =>
    unfold minus
    split
    · next i k' hk =>
      have hc := Cursor.rest_of_read hk
      rw [h] at hc
      exact absurd (congrArg List.head? hc) hr
    · exact ⟨rfl, h⟩

/-- A number with its sign starts with a character that is no blank. -/
theorem stops_sign (negative : Bool) {ds : List Char} (hd : ∀ c ∈ ds, isDigit c = true)
    (hn : ds ≠ []) (rest : List Char) : Stops isBlank (sign negative ++ ds ++ rest) := by
  cases negative with
  | true => exact stops_cons (by decide) _
  | false =>
    obtain ⟨c, cs, rfl⟩ := List.exists_cons_of_ne_nil hn
    exact stops_cons (isBlank_of_isWordPart (isWordPart_of_isDigit (hd c (by simp)))) _

theorem head?_ne_minus {ds rest : List Char} (hd : ∀ c ∈ ds, isDigit c = true) (hn : ds ≠ []) :
    (ds ++ rest).head? ≠ some '-' := by
  obtain ⟨c, cs, rfl⟩ := List.exists_cons_of_ne_nil hn
  intro h
  have hc := hd c (by simp)
  obtain rfl : c = '-' := by simpa using h
  exact absurd hc (by decide)

def IntegerToken (a : List Char) (i : Int64) : Prop := ∃ word, Token word a ∧ IntegerWord word i

theorem integer_sound : Sound integer IntegerToken := by
  intro k i k' h
  obtain ⟨negative, s, hm⟩ : ∃ negative s, minus k.skipBlanks = (negative, s) := ⟨_, _, rfl⟩
  simp only [integer, hm, Cursor.readWhile_fst, List.isEmpty_iff] at h
  split at h
  · exact absurd h (by simp)
  next hne =>
  have hnum := numeral_digitsValue (List.all_eq_true.mp List.all_takeWhile) hne
  have hrest : k.skipBlanks.rest =
      sign negative ++ s.rest.takeWhile isDigit ++ (s.readWhile isDigit).2.rest := by
    rw [rest_of_minus, hm, List.append_assoc, Cursor.rest_readWhile,
      List.takeWhile_append_dropWhile]
  obtain ⟨a, ha, hk⟩ := Cursor.token_of_skipBlanks hrest
  generalize digitsValue (s.rest.takeWhile isDigit) = n at h hnum
  cases negative with
  | true =>
    simp only [↓reduceIte] at h
    split at h
    · next hle =>
      obtain ⟨rfl, rfl⟩ := Prod.mk.inj (Except.ok.inj h)
      have hi := Int64.toInt_ofInt_of_le (n := -n) (by omega) (by omega)
      exact ⟨a, hk, _, ha, .mk hnum (by simpa using hi)⟩
    · exact absurd h (by simp)
  | false =>
    simp only [Bool.false_eq_true, ↓reduceIte] at h
    split at h
    · next hlt =>
      obtain ⟨rfl, rfl⟩ := Prod.mk.inj (Except.ok.inj h)
      have hi := Int64.toInt_ofNat_of_lt hlt
      exact ⟨a, hk, _, ha, .mk hnum (by simpa using hi)⟩
    · exact absurd h (by simp)

theorem integer_complete : Complete integer IntegerToken (Stops isWordPart) := by
  intro k a rest i hk ⟨word, ha, hi⟩ hr
  replace hr : Stops isDigit rest := hr.mono fun _ => isWordPart_of_isDigit
  obtain @⟨negative, digits, n, i, hn, hi⟩ := hi
  have hs := Cursor.skipBlanks_of_token ha (stops_sign negative hn.isDigit hn.ne_nil _) hk
  rw [List.append_assoc] at hs
  obtain ⟨hb, hmr⟩ := minus_of_rest hs (head?_ne_minus hn.isDigit hn.ne_nil)
  obtain ⟨s, hm⟩ : ∃ s, minus k.skipBlanks = (negative, s) := ⟨_, Prod.ext hb rfl⟩
  rw [hm] at hmr
  have hd : s.rest.takeWhile isDigit = digits := by
    rw [hmr, takeWhile_of_stops hn.isDigit hr]
  have hs' : (s.readWhile isDigit).2.rest = rest := by
    rw [Cursor.rest_readWhile, hmr, dropWhile_of_stops hn.isDigit hr]
  refine ⟨(s.readWhile isDigit).2, ?_, hs'⟩
  have hlt := i.toInt_lt
  have hle := i.le_toInt
  simp only [integer, hm, Cursor.readWhile_fst, hd, List.isEmpty_iff, hn.ne_nil, ↓reduceIte,
    ← hn.eq_digitsValue]
  cases negative with
  | true =>
    simp only [↓reduceIte] at hi
    have hn' : n ≤ 2 ^ 63 := by omega
    simp only [↓reduceIte, hn', ← hi, Int64.ofInt_toInt]
  | false =>
    simp only [Bool.false_eq_true, ↓reduceIte] at hi
    have hn' : n < 2 ^ 63 := by omega
    have hin : Int64.ofNat n = i := by
      rw [← Int64.toInt_inj, Int64.toInt_ofNat_of_lt hn', hi]
    simp only [Bool.false_eq_true, ↓reduceIte, hn', hin]

/-- The digits in front of a point: a zero alone, or digits that start with another one. -/
def Leading (ds rest : List Char) : Prop :=
  ds = ['0'] ∧ rest.head? = some '.' ∨
    ds ≠ [] ∧ ds.head? ≠ some '0' ∧ (∀ c ∈ ds, isDigit c = true) ∧ Stops isDigit rest

theorem wholeDigits_sound {k k' : Cursor} {ds : List Char} (h : wholeDigits k = .ok (ds, k')) :
    k.rest = ds ++ k'.rest ∧ Leading ds k'.rest := by
  unfold wholeDigits at h
  cases hr : k.rest with
  | nil => simp [Cursor.peek?, hr] at h
  | cons c rest =>
    obtain ⟨s, hs, hsr⟩ := Cursor.read_of_rest hr
    simp only [Cursor.peek?, hr, List.head?_cons, Option.map_some, hs, hsr] at h
    split at h
    · next hc =>
      subst hc
      split at h
      · next i hp =>
        obtain ⟨rfl, rfl⟩ := Prod.mk.inj (Except.ok.inj h)
        refine ⟨by rw [hsr]; rfl, .inl ⟨rfl, ?_⟩⟩
        cases rest <;> simp_all
      · exact absurd h (by simp)
    · next hc =>
      split at h
      · next hd =>
        obtain ⟨rfl, rfl⟩ := Prod.mk.inj (Except.ok.inj h)
        simp only [hr]
        refine ⟨List.takeWhile_append_dropWhile.symm, .inr ⟨?_, ?_, ?_, stops_dropWhile _ _⟩⟩
        · simp [hd]
        · simp [hd, hc]
        · exact List.all_eq_true.mp List.all_takeWhile
      · exact absurd h (by simp)

theorem wholeDigits_complete {k : Cursor} {ds rest : List Char} (hk : k.rest = ds ++ rest)
    (hd : Leading ds rest) : ∃ k', wholeDigits k = .ok (ds, k') ∧ k'.rest = rest := by
  unfold wholeDigits
  rcases hd with ⟨rfl, hp⟩ | ⟨hn, h0, hd, hs⟩
  · obtain ⟨tail, rfl⟩ := List.head?_eq_some_iff.mp hp
    obtain ⟨s, hs, hsr⟩ := Cursor.read_of_rest hk
    refine ⟨s, ?_, hsr⟩
    simp [Cursor.peek?, hk, hs, hsr]
  · obtain ⟨c, cs, rfl⟩ := List.exists_cons_of_ne_nil hn
    have hc : isDigit c = true := hd c (by simp)
    have hc0 : c ≠ '0' := by simpa using h0
    refine ⟨(k.readWhile isDigit).2, ?_, ?_⟩
    · have ht : (k.readWhile isDigit).1 = c :: cs := by
        rw [Cursor.readWhile_fst, hk, takeWhile_of_stops hd hs]
      simp only [Cursor.peek?, hk, List.cons_append, List.head?_cons, Option.map_some, hc0, hc,
        ↓reduceIte]
      exact congrArg Except.ok (Prod.ext ht rfl)
    · rw [Cursor.rest_readWhile, hk, dropWhile_of_stops hd hs]

/-- With a point ahead the digits behind it are taken, otherwise nothing. -/
theorem rest_of_fractionDigits (k : Cursor) :
    k.rest.head? = some '.' ∧ k.rest = '.' :: (fractionDigits k).1 ++ (fractionDigits k).2.rest ∧
        (∀ c ∈ (fractionDigits k).1, isDigit c = true) ∨
      k.rest.head? ≠ some '.' ∧ fractionDigits k = ([], k) := by
  unfold fractionDigits
  split
  · next i s h =>
    have hr := Cursor.rest_of_read h
    refine .inl ⟨by simp [hr], ?_, List.all_eq_true.mp List.all_takeWhile⟩
    simp [hr]
  · next hne =>
    refine .inr ⟨fun hp => ?_, rfl⟩
    obtain ⟨rest, hr⟩ := List.head?_eq_some_iff.mp hp
    obtain ⟨s, hs, -⟩ := Cursor.read_of_rest hr
    exact hne _ _ hs

theorem fractionDigits_of_point {k : Cursor} {fraction rest : List Char}
    (hk : k.rest = '.' :: fraction ++ rest) (hf : ∀ c ∈ fraction, isDigit c = true)
    (hs : Stops isDigit rest) :
    (fractionDigits k).1 = fraction ∧ (fractionDigits k).2.rest = rest := by
  obtain ⟨s, hs', hsr⟩ := Cursor.read_of_rest hk
  simp only [fractionDigits, hs', Cursor.readWhile_fst, Cursor.rest_readWhile, hsr]
  exact ⟨takeWhile_of_stops hf hs, dropWhile_of_stops hf hs⟩

def DecimalToken (a : List Char) (x : Binary64) : Prop :=
  ∃ word, Token word a ∧ DecimalWord word x

theorem decimal_sound : Sound decimal DecimalToken := by
  intro k x k' h
  obtain ⟨negative, s, hm⟩ : ∃ negative s, minus k.skipBlanks = (negative, s) := ⟨_, _, rfl⟩
  simp only [decimal, hm, bind_eq_ok] at h
  obtain ⟨⟨whole, t⟩, hw, h⟩ := h
  obtain ⟨rfl, rfl⟩ := Prod.mk.inj (Except.ok.inj h)
  obtain ⟨hs, hl⟩ := wholeDigits_sound hw
  have hk : k.skipBlanks.rest = sign negative ++ (whole ++ t.rest) := by
    rw [rest_of_minus, hm, hs]
  rcases rest_of_fractionDigits t with ⟨hp, ht, hf⟩ | ⟨hp, ht⟩
  · have hsplit : k.skipBlanks.rest =
        (sign negative ++ whole ++ '.' :: (fractionDigits t).1) ++ (fractionDigits t).2.rest := by
      rw [hk, ht]
      simp
    obtain ⟨a, ha, hka⟩ := Cursor.token_of_skipBlanks hsplit
    refine ⟨a, hka, _, ha, .point ?_ (numeral_digitsValue ?_ ?_)⟩
    · exact hl.imp And.left fun h => ⟨h.1, h.2.1⟩
    · intro c hc
      rcases List.mem_append.mp hc with hc | hc
      · rcases hl with ⟨rfl, -⟩ | ⟨-, -, hd, -⟩
        · obtain rfl := List.mem_singleton.mp hc
          decide
        · exact hd c hc
      · exact hf c hc
    · rcases hl with ⟨rfl, -⟩ | ⟨hn, -⟩ <;> simp [*]
  · rcases hl with ⟨-, hdot⟩ | ⟨hn, h0, hd, -⟩
    · exact absurd hdot hp
    rw [← List.append_assoc] at hk
    obtain ⟨a, ha, hka⟩ := Cursor.token_of_skipBlanks hk
    refine ⟨a, by rw [ht]; exact hka, _, ha, ?_⟩
    have hx : DecimalWord (sign negative ++ whole) _ := .whole h0 (numeral_digitsValue hd hn)
    simpa [ht] using hx

theorem decimal_complete : Complete decimal DecimalToken (Stops isWordPart) := by
  intro k a rest x hk ⟨word, ha, hx⟩ hr
  have hd : Stops isDigit rest := hr.mono fun _ => isWordPart_of_isDigit
  have hp : rest.head? ≠ some '.' := fun h => absurd (hr _ h) (by decide)
  cases hx with
  | @whole negative digits n h0 hn =>
    have hs := Cursor.skipBlanks_of_token ha (stops_sign negative hn.isDigit hn.ne_nil _) hk
    rw [List.append_assoc] at hs
    obtain ⟨hb, hmr⟩ := minus_of_rest hs (head?_ne_minus hn.isDigit hn.ne_nil)
    obtain ⟨s, hm⟩ : ∃ s, minus k.skipBlanks = (negative, s) := ⟨_, Prod.ext hb rfl⟩
    rw [hm] at hmr
    obtain ⟨t, ht, htr⟩ := wholeDigits_complete hmr (.inr ⟨hn.ne_nil, h0, hn.isDigit, hd⟩)
    have hf : fractionDigits t = ([], t) := by
      rcases rest_of_fractionDigits t with ⟨hdot, -⟩ | ⟨-, hf⟩
      · exact absurd (htr ▸ hdot) hp
      · exact hf
    refine ⟨t, ?_, htr⟩
    simp [decimal, hm, ht, hf, bind, Except.bind, ← hn.eq_digitsValue]
  | @point negative whole fraction n hw hn =>
    have hne : whole ++ fraction ≠ [] := hn.ne_nil
    have hwn : whole ≠ [] := by rcases hw with rfl | ⟨hw, -⟩ <;> simp [*]
    have hwd : ∀ c ∈ whole, isDigit c = true := fun c hc => hn.isDigit c (by simp [hc])
    have hfd : ∀ c ∈ fraction, isDigit c = true := fun c hc => hn.isDigit c (by simp [hc])
    have hb := stops_sign negative hwd hwn ('.' :: fraction ++ rest)
    have hs := Cursor.skipBlanks_of_token ha (by simpa using hb) hk
    rw [List.append_assoc, List.append_assoc] at hs
    obtain ⟨hb, hmr⟩ := minus_of_rest hs (head?_ne_minus hwd hwn)
    obtain ⟨s, hm⟩ : ∃ s, minus k.skipBlanks = (negative, s) := ⟨_, Prod.ext hb rfl⟩
    rw [hm] at hmr
    have hl : Leading whole ('.' :: fraction ++ rest) :=
      hw.imp (⟨·, rfl⟩) fun h => ⟨h.1, h.2, hwd, stops_cons (by decide) _⟩
    obtain ⟨t, ht, htr⟩ := wholeDigits_complete hmr hl
    obtain ⟨hf, hfr⟩ := fractionDigits_of_point htr hfd hd
    refine ⟨(fractionDigits t).2, ?_, hfr⟩
    simp [decimal, hm, ht, hf, bind, Except.bind, ← hn.eq_digitsValue]

/-! ## Keywords and names -/

theorem Keyword.ofWord?_eq_some {word : String} {w : Keyword} :
    Keyword.ofWord? word = some w ↔ w.word = word := by
  constructor
  · intro h
    simpa using List.find?_some h
  · rintro rfl
    cases w <;> decide

theorem Keyword.word_ne_nil (w : Keyword) : w.word.toList ≠ [] := by
  cases w <;> decide

theorem Keyword.isNamePart_word (w : Keyword) : ∀ c ∈ w.word.toList, isNamePart c = true := by
  have hall : w.word.toList.all isNamePart = true := by
    cases w <;> rfl
  exact List.all_eq_true.mp hall

def KeywordToken (a : List Char) (w : Keyword) : Prop := Token w.word.toList a

theorem stops_word {word : List Char} (hw : ∀ c ∈ word, isNamePart c = true) (hn : word ≠ [])
    (rest : List Char) : Stops isBlank (word ++ rest) := by
  obtain ⟨c, cs, rfl⟩ := List.exists_cons_of_ne_nil hn
  exact stops_cons (isBlank_of_isWordPart (isWordPart_of_isNamePart (hw c (by simp)))) _

theorem keyword_sound : Sound keyword KeywordToken := by
  intro k w k' h
  simp only [keyword, Cursor.readWhile_fst, List.isEmpty_iff] at h
  split at h
  · exact absurd h (by simp)
  split at h
  · next w' hw =>
    obtain ⟨rfl, rfl⟩ := Prod.mk.inj (Except.ok.inj h)
    have hword := congrArg String.toList (Keyword.ofWord?_eq_some.mp hw)
    rw [String.toList_ofList] at hword
    have hrest : k.skipBlanks.rest =
        w'.word.toList ++ (k.skipBlanks.readWhile isNamePart).2.rest := by
      rw [hword, Cursor.rest_readWhile, List.takeWhile_append_dropWhile]
    obtain ⟨a, ha, hk⟩ := Cursor.token_of_skipBlanks hrest
    exact ⟨a, hk, ha⟩
  · exact absurd h (by simp)

theorem keyword_complete : Complete keyword KeywordToken (Stops isWordPart) := by
  intro k a rest w hk ha hr
  replace hr : Stops isNamePart rest := hr.mono fun _ => isWordPart_of_isNamePart
  have hn := Keyword.word_ne_nil w
  have hp := Keyword.isNamePart_word w
  have hs := Cursor.skipBlanks_of_token ha (stops_word hp hn rest) hk
  have ht : k.skipBlanks.rest.takeWhile isNamePart = w.word.toList := by
    rw [hs, takeWhile_of_stops hp hr]
  refine ⟨(k.skipBlanks.readWhile isNamePart).2, ?_, ?_⟩
  · have hw : Keyword.ofWord? (String.ofList w.word.toList) = some w :=
      Keyword.ofWord?_eq_some.mpr (by rw [String.ofList_toList])
    simp only [keyword, Cursor.readWhile_fst, ht, List.isEmpty_iff, hn, ↓reduceIte, hw]
  · rw [Cursor.rest_readWhile, hs, dropWhile_of_stops hp hr]

def NameToken (a : List Char) (s : String) : Prop :=
  ∃ word, IsName word ∧ Token word a ∧ s = String.ofList word

theorem name_sound (cause : Cause) : Sound (name cause) NameToken := by
  intro k s k' h
  unfold name at h
  cases hr : k.skipBlanks.rest with
  | nil => simp [Cursor.peek?, hr] at h
  | cons c rest =>
    simp only [Cursor.peek?, hr, List.head?_cons, Option.map_some] at h
    split at h
    · next hc =>
      obtain ⟨rfl, rfl⟩ := Prod.mk.inj (Except.ok.inj h)
      have hsplit : k.skipBlanks.rest = (k.skipBlanks.readWhile isNamePart).1 ++
          (k.skipBlanks.readWhile isNamePart).2.rest :=
        List.takeWhile_append_dropWhile.symm
      obtain ⟨a, ha, hk⟩ := Cursor.token_of_skipBlanks hsplit
      refine ⟨a, hk, _, ⟨c, rest.takeWhile isNamePart, ?_, hc, ?_⟩, ha, rfl⟩
      · simp [hr, isNamePart_of_isNameStart hc]
      · exact List.all_eq_true.mp List.all_takeWhile
    · exact absurd h (by simp)

theorem name_complete (cause : Cause) :
    Complete (name cause) NameToken (Stops isWordPart) := by
  intro k a rest s hk ⟨word, hw, ha, hs⟩ hr
  replace hr : Stops isNamePart rest := hr.mono fun _ => isWordPart_of_isNamePart
  have hp := hw.isNamePart
  obtain ⟨c, cs, rfl, hc, hcs⟩ := hw
  have hsk := Cursor.skipBlanks_of_token ha (stops_word hp (by simp) rest) hk
  have ht : (k.skipBlanks.readWhile isNamePart).1 = c :: cs := by
    rw [Cursor.readWhile_fst, hsk, takeWhile_of_stops hp hr]
  refine ⟨(k.skipBlanks.readWhile isNamePart).2, ?_, ?_⟩
  · simp only [name, Cursor.peek?, hsk, List.cons_append, List.head?_cons, Option.map_some, hc,
      ↓reduceIte, ht, hs]
  · rw [Cursor.rest_readWhile, hsk, dropWhile_of_stops hp hr]

end CompactSchema.Definition.Parser
