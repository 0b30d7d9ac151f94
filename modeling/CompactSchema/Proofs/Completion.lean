import CompactSchema.Proofs.Lookahead

set_option autoImplicit false

/-!
# Where a text goes wrong

The text in front of the place that a syntax error blames can be completed: it is the start of a
text that is read. Where the error names a character, no text that goes on with this character is
read.
-/

namespace CompactSchema

open Text

namespace Definition.Parser

open SyntaxError Grammar

variable {α β : Type}

/-- What a cursor has ahead in front of the fault is the start of a text of the form `T`. -/
def Completes (T : List Char → Prop) (k : Cursor) (f : Fault) : Prop :=
  ∃ a s u, k.Passes a s ∧ f.start = s.position.index ∧ T (a ++ u)

theorem completes_of_start {T : List Char → Prop} {k : Cursor} {f : Fault}
    (h : f.start = k.position.index) (hT : ∃ u, T u) : Completes T k f := by
  obtain ⟨u, hu⟩ := hT
  exact ⟨[], k, u, k.passes_nil, h, hu⟩

theorem Completes.of_passes {T : List Char → Prop} {k s : Cursor} {a : List Char} {f : Fault}
    (ha : k.Passes a s) (h : Completes (fun b => T (a ++ b)) s f) : Completes T k f := by
  obtain ⟨b, t, u, hb, hf, hT⟩ := h
  exact ⟨a ++ b, t, u, ha.trans hb, hf, by simpa using hT⟩

theorem Completes.mono {T U : List Char → Prop} {k : Cursor} {f : Fault} (h : Completes T k f)
    (hU : ∀ a, T a → ∃ b, U (a ++ b)) : Completes U k f := by
  obtain ⟨a, s, u, ha, hf, hT⟩ := h
  obtain ⟨b, hb⟩ := hU _ hT
  exact ⟨a, s, u ++ b, ha, hf, by simpa using hb⟩

/-- Wherever the reader fails on a text that satisfies `At`, the text in front of the fault can be
    completed to one of the form `T`. -/
def Completing (At : List Char → Prop) (read : Reader α) (T : List Char → Prop) : Prop :=
  ∀ k f, At k.rest → read k = .error f → Completes T k f

def Shorter (n : Nat) (cs : List Char) : Prop := cs.length < n

/-- The next character that is no blank is known as well. -/
def Before (n : Nat) (o : Option Char) (cs : List Char) : Prop :=
  cs.length < n ∧ significant? cs = o

variable {At : List Char → Prop} {T U : List Char → Prop} {n : Nat}

theorem Completing.mono {read : Reader α} (h : Completing At read T)
    (hU : ∀ a, T a → ∃ b, U (a ++ b)) : Completing At read U :=
  fun k f hk hf => (h k f hk hf).mono hU

theorem Completing.weaken {read : Reader α} {Now : List Char → Prop} (h : Completing At read T)
    (hnow : ∀ cs, Now cs → At cs) : Completing Now read T :=
  fun k f hk hf => h k f (hnow _ hk) hf

theorem completing_before {read : Reader α} {o : Option Char} (h : Completing (Shorter n) read T) :
    Completing (Before n o) read T :=
  h.weaken fun _ hcs => hcs.1

theorem completing_of_ok {read : Reader α} (h : ∀ k f, read k ≠ .error f) :
    Completing At read T :=
  fun k f _ hf => absurd hf (h k f)

theorem completing_give (x : α) : Completing At (give x) T :=
  completing_of_ok fun _ _ => by simp [give]

theorem completing_ite {c : Prop} [Decidable c] {read read' : Reader α}
    (h : c → Completing At read T) (h' : ¬ c → Completing At read' T) :
    Completing At (if c then read else read') T := by
  split
  · next hc => exact h hc
  · next hc => exact h' hc

/-- What a reader takes off the text, with the position behind it. -/
def Takes (read : Reader α) (P : List Char → α → Prop) : Prop :=
  ∀ k x s, read k = .ok (x, s) → ∃ a, k.Passes a s ∧ P a x

theorem takes_of_sound {Seen : List Char → Prop} {read : Reader α} {P : List Char → α → Prop}
    (h : Sound read P) (hsteady : Steady Seen read read) : Takes read P := by
  intro k x s hk
  obtain ⟨a, ha⟩ := hsteady.moves hk
  obtain ⟨b, hb, hP⟩ := h k x s hk
  obtain rfl := List.append_cancel_right (ha.rest_eq.symm.trans hb)
  exact ⟨a, ha, hP⟩

/-- What the reader takes is of the form `P`, and where it fails on a short enough text, this text
    can be completed to one of that form. -/
structure Viable (n : Nat) (read : Reader α) (P : List Char → α → Prop) : Prop where
  takes : Takes read P
  completing : Completing (Shorter n) read fun a => ∃ x, P a x

theorem completing_andThen {read : Reader α} {next : α → Reader β} {P : List Char → α → Prop}
    (hread : Viable n read P) (hnext : ∀ x a, P a x →
      (∃ b, T (a ++ b)) ∧ Completing (Shorter n) (next x) fun b => T (a ++ b)) :
    Completing (Shorter n) (andThen read next) T := by
  intro k f hk hf
  rcases andThen_error hf with hx | ⟨x, s, hx, hs⟩
  · exact (hread.completing k f hk hx).mono fun a ⟨x, ha⟩ => (hnext x a ha).1
  · obtain ⟨a, ha, hP⟩ := hread.takes k x s hx
    refine ((hnext x a hP).2 s f ?_ hs).of_passes ha
    have hlen := congrArg List.length ha.rest_eq
    rw [List.length_append] at hlen
    exact Nat.lt_of_le_of_lt (by omega) hk

theorem completing_map {read : Reader α} {f : α → β} (h : Completing At read T) :
    Completing At (andThen read fun x => give (f x)) T :=
  fun k e hk he => h k e hk (map_error he)

theorem completing_ahead {next : Option Char → Reader α}
    (h : ∀ o, Completing (Before n o) (next o) T) : Completing (Shorter n) (ahead next) T :=
  fun k f hk hf => h _ k f ⟨hk, rfl⟩ hf

theorem completing_skipping {read : Reader α}
    (h : ∀ blanks, Blanks blanks → Completing (Shorter n) read fun b => T (blanks ++ b)) :
    Completing (Shorter n) (skipping read) T := by
  intro k f hk hf
  have hb : Blanks (k.rest.takeWhile isBlank) := List.all_eq_true.mp List.all_takeWhile
  refine (h _ hb k.skipBlanks f ?_ hf).of_passes k.passes_skipBlanks
  have hlen := congrArg List.length k.passes_skipBlanks.rest_eq
  rw [List.length_append] at hlen
  exact Nat.lt_of_le_of_lt (by omega) hk

theorem start_of_fault (k : Cursor) (cause : Cause) :
    (k.fault k.peek? cause).start = k.position.index := by
  cases hr : k.rest with
  | nil => simp [Cursor.fault, Cursor.peek?, Cursor.stop, hr, byteLength]
  | cons c rest => simp [Cursor.fault, Cursor.peek?, hr]

theorem completing_blame {cause : Cause} (h : ∃ u, T u) :
    Completing At (blame cause : Reader α) T := by
  intro k f _ hf
  obtain rfl := Except.error.inj hf
  exact completes_of_start (start_of_fault k cause) h

theorem completing_blameNext {cause : Cause}
    (h : ∀ blanks, Blanks blanks → ∃ u, T (blanks ++ u)) :
    Completing At (blameNext cause : Reader α) T := by
  intro k f _ hf
  have hb : Blanks (k.rest.takeWhile isBlank) := List.all_eq_true.mp List.all_takeWhile
  have hblame : Completing (fun _ => True) (blame cause : Reader α) fun b => T (_ ++ b) :=
    completing_blame (h _ hb)
  exact (hblame k.skipBlanks f trivial hf).of_passes k.passes_skipBlanks

theorem passes_of_significant {k : Cursor} {c : Char} (h : significant? k.rest = some c) :
    ∃ a, Token [c] a ∧ k.Passes a k.next.2 := by
  have hb : Blanks (k.rest.takeWhile isBlank) := List.all_eq_true.mp List.all_takeWhile
  obtain ⟨rest, hrest⟩ := List.head?_eq_some_iff.mp h
  exact ⟨_, ⟨_, hb, rfl⟩, k.passes_skipBlanks.trans (Cursor.passes_read hrest)⟩

theorem completing_after {read : Reader α} {c : Char} {m : Nat} (hm : m ≤ n + 1)
    (h : ∀ a, Token [c] a → Completing (Shorter n) read fun b => T (a ++ b)) :
    Completing (Before m (some c)) (after read) T := by
  intro k f hk hf
  obtain ⟨a, ha, hpasses⟩ := passes_of_significant hk.2
  refine (h a ha k.next.2 f ?_ hf).of_passes hpasses
  have hlen := congrArg List.length hpasses.rest_eq
  have hpos := ha.length_pos
  have hk := hk.1
  rw [List.length_append] at hlen
  show k.next.2.rest.length < n
  omega

/-! ## Numbers, keywords and names -/

theorem token_append {blanks word : List Char} (h : Blanks blanks) : Token word (blanks ++ word) :=
  ⟨blanks, h, rfl⟩

theorem passes_minus (k : Cursor) : k.Passes (sign (minus k).1) (minus k).2 := by
  unfold minus
  split
  · next i s h =>
    have hs : k.read.2 = s := congrArg Prod.snd h
    exact hs ▸ Cursor.passes_read (Cursor.rest_of_read h)
  · exact k.passes_nil

theorem integerWord_zero (negative : Bool) : IntegerWord (sign negative ++ ['0']) 0 :=
  .mk (.digit (by decide)) (by cases negative <;> rfl)

theorem completing_integer : Completing At integer fun a => ∃ i, IntegerToken a i := by
  intro k f _ hf
  have hb : Blanks (k.rest.takeWhile isBlank) := List.all_eq_true.mp List.all_takeWhile
  refine Completes.of_passes k.passes_skipBlanks ?_
  have hzero : ∀ negative, ∃ i, IntegerToken
      (k.rest.takeWhile isBlank ++ (sign negative ++ ['0'])) i :=
    fun negative => ⟨0, _, token_append hb, integerWord_zero negative⟩
  simp only [integer, List.isEmpty_iff] at hf
  split at hf
  · next hnil =>
    obtain rfl := Except.error.inj hf
    have hdigits := (minus k.skipBlanks).2.passes_readWhile isDigit
    rw [← Cursor.readWhile_fst, hnil] at hdigits
    refine Completes.of_passes ((passes_minus _).trans hdigits) ?_
    exact completes_of_start (start_of_fault _ _) ⟨['0'], by simpa using hzero _⟩
  · refine completes_of_start ?_ ⟨['0'], hzero false⟩
    split at hf
    · split at hf
      · exact absurd hf (by simp)
      · obtain rfl := Except.error.inj hf
        rfl
    · split at hf
      · exact absurd hf (by simp)
      · obtain rfl := Except.error.inj hf
        rfl

theorem completing_wholeDigits : Completing At wholeDigits (· = ['0', '.']) := by
  intro k f _ hf
  have hhere : f.start = k.position.index → Completes (· = ['0', '.']) k f :=
    fun h => completes_of_start h ⟨_, rfl⟩
  unfold wholeDigits at hf
  cases hr : k.rest with
  | nil =>
    simp only [Cursor.peek?, hr, List.head?_nil, Option.map_none] at hf
    obtain rfl := Except.error.inj hf
    exact hhere (by simp [Cursor.fault, Cursor.stop, hr, byteLength])
  | cons c rest =>
    simp only [Cursor.peek?, hr, List.head?_cons, Option.map_some] at hf
    split at hf
    · next hc =>
      subst hc
      split at hf
      · exact absurd hf (by simp)
      · obtain rfl := Except.error.inj hf
        exact .of_passes (Cursor.passes_read hr)
          (completes_of_start (start_of_fault _ _) ⟨['.'], rfl⟩)
    · split at hf
      · exact absurd hf (by simp)
      · obtain rfl := Except.error.inj hf
        exact hhere rfl

theorem completing_decimal : Completing At decimal fun a => ∃ x, DecimalToken a x := by
  intro k f _ hf
  have hb : Blanks (k.rest.takeWhile isBlank) := List.all_eq_true.mp List.all_takeWhile
  simp only [decimal] at hf
  cases hw : wholeDigits (minus k.skipBlanks).2 with
  | ok r => exact absurd hf (by simp [hw, bind, Except.bind])
  | error e =>
    obtain rfl : e = f := by simpa [hw, bind, Except.bind] using hf
    have hwhole : Completing (fun _ => True) wholeDigits (· = ['0', '.']) := completing_wholeDigits
    refine .of_passes k.passes_skipBlanks (.of_passes (passes_minus _) ?_)
    refine (hwhole _ e trivial hw).mono ?_
    rintro _ rfl
    have hzero : DecimalWord (sign (minus k.skipBlanks).1 ++ ['0'] ++ ['.']) _ :=
      .point (.inl rfl) (.digit (by decide))
    exact ⟨[], _, _, token_append hb, by simpa using hzero⟩

theorem completing_keyword : Completing At keyword fun a => ∃ w, KeywordToken a w := by
  intro k f _ hf
  have hb : Blanks (k.rest.takeWhile isBlank) := List.all_eq_true.mp List.all_takeWhile
  refine Completes.of_passes k.passes_skipBlanks ?_
  refine completes_of_start ?_ ⟨Keyword.int.word.toList, .int, token_append hb⟩
  simp only [keyword, List.isEmpty_iff] at hf
  split at hf
  · next hnil =>
    obtain rfl := Except.error.inj hf
    have hword := k.skipBlanks.passes_readWhile isNamePart
    rw [← Cursor.readWhile_fst, hnil] at hword
    rw [start_of_fault, hword.index_eq]
    rfl
  · split at hf
    · exact absurd hf (by simp)
    · obtain rfl := Except.error.inj hf
      rfl

theorem completing_here {next : Option Char → Reader α} (h : ∀ o, Completing At (next o) T) :
    Completing At (here next) T :=
  fun k f hk hf => h _ k f hk hf

theorem completing_name (cause : Cause) :
    Completing (Shorter n) (name cause) fun a => ∃ s, NameToken a s := by
  rw [name_eq]
  refine completing_skipping fun blanks hb => ?_
  have hblame : Completing (Shorter n) (blame cause : Reader String)
      fun b => ∃ s, NameToken (blanks ++ b) s :=
    completing_blame ⟨['a'], _, ['a'], ⟨'a', [], rfl, by decide, by simp⟩, token_append hb, rfl⟩
  refine completing_here fun
    | none => hblame
    | some c => completing_ite (fun _ => ?_) fun _ => hblame
  exact completing_of_ok fun _ _ => by simp [andThen_apply, word, give, ok_bind]

theorem viable_of_sound {Seen : List Char → Prop} {read : Reader α} {P : List Char → α → Prop}
    (hsound : Sound read P) (hsteady : Steady Seen read read)
    (h : Completing (Shorter n) read fun a => ∃ x, P a x) : Viable n read P :=
  ⟨takes_of_sound hsound hsteady, h⟩

theorem viable_keyword : Viable n keyword KeywordToken :=
  viable_of_sound keyword_sound steady_keyword completing_keyword

theorem viable_name (cause : Cause) : Viable n (name cause) NameToken :=
  viable_of_sound (name_sound cause) (steady_name cause) (completing_name cause)

/-! ## Ranges -/

theorem viable_bound? (w : Keyword) : Viable n (bound? w) (BoundOf w) := by
  refine viable_of_sound (bound?_sound w) (steady_bound? w) ?_
  rw [bound?_eq]
  refine completing_ahead fun
    | none => completing_give _
    | some c => completing_ite (fun _ => completing_ite (fun hw => ?_) fun hw => ?_) fun _ =>
      completing_give _
  · refine (completing_map completing_decimal).mono ?_
    rintro a ⟨x, word, ha, hx⟩
    exact ⟨[], _, by simpa using BoundOf.float hw hx ha⟩
  · refine (completing_map completing_integer).mono ?_
    rintro a ⟨i, word, ha, hi⟩
    exact ⟨[], _, by simpa using BoundOf.int (by simpa using hw) hi ha⟩

theorem viable_bounds (w : Keyword) : Viable n (bounds w) (BoundsOf w) := by
  refine viable_of_sound (bounds_sound w) (steady_bounds w) ?_
  rw [bounds_eq]
  refine completing_andThen (viable_bound? w) fun low a ha => ⟨?_, completing_ahead fun c => ?_⟩
  · exact ⟨['>'], (low, none), .one ha (token_self _)⟩
  have hlow : ∀ blanks, Blanks blanks → ∃ u b, BoundsOf w (a ++ (blanks ++ u)) b :=
    fun _ hb => ⟨['>'], (low, none), .one ha (token_append hb)⟩
  refine completing_ite ?_ fun _ => completing_ite ?_ fun _ => completing_blameNext hlow
  · rintro rfl
    exact completing_after (Nat.le_succ n) fun _ _ => completing_give _
  rintro rfl
  refine completing_after (Nat.le_succ n) fun b hb => ?_
  refine completing_andThen (viable_bound? w) fun high c hc => ⟨?_, completing_ahead fun d => ?_⟩
  · exact ⟨['>'], (low, high), by simpa [BoundsOf] using Bounds.two ha hb hc (token_self _)⟩
  refine completing_ite ?_ fun _ => completing_blameNext fun blanks hblanks => ?_
  · rintro rfl
    exact completing_after (Nat.le_succ n) fun _ _ => completing_give _
  · exact ⟨['>'], (low, high), by
      simpa [BoundsOf] using Bounds.two ha hb hc (token_append hblanks)⟩

theorem viable_primitive (accepts : PatternLiteral → Bool) :
    Viable n primitive (Value accepts) := by
  refine viable_of_sound (primitive_sound accepts) steady_primitive ?_
  rw [primitive_eq]
  refine completing_andThen viable_keyword fun w a ha => ⟨?_, ?_⟩
  · exact ⟨[], _, by simpa using Value.primitive ha⟩
  refine completing_ite (fun hw => completing_ahead fun c => ?_) fun _ => completing_give _
  refine completing_ite ?_ fun _ => completing_give _
  rintro rfl
  refine completing_after (Nat.le_succ n) fun b hb => ?_
  refine (completing_map (viable_bounds w).completing).mono ?_
  rintro c ⟨⟨low, high⟩, hc⟩
  exact ⟨[], _, by simpa using Value.range hw ha hb hc⟩

/-! ## Lists of items -/

theorem viable_items {item : Reader α} {P : List Char → α → Prop}
    (hitem : Viable n item P) (hsteady : Steady Significant item item) (hsound : Sound item P)
    (close : Char) (missing : Cause) : Viable n (items close missing item) (Listed P close) := by
  refine viable_of_sound (items_sound hsound close missing) (steady_items hsteady close missing) ?_
  have hsteps : ∀ steps, Completing (Shorter (min n steps)) (itemsWithin close missing item steps)
      fun a => ∃ xs, Listed P close a xs := by
    intro steps
    induction steps with
    | zero =>
      intro k f hk _
      exact absurd hk (by simp [Shorter])
    | succ steps ih =>
      have hmin : min n (steps + 1) ≤ min n steps + 1 := by omega
      have hitem : Viable (min n (steps + 1)) item P :=
        ⟨hitem.takes, hitem.completing.weaken fun cs (hcs : cs.length < _) =>
          show cs.length < n by omega⟩
      rw [itemsWithin_succ]
      refine completing_ahead fun c => completing_ite ?_ fun _ => completing_before ?_
      · rintro rfl
        exact completing_after hmin fun _ _ => completing_give _
      refine completing_andThen hitem fun x a ha => ⟨?_, completing_ahead fun d => ?_⟩
      · exact ⟨[close], [x], .last ha (token_self _)⟩
      refine completing_ite ?_ fun _ => completing_ite ?_ fun _ =>
        completing_blameNext fun blanks hb => ⟨[close], [x], .last ha (token_append hb)⟩
      · rintro rfl
        refine completing_after hmin fun b hb => (completing_map ih).mono ?_
        rintro e ⟨xs, he⟩
        exact ⟨[], x :: xs, by simpa using Listed.more ha hb he⟩
      · rintro rfl
        exact completing_after hmin fun _ _ => completing_give _
  intro k f hk hf
  have hshort : Shorter (min n (k.rest.length + 1)) k.rest := by
    simp only [Shorter] at hk ⊢
    omega
  exact hsteps _ k f hshort hf

/-! ## Enumerations -/

/-- A label with its equals sign, or nothing. -/
inductive Label : List Char → Unit → Prop
  | none : Label [] ()
  | some {word a b : List Char} : IsName word → Token word a → Token ['='] b → Label (a ++ b) ()

theorem viable_labelled : Viable n labelled Label := by
  have hsound : Sound labelled Label := by
    intro k x s h
    obtain ⟨t, ht, h⟩ := map_eq_ok.mp h
    obtain ⟨rfl, rfl⟩ := Prod.mk.inj h
    rcases label_sound ht with rfl | ⟨word, a, b, hword, ha, hb, hk⟩
    · exact ⟨[], rfl, .none⟩
    · exact ⟨a ++ b, hk, .some hword ha hb⟩
  refine viable_of_sound hsound steady_labelled ?_
  rw [labelled_eq]
  refine completing_ahead fun
    | none => completing_give _
    | some c => completing_ite (fun _ => completing_before ?_) fun _ => completing_give _
  refine completing_andThen (viable_name _) fun s a ha => ?_
  obtain ⟨word, hword, ha, -⟩ := ha
  refine ⟨⟨['='], (), .some hword ha (token_self _)⟩, completing_ahead fun d => ?_⟩
  refine completing_ite ?_ fun _ => completing_blameNext fun blanks hb =>
    ⟨['='], (), .some hword ha (token_append hb)⟩
  rintro rfl
  exact completing_after (Nat.le_succ n) fun _ _ => completing_give _

theorem item_of_label {a b : List Char} {i : Int64} (ha : Label a ()) (hb : IntegerToken b i) :
    Item (a ++ b) i := by
  obtain ⟨word, hb, hi⟩ := hb
  cases ha with
  | none => exact .bare hi hb
  | some hword ha hc => exact .labelled hword ha hc hi hb

theorem viable_enumeration : Viable n enumeration EnumerationTail := by
  have hitem : Viable n enumerationItem Item := by
    refine viable_of_sound enumerationItem_sound steady_enumerationItem ?_
    rw [enumerationItem_eq]
    refine completing_andThen viable_labelled fun _ a ha => ?_
    have hzero : ∀ blanks, Blanks blanks → ∃ u i, Item (a ++ (blanks ++ u)) i := fun _ hb =>
      ⟨['0'], 0, item_of_label ha ⟨_, token_append hb, integerWord_zero false⟩⟩
    refine ⟨hzero [] blanks_nil, completing_ahead fun
      | none => completing_blameNext hzero
      | some c => completing_ite (fun _ => completing_integer.mono ?_) fun _ =>
        completing_blameNext hzero⟩
    rintro b ⟨i, hb⟩
    exact ⟨[], i, by simpa using item_of_label ha hb⟩
  refine viable_of_sound enumeration_sound steady_enumeration ?_
  rw [enumeration_eq]
  have hitems := viable_items hitem steady_enumerationItem enumerationItem_sound ')'
    .missingEnumerationDelimiter
  refine (completing_map hitems.completing).mono ?_
  rintro a ⟨values, ha⟩
  exact ⟨[], _, values, rfl, by simpa using ha⟩

/-! ## Objects and arrays -/

section Nested

variable {inner : Reader Definition} {V : List Char → Definition → Prop}

/-- A question mark, or nothing. -/
inductive Mark : List Char → Bool → Prop
  | required : Mark [] false
  | optional {a : List Char} : Token ['?'] a → Mark a true

theorem viable_mark : Viable n mark Mark := by
  have hsound : Sound mark Mark := by
    intro k optional s h
    rw [mark_apply] at h
    split at h
    · next i t hn =>
      obtain ⟨rfl, rfl⟩ := Prod.mk.inj (Except.ok.inj h)
      obtain ⟨-, a, ha, hk⟩ := Cursor.token_of_next hn
      exact ⟨a, hk, .optional ha⟩
    · obtain ⟨rfl, rfl⟩ := Prod.mk.inj (Except.ok.inj h)
      exact ⟨[], rfl, .required⟩
  exact viable_of_sound hsound steady_mark (completing_of_ok fun _ _ => by simp [mark_apply])

theorem memberOf_of_parts {word a b c e : List Char} {optional : Bool} {d : Definition}
    (hword : IsName word) (ha : Token word a) (hb : Mark b optional) (hc : Token [':'] c)
    (he : V e d) : MemberOf V (a ++ b ++ c ++ e) ⟨String.ofList word, optional, d⟩ := by
  refine ⟨e, ⟨a ++ b ++ c, ?_, rfl⟩, he⟩
  cases hb with
  | required => simpa using Head.required hword ha hc
  | optional hb => exact .optional hword ha hb hc

variable (h : Viable n inner V) (hsteady : Steady Significant inner inner)
  (hsound : Sound inner V) {d : Definition} {v : List Char} (hv : V v d)
include h hsteady hsound hv

theorem viable_object : Viable n (object inner) (ObjectTail V) := by
  have hmember : Viable n (member inner) (MemberOf V) := by
    refine viable_of_sound (member_sound hsound) (steady_member hsteady) ?_
    rw [member_eq]
    refine completing_andThen (viable_name _) fun s a ha => ?_
    obtain ⟨word, hword, ha, rfl⟩ := ha
    refine ⟨⟨':' :: v, _, by
      simpa using memberOf_of_parts hword ha .required (token_self _) hv⟩, ?_⟩
    refine completing_andThen viable_mark fun optional b hb => ⟨?_, completing_ahead fun c => ?_⟩
    · exact ⟨':' :: v, _, by simpa using memberOf_of_parts hword ha hb (token_self _) hv⟩
    refine completing_ite ?_ fun _ => completing_blameNext fun blanks hblanks =>
      ⟨':' :: v, _, by simpa using memberOf_of_parts hword ha hb (token_append hblanks) hv⟩
    rintro rfl
    refine completing_after (Nat.le_succ n) fun c hc => (completing_map h.completing).mono ?_
    rintro e ⟨d, he⟩
    exact ⟨[], _, by simpa using memberOf_of_parts hword ha hb hc he⟩
  refine viable_of_sound (object_sound hsound) (steady_object hsteady) ?_
  rw [object_eq]
  have hitems := viable_items hmember (steady_member hsteady) (member_sound hsound) '\x7d'
    .missingObjectDelimiter
  refine (completing_map hitems.completing).mono ?_
  rintro a ⟨members, ha⟩
  exact ⟨[], _, members, rfl, by simpa using ha⟩

theorem viable_bareElement : Viable n (bareElement inner) (Element V) := by
  refine viable_of_sound (bareElement_sound hsound) (steady_bareElement hsteady) ?_
  have hint : ∀ blanks, Blanks blanks → ∃ u d, Element V (blanks ++ u) d := fun _ hb =>
    ⟨Keyword.int.word.toList, _, .keyword (token_append hb)⟩
  rw [bareElement_eq]
  refine completing_ahead fun
    | none => completing_blameNext hint
    | some c => completing_ite ?_ fun _ => completing_ite ?_ fun _ =>
      completing_ite (fun _ => completing_blameNext hint) fun _ => completing_before ?_
  · rintro rfl
    refine completing_after (Nat.le_succ n) fun a ha => viable_enumeration.completing.mono ?_
    rintro b ⟨d, hb⟩
    exact ⟨[], d, by simpa using Element.enumeration ha hb⟩
  · rintro rfl
    refine completing_after (Nat.le_succ n) fun a ha =>
      (viable_object h hsteady hsound hv).completing.mono ?_
    rintro b ⟨d, hb⟩
    exact ⟨[], d, by simpa using Element.object ha hb⟩
  · refine (completing_map viable_keyword.completing).mono ?_
    rintro a ⟨w, ha⟩
    exact ⟨[], _, by simpa using Element.keyword ha⟩

theorem viable_array : Viable n (array inner) (ArrayTail V) := by
  refine viable_of_sound (array_sound hsound) (steady_array hsteady) ?_
  rw [array_eq, element_eq]
  refine completing_ahead fun c => completing_ite ?_ fun _ => completing_before ?_
  · rintro rfl
    exact completing_after (Nat.le_succ n) fun _ _ => completing_give _
  refine completing_map ?_
  refine completing_andThen (viable_bareElement h hsteady hsound hv) fun d a ha =>
    ⟨⟨[']'], _, .element ha (token_self _)⟩, completing_ahead fun c => ?_⟩
  have hclose : ∀ blanks, Blanks blanks → ∃ u d, ArrayTail V (a ++ (blanks ++ u)) d :=
    fun _ hb => ⟨[']'], _, .element ha (token_append hb)⟩
  refine completing_ite ?_ fun _ =>
    completing_ite (fun _ => completing_blameNext hclose) fun _ => completing_blameNext hclose
  rintro rfl
  exact completing_after (Nat.le_succ n) fun _ _ => completing_give _

end Nested

/-! ## Values -/

theorem start_of_pattern {accepts : PatternLiteral → Bool} {opened : Nat} {k : Cursor} {f : Fault}
    (h : pattern accepts opened k = .error f) : f.start = opened := by
  unfold pattern at h
  split at h
  · obtain rfl := Except.error.inj h
    rfl
  · dsimp only at h
    split at h
    · exact absurd h (by simp)
    · obtain rfl := Except.error.inj h
      rfl

/-- A pattern is blamed from its opening slash on, and another value can stand there. -/
theorem completing_pattern {accepts : PatternLiteral → Bool}
    (h : ∀ blanks, Blanks blanks → ∃ u, T (blanks ++ u)) :
    Completing (Shorter n) (skipping (marking fun opened => stepping
      (andThen (pattern accepts opened) fun literal => give (Definition.pattern literal)))) T := by
  refine completing_skipping fun blanks hb k f _ hf => completes_of_start ?_ (h blanks hb)
  rw [marking, stepping, moving, andThen_apply] at hf
  cases hp : pattern accepts k.position.index k.read.2 with
  | error e =>
    rw [hp] at hf
    obtain rfl : e = f := Except.error.inj hf
    exact start_of_pattern hp
  | ok r => exact absurd hf (by simp [hp, give, ok_bind])

theorem viable_value (accepts : PatternLiteral → Bool) (n : Nat) :
    Viable n (value accepts n) (Value accepts) := by
  have hint : ∀ blanks, Blanks blanks → ∃ u d, Value accepts (blanks ++ u) d := fun _ hb =>
    ⟨Keyword.int.word.toList, _, .primitive (token_append hb)⟩
  induction n with
  | zero =>
    refine viable_of_sound (value_sound accepts 0) (steady_value accepts 0 0) fun k f hk _ => ?_
    exact absurd hk (by simp [Shorter])
  | succ n ih =>
    have hsteady := steady_value accepts n n
    have hsound := value_sound accepts n
    have hv : Value accepts Keyword.int.word.toList (.primitive .int) := .primitive (token_self _)
    refine viable_of_sound (value_sound accepts _) (steady_value accepts _ _) ?_
    rw [value_succ]
    refine completing_ahead fun
      | none => completing_blameNext hint
      | some c => completing_ite ?_ fun _ => completing_ite ?_ fun _ =>
        completing_ite (fun _ => completing_before (completing_pattern hint)) fun _ =>
          completing_ite ?_ fun _ => completing_before (viable_primitive accepts).completing
    · rintro rfl
      refine completing_after (Nat.le_refl _) fun a ha =>
        (viable_object ih hsteady hsound hv).completing.mono ?_
      rintro b ⟨d, hb⟩
      exact ⟨[], d, by simpa using (value_of_objectTail ha hb).2⟩
    · rintro rfl
      refine completing_after (Nat.le_refl _) fun a ha => viable_enumeration.completing.mono ?_
      rintro b ⟨d, hb⟩
      exact ⟨[], d, by simpa using (value_of_enumerationTail accepts ha hb).2⟩
    · rintro rfl
      refine completing_after (Nat.le_refl _) fun a ha =>
        (viable_array ih hsteady hsound hv).completing.mono ?_
      rintro b ⟨d, hb⟩
      exact ⟨[], d, by simpa using value_of_arrayTail ha hb⟩

theorem completing_wholly (accepts : PatternLiteral → Bool) (n : Nat) :
    Completing (Shorter n) (wholly accepts) fun a => ∃ d, Derives accepts a d := by
  have hvalue : Viable n (fun k => value accepts (k.rest.length + 1) k) (Value accepts) :=
    ⟨fun k => (viable_value accepts _).takes k,
      fun k f _ => (viable_value accepts _).completing k f (Nat.lt_succ_self _)⟩
  refine completing_andThen hvalue fun d a ha => ⟨?_, completing_ahead fun
    | none => completing_give _
    | some c => completing_blameNext fun blanks hb => ?_⟩
  · exact ⟨[], d, a, [], rfl, blanks_nil, ha⟩
  · exact ⟨[], d, a, blanks, by simp, hb, ha⟩

end Definition.Parser

namespace Definition

open Definition.Parser SyntaxError Grammar

/-- The text in front of the blamed range is the start of a text that is read. Where the range is a
    character that cannot stand there, no text is read that starts with the text through it. -/
theorem fault_of_ofBareText {accepts : PatternLiteral → Bool} {text : String} {e : SyntaxError}
    (h : ofBareText accepts text = .error e) :
    (∃ front back, text.toList = front ++ back ∧ byteLength front = e.start ∧
      ∃ other d, front <+: other.toList ∧ ofBareText accepts other = .ok d) ∧
    (e.Named → ∃ front back, text.toList = front ++ back ∧ byteLength front = e.stop ∧
      ∀ other d, front <+: other.toList → ofBareText accepts other ≠ .ok d) := by
  obtain ⟨f, hf, rfl⟩ : ∃ f, wholly accepts (.ofText text) = .error f ∧ e = f.inText text := by
    unfold ofBareText at h
    rw [whole_eq] at h
    cases hw : wholly accepts (.ofText text) with
    | ok r => exact absurd h (by simp [hw, Except.map])
    | error f =>
      rw [hw] at h
      exact ⟨f, rfl, (Except.error.inj h).symm⟩
  constructor
  · obtain ⟨a, s, u, ha, hstart, d, hd⟩ :=
      completing_wholly accepts _ _ f (Nat.lt_succ_self _) hf
    refine ⟨a, s.rest, ha.rest_eq, ?_, String.ofList (a ++ u), d, ?_, ?_⟩
    · show byteLength a = f.start
      rw [hstart, ha.index_eq]
      exact (Nat.zero_add _).symm
    · rw [String.toList_ofList]
      exact List.prefix_append a u
    · exact ofBareText_of_derives (by rwa [String.toList_ofList])
  · intro hnamed
    obtain ⟨a, v, hrest, -, hstop, hnever⟩ := (steady_wholly accepts).stuck hf hnamed
    refine ⟨a, v, hrest, ?_, ?_⟩
    · show byteLength a = f.stop
      rw [hstop]
      exact (Nat.zero_add _).symm
    · rintro other d ⟨u, hu⟩ hd
      have hrest : (Cursor.ofText other).rest = a ++ u := hu.symm
      unfold ofBareText at hd
      rw [whole_eq] at hd
      cases hw : wholly accepts (.ofText other) with
      | ok r => exact hnever hrest r hw
      | error f => exact absurd hd (by simp [hw, Except.map])

theorem fault_of_missingColon :
    ofBareText (fun _ => true) "\x7b a: int, b [" =
        .error ⟨⟨.missingMemberColon, 12, 13⟩, "\x7b a: int, b ["⟩ ∧
      (∃ front back, "\x7b a: int, b [".toList = front ++ back ∧ byteLength front = 12 ∧
        ∃ other d, front <+: other.toList ∧ ofBareText (fun _ => true) other = .ok d) ∧
      ∃ front back, "\x7b a: int, b [".toList = front ++ back ∧ byteLength front = 13 ∧
        ∀ other d, front <+: other.toList → ofBareText (fun _ => true) other ≠ .ok d := by
  have h : ofBareText (fun _ => true) "\x7b a: int, b [" =
      .error ⟨⟨.missingMemberColon, 12, 13⟩, "\x7b a: int, b ["⟩ := rfl
  obtain ⟨hfront, hnamed⟩ := fault_of_ofBareText h
  exact ⟨h, hfront, hnamed ⟨rfl, by decide⟩⟩

end Definition

end CompactSchema
