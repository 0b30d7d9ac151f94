import CompactSchema.Proofs.Readers

set_option autoImplicit false

/-!
# What a reader looks at

A reader looks at the text up to the character that it blames, or up to the first character behind
what it takes, and at nothing further on. Two runs over texts that agree so far do the same.
-/

namespace CompactSchema

open Text

namespace SyntaxError

/-- Whether the cause says that one character cannot stand where it does. The other causes are about
    a whole word, number or pattern. -/
def Cause.blamesCharacter : Cause → Bool
  | .invalidPrimitiveType | .unterminatedPattern | .integerTooLarge | .integerTooSmall
  | .invalidPattern => false
  | _ => true

/-- A character of the text is to blame, not its end. -/
def Fault.Named (f : Fault) : Prop := f.cause.blamesCharacter = true ∧ f.start ≠ f.stop

end SyntaxError

namespace Definition.Parser

open SyntaxError Grammar

variable {α β : Type}

/-! ## Looking ahead -/

/-- What can be seen of a text: enough for a reader to find a character in it. -/
structure Sight (Seen : List Char → Prop) : Prop where
  ne_nil : ∀ {p}, Seen p → p ≠ []
  append : ∀ b {p}, Seen p → Seen (b ++ p)
  of_not_blanks : ∀ {p}, ¬ Blanks p → Seen p

def Visible (p : List Char) : Prop := p ≠ []

def Significant (p : List Char) : Prop := ¬ Blanks p

theorem significant_append (b : List Char) {p : List Char} (h : Significant p) :
    Significant (b ++ p) :=
  fun hb => h fun c hc => hb c (List.mem_append_right b hc)

theorem sight_visible : Sight Visible where
  ne_nil h := h
  append b p h := by simpa [Visible] using fun _ => h
  of_not_blanks h := by
    rintro rfl
    exact h fun c hc => absurd hc (by simp)

theorem sight_significant : Sight Significant where
  ne_nil h := sight_visible.of_not_blanks h
  append := significant_append
  of_not_blanks h := h

/-- The reader `again` does what `read` did, on any text that agrees with that of `read` as far as
    can be seen: it takes the same off the text, and is not done where `read` named a character. -/
structure Steady (Seen : List Char → Prop) (read again : Reader α) : Prop where
  moves : ∀ {k x s}, read k = .ok (x, s) → ∃ a, k.Passes a s
  same : ∀ {k x s b p v}, read k = .ok (x, s) → k.Passes b s → s.rest = p ++ v → Seen p →
    ∀ {k' x' s' v'}, k'.rest = b ++ (p ++ v') → again k' = .ok (x', s') →
      x' = x ∧ s'.rest = p ++ v'
  stuck : ∀ {k f}, read k = .error f → f.Named → ∃ a v, k.rest = a ++ v ∧ Seen a ∧
    f.stop = k.position.index + byteLength a ∧
      ∀ {k' v'}, k'.rest = a ++ v' → ∀ r, again k' ≠ .ok r

variable {Seen : List Char → Prop}

theorem passes_unique {k s : Cursor} {a b : List Char} (ha : k.Passes a s) (hb : k.Passes b s) :
    a = b :=
  List.append_cancel_right (ha.rest_eq.symm.trans hb.rest_eq)

theorem steady_give (x : α) : Steady Seen (give x) (give x) where
  moves {k _ _} h := by
    obtain ⟨-, rfl⟩ := Prod.mk.inj (Except.ok.inj h)
    exact ⟨[], k.passes_nil⟩
  same {k _ _ b p v} h hb hs _ k' _ _ v' hk' h' := by
    obtain ⟨rfl, rfl⟩ := Prod.mk.inj (Except.ok.inj h)
    obtain ⟨rfl, rfl⟩ := Prod.mk.inj (Except.ok.inj h')
    obtain rfl := passes_unique hb k.passes_nil
    exact ⟨rfl, hk'⟩
  stuck h _ := absurd h (by simp [give])

/-- A reader that only fails, and never over a character. -/
theorem steady_of_failing {read again : Reader α} (hok : ∀ k r, read k ≠ .ok r)
    (herror : ∀ k f, read k = .error f → ¬ f.Named) : Steady Seen read again where
  moves h := absurd h (hok _ _)
  same h := absurd h (hok _ _)
  stuck h hf := absurd hf (herror _ _ h)

theorem Steady.of_never {read again never : Reader α} (h : Steady Seen read again)
    (hnever : ∀ k r, never k ≠ .ok r) : Steady Seen read never where
  moves := h.moves
  same _ _ _ _ _ _ _ _ _ h' := absurd h' (hnever _ _)
  stuck hk hf := by
    obtain ⟨a, v, hrest, ha, hstop, -⟩ := h.stuck hk hf
    exact ⟨a, v, hrest, ha, hstop, fun _ => hnever _⟩

theorem steady_andThen (hS : Sight Seen) {read again : Reader α} {next nextAgain : α → Reader β}
    (hread : Steady Seen read again) (hnext : ∀ x, Steady Seen (next x) (nextAgain x)) :
    Steady Seen (andThen read next) (andThen again nextAgain) where
  moves h := by
    obtain ⟨⟨x, s⟩, hx, hy⟩ := bind_eq_ok.mp h
    obtain ⟨a, ha⟩ := hread.moves hx
    obtain ⟨b, hb⟩ := (hnext x).moves hy
    exact ⟨a ++ b, ha.trans hb⟩
  same {k y t b p v} h hb ht hp k' y' t' v' hk' h' := by
    obtain ⟨⟨x, s⟩, hx, hy⟩ := bind_eq_ok.mp h
    obtain ⟨⟨x', s'⟩, hx', hy'⟩ := bind_eq_ok.mp h'
    obtain ⟨a, ha⟩ := hread.moves hx
    obtain ⟨c, hc⟩ := (hnext x).moves hy
    obtain rfl := passes_unique hb (ha.trans hc)
    have hs : s.rest = (c ++ p) ++ v := by rw [hc.rest_eq, ht, List.append_assoc]
    have hk : k'.rest = a ++ ((c ++ p) ++ v') := by simpa using hk'
    obtain ⟨rfl, hs'⟩ := hread.same hx ha hs (hS.append c hp) hk hx'
    rw [List.append_assoc] at hs'
    exact (hnext x').same hy hc ht hp hs' hy'
  stuck {k f} h hf := by
    cases hx : read k with
    | error e =>
      obtain rfl : e = f := by simpa [andThen, hx, bind, Except.bind] using h
      obtain ⟨a, v, hrest, ha, hstop, hnever⟩ := hread.stuck hx hf
      refine ⟨a, v, hrest, ha, hstop, fun hk' r h' => ?_⟩
      obtain ⟨r', hr', -⟩ := bind_eq_ok.mp h'
      exact hnever hk' r' hr'
    | ok r =>
      obtain ⟨x, s⟩ := r
      have hy : next x s = .error f := by simpa [andThen, hx, bind, Except.bind] using h
      obtain ⟨a, ha⟩ := hread.moves hx
      obtain ⟨c, v, hrest, hc, hstop, hnever⟩ := (hnext x).stuck hy hf
      refine ⟨a ++ c, v, ?_, hS.append a hc, ?_, ?_⟩
      · rw [ha.rest_eq, hrest, List.append_assoc]
      · rw [hstop, ha.index_eq, byteLength_append, Nat.add_assoc]
      · intro k' v' hk' r h'
        obtain ⟨⟨x', s'⟩, hx', hy'⟩ := bind_eq_ok.mp h'
        rw [List.append_assoc] at hk'
        obtain ⟨rfl, hs'⟩ := hread.same hx ha hrest hc hk' hx'
        exact hnever hs' r hy'

/-- A move in front of a reader. Seeing behind the move what `Sees` asks for means to see in front
    of it what `Seen` asks for, and the move is the same over any text that agrees so far. -/
theorem steady_moving {Sees : List Char → Prop} (hS : Sight Sees)
    (hsees : ∀ {p}, Seen p → Sees p) {read again : Reader α} {move : Cursor → Cursor}
    (hmove : ∀ k, ∃ a, k.Passes a (move k) ∧ ∀ {p v}, (move k).rest = p ++ v → Sees p →
      Seen (a ++ p) ∧ ∀ {k' v'}, k'.rest = a ++ (p ++ v') → (move k').rest = p ++ v')
    (h : Steady Sees read again) :
    Steady Seen (moving move read) (moving move again) where
  moves {k _ _} hk := by
    obtain ⟨a, ha, -⟩ := hmove k
    obtain ⟨b, hb⟩ := h.moves hk
    exact ⟨a ++ b, ha.trans hb⟩
  same {k x s b p v} hk hb hs hp k' x' s' v' hk' h' := by
    obtain ⟨a, ha, hsame⟩ := hmove k
    obtain ⟨c, hc⟩ := h.moves hk
    obtain rfl := passes_unique hb (ha.trans hc)
    have hm : (move k).rest = (c ++ p) ++ v := by rw [hc.rest_eq, hs, List.append_assoc]
    have hm' := (hsame hm (hS.append c (hsees hp))).2 (by simpa using hk')
    rw [List.append_assoc] at hm'
    exact h.same hk hc hs (hsees hp) hm' h'
  stuck {k f} hk hf := by
    obtain ⟨a, ha, hsame⟩ := hmove k
    obtain ⟨c, v, hrest, hc, hstop, hnever⟩ := h.stuck hk hf
    obtain ⟨hseen, hsame⟩ := hsame hrest hc
    refine ⟨a ++ c, v, ?_, hseen, ?_, ?_⟩
    · rw [ha.rest_eq, hrest, List.append_assoc]
    · rw [hstop, ha.index_eq, byteLength_append, Nat.add_assoc]
    · intro k' v' hk'
      rw [List.append_assoc] at hk'
      exact hnever (hsame hk')

theorem stops_append {p : Char → Bool} {a b c : List Char} (h : Stops p (a ++ b)) (ha : a ≠ []) :
    Stops p (a ++ c) := by
  obtain ⟨d, a, rfl⟩ := List.exists_cons_of_ne_nil ha
  exact stops_cons (h d rfl) _

/-- A run of characters is the same over a text that agrees up to the character behind the run. -/
theorem takeWhile_agrees {p : Char → Bool} {cs a b : List Char} (h : cs.dropWhile p = a ++ b)
    (ha : a ≠ []) (c : List Char) :
    (cs.takeWhile p ++ (a ++ c)).takeWhile p = cs.takeWhile p ∧
      (cs.takeWhile p ++ (a ++ c)).dropWhile p = a ++ c := by
  have hstops : Stops p (a ++ c) := stops_append (h ▸ stops_dropWhile p cs) ha
  have hall : ∀ c ∈ cs.takeWhile p, p c = true := List.all_eq_true.mp List.all_takeWhile
  exact ⟨takeWhile_of_stops hall hstops, dropWhile_of_stops hall hstops⟩

theorem significant_of_stops {a b : List Char} (h : Stops isBlank (a ++ b)) (ha : a ≠ []) :
    Significant a := by
  obtain ⟨c, a, rfl⟩ := List.exists_cons_of_ne_nil ha
  intro hb
  exact absurd (hb c (by simp)) (by simp [h c rfl])

theorem steady_skipping {Sees : List Char → Prop} (hS : Sight Sees) {read again : Reader α}
    (h : Steady Sees read again) : Steady Significant (skipping read) (skipping again) := by
  refine steady_moving hS hS.of_not_blanks (fun k => ?_) h
  refine ⟨_, k.passes_skipBlanks, fun {p v} hp hs => ⟨?_, fun {k' v'} hk' => ?_⟩⟩
  · exact significant_append _ (significant_of_stops (hp ▸ k.stops_skipBlanks) (hS.ne_nil hs))
  · rw [Cursor.rest_skipBlanks, hk']
    exact (takeWhile_agrees hp (hS.ne_nil hs) v').2

theorem steady_stepping (hS : Sight Seen) {read again : Reader α} (h : Steady Seen read again) :
    Steady Seen (stepping read) (stepping again) := by
  refine steady_moving hS id (fun k => ?_) h
  cases hr : k.rest with
  | nil =>
    have hk : k.read.2 = k := by simp [Cursor.read, hr]
    rw [hk]
    refine ⟨[], k.passes_nil, fun {p v} hp hs => absurd ?_ (hS.ne_nil hs)⟩
    rw [hr] at hp
    exact (List.append_eq_nil_iff.mp hp.symm).1
  | cons c rest =>
    refine ⟨[c], Cursor.passes_read hr, fun {p v} _ hs => ⟨hS.append _ hs, fun {k' v'} hk' => ?_⟩⟩
    obtain ⟨s, hs, hsr⟩ := Cursor.read_of_rest hk'
    rw [hs]
    exact hsr

theorem append_unique {a a' v v' : List Char} (h : a ++ v = a' ++ v')
    (hlen : byteLength a = byteLength a') : a = a' := by
  induction a generalizing a' with
  | nil =>
    cases a' with
    | nil => rfl
    | cons c a' =>
      have hpos := c.utf8Size_pos
      simp only [byteLength, List.map_nil, List.sum_nil, List.map_cons, List.sum_cons] at hlen
      omega
  | cons c a ih =>
    cases a' with
    | nil =>
      have hpos := c.utf8Size_pos
      simp only [byteLength, List.map_nil, List.sum_nil, List.map_cons, List.sum_cons] at hlen
      omega
    | cons d a' =>
      simp only [List.cons_append, List.cons.injEq] at h
      obtain ⟨rfl, hrest⟩ := h
      simp only [byteLength, List.map_cons, List.sum_cons, Nat.add_left_cancel_iff] at hlen
      rw [ih hrest hlen]

/-- Readers that take a number from where they stand. -/
theorem steady_choosing {reads agains : Nat → Reader α}
    (h : ∀ n m, Steady Seen (reads n) (agains m)) (choose chooseAgain : Cursor → Nat) :
    Steady Seen (fun k => reads (choose k) k) (fun k => agains (chooseAgain k) k) where
  moves hk := (h _ 0).moves hk
  same hk hb hs hp _ _ _ _ hk' h' := (h _ _).same hk hb hs hp hk' h'
  stuck {k f} hk hf := by
    obtain ⟨a, v, hrest, ha, hstop, -⟩ := (h _ 0).stuck hk hf
    refine ⟨a, v, hrest, ha, hstop, fun {k' v'} hk' r h' => ?_⟩
    obtain ⟨b, w, hrest', -, hstop', hnever⟩ := (h _ (chooseAgain k')).stuck hk hf
    obtain rfl : a = b := append_unique (hrest.symm.trans hrest') (by omega)
    exact hnever hk' r h'

theorem steady_marking {next nextAgain : Nat → Reader α}
    (h : ∀ i j, Steady Seen (next i) (nextAgain j)) :
    Steady Seen (marking next) (marking nextAgain) :=
  steady_choosing h _ _

theorem steady_looking (hS : Sight Seen) {peek : List Char → Option Char}
    (hpeek : ∀ {p}, Seen p → ∀ v v', peek (p ++ v) = peek (p ++ v'))
    {next nextAgain : Option Char → Reader α} (h : ∀ o, Steady Seen (next o) (nextAgain o)) :
    Steady Seen (looking peek next) (looking peek nextAgain) where
  moves hk := (h _).moves hk
  same {k x s b p v} hk hb hs hp k' x' s' v' hk' h' := by
    have hrest : k.rest = (b ++ p) ++ v := by rw [hb.rest_eq, hs, List.append_assoc]
    have hrest' : k'.rest = (b ++ p) ++ v' := by rw [hk', List.append_assoc]
    have hsame : peek k.rest = peek k'.rest := by
      rw [hrest, hrest']
      exact hpeek (hS.append b hp) v v'
    simp only [looking, ← hsame] at h'
    exact (h _).same hk hb hs hp hk' h'
  stuck {k f} hk hf := by
    obtain ⟨a, v, hrest, ha, hstop, hnever⟩ := (h _).stuck hk hf
    refine ⟨a, v, hrest, ha, hstop, fun {k' v'} hk' r h' => ?_⟩
    have hsame : peek k.rest = peek k'.rest := by
      rw [hrest, hk']
      exact hpeek ha v v'
    simp only [looking, ← hsame] at h'
    exact hnever hk' r h'

theorem steady_here {next nextAgain : Option Char → Reader α}
    (h : ∀ o, Steady Visible (next o) (nextAgain o)) :
    Steady Visible (here next) (here nextAgain) := by
  refine steady_looking sight_visible (fun hp v v' => ?_) h
  obtain ⟨c, cs, rfl⟩ := List.exists_cons_of_ne_nil hp
  rfl

theorem significant?_append {p : List Char} (h : Significant p) (v : List Char) :
    significant? (p ++ v) = significant? p := by
  induction p with
  | nil => exact absurd (fun c hc => absurd hc (by simp)) h
  | cons c p ih =>
    cases hc : isBlank c with
    | true =>
      have hp : Significant p := fun hb => h (List.forall_mem_cons.mpr ⟨hc, hb⟩)
      simpa [significant?, hc] using ih hp
    | false => simp [significant?, hc]

theorem steady_ahead {next nextAgain : Option Char → Reader α}
    (h : ∀ o, Steady Significant (next o) (nextAgain o)) :
    Steady Significant (ahead next) (ahead nextAgain) := by
  refine steady_looking sight_significant (fun hp v v' => ?_) h
  rw [significant?_append hp, significant?_append hp]

theorem steady_word (p : Char → Bool) : Steady Visible (word p) (word p) where
  moves {k _ _} h := by
    obtain ⟨-, rfl⟩ := Prod.mk.inj (Except.ok.inj h)
    exact ⟨_, k.passes_readWhile p⟩
  same {k _ _ b q v} h hb hs hq k' _ _ v' hk' h' := by
    obtain ⟨rfl, rfl⟩ := Prod.mk.inj (Except.ok.inj h)
    obtain ⟨rfl, rfl⟩ := Prod.mk.inj (Except.ok.inj h')
    obtain rfl := passes_unique hb (k.passes_readWhile p)
    have hagrees := takeWhile_agrees hs hq v'
    rw [← hk'] at hagrees
    exact hagrees
  stuck h _ := absurd h (by simp [word])

theorem steady_blame (cause : Cause) : Steady Visible (blame cause) (blame cause : Reader α) where
  moves h := absurd h (by simp [blame])
  same h := absurd h (by simp [blame])
  stuck {k f} h hf := by
    obtain rfl := Except.error.inj h
    cases hr : k.rest with
    | nil => exact absurd (by simp [Cursor.fault, Cursor.peek?, hr]) hf.2
    | cons c rest =>
      refine ⟨[c], rest, rfl, by simp [Visible], ?_, fun _ r h' => absurd h' (by simp [blame])⟩
      simp [Cursor.fault, Cursor.peek?, hr, byteLength]

theorem steady_closing (opened reopened : Nat) :
    Steady Visible (closing opened) (closing reopened) where
  moves {k body s} h := by
    unfold closing at h
    split at h
    · exact absurd h (by simp)
    · next body rest hsplit =>
      obtain ⟨rfl, rfl⟩ := Prod.mk.inj (Except.ok.inj h)
      obtain ⟨hrest, -⟩ := splitPattern?_eq_some.mp hsplit
      exact ⟨_, Cursor.passes_skipOver (by simpa using hrest)⟩
  same {k body s b p v} h hb hs hp k' body' s' v' hk' h' := by
    unfold closing at h h'
    split at h
    · exact absurd h (by simp)
    · next body rest hsplit =>
      obtain ⟨rfl, rfl⟩ := Prod.mk.inj (Except.ok.inj h)
      obtain ⟨hrest, hclosed⟩ := splitPattern?_eq_some.mp hsplit
      obtain rfl := passes_unique hb (Cursor.passes_skipOver (by simpa using hrest))
      have hsplit' : splitPattern? '/' k'.rest = some (body, p ++ v') :=
        splitPattern?_eq_some.mpr ⟨by simpa using hk', hclosed⟩
      rw [hsplit'] at h'
      obtain ⟨rfl, rfl⟩ := Prod.mk.inj (Except.ok.inj h')
      exact ⟨rfl, rfl⟩
  stuck {k f} h hf := by
    unfold closing at h
    split at h
    · obtain rfl := Except.error.inj h
      exact absurd hf.1 (by simp [Cause.blamesCharacter])
    · exact absurd h (by simp)

/-! ## Every reader is steady -/

theorem steady_ite {c : Prop} [Decidable c] {read again read' again' : Reader α}
    (h : c → Steady Seen read again) (h' : ¬ c → Steady Seen read' again') :
    Steady Seen (if c then read else read') (if c then again else again') := by
  split
  · next hc => exact h hc
  · next hc => exact h' hc

theorem steady_blameFrom {cause : Cause} (h : cause.blamesCharacter = false) (i j : Nat) :
    Steady Seen (blameFrom cause i) (blameFrom cause j : Reader α) := by
  refine steady_of_failing (fun _ _ => by simp [blameFrom]) fun k f hf hn => ?_
  obtain rfl := Except.error.inj hf
  exact absurd hn.1 (by simp [h])

theorem steady_blameNext (cause : Cause) :
    Steady Significant (blameNext cause) (blameNext cause : Reader α) :=
  steady_skipping sight_visible (steady_blame cause)

theorem steady_after {read again : Reader α} (h : Steady Significant read again) :
    Steady Significant (after read) (after again) :=
  steady_skipping sight_significant (steady_stepping sight_significant h)

theorem steady_signed {next nextAgain : Bool → Reader α}
    (h : ∀ negative, Steady Visible (next negative) (nextAgain negative)) :
    Steady Visible (signed next) (signed nextAgain) :=
  steady_here fun _ => steady_ite (fun _ => steady_stepping sight_visible (h true)) fun _ => h false

theorem steady_integer : Steady Significant integer integer := by
  rw [integer_eq]
  refine steady_skipping sight_visible (steady_marking fun i j => steady_signed fun negative =>
    steady_andThen sight_visible (steady_word isDigit) fun digits => ?_)
  refine steady_ite (fun _ => steady_blame _) fun _ => steady_ite (fun _ => ?_) fun _ => ?_
  · exact steady_ite (fun _ => steady_give _) fun _ => steady_blameFrom rfl i j
  · exact steady_ite (fun _ => steady_give _) fun _ => steady_blameFrom rfl i j

theorem steady_wholeDigits : Steady Visible wholeDigits wholeDigits := by
  rw [wholeDigits_eq]
  refine steady_here fun
    | none => steady_blame _
    | some c => steady_ite (fun _ => ?_) fun _ => ?_
  · refine steady_stepping sight_visible (steady_here fun d => ?_)
    exact steady_ite (fun _ => steady_give _) fun _ => steady_blame _
  · exact steady_ite (fun _ => steady_word isDigit) fun _ => steady_blame _

theorem steady_decimal : Steady Significant decimal decimal := by
  rw [decimal_eq, fractionDigits_eq]
  refine steady_skipping sight_visible (steady_signed fun negative =>
    steady_andThen sight_visible steady_wholeDigits fun whole =>
      steady_andThen sight_visible (steady_here fun c => ?_) fun fraction => steady_give _)
  exact steady_ite (fun _ => steady_stepping sight_visible (steady_word isDigit))
    fun _ => steady_give _

theorem steady_bound? (w : Keyword) : Steady Significant (bound? w) (bound? w) := by
  have hfloat := steady_andThen sight_significant steady_decimal fun x =>
    steady_give (some (Bound.float x))
  have hint := steady_andThen sight_significant steady_integer fun i =>
    steady_give (some (Bound.int i))
  rw [bound?_eq]
  refine steady_ahead fun
    | none => steady_give _
    | some c => steady_ite (fun _ => ?_) fun _ => steady_give _
  exact steady_ite (fun _ => hfloat) fun _ => hint

theorem steady_bounds (w : Keyword) : Steady Significant (bounds w) (bounds w) := by
  rw [bounds_eq]
  refine steady_andThen sight_significant (steady_bound? w) fun low => steady_ahead fun c =>
    steady_ite (fun _ => steady_after (steady_give _)) fun _ =>
      steady_ite (fun _ => steady_after ?_) fun _ => steady_blameNext _
  refine steady_andThen sight_significant (steady_bound? w) fun high => steady_ahead fun c => ?_
  exact steady_ite (fun _ => steady_after (steady_give _)) fun _ => steady_blameNext _

theorem steady_keyword : Steady Significant keyword keyword := by
  rw [keyword_eq]
  refine steady_skipping sight_visible (steady_marking fun i j =>
    steady_andThen sight_visible (steady_word isNamePart) fun word =>
      steady_ite (fun _ => steady_blame _) fun _ => ?_)
  cases Keyword.ofWord? (String.ofList word) with
  | some w => exact steady_give w
  | none => exact steady_blameFrom rfl i j

theorem steady_primitive : Steady Significant primitive primitive := by
  rw [primitive_eq]
  refine steady_andThen sight_significant steady_keyword fun w =>
    steady_ite (fun _ => steady_ahead fun c => ?_) fun _ => steady_give _
  refine steady_ite (fun _ => steady_after ?_) fun _ => steady_give _
  exact steady_andThen sight_significant (steady_bounds w) fun b => steady_give _

theorem steady_name (cause : Cause) : Steady Significant (name cause) (name cause) := by
  rw [name_eq]
  refine steady_skipping sight_visible (steady_here fun
    | none => steady_blame _
    | some c => steady_ite (fun _ => ?_) fun _ => steady_blame _)
  exact steady_andThen sight_visible (steady_word isNamePart) fun word => steady_give _

theorem steady_pattern (accepts : PatternLiteral → Bool) (i j : Nat) :
    Steady Visible (pattern accepts i) (pattern accepts j) := by
  rw [pattern_eq, pattern_eq]
  refine steady_andThen sight_visible (steady_closing i j) fun body =>
    steady_andThen sight_visible (steady_word isFlag) fun flags => ?_
  exact steady_ite (fun _ => steady_give _) fun _ => steady_blameFrom rfl i j

theorem steady_items {item again : Reader α} (h : Steady Significant item again) (close : Char)
    (missing : Cause) :
    Steady Significant (items close missing item) (items close missing again) := by
  refine steady_choosing (fun n => ?_) (·.rest.length + 1) (·.rest.length + 1)
  have hnever : ∀ k r, itemsWithin close missing again 0 k ≠ .ok r := fun _ _ => by
    simp [itemsWithin]
  induction n with
  | zero =>
    refine fun m => steady_of_failing (fun _ _ => by simp [itemsWithin]) fun k f hf hn => ?_
    obtain rfl := Except.error.inj hf
    exact absurd rfl hn.2
  | succ n ih =>
    have hstep : ∀ m, Steady Significant (itemsWithin close missing item (n + 1))
        (itemsWithin close missing again (m + 1)) := by
      intro m
      have hlast : ∀ x : α, Steady Significant (after (give [x])) (after (give [x])) :=
        fun x => steady_after (steady_give _)
      rw [itemsWithin_succ, itemsWithin_succ]
      refine steady_ahead fun c => steady_ite (fun _ => steady_after (steady_give _)) fun _ =>
        steady_andThen sight_significant h fun x => steady_ahead fun c =>
          steady_ite (fun _ => steady_after ?_) fun _ =>
            steady_ite (fun _ => hlast x) fun _ => steady_blameNext _
      exact steady_andThen sight_significant (ih m) fun xs => steady_give _
    rintro (_ | m)
    · exact (hstep 0).of_never hnever
    · exact hstep m

theorem steady_labelled : Steady Significant labelled labelled := by
  rw [labelled_eq]
  refine steady_ahead fun
    | none => steady_give _
    | some c => steady_ite (fun _ => ?_) fun _ => steady_give _
  refine steady_andThen sight_significant (steady_name _) fun _ => steady_ahead fun c => ?_
  exact steady_ite (fun _ => steady_after (steady_give _)) fun _ => steady_blameNext _

theorem steady_enumerationItem : Steady Significant enumerationItem enumerationItem := by
  rw [enumerationItem_eq]
  exact steady_andThen sight_significant steady_labelled fun _ => steady_ahead fun
    | none => steady_blameNext _
    | some c => steady_ite (fun _ => steady_integer) fun _ => steady_blameNext _

theorem steady_enumeration : Steady Significant enumeration enumeration := by
  have hitems := steady_items steady_enumerationItem ')' .missingEnumerationDelimiter
  rw [enumeration_eq]
  exact steady_andThen sight_significant hitems fun values => steady_give _

theorem steady_mark : Steady Significant mark mark :=
  steady_ahead fun _ => steady_ite (fun _ => steady_after (steady_give _)) fun _ => steady_give _

section Nested

variable {inner innerAgain : Reader Definition} (h : Steady Significant inner innerAgain)
include h

theorem steady_member : Steady Significant (member inner) (member innerAgain) := by
  rw [member_eq, member_eq]
  refine steady_andThen sight_significant (steady_name _) fun name =>
    steady_andThen sight_significant steady_mark fun optional => steady_ahead fun c =>
      steady_ite (fun _ => steady_after ?_) fun _ => steady_blameNext _
  exact steady_andThen sight_significant h fun value => steady_give _

theorem steady_object : Steady Significant (object inner) (object innerAgain) := by
  have hitems := steady_items (steady_member h) '\x7d' .missingObjectDelimiter
  rw [object_eq, object_eq]
  exact steady_andThen sight_significant hitems fun members => steady_give _

theorem steady_bareElement :
    Steady Significant (bareElement inner) (bareElement innerAgain) := by
  have hkeyword := steady_andThen sight_significant steady_keyword fun w =>
    steady_give (Definition.primitive w)
  rw [bareElement_eq, bareElement_eq]
  exact steady_ahead fun
    | none => steady_blameNext _
    | some c => steady_ite (fun _ => steady_after steady_enumeration) fun _ =>
      steady_ite (fun _ => steady_after (steady_object h)) fun _ =>
        steady_ite (fun _ => steady_blameNext _) fun _ => hkeyword

theorem steady_element : Steady Significant (element inner) (element innerAgain) := by
  rw [element_eq, element_eq]
  exact steady_andThen sight_significant (steady_bareElement h) fun d => steady_ahead fun c =>
    steady_ite (fun _ => steady_after (steady_give _)) fun _ =>
      steady_ite (fun _ => steady_blameNext _) fun _ => steady_blameNext _

theorem steady_array : Steady Significant (array inner) (array innerAgain) := by
  rw [array_eq, array_eq]
  refine steady_ahead fun c => steady_ite (fun _ => steady_after (steady_give _)) fun _ => ?_
  exact steady_andThen sight_significant (steady_element h) fun d => steady_give _

end Nested

theorem steady_value (accepts : PatternLiteral → Bool) (n : Nat) :
    ∀ m, Steady Significant (value accepts n) (value accepts m) := by
  induction n with
  | zero =>
    refine fun m => steady_of_failing (fun _ _ => by simp [value]) fun k f hf hn => ?_
    obtain rfl := Except.error.inj hf
    exact absurd rfl hn.2
  | succ n ih =>
    have hstep : ∀ m, Steady Significant (value accepts (n + 1)) (value accepts (m + 1)) := by
      intro m
      rw [value_succ, value_succ]
      refine steady_ahead ?_
      rintro (_ | c)
      · exact steady_blameNext _
      refine steady_ite (fun _ => steady_after (steady_object (ih m))) fun _ =>
        steady_ite (fun _ => steady_after steady_enumeration) fun _ =>
          steady_ite (fun _ => ?_) fun _ =>
            steady_ite (fun _ => steady_after (steady_array (ih m))) fun _ => steady_primitive
      refine steady_skipping sight_visible (steady_marking fun i j =>
        steady_stepping sight_visible ?_)
      exact steady_andThen sight_visible (steady_pattern accepts i j) fun literal => steady_give _
    rintro (_ | m)
    · exact (hstep 0).of_never fun _ _ => by simp [value]
    · exact hstep m

theorem steady_wholly (accepts : PatternLiteral → Bool) :
    Steady Significant (wholly accepts) (wholly accepts) := by
  have hvalue := steady_choosing (steady_value accepts) (·.rest.length + 1) (·.rest.length + 1)
  exact steady_andThen sight_significant hvalue fun d => steady_ahead fun
    | some _ => steady_blameNext _
    | none => steady_give d

end Definition.Parser

end CompactSchema
