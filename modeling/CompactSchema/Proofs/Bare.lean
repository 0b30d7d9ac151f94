import CompactSchema.Comment
import CompactSchema.Proofs.Leaves

set_option autoImplicit false

/-!
# Text without comments

Which texts the stripper leaves as they are, said one character at a time: outside a pattern, or
inside one behind its last character. What the stripper keeps of any text is of this kind, and
text of this kind is kept as it is.
-/

namespace CompactSchema.Stripper

open SyntaxError Definition.Parser

/-- Text without comments; `some last` stands inside a pattern, behind the character `last`. -/
inductive Bare : Option Char → List Char → Prop
  | done {place : Option Char} : Bare place []
  | lone : Bare none ['/']
  | plain {c : Char} {cs : List Char} : c ≠ '/' → Bare none cs → Bare none (c :: cs)
  | opening {c : Char} {cs : List Char} :
    c ≠ '/' → c ≠ '*' → Bare (some c) cs → Bare none ('/' :: c :: cs)
  | inside {last c : Char} {cs : List Char} :
    (c = '/' → last = '\\') → Bare (some c) cs → Bare (some last) (c :: cs)
  | closing {last : Char} {cs : List Char} :
    last ≠ '\\' → Bare none cs → Bare (some last) ('/' :: cs)

/-! ## What is kept -/

/-- What is kept of `cs` and of the end of the text behind it. -/
def keep (mode : Mode) (index : Nat) (cs : List Char) : Except Fault (List Char) :=
  (finish (run mode index cs).1).map ((run mode index cs).2 ++ ·)

theorem keep_cons (mode : Mode) (index : Nat) (c : Char) (cs : List Char) :
    keep mode index (c :: cs) =
      (keep (step mode index c).1 (index + c.utf8Size) cs).map ((step mode index c).2 ++ ·) := by
  simp only [keep, run]
  cases finish (run (step mode index c).1 (index + c.utf8Size) cs).1 with
  | error e => rfl
  | ok end_ => simp [Except.map]

/-- What may be kept from a mode on. A slash that waits for its meaning comes first. -/
def Mode.Keeps : Mode → List Char → Prop
  | .pattern last, out => Bare (some last) out
  | _, out => Bare none out

theorem keeps_step {mode : Mode} {index : Nat} {c : Char} {out : List Char}
    (h : (step mode index c).1.Keeps out) : mode.Keeps ((step mode index c).2 ++ out) := by
  cases mode with
  | plain =>
    by_cases hc : c = '/'
    · rw [step, if_pos hc] at h ⊢
      exact h
    · rw [step, if_neg hc] at h ⊢
      exact .plain hc h
  | slash opened =>
    by_cases hc : c = '/'
    · rw [step, if_pos hc] at h ⊢
      exact h
    · by_cases hs : c = '*'
      · rw [step, if_neg hc, if_pos hs] at h ⊢
        exact h
      · rw [step, if_neg hc, if_neg hs] at h ⊢
        exact .opening hc hs h
  | lineComment =>
    by_cases hc : c = '\n'
    · rw [step, if_pos hc] at h ⊢
      subst hc
      exact .plain (by decide) h
    · rw [step, if_neg hc] at h ⊢
      exact h
  | blockComment opened star =>
    by_cases hc : star = true ∧ c = '/'
    · rw [step, if_pos hc] at h ⊢
      exact h
    · rw [step, if_neg hc] at h ⊢
      exact h
  | pattern last =>
    by_cases hc : c = '/' ∧ last ≠ '\\'
    · rw [step, if_pos hc] at h ⊢
      rw [hc.1]
      exact .closing hc.2 h
    · rw [step, if_neg hc] at h ⊢
      exact .inside (fun hs => Classical.not_not.mp fun hl => hc ⟨hs, hl⟩) h

theorem keeps_finish {mode : Mode} {out : List Char} (h : finish mode = .ok out) :
    mode.Keeps out := by
  cases mode with
  | slash opened =>
    obtain rfl := Except.ok.inj h
    exact .lone
  | blockComment opened star => exact absurd h (by simp [finish])
  | plain | lineComment | pattern =>
    obtain rfl := Except.ok.inj h
    exact .done

theorem keeps_of_keep {mode : Mode} {index : Nat} {cs out : List Char}
    (h : keep mode index cs = .ok out) : mode.Keeps out := by
  induction cs generalizing mode index out with
  | nil =>
    obtain ⟨last, hlast, rfl⟩ := map_eq_ok.mp h
    exact keeps_finish hlast
  | cons c cs ih =>
    rw [keep_cons] at h
    obtain ⟨more, hmore, rfl⟩ := map_eq_ok.mp h
    exact keeps_step (ih hmore)

theorem bare_of_stripChars {cs out : List Char} (h : stripChars cs = .ok out) : Bare none out := by
  have hkeep : keep .plain 0 cs = .ok out := h
  exact keeps_of_keep hkeep

/-! ## Bare text is kept -/

/-- The mode at a place in bare text. -/
def Mode.ofPlace : Option Char → Mode
  | none => .plain
  | some last => .pattern last

theorem keep_of_bare {place : Option Char} {cs : List Char} (h : Bare place cs) (index : Nat) :
    keep (.ofPlace place) index cs = .ok cs := by
  induction h generalizing index with
  | @done place =>
    cases place <;> rfl
  | lone => rfl
  | @plain c cs hc _ ih =>
    have hstep : step .plain index c = (.plain, [c]) := if_neg hc
    simp only [Mode.ofPlace] at ih ⊢
    rw [keep_cons, hstep, ih]
    rfl
  | @opening c cs hc hs _ ih =>
    have hslash : step .plain index '/' = (.slash index, []) := rfl
    have hstep : step (.slash index) (index + Char.utf8Size '/') c = (.pattern c, ['/', c]) := by
      rw [step, if_neg hc, if_neg hs]
    simp only [Mode.ofPlace] at ih ⊢
    rw [keep_cons, hslash, keep_cons, hstep, ih]
    rfl
  | @inside last c cs hc _ ih =>
    have hstep : step (.pattern last) index c = (.pattern c, [c]) :=
      if_neg fun h => h.2 (hc h.1)
    simp only [Mode.ofPlace] at ih ⊢
    rw [keep_cons, hstep, ih]
    rfl
  | @closing last cs hl _ ih =>
    have hstep : step (.pattern last) index '/' = (.plain, ['/']) := if_pos ⟨rfl, hl⟩
    simp only [Mode.ofPlace] at ih ⊢
    rw [keep_cons, hstep, ih]
    rfl

theorem stripChars_of_bare {cs : List Char} (h : Bare none cs) : stripChars cs = .ok cs :=
  keep_of_bare h 0

/-! ## Parts of bare text -/

theorem bare_cons {c : Char} (hc : c ≠ '/') {cs : List Char} :
    Bare none (c :: cs) ↔ Bare none cs := by
  constructor
  · intro h
    cases h with
    | lone => exact absurd rfl hc
    | plain _ h => exact h
    | opening => exact absurd rfl hc
  · exact .plain hc

/-- A word without a slash does not matter. -/
theorem bare_append {word : List Char} (h : '/' ∉ word) (rest : List Char) :
    Bare none (word ++ rest) ↔ Bare none rest := by
  induction word with
  | nil => rfl
  | cons c cs ih =>
    rw [List.mem_cons, not_or] at h
    rw [List.cons_append, bare_cons (Ne.symm h.1), ih h.2]

theorem bare_inside {last c : Char} (hc : c = '/' → last = '\\') {cs : List Char} :
    Bare (some last) (c :: cs) ↔ Bare (some c) cs := by
  constructor
  · intro h
    cases h with
    | inside _ h => exact h
    | closing hl _ => exact absurd (hc rfl) hl
  · exact .inside hc

theorem bare_closing {last : Char} (hl : last ≠ '\\') {cs : List Char} :
    Bare (some last) ('/' :: cs) ↔ Bare none cs := by
  constructor
  · intro h
    cases h with
    | inside hc _ => exact absurd (hc rfl) hl
    | closing _ h => exact h
  · exact .closing hl

/-- Both scanners end a pattern at the same slash. -/
theorem bare_body {last : Char} {body : List Char} (h : ClosedBehind last body)
    (rest : List Char) : Bare (some last) (body ++ '/' :: rest) ↔ Bare none rest := by
  induction body generalizing last with
  | nil => exact bare_closing (closedBehind_nil.mp h)
  | cons c body ih =>
    obtain ⟨hc, h⟩ := closedBehind_cons.mp h
    rw [List.cons_append, bare_inside hc, ih h]

/-- The slash in front of a pattern may not open a comment instead. -/
theorem bare_slash {c : Char} {cs : List Char} :
    Bare none ('/' :: c :: cs) ↔ c ≠ '/' ∧ c ≠ '*' ∧ Bare (some c) cs := by
  constructor
  · intro h
    cases h with
    | plain hc _ => exact absurd rfl hc
    | opening hc hs h => exact ⟨hc, hs, h⟩
  · rintro ⟨hc, hs, h⟩
    exact .opening hc hs h

end CompactSchema.Stripper
