import CompactSchema.Proofs.Bare

set_option autoImplicit false

/-!
# Segments

A text taken apart from left to right into characters, comments and patterns, said without the
machine that strips it. Every text is taken apart in one way only, up to its end or to a block
comment that is not closed. What is kept are the segments that are no comments.
-/

namespace CompactSchema.Stripper

open Text SyntaxError Grammar Definition.Parser

inductive Segment
  | plain (c : Char)
  | lineComment (body : List Char)
  | blockComment (body : List Char)
  | literal (body : List Char)
  /-- A pattern that is not closed before the text ends. -/
  | openLiteral (body : List Char)

namespace Segment

def chars : Segment → List Char
  | plain c => [c]
  | lineComment body => '/' :: '/' :: body
  | blockComment body => '/' :: '*' :: body ++ ['*', '/']
  | literal body => '/' :: body ++ ['/']
  | openLiteral body => '/' :: body

def isComment : Segment → Bool
  | lineComment _ | blockComment _ => true
  | _ => false

def kept (s : Segment) : List Char := if s.isComment then [] else s.chars

/-- A slash in front of this text does not open a comment. -/
def OpensPattern (behind : List Char) : Prop :=
  behind.head? ≠ some '/' ∧ behind.head? ≠ some '*'

/-- The segment comes first in a text that goes on with `rest` behind it. -/
def Leads : Segment → List Char → Prop
  | plain c, _ => c ≠ '/'
  | lineComment body, rest => '\n' ∉ body ∧ (rest = [] ∨ rest.head? = some '\n')
  | blockComment body, _ => ¬ ['*', '/'] <:+: body ++ ['*']
  | literal body, _ => OpensPattern (body ++ ['/']) ∧ Closed body
  | openLiteral body, rest => OpensPattern body ∧ SlashesEscaped body ∧ rest = []

end Segment

open Segment

/-- The segments of a text from its start, and the open block comment behind them, if any. -/
inductive Splits : List Char → List Segment → List Char → Prop
  | done : Splits [] [] []
  | openComment {body : List Char} :
    ¬ ['*', '/'] <:+: body → Splits ('/' :: '*' :: body) [] ('/' :: '*' :: body)
  | segment {s : Segment} {rest tail : List Char} {segments : List Segment} :
    s.Leads rest → Splits rest segments tail → Splits (s.chars ++ rest) (s :: segments) tail

/-! ## The end of a block comment -/

theorem infix_star_iff {body : List Char} {c : Char} :
    ['*', '/'] <:+: c :: (body ++ ['*']) ↔
      c = '*' ∧ body.head? = some '/' ∨ ['*', '/'] <:+: body ++ ['*'] := by
  rw [List.infix_cons_iff]
  cases body with
  | nil => simp
  | cons d body => simp [eq_comm]

/-- The first end of a comment in a text that holds one. -/
theorem exists_first_end {cs : List Char} (h : ['*', '/'] <:+: cs) :
    ∃ body rest, cs = body ++ ['*', '/'] ++ rest ∧ ¬ ['*', '/'] <:+: body ++ ['*'] := by
  induction cs with
  | nil => simp at h
  | cons c cs ih =>
    by_cases hp : ['*', '/'] <+: c :: cs
    · obtain ⟨rest, hrest⟩ := hp
      refine ⟨[], rest, hrest.symm, fun hi => ?_⟩
      exact absurd hi.length_le (by simp)
    · obtain ⟨body, rest, rfl, hbody⟩ := ih ((List.infix_cons_iff.mp h).resolve_left hp)
      refine ⟨c :: body, rest, rfl, fun hi => ?_⟩
      rcases infix_star_iff.mp hi with ⟨rfl, hd⟩ | hi
      · obtain ⟨more, rfl⟩ := List.head?_eq_some_iff.mp hd
        exact hp ⟨more ++ ['*', '/'] ++ rest, rfl⟩
      · exact hbody hi

theorem first_end_unique {body body' rest rest' : List Char}
    (h : body ++ ['*', '/'] ++ rest = body' ++ ['*', '/'] ++ rest')
    (hb : ¬ ['*', '/'] <:+: body ++ ['*']) (hb' : ¬ ['*', '/'] <:+: body' ++ ['*']) :
    body = body' ∧ rest = rest' := by
  induction body generalizing body' with
  | nil =>
    cases body' with
    | nil => exact ⟨rfl, by simpa using h⟩
    | cons c body' =>
      simp only [List.nil_append, List.cons_append, List.cons.injEq] at h
      obtain ⟨rfl, h⟩ := h
      refine absurd (infix_star_iff.mpr (.inl ⟨rfl, ?_⟩)) hb'
      cases body' with
      | nil => exact absurd h (by simp)
      | cons d body' => simpa using (List.cons.inj h).1.symm
  | cons c body ih =>
    cases body' with
    | nil =>
      simp only [List.nil_append, List.cons_append, List.cons.injEq] at h
      obtain ⟨rfl, h⟩ := h
      refine absurd (infix_star_iff.mpr (.inl ⟨rfl, ?_⟩)) hb
      cases body with
      | nil => exact absurd h (by simp)
      | cons d body => simpa using (List.cons.inj h).1
    | cons c' body' =>
      simp only [List.cons_append, List.cons.injEq] at h
      obtain ⟨rfl, h⟩ := h
      obtain ⟨rfl, rfl⟩ := ih h (fun hi => hb (infix_star_iff.mpr (.inr hi)))
        fun hi => hb' (infix_star_iff.mpr (.inr hi))
      exact ⟨rfl, rfl⟩

/-! ## Taking texts apart -/

theorem leads_literal {behind body rest : List Char} (hb : behind = body ++ '/' :: rest)
    (hopens : OpensPattern behind) (hclosed : Closed body) : (literal body).Leads rest := by
  subst hb
  refine ⟨?_, hclosed⟩
  cases body with
  | nil => exact absurd rfl hopens.1
  | cons c body => exact hopens

theorem splitPattern?_eq_none {last : Char} {cs : List Char} (h : splitPattern? last cs = none) :
    ∀ front back, cs = front ++ '/' :: back → (last :: front).getLast? = some '\\' := by
  induction cs generalizing last with
  | nil =>
    intro front back hcs
    exact absurd hcs (by simp)
  | cons c cs ih =>
    intro front back hcs
    unfold splitPattern? at h
    split at h
    · exact absurd h (by simp)
    next hc =>
    cases front with
    | nil =>
      obtain ⟨rfl, -⟩ := List.cons.inj hcs
      simpa using hc
    | cons d front =>
      obtain ⟨rfl, rfl⟩ := List.cons.inj hcs
      rw [List.getLast?_cons_cons]
      exact ih (by simpa using h) front back rfl

theorem exists_leading {cs : List Char} (h : cs ≠ []) :
    (∃ s rest, Segment.Leads s rest ∧ cs = s.chars ++ rest) ∨
      ∃ body, cs = '/' :: '*' :: body ∧ ¬ ['*', '/'] <:+: body := by
  obtain ⟨c, behind, rfl⟩ := List.exists_cons_of_ne_nil h
  by_cases hc : c = '/'
  · subst hc
    by_cases hline : behind.head? = some '/'
    · obtain ⟨cs, rfl⟩ := List.head?_eq_some_iff.mp hline
      refine .inl ⟨lineComment (cs.takeWhile (· ≠ '\n')), cs.dropWhile (· ≠ '\n'), ⟨?_, ?_⟩, ?_⟩
      · intro hn
        simpa using List.all_eq_true.mp (List.all_takeWhile (p := (· ≠ '\n'))) _ hn
      · have hstops := stops_dropWhile (· ≠ '\n') cs
        cases hr : cs.dropWhile (· ≠ '\n') with
        | nil => exact .inl rfl
        | cons d rest =>
          rw [hr] at hstops
          simpa using hstops d rfl
      · simp [chars, List.takeWhile_append_dropWhile]
    · by_cases hblock : behind.head? = some '*'
      · obtain ⟨cs, rfl⟩ := List.head?_eq_some_iff.mp hblock
        by_cases hend : ['*', '/'] <:+: cs
        · obtain ⟨body, rest, rfl, hbody⟩ := exists_first_end hend
          exact .inl ⟨blockComment body, rest, hbody, by simp [chars]⟩
        · exact .inr ⟨cs, rfl, hend⟩
      · cases hsplit : splitPattern? '/' behind with
        | none =>
          have hescaped := splitPattern?_eq_none hsplit
          refine .inl ⟨openLiteral behind, [], ⟨⟨hline, hblock⟩, ?_, rfl⟩, by simp [chars]⟩
          intro front back hb
          have hlast := hescaped front back hb
          cases front with
          | nil => exact absurd hlast (by simp)
          | cons d front => simpa using hlast
        | some found =>
          obtain ⟨body, rest⟩ := found
          obtain ⟨rfl, hclosed⟩ := splitPattern?_eq_some.mp hsplit
          refine .inl ⟨literal body, rest, ?_, by simp [chars]⟩
          exact leads_literal rfl ⟨hline, hblock⟩ (closedBehind_slash.mp hclosed)
  · exact .inl ⟨plain c, behind, hc, rfl⟩

theorem chars_length_pos (s : Segment) : 0 < s.chars.length := by
  cases s <;> simp [chars]

/-- Every text is taken apart. -/
theorem exists_splits (cs : List Char) : ∃ segments tail, Splits cs segments tail := by
  induction hn : cs.length using Nat.strongRecOn generalizing cs with
  | ind n ih =>
    by_cases hnil : cs = []
    · subst hnil
      exact ⟨[], [], .done⟩
    · rcases exists_leading hnil with ⟨s, rest, hs, rfl⟩ | ⟨body, rfl, hbody⟩
      · have hpos := chars_length_pos s
        rw [List.length_append] at hn
        obtain ⟨segments, tail, h⟩ := ih rest.length (by omega) rest rfl
        exact ⟨s :: segments, tail, .segment hs h⟩
      · exact ⟨[], _, .openComment hbody⟩

/-! ## One way only -/

theorem closed_unique {body body' rest rest' : List Char}
    (h : body ++ '/' :: rest = body' ++ '/' :: rest') (hb : Closed body) (hb' : Closed body') :
    body = body' ∧ rest = rest' := by
  have hs : splitPattern? '/' (body ++ '/' :: rest) = some (body, rest) :=
    splitPattern?_eq_some.mpr ⟨rfl, closedBehind_slash.mpr hb⟩
  have hs' : splitPattern? '/' (body ++ '/' :: rest) = some (body', rest') :=
    splitPattern?_eq_some.mpr ⟨h, closedBehind_slash.mpr hb'⟩
  exact Prod.mk.inj (Option.some.inj (hs.symm.trans hs'))

theorem line_unique {body body' rest rest' : List Char} (h : body ++ rest = body' ++ rest')
    (hb : (lineComment body).Leads rest) (hb' : (lineComment body').Leads rest') :
    body = body' ∧ rest = rest' := by
  have hstops : ∀ {cs : List Char}, cs = [] ∨ cs.head? = some '\n' → Stops (· ≠ '\n') cs := by
    rintro cs (rfl | hc) c hcs
    · exact absurd hcs (by simp)
    · obtain rfl : '\n' = c := Option.some.inj (hc.symm.trans hcs)
      exact decide_eq_false (by simp)
  have hall : ∀ {cs : List Char}, '\n' ∉ cs → ∀ c ∈ cs, decide (c ≠ '\n') = true := by
    intro cs hn c hc
    exact decide_eq_true fun heq => hn (heq ▸ hc)
  have ht := takeWhile_of_stops (hall hb.1) (hstops hb.2)
  have hd := dropWhile_of_stops (hall hb.1) (hstops hb.2)
  rw [h] at ht hd
  rw [takeWhile_of_stops (hall hb'.1) (hstops hb'.2)] at ht
  rw [dropWhile_of_stops (hall hb'.1) (hstops hb'.2)] at hd
  exact ⟨ht.symm, hd.symm⟩

/-- What a text starts with. -/
inductive Opening
  | character
  | line
  | block
  | pattern

def Opening.ofText : List Char → Opening
  | '/' :: '/' :: _ => line
  | '/' :: '*' :: _ => block
  | '/' :: _ => pattern
  | _ => character

def Segment.opening : Segment → Opening
  | plain _ => .character
  | lineComment _ => .line
  | blockComment _ => .block
  | literal _ | openLiteral _ => .pattern

theorem opening_of_pattern {behind : List Char} (h : OpensPattern behind) :
    Opening.ofText ('/' :: behind) = .pattern := by
  unfold Opening.ofText
  split
  · next heq => exact absurd (congrArg List.head? (List.cons.inj heq).2) h.1
  · next heq => exact absurd (congrArg List.head? (List.cons.inj heq).2) h.2
  · rfl
  · next hne => exact absurd rfl (hne behind)

theorem opening_of_leads {s : Segment} {rest : List Char} (h : s.Leads rest) :
    Opening.ofText (s.chars ++ rest) = s.opening := by
  cases s with
  | plain c =>
    unfold Opening.ofText
    split <;> simp_all [chars, Leads, Segment.opening]
  | lineComment body | blockComment body => rfl
  | literal body =>
    have hopens : OpensPattern (body ++ ['/'] ++ rest) := by
      have hbody := h.1
      cases body <;> exact hbody
    exact opening_of_pattern hopens
  | openLiteral body =>
    obtain ⟨hopens, -, rfl⟩ := h
    rw [List.append_nil]
    exact opening_of_pattern hopens

theorem leads_functional {s s' : Segment} {rest rest' : List Char} (h : s.Leads rest)
    (h' : s'.Leads rest') (heq : s.chars ++ rest = s'.chars ++ rest') : s = s' ∧ rest = rest' := by
  have hopening : s.opening = s'.opening := by
    rw [← opening_of_leads h, ← opening_of_leads h', heq]
  have hescaped : ∀ {body behind : List Char} (back : List Char), Closed body →
      SlashesEscaped behind → behind ≠ body ++ '/' :: back := fun _ hc he hb => hc.2 (he _ _ hb)
  cases s <;> cases s' <;> simp only [Segment.opening, reduceCtorEq] at hopening
  case plain.plain c c' => simpa [chars] using heq
  case lineComment.lineComment body body' =>
    obtain ⟨rfl, rfl⟩ := line_unique (by simpa [chars] using heq) h h'
    exact ⟨rfl, rfl⟩
  case blockComment.blockComment body body' =>
    obtain ⟨rfl, rfl⟩ := first_end_unique (by simpa [chars] using heq) h h'
    exact ⟨rfl, rfl⟩
  case literal.literal body body' =>
    obtain ⟨rfl, rfl⟩ := closed_unique (by simpa [chars] using heq) h.2 h'.2
    exact ⟨rfl, rfl⟩
  case literal.openLiteral body behind =>
    obtain ⟨-, he, rfl⟩ := h'
    exact absurd (by simpa [chars] using heq.symm) (hescaped rest h.2 he)
  case openLiteral.literal behind body =>
    obtain ⟨-, he, rfl⟩ := h
    exact absurd (by simpa [chars] using heq) (hescaped rest' h'.2 he)
  case openLiteral.openLiteral behind behind' =>
    obtain ⟨-, -, rfl⟩ := h
    obtain ⟨-, -, rfl⟩ := h'
    simpa [chars] using heq

theorem not_leads_openComment {s : Segment} {rest body : List Char} (h : s.Leads rest)
    (hb : ¬ ['*', '/'] <:+: body) : s.chars ++ rest ≠ '/' :: '*' :: body := by
  intro heq
  have hopening := opening_of_leads h
  rw [heq] at hopening
  cases s <;> simp only [Segment.opening, Opening.ofText, reduceCtorEq] at hopening
  case blockComment inner =>
    simp only [chars, List.cons_append, List.cons.injEq, true_and] at heq
    exact hb ⟨inner, rest, heq⟩

theorem splits_unique {cs tail tail' : List Char} {segments segments' : List Segment}
    (h : Splits cs segments tail) (h' : Splits cs segments' tail') :
    segments' = segments ∧ tail' = tail := by
  induction h generalizing segments' tail' with
  | done =>
    generalize hcs : ([] : List Char) = cs at h'
    cases h' with
    | done => exact ⟨rfl, rfl⟩
    | openComment => exact absurd hcs (by simp)
    | @segment s => exact absurd (congrArg List.length hcs) (by cases s <;> simp [chars])
  | @openComment body hb =>
    generalize hcs : '/' :: '*' :: body = cs at h'
    cases h' with
    | done => exact absurd hcs (by simp)
    | openComment =>
      obtain rfl := (List.cons.inj (List.cons.inj hcs).2).2
      exact ⟨rfl, rfl⟩
    | segment hs _ => exact absurd hcs.symm (not_leads_openComment hs hb)
  | @segment s rest tail segments hs _ ih =>
    generalize hcs : s.chars ++ rest = cs at h'
    cases h' with
    | done => exact absurd (congrArg List.length hcs) (by cases s <;> simp [chars])
    | openComment hb => exact absurd hcs (not_leads_openComment hs hb)
    | segment hs' hr =>
      obtain ⟨rfl, rfl⟩ := leads_functional hs hs' hcs
      obtain ⟨rfl, rfl⟩ := ih hr
      exact ⟨rfl, rfl⟩

/-! ## What is kept of a segment -/

theorem map_append {ε : Type} (a b : List Char) (x : Except ε (List Char)) :
    (x.map (b ++ ·)).map (a ++ ·) = x.map (a ++ b ++ ·) := by
  cases x <;> simp [Except.map]

theorem map_nil_append {ε : Type} (x : Except ε (List Char)) : x.map ([] ++ ·) = x := by
  cases x <;> rfl

/-- A character behind which the machine stands in the mode `next`, with nothing kept. -/
theorem keep_dropped {mode next : Mode} {index : Nat} {c : Char} (h : step mode index c = (next, []))
    (cs : List Char) : keep mode index (c :: cs) = keep next (index + c.utf8Size) cs := by
  rw [keep_cons, h]
  exact map_nil_append _

theorem byteLength_cons (c : Char) (cs : List Char) :
    byteLength (c :: cs) = c.utf8Size + byteLength cs := by
  simp [byteLength]

theorem keep_lineComment {body rest : List Char} (h : (Segment.lineComment body).Leads rest)
    (index : Nat) :
    keep .lineComment index (body ++ rest) = keep .plain (index + byteLength body) rest := by
  obtain ⟨hn, hr⟩ := h
  induction body generalizing index with
  | nil =>
    rcases hr with rfl | hr
    · rfl
    · obtain ⟨cs, rfl⟩ := List.head?_eq_some_iff.mp hr
      have hline : step .lineComment index '\n' = (.plain, ['\n']) := rfl
      have hplain : step .plain index '\n' = (.plain, ['\n']) := rfl
      simp only [byteLength, List.nil_append, List.map_nil, List.sum_nil, Nat.add_zero, keep_cons,
        hline, hplain]
  | cons c body ih =>
    rw [List.mem_cons, not_or] at hn
    have hstep : step .lineComment index c = (.lineComment, []) := if_neg (Ne.symm hn.1)
    rw [List.cons_append, keep_dropped hstep, ih _ hn.2, byteLength_cons, Nat.add_assoc]

/-- Whether a block comment ends in front of `cs` depends on the star that may stand there. -/
def behindStar (star : Bool) (cs : List Char) : List Char := if star then '*' :: cs else cs

theorem step_blockComment {opened index : Nat} {star : Bool} {c : Char} {cs : List Char}
    (h : ¬ ['*', '/'] <:+: behindStar star (c :: cs)) :
    step (.blockComment opened star) index c = (.blockComment opened (c = '*'), []) ∧
      ¬ ['*', '/'] <:+: behindStar (c = '*') cs := by
  have hc : ¬ (star = true ∧ c = '/') := by
    rintro ⟨rfl, rfl⟩
    exact h ⟨[], cs, rfl⟩
  refine ⟨if_neg hc, fun hi => h ?_⟩
  have hinner : ['*', '/'] <:+: c :: cs := by
    by_cases hs : c = '*'
    · subst hs
      exact hi
    · simp only [behindStar, hs, decide_false, Bool.false_eq_true, ↓reduceIte] at hi
      exact List.infix_cons hi
  cases star with
  | true => exact List.infix_cons hinner
  | false => exact hinner

theorem keep_blockComment {opened : Nat} {star : Bool} {body : List Char}
    (h : ¬ ['*', '/'] <:+: behindStar star (body ++ ['*'])) (rest : List Char) (index : Nat) :
    keep (.blockComment opened star) index (body ++ ['*', '/'] ++ rest) =
      keep .plain (index + byteLength (body ++ ['*', '/'])) rest := by
  induction body generalizing star index with
  | nil =>
    have hstar : step (.blockComment opened star) index '*' = (.blockComment opened true, []) :=
      (step_blockComment h).1
    have hend : step (.blockComment opened true) (index + '*'.utf8Size) '/' = (.plain, []) := rfl
    have hcs : [] ++ ['*', '/'] ++ rest = '*' :: '/' :: rest := rfl
    rw [hcs, keep_dropped hstar, keep_dropped hend, Nat.add_assoc]
    rfl
  | cons c body ih =>
    obtain ⟨hstep, hbody⟩ := step_blockComment h
    rw [List.cons_append, List.cons_append, keep_dropped hstep, ih hbody, byteLength_cons,
      Nat.add_assoc]

theorem keep_openComment {opened : Nat} {star : Bool} {body : List Char}
    (h : ¬ ['*', '/'] <:+: behindStar star body) (index : Nat) :
    keep (.blockComment opened star) index body =
      .error ⟨.unterminatedComment, opened, opened + 2⟩ := by
  induction body generalizing star index with
  | nil => rfl
  | cons c body ih =>
    obtain ⟨hstep, hbody⟩ := step_blockComment h
    rw [keep_dropped hstep, ih hbody]

theorem keep_body {last : Char} {body : List Char} (h : ClosedBehind last body)
    (rest : List Char) (index : Nat) :
    keep (.pattern last) index (body ++ ['/'] ++ rest) =
      (keep .plain (index + byteLength (body ++ ['/'])) rest).map (body ++ ['/'] ++ ·) := by
  induction body generalizing last index with
  | nil =>
    have hstep : step (.pattern last) index '/' = (.plain, ['/']) :=
      if_pos ⟨rfl, closedBehind_nil.mp h⟩
    have hcs : [] ++ ['/'] ++ rest = '/' :: rest := rfl
    rw [hcs, keep_cons, hstep]
    rfl
  | cons c body ih =>
    obtain ⟨hc, hbody⟩ := closedBehind_cons.mp h
    have hstep : step (.pattern last) index c = (.pattern c, [c]) := if_neg fun h => h.2 (hc h.1)
    rw [List.cons_append, List.cons_append, keep_cons, hstep, ih hbody, map_append,
      byteLength_cons, Nat.add_assoc]
    rfl

theorem bare_escaped {last : Char} {body : List Char}
    (h : ∀ front back, body = front ++ '/' :: back → (last :: front).getLast? = some '\\') :
    Bare (some last) body := by
  induction body generalizing last with
  | nil => exact .done
  | cons c body ih =>
    refine .inside (fun hc => ?_) (ih fun front back hb => ?_)
    · simpa using h [] body (by simp [hc])
    · simpa using h (c :: front) back (by simp [hb])

/-- A slash that opens a pattern is kept with the character behind it. -/
theorem keep_slash {c : Char} {cs : List Char} (h : OpensPattern (c :: cs)) (index : Nat) :
    keep .plain index ('/' :: c :: cs) =
      (keep (.pattern c) (index + byteLength ['/', c]) cs).map (['/', c] ++ ·) := by
  have hslash : step .plain index '/' = (.slash index, []) := rfl
  have hopens : step (.slash index) (index + '/'.utf8Size) c = (.pattern c, ['/', c]) := by
    have hc : c ≠ '/' := by simpa using h.1
    have hs : c ≠ '*' := by simpa using h.2
    rw [step, if_neg hc, if_neg hs]
  rw [keep_dropped hslash, keep_cons, hopens, Nat.add_assoc]
  rfl

theorem keep_openLiteral {behind : List Char} (h : (Segment.openLiteral behind).Leads [])
    (index : Nat) : keep .plain index ('/' :: behind) = .ok ('/' :: behind) := by
  obtain ⟨hopens, hescaped, -⟩ := h
  cases behind with
  | nil => rfl
  | cons c cs =>
    have hbare : Bare (some c) cs := bare_escaped fun front back hb => by
      have hlast := hescaped (c :: front) back (by rw [hb]; rfl)
      exact hlast
    exact keep_of_bare (.opening (by simpa using hopens.1) (by simpa using hopens.2) hbare) index

theorem keep_segment {s : Segment} {rest : List Char} (h : s.Leads rest) (index : Nat) :
    keep .plain index (s.chars ++ rest) =
      (keep .plain (index + byteLength s.chars) rest).map (s.kept ++ ·) := by
  cases s with
  | plain c =>
    have hstep : step .plain index c = (.plain, [c]) := if_neg h
    have hcs : (plain c).chars ++ rest = c :: rest := rfl
    rw [hcs, keep_cons, hstep]
    rfl
  | lineComment body =>
    have hslash : step .plain index '/' = (.slash index, []) := rfl
    have hopen : step (.slash index) (index + '/'.utf8Size) '/' = (.lineComment, []) := rfl
    have hcs : (lineComment body).chars ++ rest = '/' :: '/' :: (body ++ rest) := rfl
    have hlen : byteLength (lineComment body).chars =
        '/'.utf8Size + ('/'.utf8Size + byteLength body) := by
      simp only [chars, byteLength_cons]
    rw [hcs, keep_dropped hslash, keep_dropped hopen, keep_lineComment h, hlen]
    simp only [Nat.add_assoc]
    exact (map_nil_append _).symm
  | blockComment body =>
    have hslash : step .plain index '/' = (.slash index, []) := rfl
    have hopen : step (.slash index) (index + '/'.utf8Size) '*' = (.blockComment index false, []) :=
      rfl
    have hend : ¬ ['*', '/'] <:+: behindStar false (body ++ ['*']) := h
    have hcs : (blockComment body).chars ++ rest = '/' :: '*' :: (body ++ ['*', '/'] ++ rest) := rfl
    have hlen : byteLength (blockComment body).chars =
        '/'.utf8Size + ('*'.utf8Size + byteLength (body ++ ['*', '/'])) := by
      simp only [chars, byteLength_cons, List.cons_append]
    rw [hcs, keep_dropped hslash, keep_dropped hopen, keep_blockComment hend, hlen]
    simp only [Nat.add_assoc]
    exact (map_nil_append _).symm
  | literal body =>
    obtain ⟨hopens, hclosed⟩ := h
    cases body with
    | nil => exact absurd rfl hopens.1
    | cons c body =>
      have hbehind := (closedBehind_cons.mp (closedBehind_slash.mpr hclosed)).2
      have hpattern : OpensPattern (c :: (body ++ ['/'] ++ rest)) := hopens
      have hcs : (literal (c :: body)).chars ++ rest = '/' :: c :: (body ++ ['/'] ++ rest) := rfl
      have hlen : byteLength (literal (c :: body)).chars =
          byteLength ['/', c] + byteLength (body ++ ['/']) := by
        rw [← byteLength_append]
        rfl
      rw [hcs, keep_slash hpattern, keep_body hbehind, map_append, hlen, Nat.add_assoc]
      rfl
  | openLiteral behind =>
    obtain rfl := h.2.2
    rw [List.append_nil]
    exact (keep_openLiteral h index).trans (congrArg Except.ok (List.append_nil _).symm)

theorem keep_splits {cs tail : List Char} {segments : List Segment} (h : Splits cs segments tail)
    (index : Nat) : keep .plain index cs =
      if tail = [] then .ok (segments.flatMap kept)
      else .error ⟨.unterminatedComment, index + byteLength (segments.flatMap chars),
        index + byteLength (segments.flatMap chars) + 2⟩ := by
  induction h generalizing index with
  | done => rfl
  | @openComment body hb =>
    have hslash : step .plain index '/' = (.slash index, []) := rfl
    have hopen : step (.slash index) (index + '/'.utf8Size) '*' = (.blockComment index false, []) :=
      rfl
    have hend : ¬ ['*', '/'] <:+: behindStar false body := hb
    rw [keep_dropped hslash, keep_dropped hopen, keep_openComment hend, if_neg (by simp)]
    rfl
  | @segment s rest tail segments hs _ ih =>
    rw [keep_segment hs, ih]
    split
    · simp [Except.map]
    · simp [Except.map, byteLength_append, Nat.add_assoc]

theorem text_of_splits {cs tail : List Char} {segments : List Segment}
    (h : Splits cs segments tail) : cs = segments.flatMap chars ++ tail := by
  induction h with
  | done => rfl
  | openComment => rfl
  | segment _ _ ih => rw [List.flatMap_cons, List.append_assoc, ← ih]

theorem tail_of_splits {cs tail : List Char} {segments : List Segment}
    (h : Splits cs segments tail) (ht : tail ≠ []) :
    ∃ body, tail = '/' :: '*' :: body ∧ ¬ ['*', '/'] <:+: body := by
  induction h with
  | done => exact absurd rfl ht
  | @openComment body hb => exact ⟨body, rfl, hb⟩
  | segment _ _ ih => exact ih ht

/-- A text is taken apart in one way only. Stripped of its comments it consists of the other
    segments; it cannot be stripped if a block comment is left open, and then the two characters
    that open it are to blame. -/
theorem stripComments_segments (text : String) :
    ∃ segments tail, (∀ others other, Splits text.toList others other ↔
        others = segments ∧ other = tail) ∧
      text.toList = segments.flatMap chars ++ tail ∧
      (tail = [] → stripComments text = .ok (String.ofList (segments.flatMap kept))) ∧
      (tail ≠ [] → (∃ body, tail = '/' :: '*' :: body ∧ ¬ ['*', '/'] <:+: body) ∧
        stripComments text =
          .error ⟨⟨.unterminatedComment, byteLength (segments.flatMap chars),
            byteLength (segments.flatMap chars) + 2⟩, text⟩) := by
  obtain ⟨segments, tail, h⟩ := exists_splits text.toList
  have hstrip : stripChars text.toList = _ := keep_splits h 0
  refine ⟨segments, tail, fun others other => ⟨fun h' => splits_unique h h', ?_⟩,
    text_of_splits h, ?_, ?_⟩
  · rintro ⟨rfl, rfl⟩
    exact h
  · intro ht
    rw [if_pos ht] at hstrip
    simp only [stripComments, hstrip]
  · intro ht
    rw [if_neg ht, Nat.zero_add] at hstrip
    refine ⟨tail_of_splits h ht, ?_⟩
    simp only [stripComments, hstrip, Fault.inText]

end CompactSchema.Stripper
