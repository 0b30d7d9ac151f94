import CompactSchema.Proofs.Parsing

set_option autoImplicit false

/-!
# Readers put together

Every reader of the recursive descent is put together from a few small readers in a few ways. What
holds of the small ones and is kept by each way of putting them together holds of every reader.
-/

namespace CompactSchema

open Text

/-! ## Moves with their positions -/

namespace Text.Cursor

/-- The second cursor stands behind `a`, which the first one has ahead. -/
structure Passes (k : Cursor) (a : List Char) (k' : Cursor) : Prop where
  rest_eq : k.rest = a ++ k'.rest
  index_eq : k'.position.index = k.position.index + byteLength a

theorem passes_nil (k : Cursor) : k.Passes [] k := ⟨rfl, rfl⟩

theorem Passes.trans {k k' k'' : Cursor} {a b : List Char} (h : k.Passes a k')
    (h' : k'.Passes b k'') : k.Passes (a ++ b) k'' := by
  refine ⟨?_, ?_⟩
  · rw [h.rest_eq, h'.rest_eq, List.append_assoc]
  · rw [h'.index_eq, h.index_eq, byteLength_append, Nat.add_assoc]

theorem Passes.stop_eq {k k' : Cursor} {a : List Char} (h : k.Passes a k') : k'.stop = k.stop := by
  simp only [stop, h.rest_eq, h.index_eq, byteLength_append, Nat.add_assoc]

theorem passes_skipOver {k : Cursor} {word rest : List Char} (h : k.rest = word ++ rest) :
    k.Passes word (k.skipOver word rest) :=
  ⟨h, foldl_advance_index word k.position⟩

theorem passes_readWhile (k : Cursor) (p : Char → Bool) :
    k.Passes (k.rest.takeWhile p) (k.readWhile p).2 :=
  passes_skipOver List.takeWhile_append_dropWhile.symm

theorem passes_skipBlanks (k : Cursor) : k.Passes (k.rest.takeWhile isBlank) k.skipBlanks :=
  passes_readWhile k isBlank

theorem passes_read {k : Cursor} {c : Char} {rest : List Char} (h : k.rest = c :: rest) :
    k.Passes [c] k.read.2 := by
  have hread : k.read.2 = k.skipOver [c] rest := by
    simp [read, skipOver, h]
  rw [hread]
  exact passes_skipOver h

theorem stops_skipBlanks (k : Cursor) : Stops isBlank k.skipBlanks.rest :=
  stops_dropWhile isBlank k.rest

end Text.Cursor

namespace Definition.Parser

open SyntaxError Grammar

variable {α β : Type}

/-! ## Putting readers together -/

def give (x : α) : Reader α := fun k => .ok (x, k)

def andThen (read : Reader α) (next : α → Reader β) : Reader β := fun k => do
  let (x, k) ← read k
  next x k

def looking (peek : List Char → Option Char) (next : Option Char → Reader α) : Reader α :=
  fun k => next (peek k.rest) k

/-- Goes on as the next character says, blanks included, without moving. -/
def here (next : Option Char → Reader α) : Reader α := looking List.head? next

def significant? (cs : List Char) : Option Char := (cs.dropWhile isBlank).head?

/-- Goes on as the next character that is no blank says, without moving. -/
def ahead (next : Option Char → Reader α) : Reader α := looking significant? next

def moving (move : Cursor → Cursor) (next : Reader α) : Reader α := fun k => next (move k)

def stepping (next : Reader α) : Reader α := moving (·.read.2) next

def skipping (next : Reader α) : Reader α := moving Cursor.skipBlanks next

def marking (next : Nat → Reader α) : Reader α := fun k => next k.position.index k

def word (p : Char → Bool) : Reader (List Char) := fun k => .ok (k.readWhile p)

/-- Takes the body of a pattern and the slash that closes it. -/
def closing (opened : Nat) : Reader (List Char) := fun k =>
  match splitPattern? '/' k.rest with
  | none => .error ⟨.unterminatedPattern, opened, k.stop⟩
  | some (body, rest) => .ok (body, k.skipOver (body ++ ['/']) rest)

def blame (cause : Cause) : Reader α := fun k => .error (k.fault k.peek? cause)

/-- Blames what was taken off the text since byte `start`. -/
def blameFrom (cause : Cause) (start : Nat) : Reader α := fun k =>
  .error ⟨cause, start, k.position.index⟩

/-- Takes the next character that is no blank. -/
def after (next : Reader α) : Reader α := skipping (stepping next)

def blameNext (cause : Cause) : Reader α := skipping (blame cause)

/-! ## Every reader, put together -/

theorem next_cases (k : Cursor) :
    significant? k.rest = none ∧ k.next = (none, k.skipBlanks) ∨
      ∃ i c, significant? k.rest = some c ∧ k.next = (some (i, c), k.skipBlanks.read.2) ∧
        i = k.skipBlanks.position.index := by
  cases hr : k.skipBlanks.rest with
  | nil =>
    rw [Cursor.rest_skipBlanks] at hr
    exact .inl ⟨by simp [significant?, hr],
      by simp [Cursor.next, Cursor.read, Cursor.rest_skipBlanks, hr]⟩
  | cons c rest =>
    refine .inr ⟨k.skipBlanks.position.index, c, ?_, ?_, rfl⟩
    · rw [Cursor.rest_skipBlanks] at hr
      simp [significant?, hr]
    · obtain ⟨s, hs, -⟩ := Cursor.read_of_rest hr
      simp [Cursor.next, hs]

theorem blameNext_apply (cause : Cause) (k : Cursor) :
    (blameNext cause k : Except Fault (α × Cursor)) = .error (k.next.2.fault k.next.1 cause) := by
  unfold blameNext skipping moving blame Cursor.next
  cases hr : k.skipBlanks.rest with
  | nil => simp [Cursor.read, Cursor.peek?, hr]
  | cons c rest => simp [Cursor.read, Cursor.peek?, hr, Cursor.fault]

theorem fault_none_skipBlanks (k : Cursor) (cause : Cause) :
    k.skipBlanks.fault none cause = k.fault none cause := by
  simp only [Cursor.fault, k.passes_skipBlanks.stop_eq]

theorem after_apply (read : Reader α) (k : Cursor) : after read k = read k.next.2 := rfl

theorem ahead_apply {k : Cursor} {o : Option Char} (h : significant? k.rest = o)
    (next : Option Char → Reader α) : ahead next k = next o k := by
  simp only [ahead, looking, h]

theorem andThen_apply (read : Reader α) (next : α → Reader β) (k : Cursor) :
    andThen read next k = read k >>= fun r => next r.1 r.2 := rfl

theorem ok_bind (x : α) (f : α → Except Fault β) : (Except.ok x >>= f) = f x := rfl

theorem andThen_error {read : Reader α} {next : α → Reader β} {k : Cursor} {f : Fault}
    (h : andThen read next k = .error f) :
    read k = .error f ∨ ∃ x s, read k = .ok (x, s) ∧ next x s = .error f := by
  rw [andThen_apply] at h
  cases hx : read k with
  | error e =>
    obtain rfl : e = f := by simpa [hx, bind, Except.bind] using h
    exact .inl rfl
  | ok r =>
    rw [hx, ok_bind] at h
    exact .inr ⟨r.1, r.2, rfl, h⟩

theorem map_error {read : Reader α} {g : α → β} {k : Cursor} {f : Fault}
    (h : andThen read (fun x => give (g x)) k = .error f) : read k = .error f := by
  rcases andThen_error h with hread | ⟨x, s, -, hgive⟩
  · exact hread
  · exact absurd hgive (by simp [give])

theorem map_apply (read : Reader α) (f : α → β) (k : Cursor) :
    ((read k).map fun (x, k) => (f x, k)) = andThen read (fun x => give (f x)) k := by
  unfold andThen
  cases read k <;> rfl

theorem bounds_eq (w : Keyword) : bounds w =
    andThen (bound? w) fun low => ahead fun c =>
      if c = some '>' then after (give (low, none))
      else if c = some ',' then after (andThen (bound? w) fun high => ahead fun c =>
        if c = some '>' then after (give (low, high)) else blameNext .missingRangeCloser)
      else blameNext .invalidRangeDelimiter := by
  funext k
  simp only [bounds, andThen_apply]
  rcases bound? w k with f | ⟨low, s⟩
  · rfl
  simp only [ok_bind]
  rcases next_cases s with ⟨hs, hn⟩ | ⟨i, c, hs, hn, -⟩
  · simp [ahead_apply hs, hn, blameNext_apply]
  by_cases hc : c = '>'
  · simp [ahead_apply hs, hn, hc, after_apply, give]
  by_cases hcomma : c = ','
  · simp only [ahead_apply hs, hn, hcomma, after_apply, andThen_apply, Option.some.injEq,
      Char.reduceEq, ↓reduceIte]
    rcases bound? w s.skipBlanks.read.2 with f | ⟨high, t⟩
    · rfl
    simp only [ok_bind]
    rcases next_cases t with ⟨ht, hn⟩ | ⟨i, d, ht, hn, -⟩
    · simp [ahead_apply ht, hn, blameNext_apply]
    · by_cases hd : d = '>' <;> simp [ahead_apply ht, hn, hd, after_apply, blameNext_apply, give]
  · simp [ahead_apply hs, hn, hc, hcomma, blameNext_apply]

/-- A minus sign that may stand here. -/
def signed (next : Bool → Reader α) : Reader α :=
  here fun c => if c = some '-' then stepping (next true) else next false

theorem signed_apply (next : Bool → Reader α) (k : Cursor) :
    signed next k = next (minus k).1 (minus k).2 := by
  unfold signed here looking minus
  cases hr : k.rest with
  | nil => simp [Cursor.read, hr]
  | cons c rest =>
    by_cases hc : c = '-' <;> simp [Cursor.read, hr, hc, stepping, moving]

theorem integer_eq : integer = skipping (marking fun start => signed fun negative =>
    andThen (word isDigit) fun digits =>
      if digits = [] then blame .invalidIntegerLiteral
      else if negative then
        if digitsValue digits ≤ 2 ^ 63 then give (Int64.ofInt (-digitsValue digits))
        else blameFrom .integerTooSmall start
      else if digitsValue digits < 2 ^ 63 then give (Int64.ofNat (digitsValue digits))
        else blameFrom .integerTooLarge start) := by
  funext k
  simp only [skipping, moving, marking, signed_apply, integer, andThen_apply, word, ok_bind,
    List.isEmpty_iff]
  split
  · rfl
  · split
    · split <;> rfl
    · split <;> rfl

theorem wholeDigits_eq : wholeDigits = here fun
    | some c =>
      if c = '0' then stepping (here fun d =>
        if d = some '.' then give [c] else blame .leadingZeroWithoutDot)
      else if isDigit c then word isDigit
      else blame .invalidDecimalLiteral
    | none => blame .invalidDecimalLiteral := by
  funext k
  unfold wholeDigits here looking
  cases hr : k.rest with
  | nil => simp [Cursor.peek?, blame, hr]
  | cons c rest =>
    simp only [Cursor.peek?, hr, List.head?_cons, Option.map_some]
    split
    · next hc =>
      simp only [stepping, moving, Cursor.read, hr]
      cases rest with
      | nil => simp [blame, Cursor.peek?]
      | cons d rest =>
        by_cases hd : d = '.' <;> simp [hd, give, blame, Cursor.peek?]
    · split
      · rfl
      · simp [blame, Cursor.peek?, hr]

theorem fractionDigits_eq : (fun k => .ok (fractionDigits k)) = here fun c =>
    if c = some '.' then stepping (word isDigit) else give [] := by
  funext k
  unfold fractionDigits here looking
  cases hr : k.rest with
  | nil => simp [Cursor.read, hr, give]
  | cons c rest =>
    by_cases hc : c = '.' <;> simp [Cursor.read, hr, hc, give, stepping, moving, word]

theorem decimal_eq : decimal = skipping (signed fun negative => andThen wholeDigits fun whole =>
    andThen (fun k => .ok (fractionDigits k)) fun fraction =>
      give (.ofDecimal negative (digitsValue (whole ++ fraction)) (-(fraction.length : Int)))) := by
  funext k
  simp only [skipping, moving, signed_apply]
  rfl

theorem bound?_eq (w : Keyword) : bound? w = ahead fun
    | some c =>
      if startsNumber c then
        if w.hasDecimalBounds then andThen decimal fun x => give (some (.float x))
        else andThen integer fun i => give (some (.int i))
      else give none
    | none => give none := by
  funext k
  simp only [bound?, Cursor.peekNext?_eq]
  rcases next_cases k with ⟨hs, hn⟩ | ⟨i, c, hs, hn, -⟩
  · simp [ahead_apply hs, hn, give]
  · simp only [ahead_apply hs, hn]
    split
    · split
      · exact map_apply decimal (fun x => some (Bound.float x)) k
      · exact map_apply integer (fun i => some (Bound.int i)) k
    · rfl

theorem keyword_eq : keyword = skipping (marking fun start =>
    andThen (word isNamePart) fun word =>
      if word = [] then blame .invalidPrimitiveType
      else match Keyword.ofWord? (String.ofList word) with
        | some keyword => give keyword
        | none => blameFrom .invalidPrimitiveType start) := by
  funext k
  simp only [skipping, moving, marking, keyword, andThen_apply, word, ok_bind, List.isEmpty_iff]
  split
  · rfl
  · cases hw : Keyword.ofWord? (String.ofList (k.skipBlanks.readWhile isNamePart).1) <;> rfl

theorem primitive_eq : primitive = andThen keyword fun keyword =>
    if keyword.acceptsRange then ahead fun c =>
      if c = some '<' then
        after (andThen (bounds keyword) fun b => give (.ofBounds keyword b.1 b.2))
      else give (.primitive keyword)
    else give (.primitive keyword) := by
  funext k
  simp only [primitive, andThen_apply]
  rcases keyword k with f | ⟨w, s⟩
  · rfl
  simp only [ok_bind]
  split
  · rcases next_cases s with ⟨hs, hn⟩ | ⟨i, c, hs, hn, -⟩
    · simp [ahead_apply hs, hn, give]
    · by_cases hc : c = '<'
      · simp only [ahead_apply hs, hn, hc, after_apply, andThen_apply, ↓reduceIte]
        rcases bounds w s.skipBlanks.read.2 with f | ⟨⟨low, high⟩, t⟩
        · rfl
        · cases low <;> cases high <;> rfl
      · simp [ahead_apply hs, hn, hc, give]
  · rfl

theorem name_eq (cause : Cause) : name cause = skipping (here fun
    | some c =>
      if isNameStart c then andThen (word isNamePart) fun word => give (String.ofList word)
      else blame cause
    | none => blame cause) := by
  funext k
  unfold name skipping moving here looking
  cases hr : k.skipBlanks.rest with
  | nil => simp [Cursor.peek?, blame, hr]
  | cons c rest =>
    simp only [Cursor.peek?, hr, List.head?_cons, Option.map_some]
    split
    · rfl
    · simp [blame, Cursor.peek?, hr]

theorem pattern_eq (accepts : PatternLiteral → Bool) (opened : Nat) : pattern accepts opened =
    andThen (closing opened) fun body => andThen (word isFlag) fun flags =>
      let literal : PatternLiteral :=
        ⟨String.ofList body, ⟨flags.contains 'g', flags.contains 'i', flags.contains 'm'⟩⟩
      if accepts literal then give literal
      else blameFrom .invalidPattern opened := by
  funext k
  simp only [pattern, closing, andThen_apply]
  rcases splitPattern? '/' k.rest with _ | ⟨body, rest⟩
  · rfl
  · simp only [ok_bind, word]
    split <;> rfl

/-- The mark that a member need not be present. -/
def mark : Reader Bool := ahead fun c => if c = some '?' then after (give true) else give false

theorem mark_apply (k : Cursor) : mark k = .ok (match k.next with
    | (some (_, '?'), after) => (true, after)
    | _ => (false, k)) := by
  unfold mark
  rcases next_cases k with ⟨hs, hn⟩ | ⟨i, c, hs, hn, -⟩
  · simp [ahead_apply hs, hn, give]
  · by_cases hc : c = '?' <;> simp [ahead_apply hs, hn, hc, after_apply, give]

/-- The value of a member, behind its colon. -/
theorem valued_apply (value : Reader Definition) (n : String) (optional : Bool) (s : Cursor) :
    ahead (fun c =>
      if c = some ':' then after (andThen value fun value => give ⟨n, optional, value⟩)
      else blameNext .missingMemberColon) s =
    match s.next with
    | (some (_, ':'), s) => do
      let (value, s) ← value s
      .ok ((⟨n, optional, value⟩ : Member Definition), s)
    | (found, s) => .error (s.fault found .missingMemberColon) := by
  rcases next_cases s with ⟨hs, hn⟩ | ⟨i, c, hs, hn, -⟩
  · simp [ahead_apply hs, hn, blameNext_apply]
  · by_cases hc : c = ':'
    · simp [ahead_apply hs, hn, hc, after_apply, andThen_apply, give]
    · simp [ahead_apply hs, hn, hc, blameNext_apply]

theorem member_eq (value : Reader Definition) : member value =
    andThen (name .invalidMemberName) fun name => andThen mark fun optional => ahead fun c =>
      if c = some ':' then after (andThen value fun value => give ⟨name, optional, value⟩)
      else blameNext .missingMemberColon := by
  funext k
  simp only [member, andThen_apply]
  rcases name .invalidMemberName k with f | ⟨n, s⟩
  · rfl
  · simp only [ok_bind, mark_apply]
    exact (valued_apply value n _ _).symm

/-- An item and what follows it: a comma and more items, or the end of the list. -/
theorem listed_apply (close : Char) (missing : Cause) (item : Reader α) (steps : Nat) (k : Cursor) :
    andThen item (fun x => ahead fun c =>
      if c = some ',' then after (andThen (itemsWithin close missing item steps) fun xs =>
        give (x :: xs))
      else if c = some close then after (give [x])
      else blameNext missing) k = (do
    let (x, k) ← item k
    match k.next with
    | (some (index, c), k) =>
      if c = ',' then
        let (xs, k) ← itemsWithin close missing item steps k
        .ok (x :: xs, k)
      else if c = close then .ok ([x], k)
      else .error (k.fault (some (index, c)) missing)
    | (none, k) => .error (k.fault none missing)) := by
  simp only [andThen_apply]
  rcases item k with f | ⟨x, s⟩
  · rfl
  simp only [ok_bind]
  rcases next_cases s with ⟨hs, hn⟩ | ⟨i, c, hs, hn, -⟩
  · simp [ahead_apply hs, hn, blameNext_apply]
  · simp only [ahead_apply hs, hn, Option.some.injEq]
    split
    · simp only [after_apply, hn, andThen_apply, give]
    · split
      · simp only [after_apply, hn, give]
      · simp only [blameNext_apply, hn]

theorem itemsWithin_succ (close : Char) (missing : Cause) (item : Reader α) (steps : Nat) :
    itemsWithin close missing item (steps + 1) = ahead fun c =>
      if c = some close then after (give [])
      else andThen item fun x => ahead fun c =>
        if c = some ',' then after (andThen (itemsWithin close missing item steps) fun xs =>
          give (x :: xs))
        else if c = some close then after (give [x])
        else blameNext missing := by
  funext k
  rw [itemsWithin, Cursor.peekNext?_eq]
  rcases next_cases k with ⟨hs, hn⟩ | ⟨i, c, hs, hn, -⟩
  · simp only [ahead_apply hs, hn, Option.any_none, Bool.false_eq_true, reduceCtorEq, ↓reduceIte]
    exact (listed_apply close missing item steps k).symm
  · simp only [ahead_apply hs, hn, Option.any_some, decide_eq_true_eq, Option.some.injEq]
    split
    · simp only [after_apply, hn, give]
    · exact (listed_apply close missing item steps k).symm

theorem object_eq (value : Reader Definition) : object value =
    andThen (items '\x7d' .missingObjectDelimiter (member value)) fun members =>
      give (.object members) :=
  funext (map_apply _ _)

theorem enumeration_eq : enumeration =
    andThen (items ')' .missingEnumerationDelimiter enumerationItem) fun values =>
      give (.enumeration values) :=
  funext (map_apply _ _)

/-- The label as a reader that finds nothing of interest. -/
def labelled : Reader Unit := fun k => (label k).map fun k => ((), k)

theorem labelled_eq : labelled = ahead fun
    | some c =>
      if isNameStart c then andThen (name .invalidEnumerationValue) fun _ => ahead fun c =>
        if c = some '=' then after (give ()) else blameNext .missingEnumerationAssignment
      else give ()
    | none => give () := by
  funext k
  simp only [labelled, label, Cursor.peekNext?_eq]
  rcases next_cases k with ⟨hs, hn⟩ | ⟨i, c, hs, hn, -⟩
  · simp [ahead_apply hs, hn, give, Except.map]
  simp only [ahead_apply hs, hn, Option.any_some]
  split
  · simp only [andThen_apply]
    rcases name .invalidEnumerationValue k with f | ⟨n, s⟩
    · rfl
    simp only [ok_bind]
    rcases next_cases s with ⟨hs, hn⟩ | ⟨i, d, hs, hn, -⟩
    · simp [ahead_apply hs, hn, blameNext_apply, Except.map]
    · by_cases hd : d = '=' <;>
        simp [ahead_apply hs, hn, hd, after_apply, blameNext_apply, give, Except.map]
  · rfl

theorem enumerationItem_eq : enumerationItem =
    andThen labelled fun _ => ahead fun
      | some c => if startsNumber c then integer else blameNext .invalidEnumerationValue
      | none => blameNext .invalidEnumerationValue := by
  funext k
  simp only [enumerationItem, labelled, andThen_apply]
  rcases label k with f | s
  · rfl
  simp only [ok_bind, Except.map, Cursor.peekNext?_eq]
  rcases next_cases s with ⟨hs, hn⟩ | ⟨i, c, hs, hn, -⟩
  · simp [ahead_apply hs, hn, blameNext_apply, fault_none_skipBlanks]
  · cases hc : startsNumber c <;> simp [ahead_apply hs, hn, hc, blameNext_apply, Cursor.fault]

theorem bareElement_eq (value : Reader Definition) : bareElement value = ahead fun
    | some c =>
      if c = '(' then after enumeration
      else if c = '\x7b' then after (object value)
      else if c = '[' ∨ c = '/' then blameNext .invalidArrayElement
      else andThen keyword fun keyword => give (.primitive keyword)
    | none => blameNext .missingClosingBracket := by
  funext k
  simp only [bareElement, Cursor.peekNext?_eq]
  rcases next_cases k with ⟨hs, hn⟩ | ⟨i, c, hs, hn, -⟩
  · simp [ahead_apply hs, hn, blameNext_apply, fault_none_skipBlanks]
  by_cases hc : c = '('
  · simp [ahead_apply hs, hn, hc, after_apply]
  by_cases hd : c = '\x7b'
  · simp [ahead_apply hs, hn, hd, after_apply]
  simp only [ahead_apply hs, hn, hc, hd, ↓reduceIte]
  split
  · simp [blameNext_apply, hn, Cursor.fault]
  · exact map_apply keyword Definition.primitive k

theorem element_eq (value : Reader Definition) : element value =
    andThen (bareElement value) fun element => ahead fun c =>
      if c = some ']' then after (give (some element))
      else if c = some '<' then blameNext .invalidArrayElement
      else blameNext .missingClosingBracket := by
  funext k
  simp only [element, andThen_apply]
  rcases bareElement value k with f | ⟨d, s⟩
  · rfl
  simp only [ok_bind]
  rcases next_cases s with ⟨hs, hn⟩ | ⟨i, c, hs, hn, -⟩
  · simp [ahead_apply hs, hn, blameNext_apply]
  · by_cases hc : c = ']'
    · simp [ahead_apply hs, hn, hc, after_apply, give]
    · by_cases hd : c = '<' <;> simp [ahead_apply hs, hn, hc, hd, blameNext_apply]

theorem array_eq (value : Reader Definition) : array value = ahead fun c =>
    if c = some ']' then after (give (.array none))
    else andThen (element value) fun element => give (.array element) := by
  funext k
  unfold array
  rw [map_apply]
  rcases next_cases k with ⟨hs, hn⟩ | ⟨i, c, hs, hn, -⟩
  · simp [ahead_apply hs, hn]
  · by_cases hc : c = ']' <;> simp [ahead_apply hs, hn, hc, after_apply, give]

theorem value_succ (accepts : PatternLiteral → Bool) (n : Nat) : value accepts (n + 1) = ahead fun
    | some c =>
      if c = '\x7b' then after (object (value accepts n))
      else if c = '(' then after enumeration
      else if c = '/' then skipping (marking fun opened => stepping
        (andThen (pattern accepts opened) fun literal => give (.pattern literal)))
      else if c = '[' then after (array (value accepts n))
      else primitive
    | none => blameNext .missingValue := by
  funext k
  unfold value
  rcases next_cases k with ⟨hs, hn⟩ | ⟨i, c, hs, hn, rfl⟩
  · simp [ahead_apply hs, hn, blameNext_apply]
  by_cases h₁ : c = '\x7b'
  · simp [ahead_apply hs, hn, h₁, after_apply]
  by_cases h₂ : c = '('
  · simp [ahead_apply hs, hn, h₂, after_apply]
  by_cases h₃ : c = '/'
  · simp [ahead_apply hs, hn, h₃, map_apply, skipping, moving, marking, stepping]
  by_cases h₄ : c = '[' <;> simp [ahead_apply hs, hn, h₁, h₂, h₃, h₄, after_apply]

/-- A value with nothing but blanks around it, as a reader. -/
def wholly (accepts : PatternLiteral → Bool) : Reader Definition :=
  andThen (fun k => value accepts (k.rest.length + 1) k) fun d => ahead fun
    | some _ => blameNext .unexpectedCharacter
    | none => give d

theorem whole_eq (accepts : PatternLiteral → Bool) (k : Cursor) :
    whole accepts k = (wholly accepts k).map Prod.fst := by
  unfold whole wholly
  rw [andThen_apply]
  rcases value accepts (k.rest.length + 1) k with f | ⟨d, s⟩
  · rfl
  simp only [ok_bind, Cursor.peekNext?_eq]
  rcases next_cases s with ⟨hs, hn⟩ | ⟨i, c, hs, hn, -⟩
  · simp [ahead_apply hs, hn, give, Except.map]
  · simp [ahead_apply hs, hn, blameNext_apply, Cursor.fault, Except.map]

end Definition.Parser

end CompactSchema
