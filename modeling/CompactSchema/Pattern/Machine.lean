import CompactSchema.Pattern.ByteTree
import CompactSchema.Pattern.Node
import Std.Data.HashMap

set_option autoImplicit false

/-!
# The size of a pattern's machine

A pattern is refused if the machine that runs it over bytes would take too much room. The machine
is counted and not built: a state takes 32 bytes, an arrow for a range of bytes 8 more, and a link
of a fork 4 more. What is repeated a given number of times is there as often.
-/

namespace CompactSchema.Pattern

structure Machine where
  states : Nat
  room : Nat
deriving Repr, DecidableEq

namespace Machine

def roomLimit : Nat := 10 * 2 ^ 20

abbrev Build := StateT Machine Option

def grow (states room : Nat) : Build Unit := fun m =>
  let room := m.room + room
  if room ≤ roomLimit then some ((), ⟨m.states + states, room⟩) else none

def state (extra : Nat) : Build Unit := grow 1 (32 + extra)

/-- Leads on from a state; only a fork takes room for that. -/
def link (fork : Bool) : Build Unit := if fork then grow 0 4 else pure ()

structure Arrow where
  range : ByteRange
  target : Nat
deriving Repr, DecidableEq

/-- The states with arrows that can be used again, by slot. A state that comes into a slot takes
    the place of the one there. -/
abbrev Slots := Std.HashMap Nat (List Arrow × Nat)

def slot (arrows : List Arrow) : Nat :=
  let mix := fun (h n : UInt64) => (h ^^^ n) * 1099511628211
  let h := arrows.foldl
    (fun h a => mix (mix (mix h a.range.first.toUInt64) a.range.last.toUInt64) a.target.toUInt64)
    14695981039346656037
  (h % 10000).toNat

def arrowState (arrows : List Arrow) : StateT Slots Build Nat := do
  let place := slot arrows
  let add : StateT Slots Build Nat := do
    let number := (← getThe Machine).states
    state (8 * arrows.length)
    modify fun slots => slots.insert place (arrows, number)
    pure number
  match (← get)[place]? with
  | some (found, number) => if found = arrows then pure number else add
  | none => add

def arrows (target : Nat) : ByteTree → StateT Slots Build (List Arrow)
  | .none => pure []
  | .leaf range more => do
    let others ← arrows target more
    pure (⟨range, target⟩ :: others)
  | .branch range below more => do
    let next ← arrowState (← arrows target below)
    let others ← arrows target more
    pure (⟨range, next⟩ :: others)

def buildTree (tree : ByteTree) : Build Unit := do
  let target := (← get).states
  state 0
  let _ ← (do arrowState (← arrows target tree) : StateT Slots Build Nat).run ∅

def byFirst (words : List (List UInt8)) : List (UInt8 × List (List UInt8)) :=
  words.foldr (fun word groups =>
    match word with
    | [] => groups
    | byte :: rest =>
      match groups.lookup byte with
      | some others => (byte, rest :: others) :: groups.filter (·.1 ≠ byte)
      | none => (byte, [rest]) :: groups) []

def segments : List (List UInt8) → List (List (List UInt8))
  | [] => [[]]
  | word :: words =>
    match word, segments words with
    | [], rows => [] :: rows
    | word, row :: rows => (word :: row) :: rows
    | word, [] => [[word]]

/-- A choice between words, which share what they begin with as long as no word has ended. Every
    round takes a byte off the words. -/
def buildWords : Nat → List (List UInt8) → Build Unit
  | 0, _ => pure ()
  | rounds + 1, words => do
    let words := if words.head? = some [] then [] :: words.dropWhile (·.isEmpty) else words
    let groups := (segments words).map byFirst
    if groups.all (·.isEmpty) then pure ()
    else
      for group in groups do
        for entry in group do buildWords rounds entry.2
        match group.length with
        | 0 => pure ()
        | 1 => state 0
        | n => state (8 * n)
      state (4 * ((groups.filter (! ·.isEmpty)).length + (groups.length - 1)))

inductive Plan
  | row (states : Nat)
  | narrow (ranges : Nat)
  | tree (bytes : ByteTree)
  | words (texts : List (List UInt8))
  | capture (plan : Plan)
  | seq (first second : Plan)
  | alt (first second : Plan)
  | times (plan : Plan) (proper : Bool) (least : Nat) (most : Option Nat)

namespace Plan

def bytes (cs : List Char) : List UInt8 := cs.flatMap String.utf8EncodeChar

def text? : Node → Option (List Char)
  | .text cs => some cs
  | _ => none

/-- The plan of a node; `further` for what is left of a choice behind its first branch. -/
def ofNode (further : Bool) : Node → Plan
  | .empty | .look _ => row 1
  | .text cs => row (bytes cs).length
  | .char set _ =>
    if set.ranges.all (·.2 ≤ 0x7f) then narrow set.ranges.length else tree (.ofSet set)
  | .capture _ node => capture (ofNode false node)
  | .seq a b => seq (ofNode false a) (ofNode false b)
  | .alt a b =>
    match further, (Node.alt a b).branches.mapM text? with
    | false, some texts => words (texts.map bytes)
    | _, _ => alt (ofNode false a) (ofNode true b)
  | .times node least most _ =>
    times (ofNode false node) (node.minLength.any (0 < ·)) least most

/-- Where a plan stands: by itself, behind the first branch of a choice, which ends in a fork or
    not, or further behind. -/
inductive Place
  | alone
  | second (fork : Bool)
  | further

def Place.tie (place : Place) (fork : Bool) : Build Place := do
  match place with
  | alone => pure (second fork)
  | second first =>
    state 8
    state 0
    link first
    link fork
    pure further
  | further =>
    grow 0 4
    link fork
    pure further

def Place.finish (place : Place) (fork : Bool) : Build Bool := do
  match place with
  | alone => pure fork
  | place =>
    let _ ← place.tie fork
    pure false

def rounds (round : Build Bool) : Nat → Bool → Build Bool
  | 0, fork => pure fork
  | n + 1, fork => do
    let next ← round
    link fork
    rounds round n next

def exactly (round : Build Bool) : Nat → Build Bool
  | 0 => do
    state 0
    pure false
  | n + 1 => do rounds round n (← round)

def upTo (round : Build Bool) : Nat → Bool → Build Unit
  | 0, fork => link fork
  | n + 1, fork => do
    state 8
    let next ← round
    link fork
    upTo round n next

def repetition (round : Build Bool) (proper : Bool) (least : Nat) (most : Option Nat) :
    Build Bool := do
  match least, most with
  | 0, some 1 =>
    state 8
    let fork ← round
    state 0
    link fork
    pure false
  | 0, none =>
    if proper then
      state 4
      link (← round)
      pure true
    else
      let fork ← round
      state 8
      state 8
      state 0
      link fork
      pure false
  | 1, none =>
    let fork ← round
    state 4
    link fork
    pure true
  | least + 1, none =>
    let before ← exactly round least
    let fork ← round
    state 4
    link before
    link fork
    pure true
  | least, some most =>
    let fork ← exactly round least
    if least < most then
      state 0
      upTo round (most - least) fork
      pure false
    else pure fork

def build : Plan → Place → Build Bool
  | row states, place => do
    grow states (32 * states)
    place.finish false
  | narrow ranges, place => do
    state 0
    state (8 * ranges)
    place.finish false
  | tree bytes, place => do
    buildTree bytes
    place.finish false
  | words texts, place => do
    state 0
    buildWords ((texts.map (·.length)).foldl max 0 + 1) texts
    place.finish false
  | capture plan, place => do
    state 0
    let fork ← build plan .alone
    state 0
    link fork
    place.finish false
  | seq a b, place => do
    let first ← build a .alone
    let second ← build b .alone
    link first
    place.finish second
  | alt a b, place => do
    let fork ← build a .alone
    build b (← place.tie fork)
  | times plan proper least most, place => do
    place.finish (← repetition (build plan .alone) proper least most)

end Plan

def ofNode? (node : Node) : Option Machine := do
  let whole := Plan.capture (.ofNode false node)
  let search := Plan.times (.narrow 1) true 0 none
  let build : Build Bool :=
    if node.isAnchored then do
      state 0
      let _ ← whole.build .alone
      state 0
      pure false
    else do
      let _ ← search.build .alone
      let _ ← whole.build .alone
      state 0
      link true
      pure false
  (build.run ⟨0, 0⟩).map (·.2)

end Machine

def Node.isBuildable (node : Node) : Bool := (Machine.ofNode? node).isSome

end CompactSchema.Pattern
