import CompactSchema.Pattern.CharSet
import CompactSchema.Pattern.Look

set_option autoImplicit false

/-!
# Pattern trees

A pattern is built from characters and conditions on the characters around a position, by
sequence, choice and repetition. `join`, `choice` and `repeated` build it in a reduced form:
a sequence holds no sequence and no two texts side by side, a choice holds no choice and is a set
of characters where it can be, and what can only match nothing is not repeated.
-/

namespace CompactSchema.Pattern

inductive Node
  | empty
  | text (chars : List Char)
  /-- One character of a set. A set that is not `wide` was written as one of single bytes. -/
  | char (set : CharSet) (wide : Bool)
  | look (condition : Look)
  /-- A group that is kept, numbered from one in the order of the opening parentheses. -/
  | capture (number : Nat) (node : Node)
  | seq (first second : Node)
  | alt (first second : Node)
  /-- At least `least` times, and at most `most` times if that is given; few times rather than
      many if `short`. -/
  | times (node : Node) (least : Nat) (most : Option Nat) (short : Bool)
deriving Repr, DecidableEq

namespace Node

def ofSet (set : CharSet) (wide : Bool) : Node :=
  match set.ranges with
  | [] => char set false
  | [(first, last)] => if first = last then text [Char.ofNat first] else char set wide
  | _ => char set wide

def join : Node → Node → Node
  | empty, node => node
  | seq a b, node => join a (join b node)
  | node, empty => node
  | text a, text b => text (a ++ b)
  | text a, seq (text b) rest => seq (text (a ++ b)) rest
  | node, rest => seq node rest

def sequence (nodes : List Node) : Node := nodes.foldr join empty

def parts : Node → List Node
  | seq a b => a :: parts b
  | node => [node]

def branches : Node → List Node
  | alt a b => a :: branches b
  | node => [node]

def single? : Node → Option CharSet
  | text [c] => some (.singleton c)
  | _ => none

def set? : Node → Option CharSet
  | char set _ => some set
  | _ => none

def commonParts : List Node → List Node → List Node
  | a :: as, b :: bs => if a = b then a :: commonParts as bs else []
  | _, _ => []

def commonFront (nodes : List Node) : List Node :=
  let rows := nodes.map parts
  match rows with
  | [] => []
  | first :: rest =>
    if rows.all (1 < ·.length) then rest.foldl commonParts first else []

def rightmost : List Node → Node
  | [] => empty
  | [node] => node
  | node :: rest => alt node (rightmost rest)

/-- A choice between nodes: one set if each is a single character or each is a set, else what they
    have in common in front of what they differ in. Every round takes a part off. -/
def choiceWithin : Nat → List Node → Node
  | 0, nodes => rightmost nodes
  | rounds + 1, nodes =>
    match nodes.flatMap branches with
    | [] => ofSet .empty true
    | [node] => node
    | nodes =>
      match nodes.mapM single?, nodes.mapM set? with
      | some sets, _ | none, some sets => ofSet (.unions sets) true
      | none, none =>
        match commonFront nodes with
        | [] => rightmost nodes
        | front =>
          let rests := nodes.map fun node => sequence (node.parts.drop front.length)
          sequence (front ++ [choiceWithin rounds rests])

def choice (nodes : List Node) : Node :=
  choiceWithin ((nodes.map fun node => node.parts.length).sum + 1) nodes

def minLength : Node → Option Nat
  | empty | look _ => some 0
  | text cs => some (cs.map Char.utf8Size).sum
  | char set _ => set.ranges.head?.map fun r => (Char.ofNat r.1).utf8Size
  | capture _ node => minLength node
  | seq a b => do some ((← minLength a) + (← minLength b))
  | alt a b => do some (min (← minLength a) (← minLength b))
  | times node least _ _ => (minLength node).map (· * least)

def maxLength : Node → Option Nat
  | empty | look _ => some 0
  | text cs => some (cs.map Char.utf8Size).sum
  | char set _ => set.ranges.getLast?.map fun r => (Char.ofNat r.2).utf8Size
  | capture _ node => maxLength node
  | seq a b => do some ((← maxLength a) + (← maxLength b))
  | alt a b => do some (max (← maxLength a) (← maxLength b))
  | times node _ most _ => do some ((← maxLength node) * (← most))

/-- A node repeated. What matches only the empty text does so the first time. -/
def repeated (node : Node) (least : Nat) (most : Option Nat) (short : Bool) : Node :=
  let (least, most) :=
    if node.maxLength = some 0 then (min least 1, some (min (most.getD 1) 1)) else (least, most)
  if most = some 0 then empty
  else if least = 1 ∧ most = some 1 then node
  else times node least most short

def isAnchored : Node → Bool
  | empty | text _ | char _ _ => false
  | look condition => condition = .textStart
  | capture _ node => isAnchored node
  | seq a b => isAnchored a || (maxLength a = some 0 && isAnchored b)
  | alt a b => isAnchored a && isAnchored b
  | times node least _ _ => 0 < least && isAnchored node

end Node

end CompactSchema.Pattern
