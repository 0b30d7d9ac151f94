import CompactSchema.Pattern.Node

set_option autoImplicit false

/-!
# Matching

Positions in a text are numbered from zero, and a set of positions is a number whose bit `i`
tells whether position `i` is in it. For a given text a character set becomes the set of
positions where one of its characters stands, and a condition the set of positions where it
holds. A route takes the positions where a match may begin to those where it may end.
-/

namespace CompactSchema.Pattern

def bitsOf (bits : List Bool) : Nat :=
  bits.foldr (fun b n => 2 * n + b.toNat) 0

inductive Route
  | stay
  | step (places : Nat)
  | gate (places : Nat)
  | seq (first second : Route)
  | alt (first second : Route)
  | times (route : Route) (least more : Nat)

namespace Route

def after (move : Nat → Nat) : Nat → Nat → Nat
  | 0, places => places
  | n + 1, places => if places = 0 then 0 else after move n (move places)

/-- Positions after at most `n` rounds of `move`. All of `seen` are reached, and `fresh` are those
    of them that no round started from yet. -/
def within (move : Nat → Nat) : Nat → Nat → Nat → Nat
  | 0, seen, _ => seen
  | n + 1, seen, fresh =>
    let reached := move fresh
    let next := reached ^^^ (reached &&& seen)
    if next = 0 then seen else within move n (seen ||| next) next

def ends : Route → Nat → Nat
  | stay, places => places
  | step here, places => (places &&& here) * 2
  | gate here, places => places &&& here
  | seq a b, places => b.ends (a.ends places)
  | alt a b, places => a.ends places ||| b.ends places
  | times route least more, places =>
    let start := after route.ends least places
    within route.ends more start start

end Route

namespace Node

/-- The tree over a text. Beyond the least number of rounds, one round per position reaches
    all that any number of rounds does. -/
def route (text : List Char) : Node → Route
  | empty => .stay
  | .text cs => cs.foldr (fun c rest => .seq (.step (bitsOf (text.map (· = c)))) rest) .stay
  | char set _ => .step (bitsOf (text.map set.contains))
  | look condition =>
    .gate (bitsOf (List.zipWith condition.holds (none :: text.map some) (text.map some ++ [none])))
  | capture _ node => route text node
  | seq a b => .seq (route text a) (route text b)
  | alt a b => .alt (route text a) (route text b)
  | times node least most _ =>
    let rounds := text.length + 1
    .times (route text node) least (min rounds (most.getD (least + rounds) - least))

def matchesIn (node : Node) (text : List Char) : Bool :=
  (node.route text).ends (2 ^ (text.length + 1) - 1) ≠ 0

end Node

end CompactSchema.Pattern
