import CompactSchema.SyntaxError
import CompactSchema.Unicode.Width

set_option autoImplicit false

/-!
# Diagnostics

A syntax error is shown below the line that it blames, with carets under the blamed characters.
Where several lines are blamed, a bracket on the left joins the first one and the last one, and
the lines in the middle of a long text are left out. Tabs are drawn as spaces up to the next
fourth column, and wide characters take two columns.
-/

namespace CompactSchema.Diagnostic

structure Line where
  number : Nat
  start : Nat
  chars : List Char

/-- The lines of a text from line `number` at byte `start` on. `line` holds the characters of the
    first line that were read already, the last one first. -/
def linesFrom (number start : Nat) (line : List Char) : List Char → List Line
  | [] => [⟨number, start, line.reverse⟩]
  | c :: cs =>
    if c = '\n' then
      ⟨number, start, line.reverse⟩ ::
        linesFrom (number + 1) (start + Text.byteLength line + 1) [] cs
    else linesFrom number start (c :: line) cs

def linesOf (text : String) : List Line := linesFrom 1 0 [] text.toList

/-- A line is drawn without carriage returns and zero characters at its end. -/
def Line.shown (line : Line) : List Char :=
  (line.chars.reverse.dropWhile fun c => c = '\r' || c = '\x00').reverse

structure Cell where
  index : Nat
  width : Nat
  char : Char

def tabWidth : Nat := 4

def cellsFrom (index column : Nat) : List Char → List Cell
  | [] => []
  | c :: cs =>
    let width := if c = '\t' then tabWidth - column % tabWidth else Unicode.width c
    ⟨index, width, c⟩ :: cellsFrom (index + c.utf8Size) (column + width) cs

def repeated (n : Nat) (c : Char) : String := String.ofList (List.replicate n c)

def drawn (cs : List Char) : String :=
  String.join <| (cellsFrom 0 0 cs).map fun cell =>
    if cell.char = '\t' then repeated cell.width ' ' else cell.char.toString

/-- As many `c` as the characters in front of byte `stop` take columns. -/
def rule (cs : List Char) (stop : Nat) (c : Char) : String :=
  String.join <| ((cellsFrom 0 0 cs).takeWhile (·.index < stop)).map fun cell =>
    repeated cell.width c

/-- Carets under the characters that share a byte with `start` up to `stop`. There is one more
    place behind the line. -/
def carets (cs : List Char) (start stop : Nat) : String :=
  String.join <| (cellsFrom 0 0 cs ++ [Cell.mk (Text.byteLength cs) 1 '\x00']).map fun cell =>
    if max start cell.index < min stop (cell.index + cell.char.utf8Size) then
      repeated cell.width '^'
    else if cell.index < stop then repeated cell.width ' '
    else ""

def indent (cs : List Char) : Nat := Text.byteLength (cs.takeWhile Unicode.isBlank)

structure Margin where
  width : Nat

namespace Margin

def bare (m : Margin) (rest : String) : String := repeated m.width ' ' ++ " " ++ rest

def numbered (m : Margin) (line : Line) (rest : String) : String :=
  let number := toString line.number
  repeated (m.width - number.length) ' ' ++ number ++ " │" ++ rest

end Margin

def singleRows (m : Margin) (line : Line) (e : SyntaxError) : List String :=
  let start := e.start - line.start
  let stop := max (e.stop - line.start) (start + 1)
  let shown := line.shown
  [m.numbered line (" " ++ drawn shown),
    m.bare ("│ " ++ carets shown start stop ++ " " ++ e.cause.message)]

/-- The first of several blamed lines. Where the blame starts at the first character the bracket
    starts beside the line, else below it. -/
def firstRows (m : Margin) (line : Line) (e : SyntaxError) : List String :=
  let start := e.start - line.start
  let shown := line.shown
  if start ≤ indent shown then [m.numbered line (" ╭ " ++ drawn shown)]
  else
    [m.numbered line ("   " ++ drawn shown),
      m.bare ("│ ╭" ++ rule shown (start + 1) '─' ++ "^")]

def middleRow (m : Margin) (line : Line) : String := m.numbered line (" │ " ++ drawn line.shown)

def lastRows (m : Margin) (line : Line) (e : SyntaxError) : List String :=
  [middleRow m line,
    m.bare ("│ ╰" ++ rule line.shown (e.stop - line.start) '─' ++ "^ " ++ e.cause.message)]

/-- The lines between the first and the last one: all of at most five, else the first three and
    the last one with a break between them. -/
def middleRows (m : Margin) (lines : List Line) : List String :=
  if lines.length ≤ 5 then lines.map (middleRow m)
  else
    (lines.take 3).map (middleRow m) ++ [m.bare "· │"] ++
      (lines.drop (lines.length - 1)).map (middleRow m)

def excerpt (m : Margin) (e : SyntaxError) : List Line → List String
  | [] => []
  | [line] => singleRows m line e
  | first :: second :: rest =>
    firstRows m first e ++ middleRows m ((second :: rest).dropLast) ++
      match (second :: rest).getLast? with
      | some last => lastRows m last e
      | none => []

def blamedLines (e : SyntaxError) : List Line :=
  let lines := linesOf e.text
  let reached := fun (offset : Nat) => (lines.filter (·.start ≤ offset)).length
  (lines.take (reached e.stop)).drop (reached e.start - 1)

end Diagnostic

namespace SyntaxError

def report (e : SyntaxError) : String :=
  let lines := Diagnostic.blamedLines e
  let digits := fun (line : Diagnostic.Line) => (toString line.number).length
  let margin : Diagnostic.Margin := ⟨(lines.map digits).foldl max 0⟩
  let border := if lines.length ≤ 1 then "│" else "│  "
  let note := match e.cause.note? with
    | some note => [margin.bare border, margin.bare ("= " ++ note)]
    | none => []
  let place := "input:" ++ toString e.position.line ++ ":" ++ toString e.position.column
  let rows := ["error: syntax error", margin.bare ("┌─ " ++ place), margin.bare border] ++
    Diagnostic.excerpt margin e lines ++ note ++ [""]
  String.join (rows.map (· ++ "\n"))

end SyntaxError

end CompactSchema
