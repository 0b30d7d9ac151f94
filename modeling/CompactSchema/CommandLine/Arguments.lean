set_option autoImplicit false

/-!
# Arguments

What the arguments of the command line ask for. An argument is an option, a group of one-letter
options, or plain; behind `--` all are plain. An option with a value takes what is attached to
it, or else the next argument if that is plain. What was read last is checked only when something
other than a request for help follows it.
-/

namespace CompactSchema.CommandLine

inductive Documents
  | standardInput
  | files (paths : List String)
deriving Repr, DecidableEq

inductive Command
  | compile (file : String)
  | validate (schema : String) (directory : Option String) (trim : Bool) (documents : Documents)
deriving Repr, DecidableEq

inductive Request
  | help
  | version
  | run (command : Command)
deriving Repr, DecidableEq

inductive UsageError
  | noCommand
  | unknown (argument : String)
  | noValue (argument : String)
  | needlessValue (argument : String)
  | repeated (option : String)
  | missing (name : String)
  | conflict
deriving Repr, DecidableEq

def UsageError.message : UsageError → String
  | noCommand => "a command is required"
  | unknown argument => "unexpected argument '" ++ argument ++ "'"
  | noValue argument => "'" ++ argument ++ "' requires a value"
  | needlessValue argument => "'" ++ argument ++ "' takes no value"
  | repeated option => "'" ++ option ++ "' cannot be used more than once"
  | missing name => "the argument " ++ name ++ " is required"
  | conflict => "'--stdin' cannot be used together with documents"

inductive Switch
  | verbose
  | help
  | version
  | schema
  | cacheDirectory
  | trimStrings
  | standardInput
deriving Repr, DecidableEq

namespace Switch

def word : Switch → String
  | verbose => "verbose"
  | help => "help"
  | version => "version"
  | schema => "schema"
  | cacheDirectory => "cache-dir"
  | trimStrings => "trim-strings"
  | standardInput => "stdin"

def letter? : Switch → Option Char
  | verbose => some 'v'
  | help => some 'h'
  | version => some 'V'
  | schema => some 's'
  | _ => none

def takesValue : Switch → Bool
  | schema | cacheDirectory => true
  | _ => false

def leading : List Switch := [verbose, help, version]

def ofCompile : List Switch := [verbose, help]

def ofValidate : List Switch := [verbose, help, schema, cacheDirectory, trimStrings, standardInput]

end Switch

inductive Token
  | divider
  | long (word : String) (value : Option String)
  | letters (cs : List Char)
  | plain (text : String)
deriving Repr, DecidableEq

def Token.ofText (text : String) : Token :=
  match text.toList with
  | ['-', '-'] => .divider
  | '-' :: '-' :: cs =>
    let word := cs.takeWhile (· ≠ '=')
    let value :=
      match cs.dropWhile (· ≠ '=') with
      | [] => none
      | _ :: value => some (.ofList value)
    .long (.ofList word) value
  | '-' :: c :: cs => .letters (c :: cs)
  | _ => .plain text

/-- What was read from the arguments. An option that needs a value may lack it. -/
inductive Item
  | switch (s : Switch)
  | option (s : Switch) (value? : Option String)
  | plain (text : String)
deriving Repr, DecidableEq

def Item.nonempty : Item → Except UsageError Item
  | .option s (some text) =>
    if text.isEmpty then .error (.noValue ("--" ++ s.word)) else .ok (.option s (some text))
  | .plain text => if text.isEmpty then .error (.noValue "") else .ok (.plain text)
  | item => .ok item

inductive Pending
  | nothing
  | option (s : Switch) (value? : Option String)
  /-- Plain arguments, last one first. -/
  | plains (texts : List String)
deriving Repr, DecidableEq

def Pending.items : Pending → Except UsageError (List Item)
  | nothing => .ok []
  | option s value? => do .ok [← (Item.option s value?).nonempty]
  | plains texts => texts.reverse.mapM fun text => (Item.plain text).nonempty

structure Progress where
  items : List Item
  next : Request ⊕ Pending

def Progress.after (before : List Item) (p : Progress) : Progress :=
  { p with items := before ++ p.items }

def Progress.ofSwitch (pending : Pending) (s : Switch) (value? : Option String) :
    Except UsageError Progress := do
  match s, value? with
  | .help, none => .ok ⟨[], .inl .help⟩
  | .version, none => .ok ⟨[], .inl .version⟩
  | s, value? =>
    if s.takesValue then
      let before ← pending.items
      match value? with
      | none => .ok ⟨before, .inr (.option s none)⟩
      | some _ => .ok ⟨before ++ [← (Item.option s value?).nonempty], .inr .nothing⟩
    else if value?.isSome then .error (.needlessValue ("--" ++ s.word))
    else .ok ⟨(← pending.items) ++ [.switch s], .inr .nothing⟩

/-- A group of one-letter options. The rest of the group behind one that needs a value is that
    value, less an equals sign in front. -/
def Progress.ofLetters (known : List Switch) : Pending → List Char → Except UsageError Progress
  | pending, [] => .ok ⟨[], .inr pending⟩
  | pending, c :: cs =>
    match known.find? (·.letter? = some c) with
    | none => .error (.unknown ("-" ++ c.toString))
    | some s =>
      if s.takesValue then
        match cs with
        | [] => ofSwitch pending s none
        | '=' :: value => ofSwitch pending s (some (.ofList value))
        | value => ofSwitch pending s (some (.ofList value))
      else do
        let here ← ofSwitch pending s none
        match here.next with
        | .inl _ => .ok here
        | .inr pending => .ok ((← ofLetters known pending cs).after here.items)

def Progress.ofLong (known : List Switch) (pending : Pending) (word : String)
    (value? : Option String) : Except UsageError Progress :=
  match known.find? (·.word = word) with
  | none => .error (.unknown ("--" ++ word))
  | some s => ofSwitch pending s value?

structure Shape where
  known : List Switch
  most : Option Nat

/-- The items of the arguments of a command, or the request that they end with, after `count` plain
    arguments. -/
def itemsOf (shape : Shape) : Nat → Pending → List String →
    Except UsageError (List Item × Option Request)
  | _, pending, [] => do .ok (← pending.items, none)
  | count, pending, argument :: rest => do
    match Token.ofText argument, pending with
    | .plain text, .option s none => itemsOf shape count (.option s (some text)) rest
    | .plain text, pending =>
      if shape.most.any (· ≤ count) then .error (.unknown text)
      else
        match pending with
        | .plains texts => itemsOf shape (count + 1) (.plains (text :: texts)) rest
        | pending =>
          let before ← pending.items
          let (items, answer) ← itemsOf shape (count + 1) (.plains [text]) rest
          .ok (before ++ items, answer)
    | .divider, pending =>
      let before ← pending.items
      .ok (before ++ (← rest.mapM fun text => (Item.plain text).nonempty), none)
    | .letters cs, pending => continueWith count (← Progress.ofLetters shape.known pending cs) rest
    | .long word value?, pending =>
      continueWith count (← Progress.ofLong shape.known pending word value?) rest
where
  continueWith (count : Nat) (here : Progress) (rest : List String) :
      Except UsageError (List Item × Option Request) := do
    match here.next with
    | .inl answer => .ok (here.items, some answer)
    | .inr pending =>
      let (items, answer) ← itemsOf shape count pending rest
      .ok (here.items ++ items, answer)

namespace Command

def switches (items : List Item) : List Switch :=
  items.filterMap fun
    | .switch s => some s
    | _ => none

def plains (items : List Item) : List String :=
  items.filterMap fun
    | .plain text => some text
    | _ => none

/-- The value of an option, which is the one that it is given last. -/
def lastValue? (s : Switch) (items : List Item) : Except UsageError (Option String) :=
  let given := items.filterMap fun
    | .option s' value? => if s' = s then some value? else none
    | _ => none
  match given.getLast? with
  | none => .ok none
  | some (some text) => .ok (some text)
  | some none => .error (.noValue ("--" ++ s.word))

def isSet (s : Switch) (items : List Item) : Except UsageError Bool :=
  match (switches items).count s with
  | 0 => .ok false
  | 1 => .ok true
  | _ => .error (.repeated ("--" ++ s.word))

def ofCompileItems (items : List Item) : Except UsageError Command :=
  match plains items with
  | [] => .error (.missing "FILE")
  | [file] => .ok (.compile file)
  | _ :: second :: _ => .error (.unknown second)

def ofValidateItems (items : List Item) : Except UsageError Command := do
  let trim ← isSet .trimStrings items
  let standardInput ← isSet .standardInput items
  let documents ←
    match standardInput, plains items with
    | true, [] => .ok .standardInput
    | true, _ :: _ => .error .conflict
    | false, [] => .error (.missing "JSON")
    | false, files => .ok (.files files)
  let directory ← lastValue? .cacheDirectory items
  match ← lastValue? .schema items with
  | none => .error (.missing "--schema")
  | some schema => .ok (.validate schema directory trim documents)

end Command

namespace Request

def ofCommand (shape : Shape) (command : List Item → Except UsageError Command)
    (arguments : List String) : Except UsageError Request := do
  match ← itemsOf shape 0 .nothing arguments with
  | (_, some answer) => .ok answer
  | (items, none) => .ok (.run (← command items))

def ofHelp : List String → Except UsageError Request
  | [] | ["compile"] | ["validate"] | ["help"] => .ok .help
  | argument :: _ => .error (.unknown argument)

def ofArguments : List String → Except UsageError Request
  | [] => .error .noCommand
  | argument :: rest =>
    match Token.ofText argument with
    | .plain "compile" => ofCommand ⟨Switch.ofCompile, some 1⟩ Command.ofCompileItems rest
    | .plain "validate" => ofCommand ⟨Switch.ofValidate, none⟩ Command.ofValidateItems rest
    | .plain "help" => ofHelp rest
    | .plain text => .error (.unknown text)
    | .divider => .error .noCommand
    | .letters cs => do
      match (← Progress.ofLetters Switch.leading .nothing cs).next with
      | .inl answer => .ok answer
      | .inr _ => ofArguments rest
    | .long word value? => do
      match (← Progress.ofLong Switch.leading .nothing word value?).next with
      | .inl answer => .ok answer
      | .inr _ => ofArguments rest

end Request

end CompactSchema.CommandLine
