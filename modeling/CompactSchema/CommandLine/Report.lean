import CompactSchema.CommandLine.Arguments
import CompactSchema.Json.Reader
import CompactSchema.Store

set_option autoImplicit false

/-!
# Commands

What a command answers: notices for what went well, complaints for what did not, and an exit code.
All documents are read before the first one is judged; then each is judged on its own.
-/

namespace CompactSchema.CommandLine

inductive Message
  | notice (text : String)
  | complaint (text : String)
deriving Repr, DecidableEq

namespace Message

def isNotice : Message → Bool
  | notice _ => true
  | complaint _ => false

def output : Message → String
  | notice text => text ++ "\n"
  | complaint _ => ""

def errors : Message → String
  | notice _ => ""
  | complaint text => text ++ "\n"

end Message

structure Report where
  messages : List Message
  code : Nat
deriving Repr, DecidableEq

namespace Report

def ofMessages (messages : List Message) : Report :=
  ⟨messages, if messages.all Message.isNotice then 0 else 1⟩

def output (r : Report) : String := String.join (r.messages.map Message.output)

/-- The lines of the complaints; those of the program's log, which go the same way, are left out. -/
def errors (r : Report) : String := String.join (r.messages.map Message.errors)

end Report

def fatal (fault : Files.Fault) : Message := .complaint ("Error: " ++ fault.details)

section Running

variable {m : Type → Type} [Monad m] [Files.Access m]

def compile (file : String) : m Report := do
  match ← Files.Access.read file with
  | .error fault => pure (.ofMessages [fatal fault])
  | .ok text =>
    match Definition.ofText text with
    | .error fault =>
      pure (.ofMessages
        [.complaint (Text.quoted file ++ " is not valid notation\n\n" ++ fault.report)])
    | .ok d => pure (.ofMessages [.notice d.text])

structure Document where
  name : String
  text : String
deriving Repr, DecidableEq

def readFiles : List String → m (Except Files.Fault (List Document))
  | [] => pure (.ok [])
  | path :: paths => do
    match ← Files.Access.read path with
    | .error fault => pure (.error fault)
    | .ok text =>
      match ← readFiles paths with
      | .error fault => pure (.error fault)
      | .ok documents => pure (.ok (⟨Text.quoted path, text⟩ :: documents))

/-- The documents in their order; `input` reads the standard input. -/
def readDocuments (input : m (Except Files.Fault String)) :
    Documents → m (Except Files.Fault (List Document))
  | .standardInput => do pure ((← input).map fun text => [⟨"stdin", text⟩])
  | .files paths => readFiles paths

def accepted (name : String) : Message := .notice ("Validation of " ++ name ++ " is successful")

def refused (name reason : String) : Message :=
  .complaint ("Validation of " ++ name ++ " failed: " ++ reason)

/-- What ends a command when the notation file that was resolved cannot be resolved again. -/
def lost (kind path details : String) : Message :=
  .complaint ("Error: " ++ kind ++ " \x7b path: " ++ Text.quoted path ++ ", source: " ++ details ++
    " \x7d")

/-- The message on a document, or the one that ends the command instead of it. -/
def judge (s : Store) (schema : String) (document : Document) :
    m (Except Message Message × Store) := do
  match Json.ofText document.text with
  | .error reason => pure (.ok (refused document.name ("error parsing JSON: " ++ reason)), s)
  | .ok value =>
    match ← s.check schema value with
    | (.ok (), s) => pure (.ok (accepted document.name), s)
    | (.error (.rejected rejection), s) =>
      pure (.ok (refused document.name rejection.message), s)
    | (.error (.inaccessible path fault), s) => pure (.error (lost "Io" path fault.details), s)
    | (.error (.unreadable path fault), s) => pure (.error (lost "Syntax" path fault.details), s)

def judgeAll (s : Store) (schema : String) : List Document → m (List Message)
  | [] => pure []
  | document :: documents => do
    match ← judge s schema document with
    | (.ok message, s) => return message :: (← judgeAll s schema documents)
    | (.error complaint, _) => pure [complaint]

def validate (s : Store) (schema : String) (input : m (Except Files.Fault String))
    (documents : Documents) : m Report := do
  match ← s.resolve schema with
  | (.error fault, _) => pure (.ofMessages [.complaint fault.message])
  | (.ok _, s) =>
    match ← readDocuments input documents with
    | .error fault => pure (.ofMessages [fatal fault])
    | .ok documents => return .ofMessages (← judgeAll s schema documents)

def Command.report (input : m (Except Files.Fault String)) : Command → m Report
  | .compile file => CommandLine.compile file
  | .validate schema directory trim documents =>
    CommandLine.validate (.new directory { trim }) schema input documents

def usage : String := "pm1 [-v] <COMMAND>

Commands:
  compile <FILE>                     Print a notation file in its canonical form
  validate --schema <FILE> <JSON>... Validate JSON documents against a notation file

Options of validate:
  -s, --schema <FILE>    Notation file
  --cache-dir <DIR>      Directory for compiled definitions
  --trim-strings         Trim white space at both ends before lengths are checked
  --stdin                Read a single JSON document from the standard input

Options:
  -v, --verbose  Log more
  -h, --help     Print this text
  -V, --version  Print the version"

def report (input : m (Except Files.Fault String)) (arguments : List String) : m Report :=
  match Request.ofArguments arguments with
  | .error fault => pure ⟨[.complaint ("error: " ++ fault.message ++ "\n\n" ++ usage)], 2⟩
  | .ok .help => pure (.ofMessages [.notice usage])
  | .ok .version => pure (.ofMessages [.notice "pm1 0.1.0"])
  | .ok (.run command) => command.report input

end Running

end CompactSchema.CommandLine
