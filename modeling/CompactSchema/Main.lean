import CompactSchema.CommandLine.Report

set_option autoImplicit false

/-!
# The program

Files and standard streams of the system, and the exit code.
-/

namespace CompactSchema

namespace Files.Fault

def ofSystem (e : IO.Error) : Fault :=
  match e with
  | .noFileOrDirectory _ _ _ => .notFound
  | .alreadyExists _ _ _ => .alreadyExists
  | .inappropriateType _ number _ =>
    if number = 21 || number = 0 - 21 then .isADirectory else .notADirectory
  | .permissionDenied _ number details => .other number.toNat details
  | e => .other 0 (toString e)

end Files.Fault

namespace Files

def attempt {α : Type} (action : IO α) : IO (Except Fault α) :=
  try return .ok (← action)
  catch e => return .error (.ofSystem e)

def textOf (bytes : ByteArray) : Except Fault String :=
  match String.fromUTF8? bytes with
  | some text => .ok text
  | none => .error .notText

instance : Access IO where
  canonical path := attempt do return (← IO.FS.realPath path).toString
  modified path := attempt do
    let time := (← (← IO.FS.realPath path).metadata).modified
    return time.sec * 1000000000 + time.nsec.toNat
  read path := do return (← attempt (IO.FS.readBinFile path)).bind textOf
  makeDirs path := attempt (IO.FS.createDirAll path)
  write path text := attempt (IO.FS.writeFile path text)

end Files

def standardInput : IO (Except Files.Fault String) := do
  return (← Files.attempt do (← IO.getStdin).readBinToEnd).bind Files.textOf

end CompactSchema

def main (arguments : List String) : IO UInt32 := do
  let report ← CompactSchema.CommandLine.report CompactSchema.standardInput arguments
  for message in report.messages do
    IO.print message.output
    IO.eprint message.errors
  return report.code.toUInt32
