import CompactSchema.Files.Fault

set_option autoImplicit false

/-!
# Access to files

What is asked of a file system by those who keep definitions in files. A path is a text, relative
to the working directory unless it begins with a slash.
-/

namespace CompactSchema.Files

/-- Nanoseconds since the beginning of 1970. -/
abbrev Instant := Int

class Access (m : Type → Type) where
  /-- The absolute path of what stands at a path, without links. -/
  canonical : String → m (Except Fault String)
  modified : String → m (Except Fault Instant)
  read : String → m (Except Fault String)
  makeDirs : String → m (Except Fault Unit)
  write : String → String → m (Except Fault Unit)

def join (directory name : String) : String :=
  if directory.toList.getLast? = some '/' then directory ++ name else directory ++ "/" ++ name

end CompactSchema.Files
