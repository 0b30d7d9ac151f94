import CompactSchema.Definition.Parser
import CompactSchema.Pattern.Reader
import CompactSchema.Pattern.Route

set_option autoImplicit false

/-!
# Pattern literals

A pattern literal writes its delimiter `/` as `\/`; every such pair stands for a single slash.
A literal whose pattern is refused matches nothing.
-/

namespace CompactSchema

def unescapeSlash : List Char → List Char
  | '\\' :: '/' :: cs => '/' :: unescapeSlash cs
  | c :: cs => c :: unescapeSlash cs
  | [] => []

namespace PatternLiteral

def compile? (p : PatternLiteral) : Option Pattern.Node :=
  Pattern.Node.ofChars? p.flags.ignoreCase p.flags.multiline (unescapeSlash p.body.toList)

def compiles (p : PatternLiteral) : Bool := p.compile?.isSome

def matchesNode (node : Option Pattern.Node) (s : String) : Bool :=
  node.any (·.matchesIn s.toList)

def isMatch (p : PatternLiteral) (s : String) : Bool := matchesNode p.compile? s

end PatternLiteral

namespace Definition

def ofText (text : String) : Except SyntaxError Definition :=
  ofTextWith PatternLiteral.compiles text

end Definition

end CompactSchema
