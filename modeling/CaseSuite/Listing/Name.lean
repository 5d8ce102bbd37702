/-!
# Names in generated code

A name of a case file becomes a binding of the generated module. Keywords of the target language are
written in their raw form; five words have no such form and are refused.
-/

namespace CaseSuite.Listing

/-- A name that generated code cannot bind. -/
structure NameError where
  name : String
  deriving DecidableEq, Repr

/-- The text of the error. -/
def NameError.message (e : NameError) : String :=
  "'" ++ e.name ++ "' cannot be used as a name in generated code"

/-- Words that can never be bound. -/
def forbidden : List String := ["_", "self", "Self", "super", "crate"]

/-- Keywords that have a raw form. -/
def keywords : List String :=
  ["as", "async", "await", "break", "const", "continue", "dyn", "else", "enum", "extern", "false",
   "fn", "for", "if", "impl", "in", "let", "loop", "match", "mod", "move", "mut", "pub", "ref",
   "return", "static", "struct", "trait", "true", "type", "unsafe", "use", "where", "while",
   "abstract", "become", "box", "do", "final", "macro", "override", "priv", "try", "typeof",
   "unsized", "virtual", "yield", "gen"]

/-- How a name is written where it is bound or read. -/
def binding (name : String) : Except NameError String :=
  if name ∈ forbidden then .error ⟨name⟩
  else if name ∈ keywords then .ok ("r#" ++ name)
  else .ok name

end CaseSuite.Listing
