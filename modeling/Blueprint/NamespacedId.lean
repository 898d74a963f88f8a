import Blueprint.Text.Blank

/-!
# Namespaced identifiers

Names and pools of connectors are `namespace:path`. A name without a colon belongs to the
default namespace.
-/

namespace Blueprint.NamespacedId

/-- The namespace of an identifier that names none. -/
def defaultNamespace : String := "minecraft"

/-- A character of a namespace. -/
def isSpaceChar (c : Char) : Bool :=
  ('a' ≤ c && c ≤ 'z') || ('0' ≤ c && c ≤ '9') || c == '_' || c == '.' || c == '-'

/-- A character of a path. -/
def isPathChar (c : Char) : Bool := isSpaceChar c || c == '/'

/-- One namespace character or more, a colon, one path character or more. -/
def isWellFormed (cs : List Char) : Bool :=
  match cs.dropWhile isSpaceChar with
  | ':' :: path => !(cs.takeWhile isSpaceChar).isEmpty && !path.isEmpty && path.all isPathChar
  | _ => false

/-- The full identifier that a text stands for: blanks around it are dropped and a missing
namespace is filled in. Nothing if that is no identifier. -/
def complete? (text : String) : Option String :=
  let id := Text.trim text.toList
  let full := if id.contains ':' then id else defaultNamespace.toList ++ ':' :: id
  if isWellFormed full then some (String.ofList full) else none

end Blueprint.NamespacedId
