import Giro.Event
import Giro.Json.Value

/-
  Giro.Log.Line — an event as one line of a log: as text, or as an object.
-/

namespace Giro

/-- A field in a line of text. -/
def FieldValue.chars : FieldValue → List Char
  | number n => Json.Value.integerChars n
  | quoted s => '"' :: s.toList ++ ['"']
  | sentence s => s.toList

/-- A field in an object. -/
def FieldValue.toJson : FieldValue → Json.Value
  | number n => .integer n
  | quoted s => .text s
  | sentence s => .text s

namespace Event

/-- The level, the sentence and the fields in order. -/
def line (e : Event) : String :=
  let fields := e.fields.flatMap fun f => ' ' :: f.1.toList ++ '=' :: f.2.chars
  String.ofList (e.level.name.toList ++ ' ' :: e.message.toList ++ fields)

/-- The event with its sentence among the fields, and where it comes from. -/
def toJson (e : Event) : Json.Value :=
  .ofMembers [("level", .text e.level.name),
    ("fields", .ofMembers (("message", .text e.message) :: e.fields.map fun f => (f.1, f.2.toJson))),
    ("target", .text e.target)]

end Event

end Giro
