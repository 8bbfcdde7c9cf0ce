import Giro.Json.Quoted

/-
  Giro.Json.Value — data in JSON, and its compact text.
-/

namespace Giro.Json

inductive Value where
  | null
  | bool (b : Bool)
  | integer (n : Int)
  /-- The number `-0`, which only some readers take for an integer. -/
  | minusZero
  /-- A number with a fraction or an exponent, as it is written. -/
  | real (text : List Char)
  /-- A text; `none` for one with half a surrogate pair, which can only be skipped. -/
  | string (s : Option String)
  | array (items : List Value)
  /-- Names and values in the order they are written. -/
  | object (members : List (Option String × Value))

namespace Value

def text (s : String) : Value := .string (some s)

/-- An object whose names are all texts. -/
def ofMembers (members : List (String × Value)) : Value := .object (members.map fun m => (some m.1, m.2))

/-- An integer in decimal. -/
def integerChars (n : Int) : List Char :=
  if n < 0 then '-' :: Nat.toDigits 10 n.natAbs else Nat.toDigits 10 n.natAbs

/-- A text in its quotes; half a surrogate pair has no compact text of its own. -/
def stringChars : Option String → List Char
  | some s => quote s
  | none => ['"', '\\', 'u', 'd', '8', '0', '0', '"']

mutual

/-- The compact text. -/
def chars : Value → List Char
  | null => "null".toList
  | bool true => "true".toList
  | bool false => "false".toList
  | integer n => integerChars n
  | minusZero => ['-', '0']
  | real text => text
  | string s => stringChars s
  | array [] => ['[', ']']
  | array (item :: items) => '[' :: chars item ++ itemChars items
  | object [] => ['{', '}']
  | object ((name, value) :: members) => '{' :: stringChars name ++ ':' :: chars value ++ memberChars members

/-- The rest of an array. -/
def itemChars : List Value → List Char
  | [] => [']']
  | item :: items => ',' :: chars item ++ itemChars items

/-- The rest of an object. -/
def memberChars : List (Option String × Value) → List Char
  | [] => ['}']
  | (name, value) :: members => ',' :: stringChars name ++ ':' :: chars value ++ memberChars members

end

def toText (v : Value) : String := String.ofList v.chars

end Value

end Giro.Json
