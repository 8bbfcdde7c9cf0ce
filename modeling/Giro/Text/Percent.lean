import Giro.Text.Digits

/-
  Giro.Text.Percent — percent encoding: a byte is written as `%` and two hexadecimal
  digits, and a `%` without two digits after it stands for itself.
-/

namespace Giro.Text

/-- The bytes that bytes with percent encoding stand for. -/
def percentDecode : List UInt8 → List UInt8
  | [] => []
  | 0x25 :: a :: b :: rest =>
    match digit? 16 (Char.ofUInt8 a), digit? 16 (Char.ofUInt8 b) with
    | some m, some n => UInt8.ofNat (m * 16 + n) :: percentDecode rest
    | _, _ => 0x25 :: percentDecode (a :: b :: rest)
  | b :: rest => b :: percentDecode rest

def utf8 (cs : List Char) : List UInt8 := (String.ofList cs).toUTF8.toList

/-- The text that a percent-encoded text stands for, unless its bytes are no UTF-8. -/
def percentDecode? (cs : List Char) : Option (List Char) :=
  (String.fromUTF8? (percentDecode (utf8 cs)).toByteArray).map String.toList

/-- The text that a percent-encoded text stands for; if its bytes are no UTF-8, those
    outside ASCII are replaced. -/
def percentDecodeLossy (cs : List Char) : List Char :=
  match percentDecode? cs with
  | some cs => cs
  | none => (percentDecode (utf8 cs)).map fun b => if b < 0x80 then Char.ofUInt8 b else '\uFFFD'

end Giro.Text
