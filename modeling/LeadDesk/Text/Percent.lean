import LeadDesk.Text.Digit
/-!
# Percent signs in addresses

An address writes a byte as a percent sign with two hexadecimal digits. `Text.percentDecoded`
puts the characters back; a percent sign without two digits stands for itself.
-/

namespace LeadDesk

namespace Text

/-- The value of a hexadecimal digit. -/
def hexValue? (c : Char) : Option Nat :=
  if '0' ≤ c && c ≤ '9' then some (c.toNat - '0'.toNat)
  else if 'a' ≤ c && c ≤ 'f' then some (c.toNat - 'a'.toNat + 10)
  else if 'A' ≤ c && c ≤ 'F' then some (c.toNat - 'A'.toNat + 10)
  else none

/-- The bytes of one character. -/
def bytesOf (c : Char) : List UInt8 := (String.singleton c).toUTF8.toList

/-- The bytes that the characters of an address stand for. -/
def addressBytes : List Char → List UInt8
  | [] => []
  | '%' :: a :: b :: rest =>
    match hexValue? a, hexValue? b with
    | some m, some n => UInt8.ofNat (16 * m + n) :: addressBytes rest
    | _, _ => bytesOf '%' ++ addressBytes (a :: b :: rest)
  | c :: rest => bytesOf c ++ addressBytes rest

/-- The text that an address stands for. Bytes that are no text are left as they are written. -/
def percentDecoded (cs : List Char) : String :=
  (String.fromUTF8? ⟨(addressBytes cs).toArray⟩).getD (String.ofList cs)

end Text

end LeadDesk
