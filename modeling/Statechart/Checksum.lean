/-!
# Checksums of definitions

A checksum is the CRC-32C of the bytes of a text: the remainder of division by
the Castagnoli polynomial, bits taken in reversed order, written as eight
lower-case hexadecimal digits.
-/

namespace Statechart

namespace Checksum

/-- The Castagnoli polynomial, its bits reversed. -/
def polynomial : UInt32 :=
  0x82f63b78

def shift (remainder : UInt32) : UInt32 :=
  if remainder &&& 1 == 1 then (remainder >>> 1) ^^^ polynomial else remainder >>> 1

def addByte (remainder : UInt32) (byte : UInt8) : UInt32 :=
  (List.range 8).foldl (fun current _ => shift current) (remainder ^^^ byte.toUInt32)

def ofBytes (bytes : ByteArray) : UInt32 :=
  (bytes.foldl addByte 0xffffffff) ^^^ 0xffffffff

def hexText (word : UInt32) : String :=
  let digits := Nat.toDigits 16 word.toNat
  String.ofList (List.replicate (8 - digits.length) '0' ++ digits)

def ofText (text : String) : String :=
  hexText (ofBytes text.toUTF8)

end Checksum

end Statechart
