/-!
# The cyclic redundancy check CRC-32

The checksum over bytes with the reflected polynomial `0xEDB88320`, starting from and finally
combined with all ones.
-/

namespace QueryCompiler

/-- Divides the register by the polynomial, one bit after another. -/
def crcBits (register : UInt32) : Nat → UInt32
  | 0 => register
  | n + 1 =>
    crcBits (if register &&& 1 = 1 then (register >>> 1) ^^^ 0xEDB88320 else register >>> 1) n

/-- Takes one more byte into the register. -/
def crcByte (register : UInt32) (byte : UInt8) : UInt32 := crcBits (register ^^^ byte.toUInt32) 8

/-- The checksum of a list of bytes. -/
def crc32 (bytes : List UInt8) : UInt32 := bytes.foldl crcByte 0xFFFFFFFF ^^^ 0xFFFFFFFF

/-- The checksum of the UTF-8 bytes of a text. -/
def checksum (text : String) : UInt32 := crc32 text.toUTF8.toList

/-- A checksum as eight lowercase hexadecimal digits. -/
def checksumText (n : UInt32) : String :=
  let digits := Nat.toDigits 16 n.toNat
  String.ofList (List.replicate (8 - digits.length) '0' ++ digits)

end QueryCompiler
