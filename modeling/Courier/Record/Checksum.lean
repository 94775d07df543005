/-!
# The Record Checksum

Records carry the cyclic redundancy check CRC-32: the remainder of the bytes, read as a
polynomial over two elements, modulo a fixed polynomial of degree 32. The register holds its
bits in reverse, starts with all bits set, and is inverted at the end.

## Main definitions

* `Checksum.shift`: one step of the division.
* `Checksum.push`: the register after one more byte.
* `Checksum.ofBytes`: the checksum of some bytes.
-/

namespace Courier.Checksum

/-- The divisor with its bits reversed. -/
def divisor : UInt32 := 0xEDB88320

/-- One step of the division: the lowest bit leaves the register. -/
def shift (register : UInt32) : UInt32 :=
  if register &&& 1 = 1 then (register >>> 1) ^^^ divisor else register >>> 1

/-- So many steps of the division. -/
def shifts : Nat → UInt32 → UInt32
  | 0, register => register
  | n + 1, register => shifts n (shift register)

/-- The register after one more byte. -/
def push (register : UInt32) (b : UInt8) : UInt32 :=
  shifts 8 (register ^^^ b.toUInt32)

/-- The checksum of some bytes. -/
def ofBytes (bytes : List UInt8) : UInt32 :=
  bytes.foldl push 0xFFFFFFFF ^^^ 0xFFFFFFFF

end Courier.Checksum
