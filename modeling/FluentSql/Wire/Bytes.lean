namespace FluentSql.Wire

abbrev Bytes := List UInt8

/-- The last `width` bytes of a number, the highest first. -/
def bigEndian : Nat → Nat → Bytes
  | 0, _ => []
  | width + 1, n => bigEndian width (n / 256) ++ [UInt8.ofNat n]

/-- The number that bytes stand for, the highest first. -/
def ofBigEndian (bytes : Bytes) : Nat := bytes.foldl (fun n b => n * 256 + b.toNat) 0

/-- Two's complement in the given count of bytes. -/
def signedBytes (width : Nat) (i : Int) : Bytes :=
  bigEndian width (i % (Nat.pow 256 width : Nat)).toNat

def ofSignedBytes (bytes : Bytes) : Int :=
  let n := ofBigEndian bytes
  let size := Nat.pow 256 bytes.length
  if 2 * n < size then n else (n : Int) - size

/-- Exactly `width` bytes. -/
def exactly? (width : Nat) (bytes : Bytes) : Option Bytes :=
  if bytes.length = width then some bytes else none

/-- The first `width` bytes and the rest. -/
def take? (width : Nat) (bytes : Bytes) : Option (Bytes × Bytes) :=
  if width ≤ bytes.length then some (bytes.take width, bytes.drop width) else none

end FluentSql.Wire
