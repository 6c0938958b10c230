import FluentSql.Number.Binary

namespace FluentSql

/-- A number in double precision, by its bits. -/
structure Double where
  bits : UInt64
  deriving DecidableEq, Repr

namespace Double

def ofNatBits (n : Nat) : Double := ⟨UInt64.ofNat n⟩

def shape (r : Double) : Binary.Shape := Binary.double.shape r.bits.toNat

def nan : Double := ⟨0x7FF8000000000000⟩

/-- The number nearest to a signed quotient. -/
def ofRatio (negative : Bool) (n d : Nat) : Double :=
  ofNatBits (Binary.double.withSign negative (Binary.double.nearest n d))

def ofInt (i : Int) : Double := ofRatio (i < 0) i.natAbs 1

def isNaN (r : Double) : Bool := r.shape == .nan

/-- A NaN equals nothing, and the two zeros equal each other. -/
def equals (a b : Double) : Bool :=
  !a.isNaN && !b.isNaN && (a.bits == b.bits || (a.bits ||| b.bits) == 0x8000000000000000)

/-- The exact value of a whole number. -/
def whole? (r : Double) : Option Int :=
  match r.shape with
  | .finite negative m u =>
    let (n, d) := Binary.ratio m u
    if n % d = 0 then some (if negative then -((n / d : Nat) : Int) else (n / d : Nat)) else none
  | _ => none

/-- The bits in single precision. -/
def toSingle (r : Double) : UInt32 :=
  UInt32.ofNat (Binary.convert Binary.double Binary.single r.bits.toNat)

def ofSingle (bits : UInt32) : Double :=
  ofNatBits (Binary.convert Binary.single Binary.double bits.toNat)

/-- The magnitude as numerator and denominator; zero for what is not finite. -/
def magnitude (r : Double) : Nat × Nat :=
  match r.shape with
  | .finite _ m u => Binary.ratio m u
  | _ => (0, 1)

/-- Sum of two magnitudes, rounded once. -/
def addMagnitude (a b : Double) : Double :=
  let (n, d) := a.magnitude
  let (p, q) := b.magnitude
  ofRatio false (n * q + p * d) (d * q)

/-- Product of two magnitudes, rounded once. -/
def mulMagnitude (a b : Double) : Double :=
  let (n, d) := a.magnitude
  let (p, q) := b.magnitude
  ofRatio false (n * p) (d * q)

/-- Quotient of two magnitudes, rounded once; the divisor is not zero. -/
def divMagnitude (a b : Double) : Double :=
  let (n, d) := a.magnitude
  let (p, q) := b.magnitude
  ofRatio false (n * q) (d * p)

def negate (r : Double) : Double := ⟨r.bits ^^^ 0x8000000000000000⟩

end Double

end FluentSql
