import FluentSql.Text.Basic

namespace FluentSql.Utf8

def encodeChar (c : Char) : List UInt8 :=
  let n := c.toNat
  if n < 0x80 then [UInt8.ofNat n]
  else if n < 0x800 then [UInt8.ofNat (0xC0 + n / 64), UInt8.ofNat (0x80 + n % 64)]
  else if n < 0x10000 then
    [UInt8.ofNat (0xE0 + n / 4096), UInt8.ofNat (0x80 + n / 64 % 64), UInt8.ofNat (0x80 + n % 64)]
  else
    [UInt8.ofNat (0xF0 + n / 262144), UInt8.ofNat (0x80 + n / 4096 % 64),
      UInt8.ofNat (0x80 + n / 64 % 64), UInt8.ofNat (0x80 + n % 64)]

def encode (t : Text) : List UInt8 := t.flatMap encodeChar

/-- A sequence that has begun: the bits read so far, how many bytes are still due, and the bounds of
the next one. -/
structure Pending where
  code : Nat
  due : Nat
  least : Nat
  most : Nat

/-- What the first byte of a sequence announces; `none` if none begins with it. -/
def begin? (n : Nat) : Option Pending :=
  if n < 0x80 then some ⟨n, 0, 0, 0⟩
  else if n < 0xC2 then none
  else if n < 0xE0 then some ⟨n - 0xC0, 1, 0x80, 0xBF⟩
  else if n = 0xE0 then some ⟨0, 2, 0xA0, 0xBF⟩
  else if n = 0xED then some ⟨0xD, 2, 0x80, 0x9F⟩
  else if n < 0xF0 then some ⟨n - 0xE0, 2, 0x80, 0xBF⟩
  else if n = 0xF0 then some ⟨0, 3, 0x90, 0xBF⟩
  else if n < 0xF4 then some ⟨n - 0xF0, 3, 0x80, 0xBF⟩
  else if n = 0xF4 then some ⟨4, 3, 0x80, 0x8F⟩
  else none

mutual

/-- The characters of a byte string, with `none` for each longest broken stretch. -/
def units : List UInt8 → List (Option Char)
  | [] => []
  | b :: bs =>
    match begin? b.toNat with
    | none => none :: units bs
    | some p => if p.due = 0 then some (Char.ofNat p.code) :: units bs else unitsAfter p bs

/-- Continues a sequence. A byte out of bounds breaks it and begins a new one. -/
def unitsAfter (p : Pending) : List UInt8 → List (Option Char)
  | [] => [none]
  | b :: bs =>
    let n := b.toNat
    if p.least ≤ n && n ≤ p.most then
      let code := p.code * 64 + (n - 0x80)
      if p.due ≤ 1 then some (Char.ofNat code) :: units bs
      else unitsAfter ⟨code, p.due - 1, 0x80, 0xBF⟩ bs
    else
      match begin? n with
      | none => none :: none :: units bs
      | some q =>
        if q.due = 0 then none :: some (Char.ofNat q.code) :: units bs
        else none :: unitsAfter q bs

end

/-- Fails on the first broken sequence. -/
def decode? (bytes : List UInt8) : Option Text := (units bytes).mapM id

/-- Every longest broken stretch becomes one replacement character. -/
def decodeLossy (bytes : List UInt8) : Text :=
  (units bytes).map fun u => u.getD (Char.ofNat 0xFFFD)

end FluentSql.Utf8
