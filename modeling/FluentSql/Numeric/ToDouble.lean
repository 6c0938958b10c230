import FluentSql.Number.Integer
import FluentSql.Numeric.Basic

namespace FluentSql.Numeric

/-- The nearest whole double; a half goes away from zero. -/
def roundMagnitude (r : Double) : Double :=
  let (n, d) := r.magnitude
  Double.ofRatio false ((2 * n + d) / (2 * d)) 1

/-- The double for a number. A whole number without a scale is rounded once; otherwise the whole
part and the quotient of the rest are added, and the sum is rounded to the scale. -/
def toDouble (a : Numeric) : Double :=
  let magnitude :=
    if a.scale = 0 then Double.ofRatio false a.mantissa 1
    else
      let unit := Nat.pow 10 a.scale
      let whole := Double.ofRatio false (a.mantissa / unit) 1
      let step := Double.ofRatio false unit 1
      let fraction := Double.divMagnitude (Double.ofRatio false (a.mantissa % unit) 1) step
      if fraction.magnitude.1 = 0 then whole
      else
        Double.divMagnitude
          (roundMagnitude (Double.mulMagnitude (Double.addMagnitude whole fraction) step)) step
  if a.negative && (a.scale != 0 || a.mantissa != 0) then magnitude.negate else magnitude

/-- The whole number, if there are no digits after the point and it has 64 bits. -/
def toInt? (a : Numeric) : Option Int :=
  let i : Int := if a.negative then -(a.mantissa : Int) else a.mantissa
  if a.scale = 0 ∧ Integer.fits64 i then some i else none

end FluentSql.Numeric
