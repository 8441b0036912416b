/-!
# The unit range

Fractions are kept between 0 and 1.
-/

namespace BuildPool.Number

/-- Moves a number into the range from 0 to 1. What is no number stays, and so does minus zero. -/
def clampUnit (f : Float) : Float :=
  let f := if f < 0.0 then 0.0 else f
  if 1.0 < f then 1.0 else f

end BuildPool.Number
