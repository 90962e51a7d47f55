import Fleet.Decimal.Nearest
import Fleet.Decimal.Shortest

/-!
# Lengths of time

Intervals, delays and limits are lengths of time in seconds, given as whole numbers or with a
fraction.  A clock adds them up as doubles; messages and the journal show them as they were given.
-/

namespace Fleet

/-- A length of time in seconds. -/
inductive Seconds where
  | whole (n : Int)
  | fractional (x : Float)
deriving Repr, Inhabited

namespace Seconds

/-- By how much a clock advances. -/
def toFloat : Seconds → Float
  | whole n => Decimal.toFloat (n < 0) n.natAbs 0
  | fractional x => x

/-- The number of seconds as messages show it. -/
def text : Seconds → String
  | whole n => toString n
  | fractional x => Decimal.floatText x

end Seconds

end Fleet
