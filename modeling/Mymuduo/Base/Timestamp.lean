import Mathlib

/-!
# `base/Timestamp`

A `Timestamp` is its `microSecondsSinceEpoch_`, and arithmetic on it wraps around at 64 bits.
-/

namespace Mymuduo

/-- `Timestamp`, in microseconds since the epoch. -/
abbrev Timestamp := Int

namespace Timestamp

def kMicroSecondsPerSecond : Int := 1000 * 1000

/-- What `int64_t` makes of a result. -/
def int64 (z : Int) : Int := Int.bmod z (2 ^ 64)

def invalid : Timestamp := 0

def valid (t : Timestamp) : Bool := 0 < t

/-- `addTime`, from the microseconds that its cast makes of the seconds. -/
def addTime (t : Timestamp) (delta : Int) : Timestamp := int64 (t + delta)

end Timestamp

end Mymuduo
