-- The clock: whole seconds since the epoch, in 64 signed bits.
import AdmissionGate.Text.Decimal

namespace AdmissionGate

/-- A moment in whole seconds since the epoch. -/
abbrev Moment := Int

namespace Moment

def secondOfMinute (t : Moment) : Nat := (t % 60).toNat

/-- The two-minute part of the hour that a moment falls in, 0 to 29. -/
def partOfHour (t : Moment) : Nat := (t % 3600 / 60 / 2).toNat

/-- How many seconds `t` lies before `now`, as far as 64 signed bits can tell. -/
def age (now t : Moment) : Int := Decimal.clampI64 (now - t)

end Moment

end AdmissionGate
