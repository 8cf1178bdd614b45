import IdentityService.Base

/-!
# Python's `datetime`

A wall-clock time, to the microsecond, with or without a zone. The rest of
the development counts instants on one line; here are the values as a caller
may really hand them over, naive ones and other zones included.
-/

namespace IdentityService

/-- `tzinfo`: an object, and the offset it gives a wall time (with `fold`). -/
structure TzInfo where
  ident : Nat
  utcoffset : Int → Bool → Option Int

/-- `datetime.max`, exclusive: microseconds from the start of year 1 to the
end of year 9999. -/
def datetimeLimit : Int := 3652059 * 86400 * 1000000

/-- A `datetime`, with its wall time in microseconds since the start of year 1. -/
structure Datetime where
  wall : Int
  fold : Bool
  tzinfo : Option TzInfo
  inRange : 0 ≤ wall ∧ wall < datetimeLimit

namespace Datetime

/-- `utcoffset()`. -/
def utcoffset (d : Datetime) : Option Int := d.tzinfo.bind fun z => z.utcoffset d.wall d.fold

/-- What an order comparison compares: the wall times within one zone, the
instants across zones. A naive value does not compare with an aware one. -/
def operands (a b : Datetime) : Except Exn (Int × Int) :=
  if a.tzinfo.map TzInfo.ident = b.tzinfo.map TzInfo.ident then .ok (a.wall, b.wall)
  else
    match a.utcoffset, b.utcoffset with
    | some x, some y => .ok (a.wall - x, b.wall - y)
    | none, none => .ok (a.wall, b.wall)
    | _, _ => .error .typeError

/-- `a < b`. -/
def lt (a b : Datetime) : Except Exn Bool := (a.operands b).map fun p => p.1 < p.2

/-- `a <= b`. -/
def le (a b : Datetime) : Except Exn Bool := (a.operands b).map fun p => p.1 ≤ p.2

/-- A wall time of a zone, `OverflowError` outside the calendar. -/
def ofWall (wall : Int) (tzinfo : Option TzInfo) : Except Exn Datetime :=
  if h : 0 ≤ wall ∧ wall < datetimeLimit then .ok ⟨wall, false, tzinfo, h⟩
  else .error .overflowError

/-- `d + timedelta(microseconds=delta)`. -/
def add (d : Datetime) (delta : Int) : Except Exn Datetime := ofWall (d.wall + delta) d.tzinfo

/-- `require_aware`. -/
def requireAware (d : Datetime) : Except Exn Unit :=
  if d.utcoffset.isNone then .error .invalidTimestamp else .ok ()

/-- `datetime.timezone.utc`. -/
def utc : TzInfo := ⟨0, fun _ _ => some 0⟩

/-- `astimezone(UTC)` of an aware value. -/
def astimezone (d : Datetime) (offset : Int) : Except Exn Datetime :=
  ofWall (d.wall - offset) (some utc)

/-- The start of 1970. -/
def epoch : Int := 719162 * 86400 * 1000000

/-- Microseconds since the epoch, of an aware value. -/
def instant (d : Datetime) : Option Int := d.utcoffset.map fun offset => d.wall - offset - epoch

/-- `timegm(d.utctimetuple())`: whole seconds since the epoch. -/
def timegm (d : Datetime) : Int := (d.wall - d.utcoffset.getD 0 - epoch) / 1000000

/-- The UTC time of a number of seconds since the epoch. -/
def ofSeconds (seconds : Int) : Except Exn Datetime :=
  ofWall (epoch + seconds * 1000000) (some utc)

end Datetime

end IdentityService
