/-
# PolicyClient.Remote.Timeout -- how long a call may take, as the peer is told

A call carries its timeout as a number of at most eight digits and a unit.  The finest
unit that can hold it is taken, and what is left over is cut off, so the peer may be told
less than the timeout, and the call then fails before the timeout has passed.
-/
import PolicyClient.Duration

namespace PolicyClient

set_option autoImplicit false

namespace Remote

/-- The units of timeouts. -/
inductive TimeoutUnit
  | nanosecond | microsecond | millisecond | second | minute | hour
deriving DecidableEq, Repr

namespace TimeoutUnit

/-- All units, finest first. -/
def all : List TimeoutUnit := [nanosecond, microsecond, millisecond, second, minute, hour]

def nanos : TimeoutUnit → Nat
  | nanosecond => 1
  | microsecond => 1000
  | millisecond => Duration.nanosPerMillisecond
  | second => Duration.nanosPerSecond
  | minute => 60 * Duration.nanosPerSecond
  | hour => 3600 * Duration.nanosPerSecond

def letter : TimeoutUnit → Char
  | nanosecond => 'n'
  | microsecond => 'u'
  | millisecond => 'm'
  | second => 'S'
  | minute => 'M'
  | hour => 'H'

end TimeoutUnit

/-- A timeout as the peer is told. -/
structure ToldTimeout where
  count : Nat
  unit : TimeoutUnit
deriving DecidableEq, Repr

namespace ToldTimeout

def duration (t : ToldTimeout) : Duration := ⟨t.count * t.unit.nanos⟩

def text (t : ToldTimeout) : String := (toString t.count).push t.unit.letter

end ToldTimeout

/-- The largest number of eight digits. -/
def maxTimeoutCount : Nat := 99999999

/-- What the peer is told of a timeout, if hours can hold it. -/
def toldTimeout? (timeout : Duration) : Option ToldTimeout :=
  (TimeoutUnit.all.find? fun unit => timeout.nanos / unit.nanos ≤ maxTimeoutCount).map fun unit =>
    ⟨timeout.nanos / unit.nanos, unit⟩

end Remote

end PolicyClient
