/-!
# Instants

Points in time are whole microseconds since the epoch.  Durations in seconds are first cut to whole milliseconds.

A clock may be finer; its readings are cut then, and a difference that falls short of a bound by less than a microsecond
may be taken to reach it.  Nothing else depends on the unit: all that is ever asked of two readings is their order,
whether they are so many whole seconds apart, and how many whole milliseconds.
-/

namespace SpeechDispatch

/-- Microseconds since the epoch, negative before it. -/
abbrev Instant := Int

namespace Instant

/-- The first and the last whole second of the calendar. -/
def firstSecond : Int := -8334601228800

def lastSecond : Int := 8210266876799

/-- The last instant of the calendar. -/
def last : Instant := lastSecond * 1000000 + 999999

/-- The instant of so many seconds since the epoch, if the calendar has it. -/
def ofSeconds? (seconds : Int) : Option Instant :=
  if firstSecond ≤ seconds ∧ seconds ≤ lastSecond then some (seconds * 1000000) else none

/-- The time from `start` to `stop` in milliseconds, cut toward zero. -/
def millis (start stop : Instant) : Int := (stop - start).tdiv 1000

/-- So many seconds as a span of microseconds. -/
def seconds (n : Int) : Int := n * 1000000

/-- The greatest number of seconds of which 64 bits hold the milliseconds. -/
def mostSeconds : Int := 9223372036854775

/-- Whether there is a span of so many seconds. -/
def isSpan (n : Int) : Bool := -mostSeconds ≤ n && n ≤ mostSeconds

/-- The span of so many seconds.  Without one, whatever asked for it is broken off. -/
def span? (n : Int) : Option Int := if isSpan n then some (seconds n) else none

/-- The instant so many milliseconds later, or the same instant where the calendar ends before. -/
def plusMillis (t : Instant) (n : Int) : Instant :=
  let later := t + n * 1000
  if last < later then t else later

end Instant

/-- The written form of a span of milliseconds: `10s`, `1.5s`, `50ms`. -/
def spanText (millis : Nat) : String :=
  let fraction (n : Nat) : String :=
    let digits := (toString (1000 + n)).toList.drop 1
    let kept := (digits.reverse.dropWhile (· == '0')).reverse
    if kept.isEmpty then "" else "." ++ String.ofList kept
  if millis = 0 then "0ns"
  else if millis < 1000 then toString millis ++ "ms"
  else toString (millis / 1000) ++ fraction (millis % 1000) ++ "s"

end SpeechDispatch
