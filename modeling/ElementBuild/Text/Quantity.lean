/-
# Sizes and durations for people

Sizes are shown in bytes, or with two places in the largest binary unit that is
not above them.  Durations are shown in milliseconds, seconds, or minutes and
seconds.
-/
import ElementBuild.Number.Binary

namespace ElementBuild
namespace Text

open Number (Binary)

/-- A number of bytes in the largest unit that fits. -/
def sizeText (bytes : Nat) : String :=
  let kilo := 1024
  let mega := kilo * 1024
  let giga := mega * 1024
  let inUnit (unit : Nat) : String := ((Binary.ofNat bytes).div (Binary.ofNat unit)).fixed 2
  if giga ≤ bytes then inUnit giga ++ " GB"
  else if mega ≤ bytes then inUnit mega ++ " MB"
  else if kilo ≤ bytes then inUnit kilo ++ " KB"
  else toString bytes ++ " B"

/-- A span of time: whole seconds and the nanoseconds beyond them. -/
structure Duration where
  seconds : Nat
  nanoseconds : Nat
  deriving DecidableEq, Repr

/-- The number of seconds as a double. -/
def Duration.toBinary (d : Duration) : Binary :=
  (Binary.ofNat d.seconds).add ((Binary.ofNat d.nanoseconds).div (Binary.ofNat 1000000000))

/-- A duration in the unit that suits its length. -/
def durationText (d : Duration) : String :=
  let secs := d.toBinary
  if secs.atLeast (Binary.ofNat 60) then
    let minutes := (secs.div (Binary.ofNat 60)).floor
    let rest := secs.sub ((Binary.ofNat minutes).mul (Binary.ofNat 60))
    toString minutes ++ "m " ++ rest.fixed 2 ++ "s"
  else if secs.atLeast (Binary.ofNat 1) then secs.fixed 2 ++ "s"
  else (secs.mul (Binary.ofNat 1000)).fixed 0 ++ "ms"

end Text
end ElementBuild
