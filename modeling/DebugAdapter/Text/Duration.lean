/-!
# Spans of time

A span of milliseconds as text: whole milliseconds below a second, above it seconds with as many
decimal places as are needed.
-/

namespace DebugAdapter.Text

/-- Three decimal places without zeros at the end, after a point; nothing for zero. -/
def fractionText (thousandths : Nat) : String :=
  let digits := [thousandths / 100 % 10, thousandths / 10 % 10, thousandths % 10]
  let kept := (digits.reverse.dropWhile (· == 0)).reverse
  if kept.isEmpty then "" else "." ++ String.join (kept.map toString)

/-- A span of milliseconds. -/
def durationText (milliseconds : Nat) : String :=
  if milliseconds = 0 then "0ns"
  else if milliseconds < 1000 then toString milliseconds ++ "ms"
  else toString (milliseconds / 1000) ++ fractionText (milliseconds % 1000) ++ "s"

end DebugAdapter.Text
