import DockerEngine.Go.Str
import DockerEngine.Native.State

/-!
# `HumanDuration` (`future/future.go`) and `State.String` (`state.go`)

`Seconds`, `Minutes` and `Hours` are exact quotients here, and a conversion to `int` rounds
them towards zero. The last range hands a `float64` to the verb `%d`; the text of this number
is a parameter, as floating point is not modelled.
-/

namespace Docker

open Go

/-! A `time.Duration` is a number of nanoseconds. -/

namespace Duration

def second : Int := 1000000000

def minute : Int := 60 * second

def hour : Int := 60 * minute

/-- `int(d.Seconds())`. -/
def seconds (d : Int) : Int := d.tdiv second

/-- `int(d.Minutes())`. -/
def minutes (d : Int) : Int := d.tdiv minute

/-- `int(d.Hours())`. -/
def hours (d : Int) : Int := d.tdiv hour

end Duration

open Duration in
/-- `HumanDuration`; `floatText d` is the text of `d.Hours()/24/365`, which `fmt` puts after
    the type of an argument that is wrong for its verb. -/
def humanDuration (floatText : Int → GoString) (d : Int) : GoString :=
  if seconds d < 1 then str "Less than a second"
  else if seconds d < 60 then itoa (seconds d) ++ str " seconds"
  else if minutes d = 1 then str "About a minute"
  else if minutes d < 60 then itoa (minutes d) ++ str " minutes"
  else if hours d = 1 then str "About an hour"
  else if hours d < 48 then itoa (hours d) ++ str " hours"
  else if hours d < 24 * 7 * 2 then itoa ((hours d).tdiv 24) ++ str " days"
  else if hours d < 24 * 30 * 3 then itoa (((hours d).tdiv 24).tdiv 7) ++ str " weeks"
  else if hours d < 24 * 365 * 2 then itoa (((hours d).tdiv 24).tdiv 30) ++ str " months"
  else str "%!d(float64=" ++ floatText d ++ str ") years"

/-- `State.String`, when the state was set running `uptime` ago. -/
def State.string (floatText : Int → GoString) (s : State) (uptime : Int) : GoString :=
  if s.running then str "Up " ++ humanDuration floatText uptime
  else str "Exit " ++ itoa s.exitCode

end Docker
