import DockerEngine.Go.Itoa
import DockerEngine.Native.HumanDuration

/-!
# The text of a duration

- `Describes`: the texts that are right for a duration
- `humanDuration_describes_iff`: the durations whose text is right, those below two years
- `string_up`: the text of a running container
-/

namespace Docker

open Go

/-- The units of a text, by the name that follows the number. -/
inductive TimeUnit where
  | seconds
  | minutes
  | hours
  | days
  | weeks
  | months
  | years
  deriving DecidableEq, Repr

namespace TimeUnit

def length : TimeUnit → Int
  | seconds => Duration.second
  | minutes => Duration.minute
  | hours => Duration.hour
  | days => 24 * Duration.hour
  | weeks => 7 * (24 * Duration.hour)
  | months => 30 * (24 * Duration.hour)
  | years => 365 * (24 * Duration.hour)

def name : TimeUnit → GoString
  | seconds => str "seconds"
  | minutes => str "minutes"
  | hours => str "hours"
  | days => str "days"
  | weeks => str "weeks"
  | months => str "months"
  | years => str "years"

end TimeUnit

/-- A number of whole units, one at least. -/
def Counts (d : Int) (text : GoString) (n : Int) (u : TimeUnit) : Prop :=
  1 ≤ n ∧ text = itoa n ++ str " " ++ u.name ∧ n * u.length ≤ d ∧ d < (n + 1) * u.length

/-- The texts that are right for a duration. -/
inductive Describes (d : Int) : GoString → Prop where
  | lessThanASecond (h : d < Duration.second) : Describes d (str "Less than a second")
  | aboutAMinute (hlo : Duration.minute ≤ d) (hhi : d < 2 * Duration.minute) :
      Describes d (str "About a minute")
  | aboutAnHour (hlo : Duration.hour ≤ d) (hhi : d < 2 * Duration.hour) :
      Describes d (str "About an hour")
  | counts {text : GoString} {n : Int} {u : TimeUnit} (h : Counts d text n u) :
      Describes d text

open Duration

theorem TimeUnit.length_pos (u : TimeUnit) : 0 < u.length := by
  cases u <;> decide

/-- The whole units of a duration. -/
theorem counts_ediv {d : Int} {u : TimeUnit} (hd : u.length ≤ d) :
    Counts d (itoa (d / u.length) ++ str " " ++ u.name) (d / u.length) u := by
  have hpos := u.length_pos
  refine ⟨?_, rfl, ?_, ?_⟩
  · rw [Int.le_ediv_iff_mul_le hpos]
    omega
  · exact Int.ediv_mul_le d (by omega)
  · exact Int.lt_ediv_add_one_mul_self d hpos

theorem describes_ediv {d : Int} (u : TimeUnit) {n : Int} {suffix : GoString}
    (hd : u.length ≤ d) (hn : n = d / u.length) (hsuffix : suffix = str " " ++ u.name) :
    Describes d (itoa n ++ suffix) := by
  rw [hn, hsuffix, ← List.append_assoc]
  exact .counts (counts_ediv hd)

variable {d : Int}

theorem seconds_eq (hd : 0 ≤ d) : seconds d = d / 1000000000 := Int.tdiv_eq_ediv_of_nonneg hd

theorem minutes_eq (hd : 0 ≤ d) : minutes d = d / 60000000000 := Int.tdiv_eq_ediv_of_nonneg hd

theorem hours_eq (hd : 0 ≤ d) : hours d = d / 3600000000000 := Int.tdiv_eq_ediv_of_nonneg hd

/-- What stands in the place of a number of years. -/
theorem not_describes_badVerb (d : Int) (text rest : GoString) :
    ¬Describes d (str "%!d(float64=" ++ text ++ rest) := by
  generalize htext : str "%!d(float64=" ++ text ++ rest = t
  have hhead : t.head? = some 37 := by rw [← htext]; rfl
  intro hdescribes
  cases hdescribes with
  | lessThanASecond | aboutAMinute | aboutAnHour => exact absurd hhead (by decide)
  | @counts _ n u hcounts =>
    -- a text that begins with a number does not begin with a percent sign
    obtain ⟨hn, rfl, -, -⟩ := hcounts
    obtain ⟨k, rfl⟩ := Int.eq_ofNat_of_zero_le (by omega : 0 ≤ n)
    obtain ⟨c, cs, hcs⟩ := List.exists_cons_of_ne_nil (itoa_ne_nil k)
    have hdigit := mem_itoa (n := k) (c := c) (by rw [hcs]; exact List.mem_cons_self)
    rw [hcs] at hhead
    simp only [List.cons_append, List.head?_cons, Option.some.injEq] at hhead
    subst hhead
    exact absurd hdigit.1 (by decide)

/-- The text of a duration below two years. -/
theorem describes_humanDuration (floatText : Int → GoString) (hd : 0 ≤ d)
    (hlt : d < 2 * TimeUnit.years.length) : Describes d (humanDuration floatText d) := by
  have hsecond : second = 1000000000 := rfl
  have hminute : minute = 60000000000 := rfl
  have hhour : hour = 3600000000000 := rfl
  have hdays : TimeUnit.days.length = 86400000000000 := rfl
  have hweeks : TimeUnit.weeks.length = 604800000000000 := rfl
  have hmonths : TimeUnit.months.length = 2592000000000000 := rfl
  have hyears : TimeUnit.years.length = 31536000000000000 := rfl
  have htdiv (k : Int) : (d / 3600000000000).tdiv k = d / 3600000000000 / k :=
    Int.tdiv_eq_ediv_of_nonneg (by omega)
  have htdiv' (k : Int) : (d / 3600000000000 / 24).tdiv k = d / 3600000000000 / 24 / k :=
    Int.tdiv_eq_ediv_of_nonneg (by omega)
  unfold humanDuration
  rw [seconds_eq hd, minutes_eq hd, hours_eq hd, htdiv, htdiv', htdiv']
  -- one range after the other: each begins where the one before it has ended
  split
  · exact .lessThanASecond (by omega)
  split
  · refine describes_ediv .seconds ?_ rfl rfl
    show second ≤ d
    omega
  split
  · exact .aboutAMinute (by omega) (by omega)
  split
  · refine describes_ediv .minutes ?_ rfl rfl
    show minute ≤ d
    omega
  split
  · exact .aboutAnHour (by omega) (by omega)
  split
  · refine describes_ediv .hours ?_ rfl rfl
    show hour ≤ d
    omega
  split
  · refine describes_ediv .days (by omega) ?_ rfl
    rw [hdays]
    omega
  split
  · refine describes_ediv .weeks (by omega) ?_ rfl
    rw [hweeks]
    omega
  split
  · refine describes_ediv .months (by omega) ?_ rfl
    rw [hmonths]
    omega
  · omega

/-- The text from two years on. -/
theorem humanDuration_of_le (floatText : Int → GoString) (hd : 2 * TimeUnit.years.length ≤ d) :
    humanDuration floatText d = str "%!d(float64=" ++ floatText d ++ str ") years" := by
  have hyears : TimeUnit.years.length = 31536000000000000 := rfl
  have hnonneg : 0 ≤ d := by omega
  unfold humanDuration
  rw [seconds_eq hnonneg, minutes_eq hnonneg, hours_eq hnonneg, if_neg (by omega),
    if_neg (by omega), if_neg (by omega), if_neg (by omega), if_neg (by omega),
    if_neg (by omega), if_neg (by omega), if_neg (by omega), if_neg (by omega)]

/-- The text of a duration is right below two years, and only there. -/
theorem humanDuration_describes_iff (floatText : Int → GoString) (d : Int) (hd : 0 ≤ d) :
    Describes d (humanDuration floatText d) ↔ d < 2 * TimeUnit.years.length := by
  constructor
  · intro hdescribes
    by_contra hlong
    rw [humanDuration_of_le floatText (by omega)] at hdescribes
    exact not_describes_badVerb d _ _ hdescribes
  · exact describes_humanDuration floatText hd

theorem humanDuration_describes_iff_month :
    Describes (45 * TimeUnit.days.length)
        (humanDuration (fun _ => []) (45 * TimeUnit.days.length)) ↔
      45 * TimeUnit.days.length < 2 * TimeUnit.years.length :=
  humanDuration_describes_iff _ _ (by decide)

/-- The text of two years is not right, where `d.Hours()/24/365` has the text `2`. -/
theorem humanDuration_two_years :
    humanDuration (fun _ => str "2") (2 * TimeUnit.years.length) = str "%!d(float64=2) years" ∧
      ¬Describes (2 * TimeUnit.years.length) (str "%!d(float64=2) years") :=
  ⟨by decide, not_describes_badVerb _ (str "2") (str ") years")⟩

/-- The text of a container that has been running for less than two years. -/
theorem string_up (floatText : Int → GoString) {s : State} {uptime : Int} (hs : s.running)
    (hd : 0 ≤ uptime) (hlt : uptime < 2 * TimeUnit.years.length) :
    ∃ text, s.string floatText uptime = str "Up " ++ text ∧ Describes uptime text := by
  refine ⟨_, ?_, describes_humanDuration floatText hd hlt⟩
  rw [State.string, if_pos hs]

end Docker
