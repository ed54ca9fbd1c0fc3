import SpacingClasses.Text.Basic

/-!
# Dates and times

The dates and times of a settings file.  Nothing is computed with them; they are only shown.

* `Moment.text` shows one so that its kind can be told;
* `Moment.iso` is the text that stands for it.
-/

namespace SpacingClasses

/-- A day of the calendar. -/
structure Date where
  year : Nat
  month : Nat
  day : Nat
  deriving DecidableEq, Repr

/-- A time of day. -/
structure TimeOfDay where
  hour : Nat
  minute : Nat
  second : Nat
  microsecond : Nat
  deriving DecidableEq, Repr

/-- A date, a time of day or both, and the offset from universal time in minutes. -/
inductive Moment where
  | date (d : Date)
  | time (t : TimeOfDay)
  | dateTime (d : Date) (t : TimeOfDay) (offset : Option Int)
  deriving DecidableEq, Repr

/-- The number of days of a month. -/
def Date.daysInMonth (year month : Nat) : Nat :=
  if month = 2 then
    if year % 4 = 0 && (year % 100 != 0 || year % 400 = 0) then 29 else 28
  else if month = 4 || month = 6 || month = 9 || month = 11 then 30
  else 31

/-- Whether the calendar has this day, from the year 1 on. -/
def Date.isValid (d : Date) : Bool :=
  1 ≤ d.year && 1 ≤ d.month && d.month ≤ 12 && 1 ≤ d.day &&
    d.day ≤ Date.daysInMonth d.year d.month

namespace Moment

/-- The numbers of a time of day, without seconds and microseconds when these are zero. -/
def clock (t : TimeOfDay) : List Nat :=
  if t.microsecond ≠ 0 then [t.hour, t.minute, t.second, t.microsecond]
  else if t.second ≠ 0 then [t.hour, t.minute, t.second]
  else [t.hour, t.minute]

/-- An offset from universal time, in days and seconds when it is negative. -/
def offsetText (minutes : Int) : Text :=
  if minutes = 0 then "datetime.timezone.utc"
  else if minutes < 0 then
    "datetime.timezone(datetime.timedelta(days=-1, seconds=" ++
      Text.ofNat (86400 + 60 * minutes).toNat ++ "))"
  else "datetime.timezone(datetime.timedelta(seconds=" ++ Text.ofNat (60 * minutes).toNat ++ "))"

/-- Numbers with commas between them. -/
def numbers (ns : List Nat) : Text := Text.joined ", " (ns.map Text.ofNat)

/-- The date or time with its kind made plain. -/
def text : Moment → Text
  | date d => "datetime.date(" ++ numbers [d.year, d.month, d.day] ++ ")"
  | time t => "datetime.time(" ++ numbers (clock t) ++ ")"
  | dateTime d t offset =>
    "datetime.datetime(" ++ numbers ([d.year, d.month, d.day] ++ clock t) ++
      (match offset with
        | none => []
        | some minutes => ", tzinfo=" ++ offsetText minutes) ++ ")"

/-- A number of at least two digits. -/
def twoDigits (n : Nat) : Text := Text.padLeft 2 '0' (Text.ofNat n)

/-- A day as year, month and day. -/
def isoDate (d : Date) : Text :=
  Text.padLeft 4 '0' (Text.ofNat d.year) ++ "-" ++ twoDigits d.month ++ "-" ++ twoDigits d.day

/-- A time of day, without microseconds when these are zero. -/
def isoTime (t : TimeOfDay) : Text :=
  twoDigits t.hour ++ ":" ++ twoDigits t.minute ++ ":" ++ twoDigits t.second ++
    (if t.microsecond = 0 then [] else '.' :: Text.padLeft 6 '0' (Text.ofNat t.microsecond))

/-- An offset from universal time in hours and minutes. -/
def isoOffset (minutes : Int) : Text :=
  (if minutes < 0 then '-' else '+') :: twoDigits (minutes.natAbs / 60) ++ ":" ++
    twoDigits (minutes.natAbs % 60)

/-- The text that stands for the date or time. -/
def iso : Moment → Text
  | date d => isoDate d
  | time t => isoTime t
  | dateTime d t offset =>
    isoDate d ++ " " ++ isoTime t ++
      (match offset with
        | none => []
        | some minutes => isoOffset minutes)

example : iso (.dateTime ⟨2020, 1, 2⟩ ⟨3, 4, 5, 60⟩ (some (-330))) =
    "2020-01-02 03:04:05.000060-05:30" := by rfl

end Moment

end SpacingClasses
