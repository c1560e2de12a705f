import SipXRouter.Bytes
import SipXRouter.Calendar
import SipXRouter.Os.OsTime

/-!
# Dates

`OsDateTime` keeps a date as its parts.  Three functions have a calendar of their own: the
conversion to seconds counts years from March on, the weekday is Zeller's, and the reader of
HTTP dates checks the length of February.  A time stamp is an `OsTime`, whose seconds are an
`int`.
-/

namespace SipXRouter

open List Calendar

/-- `OsDateTime`: months are counted from zero. -/
structure OsDateTime where
  year : Nat
  month : Nat
  day : Nat
  hour : Nat
  minute : Nat
  second : Nat
  microsecond : Nat
deriving DecidableEq

namespace OsDateTime

/-! ## Seconds -/

/-- What is read of `struct tm`: the year is counted from 1900. -/
structure Tm where
  year : Int
  mon : Nat
  mday : Int
  hour : Int
  min : Int
  sec : Int

/-- `BAD_DATE`. -/
def badDate : Int := 0

/-- The days of the months from March on. -/
def dayoffset : List Int := [306, 337, 0, 31, 61, 92, 122, 153, 184, 214, 245, 275]

/-- `tm2Epoch`, where a `time_t` has 64 bits. -/
def tm2Epoch (t : Tm) : Int :=
  if t.year < 70 then badDate
  else
    -- the year starts with March
    let year := if t.mon < 2 then t.year - 1 else t.year
    let days := year * 365 + year.tdiv 4 - year.tdiv 100 + (year.tdiv 100 + 3).tdiv 4
    let days := days + (dayoffset.getD t.mon 0 + t.mday - 1)
    let days := days - 25508
    let days := ((days * 24 + t.hour) * 60 + t.min) * 60 + t.sec
    if days < 0 then badDate else days

/-! ## Reading -/

/-- One character of a mask of `checkmask`, other than the one that swallows the rest. -/
def maskMatches (m d : Byte) : Bool :=
  if m = byte '@' then isUpper d
  else if m = byte '$' then isLower d
  else if m = byte '#' then isDigit d
  else if m = byte '&' then isHex d
  else if m = byte '~' then d == byte ' ' || isDigit d
  else m == d

/-- `checkmask`, for masks of less than 256 characters. -/
def checkmask : (data mask : Text) → Bool
  | data, [] => data.isEmpty
  | [], m :: _ => m == byte '*'
  | d :: data, m :: mask => m == byte '*' || (maskMatches m d && checkmask data mask)

/-- The value of a character that is taken for a digit. -/
def digitAt (s : Text) (i : Nat) : Int := (s.getD i 0).toNat - 48

/-- The value of two characters. -/
def twoDigitsAt (s : Text) (i : Nat) : Int := digitAt s i * 10 + digitAt s (i + 1)

/-- Three characters in one number. -/
def packed (s : Text) : Nat :=
  (s.getD 0 0).toNat <<< 16 ||| (s.getD 1 0).toNat <<< 8 ||| (s.getD 2 0).toNat

/-- `spMonthStrings`. -/
def monthStrings : List Text :=
  [text "Jan", text "Feb", text "Mar", text "Apr", text "May", text "Jun", text "Jul", text "Aug",
    text "Sep", text "Oct", text "Nov", text "Dec"]

def months : List Nat := monthStrings.map packed

/-- Where the parts of an HTTP date are: the year counted from 1900, the day, and the texts that
start with the month and with the time. -/
structure HttpDate where
  year : Int
  mday : Int
  monstr : Text
  timstr : Text

def fourDigitYear (date : Text) (i : Nat) : Option Int :=
  let year := (twoDigitsAt date i - 19) * 100
  if year < 0 then none else some (year + twoDigitsAt date (i + 2))

/-- The three formats. -/
def readHttpDate (date : Text) : Option HttpDate :=
  if checkmask date (text "## @$$ #### ##:##:## *") then
    (fourDigitYear date 7).map fun year => ⟨year, twoDigitsAt date 0, date.drop 3, date.drop 12⟩
  else if checkmask date (text "##-@$$-## ##:##:## *") then
    let year := twoDigitsAt date 7
    some ⟨if year < 70 then year + 100 else year, twoDigitsAt date 0, date.drop 3, date.drop 10⟩
  else if checkmask date (text "@$$ ~# ##:##:## ####*") then
    let tens := if date.getD 4 0 = byte ' ' then 0 else digitAt date 4 * 10
    (fourDigitYear date 16).map fun year => ⟨year, tens + digitAt date 5, date, date.drop 7⟩
  else none

/-- What `convertHttpDateToEpoch` does with the parts of a date. -/
def httpDateToEpoch (date : HttpDate) : Int :=
  if date.mday ≤ 0 ∨ 31 < date.mday then badDate
  else
    let hour := twoDigitsAt date.timstr 0
    let min := twoDigitsAt date.timstr 3
    let sec := twoDigitsAt date.timstr 6
    if 23 < hour ∨ 59 < min ∨ 61 < sec then badDate
    else
      let mon := months.idxOf (packed date.monstr)
      if mon = 12 then badDate
      else if date.mday = 31 ∧ (mon = 3 ∨ mon = 5 ∨ mon = 8 ∨ mon = 10) then badDate
      else if mon = 1 ∧ (29 < date.mday ∨ (date.mday = 29 ∧
          (date.year % 4 ≠ 0 ∨ (date.year.tmod 100 = 0 ∧ date.year.tmod 400 ≠ 100)))) then badDate
      else tm2Epoch ⟨date.year, mon, date.mday, hour, min, sec⟩

/-- `convertHttpDateToEpoch`: what is in front of the first blank is the weekday. -/
def convertHttpDateToEpoch (date : Text) : Int :=
  let date := (cString date).dropWhile fun c => isSpace c || c == 11
  let rest := date.dropWhile (· != byte ' ')
  if rest = [] then badDate
  else ((readHttpDate (rest.drop 1)).map httpDateToEpoch).getD badDate

/-! ## Writing -/

/-- `spDayStrings`. -/
def dayStrings : List Text :=
  [text "Sun", text "Mon", text "Tue", text "Wed", text "Thu", text "Fri", text "Sat"]

/-- The weekday by the rule for a Gregorian date. -/
def getDayOfWeek (d : OsDateTime) : Nat :=
  let month := d.month + 1
  let a := (14 - month) / 12
  let gy := d.year - a
  let m := month + 12 * a - 2
  (d.day + gy + gy / 4 - gy / 100 + gy / 400 + 31 * m / 12) % 7

/-- `%.2d`. -/
def twoDigits (n : Nat) : Text := if n < 10 then byte '0' :: natText n else natText n

def getHttpTimeString (d : OsDateTime) : Text :=
  dayStrings.getD d.getDayOfWeek [] ++ text ", " ++ twoDigits d.day ++ text " " ++
    monthStrings.getD d.month [] ++ text " " ++ natText d.year ++ text " " ++ twoDigits d.hour ++
    text ":" ++ twoDigits d.minute ++ text ":" ++ twoDigits d.second ++ text " GMT"

/-- The time of a date since the epoch. -/
def cvtToTimeSinceEpoch (d : OsDateTime) : OsTime :=
  let seconds := tm2Epoch ⟨d.year - 1900, d.month, d.day, d.hour, d.minute, d.second⟩
  OsTime.ofSeconds (.ofInt seconds) (.ofNat d.microsecond)

/-! ## What is right -/

/-- A date from 1970 to 9999 that exists, and a time of day. -/
structure Valid (d : OsDateTime) : Prop where
  year_ge : 1970 ≤ d.year
  year_le : d.year ≤ 9999
  month : d.month < 12
  day_pos : 0 < d.day
  day_le : d.day ≤ monthLength d.year d.month
  hour : d.hour < 24
  minute : d.minute < 60
  second : d.second < 60
  microsecond : d.microsecond < 1000000

/-- The days since the first of January 1970. -/
def daysSinceEpoch (d : OsDateTime) : Nat := dayNumber 1970 d.year d.month d.day

/-- The seconds since the first of January 1970. -/
def epochSeconds (d : OsDateTime) : Nat :=
  ((d.daysSinceEpoch * 24 + d.hour) * 60 + d.minute) * 60 + d.second

/-- The first of January 1970 was a Thursday. -/
def weekday (d : OsDateTime) : Nat := (d.daysSinceEpoch + 4) % 7

/-- What is expected of a date. -/
structure RoundTrips (d : OsDateTime) : Prop where
  text : convertHttpDateToEpoch d.getHttpTimeString = d.epochSeconds
  time : d.cvtToTimeSinceEpoch.total = d.epochSeconds * 1000000 + d.microsecond
  weekday : dayStrings.getD d.weekday [] <+: d.getHttpTimeString

/-- The dates whose seconds fit in 32 bits. -/
def IsBefore2038Jan19 (d : OsDateTime) : Prop :=
  d.year < 2038 ∨ d.year = 2038 ∧ d.month = 0 ∧ (d.day < 19 ∨ d.day = 19 ∧ (d.hour < 3 ∨
    d.hour = 3 ∧ (d.minute < 14 ∨ d.minute = 14 ∧ d.second < 8)))

/-! ## The calendars -/

section Calendars

variable {d : OsDateTime}

theorem dayoffset_eq {month : Nat} (h : month < 12) : dayoffset.getD month 0 =
    (monthStarts.getD month 0 : Nat) + if month < 2 then 306 else -59 := by
  interval_cases month <;> rfl

theorem leaps_add_1900 (year : Nat) : (leaps (year + 1900) : Int) =
    (year : Int).tdiv 4 - (year : Int).tdiv 100 + ((year : Int).tdiv 100 + 3).tdiv 4 + 460 := by
  have hnonneg : (0 : Int) ≤ year := Int.natCast_nonneg year
  rw [Int.tdiv_eq_ediv_of_nonneg hnonneg, Int.tdiv_eq_ediv_of_nonneg hnonneg,
    Int.tdiv_eq_ediv_of_nonneg (by omega), leaps]
  omega

theorem daysBeforeYear_1970 {year : Nat} (h : 1970 ≤ year) :
    daysBeforeYear 1970 (year - 1970) + 477 =
      365 * (year - 1970) + leaps (year - 1) := by
  have hyears : daysBeforeYear 1970 (year - 1970) + leaps 1969 = _ :=
    daysBeforeYear_add_leaps 1969 (year - 1970)
  rwa [show 1969 + (year - 1970) = year - 1 by omega] at hyears

theorem daysSinceEpoch_eq (hd : Valid d) {year : Nat}
    (hyear : year + 1900 = if d.month < 2 then d.year - 1 else d.year) :
    (d.daysSinceEpoch : Int) = (year : Int) * 365 + (year : Int).tdiv 4 - (year : Int).tdiv 100 +
      ((year : Int).tdiv 100 + 3).tdiv 4 + (dayoffset.getD d.month 0 + d.day - 1) - 25508 := by
  obtain ⟨hge, -, hmonth, hpos, -, -, -, -, -⟩ := hd
  have hyears := daysBeforeYear_1970 hge
  have hmonths := daysBeforeMonth_eq d.year hmonth
  have hsucc := leaps_succ (d.year - 1)
  have hleaps := leaps_add_1900 year
  rw [show d.year - 1 + 1 = d.year by omega] at hsucc
  rw [dayoffset_eq hmonth, daysSinceEpoch, dayNumber]
  split at hyear
  · next hlt =>
    rw [hyear] at hleaps
    rw [if_pos hlt] at hmonths ⊢
    omega
  · next hge' =>
    rw [hyear] at hleaps
    rw [if_neg hge'] at hmonths ⊢
    omega

theorem tm2Epoch_eq (hd : Valid d) :
    tm2Epoch ⟨d.year - 1900, d.month, d.day, d.hour, d.minute, d.second⟩ = d.epochSeconds := by
  have hge := hd.year_ge
  obtain ⟨year, hyear⟩ : ∃ year, year + 1900 = if d.month < 2 then d.year - 1 else d.year :=
    ⟨(if d.month < 2 then d.year - 1 else d.year) - 1900, by split <;> omega⟩
  have hdays := daysSinceEpoch_eq hd hyear
  have hmarch : (if d.month < 2 then (d.year - 1900 : Int) - 1 else d.year - 1900) = year := by
    split at hyear <;> split <;> omega
  have hnot : ¬ (d.year - 1900 : Int) < 70 := by omega
  simp only [tm2Epoch, if_neg hnot, hmarch]
  rw [← hdays, epochSeconds, if_neg (by omega)]
  omega

/-- The formula for the day of the week agrees with the calendar. -/
theorem getDayOfWeek_eq (hd : Valid d) : d.getDayOfWeek = d.weekday := by
  obtain ⟨hge, -, hmonth, hpos, -, -, -, -, -⟩ := hd
  have hyears := daysBeforeYear_1970 hge
  have hmonths := daysBeforeMonth_eq d.year hmonth
  have hsucc := leaps_succ (d.year - 1)
  have hzeller : monthStarts.getD d.month 0 % 7 =
      (31 * (d.month + 1 + 12 * ((14 - (d.month + 1)) / 12) - 2) / 12 +
        if d.month < 2 then 0 else 1) % 7 := by
    generalize d.month = month at hmonth
    interval_cases month <;> rfl
  have hcentury : (14 - (d.month + 1)) / 12 = if d.month < 2 then 1 else 0 := by
    split <;> omega
  have hleaps : ∀ gy,
      d.day + gy + gy / 4 - gy / 100 + gy / 400 = d.day + gy + leaps gy := by
    intro gy
    rw [leaps]
    omega
  rw [show d.year - 1 + 1 = d.year by omega] at hsucc
  rw [getDayOfWeek, weekday, daysSinceEpoch, dayNumber, hmonths]
  generalize 31 * (d.month + 1 + 12 * ((14 - (d.month + 1)) / 12) - 2) / 12 = shift at hzeller ⊢
  rw [hcentury, hleaps]
  generalize monthStarts.getD d.month 0 = table at hzeller ⊢
  clear hcentury hleaps hmonths
  split at hzeller
  · next hlt =>
    rw [if_pos hlt, if_pos hlt]
    omega
  · next hge' =>
    rw [if_neg hge', if_neg hge', Nat.sub_zero, hsucc]
    omega

end Calendars

/-! ## The text -/

section Text

/-- A digit as it is printed. -/
def digit (n : Nat) : Byte := byte (Nat.digitChar n)

theorem digit_spec {n : Nat} (h : n < 10) :
    isDigit (digit n) = true ∧ (digit n).toNat = n + 48 := by
  have hall : ∀ n : Fin 10, isDigit (digit n) = true ∧ (digit n).toNat = n + 48 := by decide
  exact hall ⟨n, h⟩

theorem twoDigits_eq {n : Nat} (h : n < 100) : twoDigits n = [digit (n / 10), digit (n % 10)] := by
  have hall : ∀ n : Fin 100, twoDigits n = [digit (n / 10), digit (n % 10)] := by decide
  exact hall ⟨n, h⟩

theorem natText_eq {n : Nat} (h : 1000 ≤ n) (h' : n ≤ 9999) :
    natText n = [digit (n / 1000), digit (n / 100 % 10), digit (n / 10 % 10), digit (n % 10)] := by
  have hbase : 1 < 10 := by decide
  rw [natText, Nat.toDigits_eq_if hbase, if_neg (by omega), Nat.toDigits_eq_if hbase,
    if_neg (by omega), Nat.toDigits_eq_if hbase, if_neg (by omega), Nat.toDigits_eq_if hbase,
    if_pos (by omega)]
  simp only [Nat.div_div_eq_div_mul]
  rfl

theorem exists_monthStrings {month : Nat} (h : month < 12) :
    ∃ a b c, monthStrings.getD month [] = [a, b, c] ∧ isUpper a = true ∧ isLower b = true ∧
      isLower c = true ∧ months.idxOf (packed [a, b, c]) = month := by
  have hall : ∀ month : Fin 12, (monthStrings.getD month []).length = 3 ∧
      isUpper ((monthStrings.getD month []).getD 0 0) = true ∧
      isLower ((monthStrings.getD month []).getD 1 0) = true ∧
      isLower ((monthStrings.getD month []).getD 2 0) = true ∧
      months.idxOf (packed (monthStrings.getD month [])) = month := by decide
  obtain ⟨hlength, ha, hb, hc, hfound⟩ := hall ⟨month, h⟩
  obtain ⟨a, b, c, habc⟩ := length_eq_three.mp hlength
  rw [habc] at ha hb hc hfound
  exact ⟨a, b, c, habc, ha, hb, hc, hfound⟩

theorem exists_dayStrings {weekday : Nat} (h : weekday < 7) :
    ∃ a s, dayStrings.getD weekday [] = a :: s ∧ (isSpace a || a == 11) = false ∧
      ∀ c ∈ a :: s, (c != byte ' ') = true ∧ (c != 0) = true := by
  have hall : ∀ weekday : Fin 7, (dayStrings.getD weekday []) ≠ [] ∧
      (∀ a ∈ (dayStrings.getD weekday []).head?, (isSpace a || a == 11) = false) ∧
      ∀ c ∈ dayStrings.getD weekday [], (c != byte ' ') = true ∧ (c != 0) = true := by
    decide +kernel
  obtain ⟨hne, hhead, hblank⟩ := hall ⟨weekday, h⟩
  obtain ⟨a, s, has⟩ := exists_cons_of_ne_nil hne
  rw [has] at hhead hblank
  exact ⟨a, s, has, hhead a rfl, hblank⟩

variable {d : OsDateTime}

/-- What is printed behind the weekday. -/
def dateText (d : OsDateTime) : Text :=
  twoDigits d.day ++ text " " ++ monthStrings.getD d.month [] ++ text " " ++ natText d.year ++
    text " " ++ twoDigits d.hour ++ text ":" ++ twoDigits d.minute ++ text ":" ++
    twoDigits d.second ++ text " GMT"

theorem getHttpTimeString_eq (d : OsDateTime) : d.getHttpTimeString =
    dayStrings.getD d.getDayOfWeek [] ++ (byte ',' :: byte ' ' :: d.dateText) := by
  simp only [getHttpTimeString, dateText, append_assoc]
  rfl

theorem dateText_eq (hd : Valid d) {a b c : Byte}
    (hmonth : monthStrings.getD d.month [] = [a, b, c]) :
    d.dateText = [digit (d.day / 10), digit (d.day % 10), byte ' ', a, b, c, byte ' ',
      digit (d.year / 1000), digit (d.year / 100 % 10), digit (d.year / 10 % 10),
      digit (d.year % 10), byte ' ', digit (d.hour / 10), digit (d.hour % 10), byte ':',
      digit (d.minute / 10), digit (d.minute % 10), byte ':', digit (d.second / 10),
      digit (d.second % 10), byte ' ', byte 'G', byte 'M', byte 'T'] := by
  have hday : d.day ≤ 31 := hd.day_le.trans (monthLength_le _ _)
  have hyear := hd.year_ge
  have hhour := hd.hour
  have hminute := hd.minute
  have hsecond := hd.second
  rw [dateText, hmonth, twoDigits_eq (by omega), natText_eq (by omega) hd.year_le,
    twoDigits_eq (by omega), twoDigits_eq (by omega), twoDigits_eq (by omega)]
  rfl

theorem twoDigitsAt_eq {s : Text} {i n : Nat} (hn : n < 100) (htens : s.getD i 0 = digit (n / 10))
    (hones : s.getD (i + 1) 0 = digit (n % 10)) : twoDigitsAt s i = n := by
  rw [twoDigitsAt, digitAt, digitAt, htens, hones, (digit_spec (by omega)).2,
    (digit_spec (by omega)).2]
  omega

theorem checkmask_cons {m d : Byte} (hm : m ≠ byte '*') (hd : maskMatches m d = true)
    (data mask : Text) : checkmask (d :: data) (m :: mask) = checkmask data mask := by
  rw [checkmask, hd, beq_false_of_ne hm]
  rfl

theorem checkmask_dateText (hd : Valid d) :
    checkmask d.dateText (text "## @$$ #### ##:##:## *") = true := by
  obtain ⟨a, b, c, hmonth, ha, hb, hc, -⟩ := exists_monthStrings hd.month
  have hhour := hd.hour
  have hminute := hd.minute
  have hsecond := hd.second
  have hdigit : ∀ {n : Nat}, n < 10 → ∀ data mask,
      checkmask (digit n :: data) (byte '#' :: mask) = checkmask data mask := fun hn data mask =>
    checkmask_cons (m := byte '#') (by decide) (digit_spec hn).1 data mask
  have hsame : ∀ {m : Byte}, m ∈ text " :" → ∀ data mask,
      checkmask (m :: data) (m :: mask) = checkmask data mask := by
    intro m hm data mask
    have hall : ∀ m ∈ text " :", m ≠ byte '*' ∧ maskMatches m m = true := by decide
    exact checkmask_cons (hall m hm).1 (hall m hm).2 data mask
  have hblank : byte ' ' ∈ text " :" := by decide
  have hcolon : byte ':' ∈ text " :" := by decide
  have hmod : ∀ n, n % 10 < 10 := fun n => Nat.mod_lt n (by decide)
  have hday : d.day ≤ 31 := hd.day_le.trans (monthLength_le _ _)
  rw [dateText_eq hd hmonth]
  show checkmask _ (byte '#' :: byte '#' :: byte ' ' :: byte '@' :: byte '$' :: byte '$' ::
    byte ' ' :: byte '#' :: byte '#' :: byte '#' :: byte '#' :: byte ' ' :: byte '#' ::
    byte '#' :: byte ':' :: byte '#' :: byte '#' :: byte ':' :: byte '#' :: byte '#' ::
    byte ' ' :: byte '*' :: []) = true
  rw [hdigit (by omega), hdigit (hmod _), hsame hblank,
    checkmask_cons (m := byte '@') (by decide) ha, checkmask_cons (m := byte '$') (by decide) hb,
    checkmask_cons (m := byte '$') (by decide) hc, hsame hblank,
    hdigit (by have := hd.year_le; omega), hdigit (hmod _), hdigit (hmod _), hdigit (hmod _),
    hsame hblank, hdigit (by omega), hdigit (hmod _), hsame hcolon, hdigit (by omega),
    hdigit (hmod _), hsame hcolon, hdigit (by omega), hdigit (hmod _), hsame hblank]
  rfl

theorem readHttpDate_dateText (hd : Valid d) : readHttpDate d.dateText =
    some ⟨d.year - 1900, d.day, d.dateText.drop 3, d.dateText.drop 12⟩ := by
  obtain ⟨a, b, c, hmonth, -⟩ := exists_monthStrings hd.month
  have hge := hd.year_ge
  have hle := hd.year_le
  have hday : d.day ≤ 31 := hd.day_le.trans (monthLength_le _ _)
  have hchars := dateText_eq hd hmonth
  have hcentury : twoDigitsAt d.dateText 7 = (d.year / 100 : Nat) :=
    twoDigitsAt_eq (by omega) (by rw [hchars, Nat.div_div_eq_div_mul]; rfl) (by rw [hchars]; rfl)
  have hyears : twoDigitsAt d.dateText 9 = (d.year % 100 : Nat) :=
    twoDigitsAt_eq (by omega)
      (by rw [hchars, show d.year % 100 / 10 = d.year / 10 % 10 by omega]; rfl)
      (by rw [hchars, show d.year % 100 % 10 = d.year % 10 by omega]; rfl)
  have hdays : twoDigitsAt d.dateText 0 = d.day :=
    twoDigitsAt_eq (by omega) (by rw [hchars]; rfl) (by rw [hchars]; rfl)
  rw [readHttpDate, if_pos (checkmask_dateText hd), fourDigitYear, hcentury, hyears, hdays]
  rw [if_neg (by omega)]
  have hyear : (((d.year / 100 : Nat) : Int) - 19) * 100 + (d.year % 100 : Nat) =
      d.year - 1900 := by
    omega
  rw [hyear]
  rfl

theorem httpDateToEpoch_dateText (hd : Valid d) :
    httpDateToEpoch ⟨d.year - 1900, d.day, d.dateText.drop 3, d.dateText.drop 12⟩ =
      tm2Epoch ⟨d.year - 1900, d.month, d.day, d.hour, d.minute, d.second⟩ := by
  obtain ⟨a, b, c, hmonth, -, -, -, hfound⟩ := exists_monthStrings hd.month
  have hchars := dateText_eq hd hmonth
  have hge := hd.year_ge
  have hpos := hd.day_pos
  have hle := hd.day_le
  have hday : d.day ≤ 31 := hle.trans (monthLength_le _ _)
  have hhour : twoDigitsAt (d.dateText.drop 12) 0 = d.hour :=
    twoDigitsAt_eq (hd.hour.trans (by decide)) (by rw [hchars]; rfl) (by rw [hchars]; rfl)
  have hmin : twoDigitsAt (d.dateText.drop 12) 3 = d.minute :=
    twoDigitsAt_eq (hd.minute.trans (by decide)) (by rw [hchars]; rfl) (by rw [hchars]; rfl)
  have hsec : twoDigitsAt (d.dateText.drop 12) 6 = d.second :=
    twoDigitsAt_eq (hd.second.trans (by decide)) (by rw [hchars]; rfl) (by rw [hchars]; rfl)
  have hmon : months.idxOf (packed (d.dateText.drop 3)) = d.month := by
    rw [hchars]
    exact hfound
  have hlimits := And.intro hd.hour (And.intro hd.minute hd.second)
  have hmonth_lt := hd.month
  rw [httpDateToEpoch, if_neg (by simp only; omega)]
  simp only [hhour, hmin, hsec, hmon]
  rw [if_neg (by omega), if_neg (by omega), if_neg, if_neg]
  · -- the length of February
    rintro ⟨hfebruary, hlong⟩
    rw [hfebruary] at hle
    have hlength : monthLength d.year 1 = 28 + leapDay d.year := rfl
    have hleap := leapDay_eq d.year
    have hnonneg : (0 : Int) ≤ d.year - 1900 := by omega
    rw [Int.tmod_eq_emod_of_nonneg hnonneg, Int.tmod_eq_emod_of_nonneg hnonneg] at hlong
    split at hleap <;> omega
  · -- the months with thirty days
    rintro ⟨hlong, hshort⟩
    have hlength : monthLength d.year d.month = 30 := by
      rcases hshort with hmonth | hmonth | hmonth | hmonth <;> rw [hmonth] <;> rfl
    omega

theorem ne_zero_of_mem_dateText (hd : Valid d) : ∀ c ∈ d.dateText, (c != 0) = true := by
  obtain ⟨a, b, c, hmonth, ha, hb, hc, -⟩ := exists_monthStrings hd.month
  have hday : d.day ≤ 31 := hd.day_le.trans (monthLength_le _ _)
  have hlimits := And.intro hd.year_le (And.intro hd.hour (And.intro hd.minute hd.second))
  have hdigit : ∀ {n : Nat}, n < 10 → (digit n != 0) = true := fun hn =>
    bne_iff_ne.mpr (ne_of_class (digit_spec hn).1 (by decide))
  have ha' : (a != 0) = true := bne_iff_ne.mpr (ne_of_class ha (by decide))
  have hb' : (b != 0) = true := bne_iff_ne.mpr (ne_of_class hb (by decide))
  have hc' : (c != 0) = true := bne_iff_ne.mpr (ne_of_class hc (by decide))
  have hmarks : (byte ' ' != 0) = true ∧ (byte ':' != 0) = true ∧ (byte 'G' != 0) = true ∧
      (byte 'M' != 0) = true ∧ (byte 'T' != 0) = true := by decide
  obtain ⟨hblank, hcolon, hG, hM, hT⟩ := hmarks
  refine all_eq_true.mp ?_
  rw [dateText_eq hd hmonth]
  simp (disch := omega) only [all_cons, all_nil, hdigit, ha', hb', hc', hblank, hcolon,
    hG, hM, hT, Bool.and_self]

end Text

/-! ## Round trips -/

section RoundTrips

variable {d : OsDateTime}

/-- A printed date is read back as the seconds of its time. -/
theorem convertHttpDateToEpoch_getHttpTimeString (hd : Valid d) :
    convertHttpDateToEpoch d.getHttpTimeString = d.epochSeconds := by
  have hweekday : d.getDayOfWeek < 7 := Nat.mod_lt _ (by decide)
  obtain ⟨a, s, hname, hspace, hblank⟩ := exists_dayStrings hweekday
  have hchars : d.getHttpTimeString = a :: (s ++ (byte ',' :: byte ' ' :: d.dateText)) := by
    rw [getHttpTimeString_eq, hname, cons_append]
  have hzero : ∀ c ∈ d.getHttpTimeString, (c != 0) = true := by
    intro c hc
    rw [hchars, ← cons_append] at hc
    rcases mem_append.mp hc with hc | hc
    · exact (hblank c hc).2
    · rcases mem_cons.mp hc with rfl | hc
      · decide
      · rcases mem_cons.mp hc with rfl | hc
        · decide
        · exact ne_zero_of_mem_dateText hd c hc
  have htext : (cString d.getHttpTimeString).dropWhile (fun c => isSpace c || c == 11) =
      a :: (s ++ (byte ',' :: byte ' ' :: d.dateText)) := by
    rw [cString_eq_self hzero, hchars, dropWhile_cons, hspace]
    rfl
  have hrest : (a :: (s ++ (byte ',' :: byte ' ' :: d.dateText))).dropWhile (· != byte ' ') =
      byte ' ' :: d.dateText := by
    rw [← cons_append, dropWhile_append_of_pos fun c hc => (hblank c hc).1]
    rfl
  rw [convertHttpDateToEpoch, htext, hrest, if_neg (cons_ne_nil _ _), drop_one,
    tail_cons, readHttpDate_dateText hd, Option.map_some, Option.getD_some,
    httpDateToEpoch_dateText hd, tm2Epoch_eq hd]

/-- An `int` has the seconds if they are in its range. -/
theorem bmod_eq_iff (n : Nat) : (n : Int).bmod (2 ^ 32) = n ↔ n < 2 ^ 31 := by
  constructor
  · intro h
    have hlt : (n : Int).bmod (2 ^ 32) < ((2 ^ 32 : Nat) + 1) / 2 := Int.bmod_lt (by decide)
    omega
  · intro h
    rw [Int.bmod_eq_of_le] <;> omega

/-- The time stamp has the seconds as an `int`. -/
theorem total_cvtToTimeSinceEpoch_iff (hd : Valid d) :
    d.cvtToTimeSinceEpoch.total = d.epochSeconds * 1000000 + d.microsecond ↔
      d.epochSeconds < 2 ^ 31 := by
  have hmicro := hd.microsecond
  have husecs : (Int64.ofNat d.microsecond).toInt = d.microsecond :=
    Int64.toInt_ofNat_of_lt (by omega)
  have hsmall : ¬ (Int64.ofNat d.microsecond < 0 ∨ 1000000 ≤ Int64.ofNat d.microsecond) := by
    rw [Int64.lt_iff_toInt_lt, Int64.le_iff_toInt_le, husecs]
    have hzero : (0 : Int64).toInt = 0 := rfl
    have hmillion : (1000000 : Int64).toInt = 1000000 := rfl
    omega
  have hmicro' : (Int64.ofNat d.microsecond).toInt32.toInt = d.microsecond := by
    rw [OsTime.toInt_toInt32_of_fitsInt] <;> rw [husecs]
    unfold OsTime.FitsInt
    omega
  rw [← bmod_eq_iff, cvtToTimeSinceEpoch, tm2Epoch_eq hd, OsTime.ofSeconds, if_neg hsmall,
    OsTime.total, hmicro', Int64.toInt32_ofInt, Int32.toInt_ofInt]
  generalize (d.epochSeconds : Int).bmod (2 ^ 32) = seconds
  omega

/-- The end of the range of an `int`. -/
theorem epochSeconds_lt_iff (hd : Valid d) : d.epochSeconds < 2 ^ 31 ↔ d.IsBefore2038Jan19 := by
  have hyears := daysBeforeYear_1970 hd.year_ge
  have hlt := day_lt hd.month hd.day_le
  have hleap := leapDay_le d.year
  have hlimits := And.intro hd.hour (And.intro hd.minute hd.second)
  have hpos := hd.day_pos
  rw [epochSeconds, daysSinceEpoch, dayNumber, IsBefore2038Jan19]
  rw [yearLength] at hlt
  rcases Nat.lt_trichotomy d.year 2038 with hyear | hyear | hyear
  · have hleaps : leaps (d.year - 1) ≤ 494 := by
      unfold leaps
      omega
    omega
  · have hleaps : leaps 2037 = 494 := rfl
    rw [hyear] at hyears ⊢
    rw [show 2038 - 1 = 2037 from rfl, hleaps] at hyears
    by_cases hmonth : d.month = 0
    · have hzero : daysBeforeMonth 2038 0 = 0 := rfl
      rw [hmonth, hzero]
      omega
    · have hmonths := le_daysBeforeMonth 2038 d.month
      omega
  · have hleaps : 494 ≤ leaps (d.year - 1) := by
      unfold leaps
      omega
    omega

/-- **A date goes round**, with its weekday, exactly if it is before 2038-01-19 03:14:08: the
text does always, and the time stamp only then. -/
theorem printParse_iff (hd : Valid d) : RoundTrips d ↔ d.IsBefore2038Jan19 := by
  rw [← epochSeconds_lt_iff hd, ← total_cvtToTimeSinceEpoch_iff hd]
  constructor
  · exact RoundTrips.time
  · intro htime
    refine ⟨convertHttpDateToEpoch_getHttpTimeString hd, htime, ?_⟩
    rw [getHttpTimeString_eq, ← getDayOfWeek_eq hd]
    exact prefix_append _ _

end RoundTrips

def leapDay2000 : OsDateTime := ⟨2000, 1, 29, 12, 30, 59, 250000⟩

theorem roundTrips_leapDay2000 : Valid leapDay2000 ∧ RoundTrips leapDay2000 := by
  have hd : Valid leapDay2000 := by
    constructor <;> decide
  exact ⟨hd, (printParse_iff hd).mpr (Or.inl (by decide))⟩

/-- The first second that an `int` does not have. -/
theorem not_roundTrips_2038 : ¬ RoundTrips ⟨2038, 0, 19, 3, 14, 8, 0⟩ := by
  intro h
  exact absurd h.time (by decide)

end OsDateTime

end SipXRouter
