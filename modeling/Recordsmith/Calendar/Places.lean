import Recordsmith.Calendar.Zone

/-!
# The zones of places

Zones by the names of the time zone database.

* `Yearly` is a change of offset on a Sunday of the same month every year, and `Yearly.spans` its
  changes;
* `switches` are changes on listed days;
* `Zone.named?` finds a zone by its name; names are told apart by case.

The table is a part of the database: fifty-seven of its names, and of their history the years listed
with each place. A zone keeps its first offset before these years and its last one after them: Paris
and Lord Howe change from 1996 to 2099, New York from 1987 to 2099, São Paulo from 1985 to 2019, Apia
from 2010 to 2021, and Kathmandu once, at the end of 1985. Any other name is unknown here. Steps,
cursors and patterns take any `Zone`, and all that is ever used of the table as a whole is that the
offsets in it are less than a day.
-/

namespace Recordsmith

/-! ## Changes of offset -/

/-- The number of a day given by year, month and day. -/
def dayNumber (year : Int) (month day : Nat) : Int :=
  ((Date.ofYmd? year month day).getD Date.epoch).toDays

/-- The first Sunday on or after a day of a month. -/
def sundayFrom (day : Nat) (year : Int) (month : Nat) : Int :=
  let first := dayNumber year month day
  first + (3 - first) % 7

/-- The last Sunday of a month. -/
def lastSunday (year : Int) (month : Nat) : Int :=
  let last := dayNumber year month (daysInMonth year month)
  last - (last + 4) % 7

/-- A change of offset on a Sunday of the same month every year. -/
structure Yearly where
  firstYear : Nat
  lastYear : Nat
  month : Nat
  sunday : Int → Nat → Int
  /-- The second after midnight of that Sunday, in universal time. -/
  second : Int
  offset : Int
  abbreviation : String

/-- The spans that a yearly change starts. -/
def Yearly.spans (r : Yearly) : List Span :=
  (List.range' r.firstYear (r.lastYear + 1 - r.firstYear)).map fun (year : Nat) =>
    ⟨r.sunday year r.month * secondsPerDay + r.second, r.offset, r.abbreviation.toList⟩

/-- The spans that start on listed days, at a second after midnight in universal time. -/
def switches (second offset : Int) (abbreviation : String) (days : List (Int × Nat × Nat)) :
    List Span :=
  days.map fun (year, month, day) =>
    ⟨dayNumber year month day * secondsPerDay + second, offset, abbreviation.toList⟩

/-- The zone with an offset that lists of spans change. -/
def placeZone (name : String) (offset : Int) (abbreviation : String) (changes : List (List Span)) :
    Zone :=
  .ofSpans name.toList ⟨0, offset, abbreviation.toList⟩
    (changes.flatten.mergeSort fun a b => a.start ≤ b.start)

/-! ## Places -/

/-- Summer time from the last Sunday of March to the last Sunday of October, at one in the morning
    of universal time. -/
def paris : Zone := placeZone "Europe/Paris" 3600 "CET"
  [Yearly.spans ⟨1996, 2099, 3, lastSunday, 3600, 7200, "CEST"⟩,
   Yearly.spans ⟨1996, 2099, 10, lastSunday, 3600, 3600, "CET"⟩]

/-- Summer time from April to October until 2006, and from March to November since, at two in the
    morning. -/
def newYork (name : String) : Zone := placeZone name (-18000) "EST"
  [Yearly.spans ⟨1987, 2006, 4, sundayFrom 1, 25200, -14400, "EDT"⟩,
   Yearly.spans ⟨1987, 2006, 10, lastSunday, 21600, -18000, "EST"⟩,
   Yearly.spans ⟨2007, 2099, 3, sundayFrom 8, 25200, -14400, "EDT"⟩,
   Yearly.spans ⟨2007, 2099, 11, sundayFrom 1, 21600, -18000, "EST"⟩]

/-- Summer time by half an hour, at two in the morning. -/
def lordHowe : Zone := placeZone "Australia/Lord_Howe" 39600 "+11"
  [Yearly.spans ⟨1996, 2005, 3, lastSunday, -32400, 37800, "+1030"⟩,
   Yearly.spans ⟨1996, 1999, 10, lastSunday, -30600, 39600, "+11"⟩,
   Yearly.spans ⟨2000, 2000, 8, lastSunday, -30600, 39600, "+11"⟩,
   Yearly.spans ⟨2001, 2007, 10, lastSunday, -30600, 39600, "+11"⟩,
   Yearly.spans ⟨2006, 2006, 4, sundayFrom 1, -32400, 37800, "+1030"⟩,
   Yearly.spans ⟨2007, 2007, 3, lastSunday, -32400, 37800, "+1030"⟩,
   Yearly.spans ⟨2008, 2099, 4, sundayFrom 1, -32400, 37800, "+1030"⟩,
   Yearly.spans ⟨2008, 2099, 10, sundayFrom 1, -30600, 39600, "+11"⟩]

/-- Summer time at midnight of days that were set year by year, until 2019. -/
def saoPaulo : Zone := placeZone "America/Sao_Paulo" (-10800) "-03"
  [switches 10800 (-7200) "-02"
    [(1985, 11, 2), (1986, 10, 25), (1987, 10, 25), (1988, 10, 16), (1989, 10, 15),
     (1990, 10, 21), (1991, 10, 20), (1992, 10, 25), (1993, 10, 17), (1994, 10, 16),
     (1995, 10, 15), (1996, 10, 6), (1997, 10, 6), (1998, 10, 11), (1999, 10, 3),
     (2000, 10, 8), (2001, 10, 14), (2002, 11, 3), (2003, 10, 19), (2004, 11, 2),
     (2005, 10, 16), (2006, 11, 5), (2007, 10, 14)],
   Yearly.spans ⟨2008, 2017, 10, sundayFrom 15, 10800, -7200, "-02"⟩,
   switches 10800 (-7200) "-02" [(2018, 11, 4)],
   switches 7200 (-10800) "-03"
    [(1986, 3, 15), (1987, 2, 14), (1988, 2, 7), (1989, 1, 29), (1990, 2, 11), (1991, 2, 17),
     (1992, 2, 9), (1993, 1, 31), (1994, 2, 20), (1995, 2, 19), (1996, 2, 11), (1997, 2, 16),
     (1998, 3, 1), (1999, 2, 21), (2000, 2, 27), (2001, 2, 18), (2002, 2, 17), (2003, 2, 16),
     (2004, 2, 15), (2005, 2, 20), (2006, 2, 19), (2007, 2, 25), (2008, 2, 17), (2009, 2, 15),
     (2010, 2, 21), (2011, 2, 20), (2012, 2, 26), (2013, 2, 17), (2014, 2, 16), (2015, 2, 22),
     (2016, 2, 21), (2017, 2, 19), (2018, 2, 18), (2019, 2, 17)]]

/-- East of the date line until the end of 2011, when the thirtieth of December was left out, and
    west of it since. -/
def apia : Zone := placeZone "Pacific/Apia" (-39600) "-11"
  [switches 39600 (-36000) "-10" [(2010, 9, 26)],
   switches 50400 (-39600) "-11" [(2011, 4, 2)],
   switches 50400 (-36000) "-10" [(2011, 9, 24)],
   switches 36000 50400 "+14" [(2011, 12, 30)],
   Yearly.spans ⟨2012, 2021, 4, sundayFrom 1, -36000, 46800, "+13"⟩,
   Yearly.spans ⟨2012, 2020, 9, lastSunday, -36000, 50400, "+14"⟩]

/-- A quarter of an hour ahead of its neighbour since 1986. -/
def kathmandu (name : String) : Zone := placeZone name 19800 "+0530"
  [switches 66600 20700 "+0545" [(1985, 12, 31)]]

/-- Zones of one offset, with the names of zone and offset. -/
def fixedZones : List Zone :=
  (["UTC", "UCT", "Universal", "Zulu", "Etc/UTC", "Etc/UCT", "Etc/Universal", "Etc/Zulu"].map
    fun name => Zone.fixed name.toList "UTC".toList 0) ++
  (["GMT", "GMT0", "GMT+0", "GMT-0", "Greenwich", "Etc/GMT", "Etc/GMT0", "Etc/GMT+0", "Etc/GMT-0",
    "Etc/Greenwich"].map fun name => Zone.fixed name.toList "GMT".toList 0) ++
  ((List.range' 1 12).map fun n =>
    Zone.fixed ("Etc/GMT+".toList ++ Text.ofNat n) ('-' :: Text.ofNatPadded 2 n) (-3600 * n)) ++
  ((List.range' 1 14).map fun n =>
    Zone.fixed ("Etc/GMT-".toList ++ Text.ofNat n) ('+' :: Text.ofNatPadded 2 n) (3600 * n)) ++
  (["Asia/Kolkata", "Asia/Calcutta"].map fun name => Zone.fixed name.toList "IST".toList 19800) ++
  (["Asia/Tokyo", "Japan"].map fun name => Zone.fixed name.toList "JST".toList 32400)

/-- The zones that have a name. -/
def zones : List Zone :=
  fixedZones ++
    [paris, newYork "America/New_York", newYork "US/Eastern", newYork "EST5EDT", lordHowe, saoPaulo,
      apia, kathmandu "Asia/Kathmandu", kathmandu "Asia/Katmandu"]

/-- The zone of universal time. -/
def Zone.utc : Zone := .fixed "UTC".toList "UTC".toList 0

/-- The zone of a name. -/
def Zone.named? (name : Text) : Option Zone := zones.find? (·.name = name)

end Recordsmith
