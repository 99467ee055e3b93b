/-
Module: MarketBook.Zone.Data
Purpose: The zones and their changes, release 2025b of the zone data, up to the year 2099.
Main exports:
  Zone.known
-/
import MarketBook.Zone.Basic

namespace MarketBook.Zone

open Time

/-!
A zone that still changes its clock is a list of past changes in seconds, followed by two changes a
year by rule.  No zone changes after 2099: the last offset stays for ever.
-/

/-- Which of the days of one name in a month. -/
inductive Pick where
  | nth (n : Int)
  | last

/-- A yearly change: the day, the seconds from midnight UTC of that day, and the new offset in
seconds. -/
structure YearRule where
  month : Int
  pick : Pick
  weekday : Weekday
  seconds : Int
  offset : Int

/-- The place of a weekday in the week, counted from Monday. -/
def weekdayNumber : Weekday → Int
  | .monday => 0
  | .tuesday => 1
  | .wednesday => 2
  | .thursday => 3
  | .friday => 4
  | .saturday => 5
  | .sunday => 6

/-- The day that a rule picks in a year. -/
def YearRule.dayIn (r : YearRule) (year : Int) : Int :=
  match r.pick with
  | .nth n =>
    let start := CivilDate.toDay ⟨year, r.month, 1⟩
    start + (weekdayNumber r.weekday - weekIndex start) % 7 + 7 * (n - 1)
  | .last =>
    let stop := CivilDate.toDay ⟨year, r.month, CivilDate.daysInMonth year r.month⟩
    stop - (weekIndex stop - weekdayNumber r.weekday) % 7

/-- The change that a rule makes in a year. -/
def YearRule.changeIn (r : YearRule) (year : Int) : Change :=
  ⟨r.dayIn year * dayMs + r.seconds * 1000, r.offset * 1000⟩

/-- A change given in seconds. -/
def changeOfSeconds (c : Int × Int) : Change :=
  ⟨c.1 * 1000, c.2 * 1000⟩

/-- The last year with a change. -/
def lastYear : Nat := 2099

/-- A zone with a first offset and a list of changes, all in seconds. -/
def listed (name : String) (first : Int) (changes : List (Int × Int))
    (short : IsOffset (first * 1000) ∧ ∀ c ∈ changes, IsOffset (c.2 * 1000) := by decide) : Zone :=
  ⟨name, first * 1000, changes.map changeOfSeconds, short.1, by
    intro c hc
    obtain ⟨pair, hp, rfl⟩ := List.mem_map.1 hc
    exact short.2 pair hp⟩

/-- A zone that changes by rules from a year on, after the listed changes. -/
def recurring (name : String) (first : Int) (changes : List (Int × Int)) (year : Nat)
    (rules : List YearRule)
    (short : IsOffset (first * 1000) ∧ (∀ c ∈ changes, IsOffset (c.2 * 1000)) ∧
      ∀ r ∈ rules, IsOffset (r.offset * 1000) := by decide) : Zone :=
  let years := (List.range (lastYear + 1 - year)).map fun n => Int.ofNat (year + n)
  ⟨name, first * 1000,
    changes.map changeOfSeconds ++ years.flatMap fun y => rules.map (·.changeIn y), short.1, by
    intro c hc
    rcases List.mem_append.1 hc with given | byRule
    · obtain ⟨pair, hp, rfl⟩ := List.mem_map.1 given
      exact short.2.1 pair hp
    · obtain ⟨y, -, hy⟩ := List.mem_flatMap.1 byRule
      obtain ⟨r, hr, rfl⟩ := List.mem_map.1 hy
      exact short.2.2 r hr⟩

/-- A zone that never changes, with its offset in seconds. -/
def fixed (name : String) (offset : Int) (short : IsOffset (offset * 1000) := by decide) : Zone :=
  ⟨name, offset * 1000, [], short, by simp⟩

/-- The same clock under another name. -/
def renamed (z : Zone) (name : String) : Zone :=
  ⟨name, z.first, z.changes, z.short⟩

/-- The zone of universal time. -/
def utc : Zone := fixed "UTC" 0

/-- The zone `America/New_York`. -/
def newYork : Zone :=
  recurring "America/New_York" (-18000) [
    (954658800, -14400), (972799200, -18000), (986108400, -14400), (1004248800, -18000),
    (1018162800, -14400), (1035698400, -18000), (1049612400, -14400), (1067148000, -18000),
    (1081062000, -14400), (1099202400, -18000), (1112511600, -14400), (1130652000, -18000),
    (1143961200, -14400), (1162101600, -18000)] 2007
    [⟨3, .nth 2, .sunday, 25200, -14400⟩,
      ⟨11, .nth 1, .sunday, 21600, -18000⟩]

/-- The zone `Europe/London`. -/
def london : Zone :=
  recurring "Europe/London" 0 [] 2000
    [⟨3, .last, .sunday, 3600, 3600⟩,
      ⟨10, .last, .sunday, 3600, 0⟩]

/-- The zone `Australia/Sydney`. -/
def sydney : Zone :=
  recurring "Australia/Sydney" 39600 [
    (954000000, 36000), (967305600, 39600), (985449600, 36000), (1004198400, 39600),
    (1017504000, 36000), (1035648000, 39600), (1048953600, 36000), (1067097600, 39600),
    (1080403200, 36000), (1099152000, 39600), (1111852800, 36000), (1130601600, 39600),
    (1143907200, 36000), (1162051200, 39600), (1174752000, 36000), (1193500800, 39600)] 2008
    [⟨4, .nth 1, .sunday, -28800, 36000⟩,
      ⟨10, .nth 1, .sunday, -28800, 39600⟩]

/-- The zone `Australia/Lord_Howe`. -/
def lordHowe : Zone :=
  recurring "Australia/Lord_Howe" 39600 [
    (953996400, 37800), (967303800, 39600), (985446000, 37800), (1004196600, 39600),
    (1017500400, 37800), (1035646200, 39600), (1048950000, 37800), (1067095800, 39600),
    (1080399600, 37800), (1099150200, 39600), (1111849200, 37800), (1130599800, 39600),
    (1143903600, 37800), (1162049400, 39600), (1174748400, 37800), (1193499000, 39600)] 2008
    [⟨4, .nth 1, .sunday, -32400, 37800⟩,
      ⟨10, .nth 1, .sunday, -30600, 39600⟩]

/-- The zone `America/Havana`. -/
def havana : Zone :=
  recurring "America/Havana" (-18000) [
    (954651600, -14400), (972795600, -18000), (986101200, -14400), (1004245200, -18000),
    (1018155600, -14400), (1035694800, -18000), (1049605200, -14400), (1067144400, -18000),
    (1080450000, -14400), (1162098000, -18000), (1173589200, -14400), (1193547600, -18000),
    (1205643600, -14400), (1224997200, -18000), (1236488400, -14400), (1256446800, -18000),
    (1268542800, -14400), (1288501200, -18000), (1300597200, -14400), (1321160400, -18000),
    (1333256400, -14400), (1352005200, -18000)] 2013
    [⟨3, .nth 2, .sunday, 18000, -14400⟩,
      ⟨11, .nth 1, .sunday, 18000, -18000⟩]

/-- The zone `Africa/Cairo`. -/
def cairo : Zone :=
  recurring "Africa/Cairo" 7200 [
    (956872800, 10800), (970174800, 7200), (988322400, 10800), (1001624400, 7200),
    (1019772000, 10800), (1033074000, 7200), (1051221600, 10800), (1064523600, 7200),
    (1083276000, 10800), (1096578000, 7200), (1114725600, 10800), (1128027600, 7200),
    (1146175200, 10800), (1158872400, 7200), (1177624800, 10800), (1189112400, 7200),
    (1209074400, 10800), (1219957200, 7200), (1240524000, 10800), (1250802000, 7200),
    (1272578400, 10800), (1281474000, 7200), (1284069600, 10800), (1285880400, 7200),
    (1400191200, 10800), (1403816400, 7200), (1406844000, 10800), (1411678800, 7200)] 2023
    [⟨4, .last, .friday, -7200, 10800⟩,
      ⟨10, .last, .thursday, 75600, 7200⟩]

/-- The zone `Antarctica/Troll`. -/
def troll : Zone :=
  recurring "Antarctica/Troll" 0 [] 2005
    [⟨3, .last, .sunday, 3600, 7200⟩,
      ⟨10, .last, .sunday, 3600, 0⟩]

/-- The zone `Pacific/Chatham`. -/
def chatham : Zone :=
  recurring "Pacific/Chatham" 49500 [
    (953388000, 45900), (970322400, 49500), (984837600, 45900), (1002376800, 49500),
    (1016287200, 45900), (1033826400, 49500), (1047736800, 45900), (1065276000, 49500),
    (1079791200, 45900), (1096725600, 49500), (1111240800, 45900), (1128175200, 49500),
    (1142690400, 45900), (1159624800, 49500), (1174140000, 45900), (1191074400, 49500)] 2008
    [⟨4, .nth 1, .sunday, -36000, 45900⟩,
      ⟨9, .last, .sunday, -36000, 49500⟩]

/-- The zone `America/St_Johns`. -/
def stJohns : Zone :=
  recurring "America/St_Johns" (-12600) [
    (954646260, -9000), (972786660, -12600), (986095860, -9000), (1004236260, -12600),
    (1018150260, -9000), (1035685860, -12600), (1049599860, -9000), (1067135460, -12600),
    (1081049460, -9000), (1099189860, -12600), (1112499060, -9000), (1130639460, -12600),
    (1143948660, -9000), (1162089060, -12600), (1173583860, -9000), (1194143460, -12600),
    (1205033460, -9000), (1225593060, -12600), (1236483060, -9000), (1257042660, -12600),
    (1268537460, -9000), (1289097060, -12600), (1299987060, -9000), (1320553800, -12600)] 2012
    [⟨3, .nth 2, .sunday, 19800, -9000⟩,
      ⟨11, .nth 1, .sunday, 16200, -12600⟩]

/-- The zone `Asia/Beirut`. -/
def beirut : Zone :=
  recurring "Asia/Beirut" 7200 [] 2000
    [⟨3, .last, .sunday, -7200, 10800⟩,
      ⟨10, .last, .sunday, -10800, 7200⟩]

/-- The zone `Asia/Amman`. -/
def amman : Zone :=
  listed "Asia/Amman" 7200 [
    (954367200, 10800), (970178400, 7200), (985816800, 10800), (1001628000, 7200),
    (1017352800, 10800), (1033077600, 7200), (1048802400, 10800), (1066946400, 7200),
    (1080252000, 10800), (1097791200, 7200), (1112306400, 10800), (1128031200, 7200),
    (1143756000, 10800), (1161900000, 7200), (1175205600, 10800), (1193349600, 7200),
    (1206655200, 10800), (1225404000, 7200), (1238104800, 10800), (1256853600, 7200),
    (1269554400, 10800), (1288303200, 7200), (1301608800, 10800), (1319752800, 7200),
    (1333058400, 10800), (1387486800, 7200), (1395957600, 10800), (1414706400, 7200),
    (1427407200, 10800), (1446156000, 7200), (1459461600, 10800), (1477605600, 7200),
    (1490911200, 10800), (1509055200, 7200), (1522360800, 10800), (1540504800, 7200),
    (1553810400, 10800), (1571954400, 7200), (1585260000, 10800), (1604008800, 7200),
    (1616709600, 10800), (1635458400, 7200), (1645740000, 10800)]

/-- The zone `America/Sao_Paulo`. -/
def saoPaulo : Zone :=
  listed "America/Sao_Paulo" (-7200) [
    (951616800, -10800), (970974000, -7200), (982461600, -10800), (1003028400, -7200),
    (1013911200, -10800), (1036292400, -7200), (1045360800, -10800), (1066532400, -7200),
    (1076810400, -10800), (1099364400, -7200), (1108864800, -10800), (1129431600, -7200),
    (1140314400, -10800), (1162695600, -7200), (1172368800, -10800), (1192330800, -7200),
    (1203213600, -10800), (1224385200, -7200), (1234663200, -10800), (1255834800, -7200),
    (1266717600, -10800), (1287284400, -7200), (1298167200, -10800), (1318734000, -7200),
    (1330221600, -10800), (1350788400, -7200), (1361066400, -10800), (1382238000, -7200),
    (1392516000, -10800), (1413687600, -7200), (1424570400, -10800), (1445137200, -7200),
    (1456020000, -10800), (1476586800, -7200), (1487469600, -10800), (1508036400, -7200),
    (1518919200, -10800), (1541300400, -7200), (1550368800, -10800)]

/-- The zone `Pacific/Apia`. -/
def apia : Zone :=
  listed "Pacific/Apia" (-39600) [
    (1285498800, -36000), (1301752800, -39600), (1316872800, -36000), (1325239200, 50400),
    (1333202400, 46800), (1348927200, 50400), (1365256800, 46800), (1380376800, 50400),
    (1396706400, 46800), (1411826400, 50400), (1428156000, 46800), (1443276000, 50400),
    (1459605600, 46800), (1474725600, 50400), (1491055200, 46800), (1506175200, 50400),
    (1522504800, 46800), (1538229600, 50400), (1554559200, 46800), (1569679200, 50400),
    (1586008800, 46800), (1601128800, 50400), (1617458400, 46800)]

/-- Every zone that a name may stand for. -/
def known : List Zone := [
  newYork,
  london,
  sydney,
  lordHowe,
  havana,
  cairo,
  troll,
  chatham,
  stJohns,
  beirut,
  amman,
  saoPaulo,
  apia,
  utc,
  fixed "Etc/UTC" 0,
  fixed "GMT" 0,
  fixed "EST" (-18000),
  fixed "Asia/Tokyo" 32400,
  fixed "Asia/Kolkata" 19800,
  fixed "Asia/Kathmandu" 20700,
  fixed "Pacific/Kiritimati" 50400,
  fixed "Etc/GMT+12" (-43200),
  newYork.renamed "US/Eastern",
  newYork.renamed "EST5EDT",
  london.renamed "Europe/Dublin"]

end MarketBook.Zone
