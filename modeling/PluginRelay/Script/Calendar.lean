/-!
# Days and times

Times are milliseconds from the start of 1970, without leap seconds; years follow the calendar of today
in both directions.
-/
namespace PluginRelay.Script.Calendar

/-- The parts of a time. Months count from 0, days of a month from 1, days of a week from Sunday. -/
structure Parts where
  year : Int
  month : Int
  day : Int
  hour : Int
  minute : Int
  second : Int
  millisecond : Int
  weekday : Int
  deriving Repr, Inhabited

def dayLength : Int := 86400000

/-- No time lies further from the start. -/
def limit : Int := 8640000000000000

/-- Days from the start of 1970 to a day of a year that starts in March. -/
def daysBefore (year month : Int) : Int :=
  let year := year + month.fdiv 12
  let month := month.fmod 12
  let shifted := if month < 2 then year - 1 else year
  let fromMarch := (month + 10).fmod 12
  let days := (153 * fromMarch + 2) / 5
  365 * shifted + shifted.fdiv 4 - shifted.fdiv 100 + shifted.fdiv 400 + days - 719468

/-- The time of parts; parts beyond their range carry over. -/
def toTime (p : Parts) : Int :=
  (daysBefore p.year p.month + p.day - 1) * dayLength + p.hour * 3600000 + p.minute * 60000 +
    p.second * 1000 + p.millisecond

/-- The parts of a time. -/
def ofTime (t : Int) : Parts :=
  let days := t.fdiv dayLength
  let rest := t.fmod dayLength
  let z := days + 719468
  let era := z.fdiv 146097
  let dayOfEra := z.fmod 146097
  let yearOfEra := (dayOfEra - dayOfEra / 1460 + dayOfEra / 36524 - dayOfEra / 146096) / 365
  let dayOfYear := dayOfEra - (365 * yearOfEra + yearOfEra / 4 - yearOfEra / 100)
  let fromMarch := (5 * dayOfYear + 2) / 153
  let day := dayOfYear - (153 * fromMarch + 2) / 5 + 1
  let month := if fromMarch < 10 then fromMarch + 2 else fromMarch - 10
  let year := yearOfEra + era * 400 + (if month < 2 then 1 else 0)
  ⟨year, month, day, rest / 3600000, rest / 60000 % 60, rest / 1000 % 60, rest % 1000,
    (days + 4).fmod 7⟩

def clip (t : Int) : Option Int := if t.natAbs ≤ limit.natAbs then some t else none

def dayNames : List String := ["Sun", "Mon", "Tue", "Wed", "Thu", "Fri", "Sat"]

def monthNames : List String :=
  ["Jan", "Feb", "Mar", "Apr", "May", "Jun", "Jul", "Aug", "Sep", "Oct", "Nov", "Dec"]

def dayName (p : Parts) : String := dayNames.getD p.weekday.toNat ""

def monthName (p : Parts) : String := monthNames.getD p.month.toNat ""

/-- A number with zeros before it. -/
def padded (width : Nat) (n : Int) : String :=
  let digits := toString n.natAbs
  String.ofList (List.replicate (width - digits.length) '0') ++ digits

def signedYear (p : Parts) : String := (if p.year < 0 then "-" else "") ++ padded 4 p.year

def clock (p : Parts) : String := padded 2 p.hour ++ ":" ++ padded 2 p.minute ++ ":" ++ padded 2 p.second

/-- How times are written. -/
inductive Style where
  | universal | plain | standard | short
  deriving DecidableEq

def dateText (style : Style) (p : Parts) : String :=
  match style with
  | .universal => dayName p ++ ", " ++ padded 2 p.day ++ " " ++ monthName p ++ " " ++ signedYear p
  | .plain => dayName p ++ " " ++ monthName p ++ " " ++ padded 2 p.day ++ " " ++ signedYear p
  | .standard =>
    let year := if 0 ≤ p.year && p.year ≤ 9999 then padded 4 p.year
      else (if p.year < 0 then "-" else "+") ++ padded 6 p.year
    year ++ "-" ++ padded 2 (p.month + 1) ++ "-" ++ padded 2 p.day
  | .short => padded 2 (p.month + 1) ++ "/" ++ padded 2 p.day ++ "/" ++ signedYear p

def timeText (style : Style) (p : Parts) : String :=
  match style with
  | .universal => clock p ++ " GMT"
  | .plain => clock p ++ " GMT+0000"
  | .standard => clock p ++ "." ++ padded 3 p.millisecond ++ "Z"
  | .short =>
    padded 2 ((p.hour + 11) % 12 + 1) ++ ":" ++ padded 2 p.minute ++ ":" ++ padded 2 p.second ++
      (if p.hour < 12 then " AM" else " PM")

/-- What stands between date and time. -/
def Style.between : Style → String
  | universal | plain => " "
  | standard => "T"
  | short => ", "

def text (style : Style) (date time : Bool) (t : Int) : String :=
  let p := ofTime t
  (if date then dateText style p else "") ++ (if date && time then style.between else "") ++
    (if time then timeText style p else "")

/-! ### Reading -/

def number (cs : List Char) : Int := (cs.foldl (fun n c => n * 10 + (c.toNat - 48)) 0 : Nat)

/-- A number of exactly `count` digits, and what follows it. -/
def digits? (count : Nat) (cs : List Char) : Option (Int × List Char) :=
  let found := cs.take count
  if found.length = count && found.all Char.isDigit then some (number found, cs.drop count) else none

def after? (c : Char) : List Char → Option (List Char)
  | d :: rest => if c = d then some rest else none
  | [] => none

/-- A year: four digits, or a sign and six. -/
def year? (cs : List Char) : Option (Int × List Char) :=
  match cs with
  | '+' :: rest => digits? 6 rest
  | '-' :: rest => (digits? 6 rest).bind fun (n, rest) => if n = 0 then none else some (-n, rest)
  | _ => digits? 4 cs

/-- A fraction of a second in milliseconds. -/
def fraction (cs : List Char) : Int × List Char :=
  match cs with
  | c :: rest =>
    let found := rest.takeWhile Char.isDigit
    if (c = '.' || c = ',') && !found.isEmpty then
      (number ((found ++ ['0', '0', '0']).take 3), rest.drop found.length)
    else (0, cs)
  | [] => (0, [])

/-- The distance to universal time in minutes. -/
def zone? (cs : List Char) : Option Int :=
  let distance (sign : Int) (rest : List Char) : Option Int := do
    let (h, rest) ← digits? 2 rest
    let rest := (after? ':' rest).getD rest
    let (m, rest) ← digits? 2 rest
    if rest.isEmpty then some (sign * (h * 60 + m)) else none
  match cs with
  | [] | ['Z'] | ['z'] => some 0
  | '+' :: rest => distance 1 rest
  | '-' :: rest => distance (-1) rest
  | _ => none

/-- A time in the standard form; parts from the end may be missing. -/
def standard? (cs : List Char) : Option Int := do
  let (year, rest) ← year? cs
  let optional (mark : Char) (missing : Int) (rest : List Char) : Option (Int × List Char) :=
    match after? mark rest with
    | some rest => digits? 2 rest
    | none => some (missing, rest)
  let (month, rest) ← optional '-' 1 rest
  let (day, rest) ← optional '-' 1 rest
  let inRange (n low high : Int) : Option Unit := if low ≤ n && n ≤ high then some () else none
  inRange month 1 12
  inRange day 1 31
  match rest with
  | [] => return toTime ⟨year, month - 1, day, 0, 0, 0, 0, 0⟩
  | c :: rest =>
    if c ≠ 'T' && c ≠ 't' && c ≠ ' ' then none
    else
      let (hour, rest) ← digits? 2 rest
      let (minute, rest) ← digits? 2 (← after? ':' rest)
      let (second, rest) ← optional ':' 0 rest
      let (ms, rest) := fraction rest
      inRange hour 0 24
      inRange minute 0 59
      inRange second 0 59
      if hour = 24 && (minute, second, ms) ≠ (0, 0, 0) then none
      let distance ← zone? rest
      return toTime ⟨year, month - 1, day, hour, minute - distance, second, ms, 0⟩

/-- The words of a text, without commas and what is in brackets. -/
def words (cs : List Char) : List (List Char) :=
  (cs.splitBy fun a b => !(a = ' ' || a = ',') && !(b = ' ' || b = ',')).filter fun w =>
    !(w = [' '] || w = [',']) && w.head? ≠ some '(' && !w.contains ')'

def monthOf? (w : List Char) : Option Int :=
  let start := (w.take 3).map Char.toLower
  (monthNames.findIdx? fun m => m.toList.map Char.toLower = start).map Int.ofNat

def clock? (w : List Char) : Option (Int × Int × Int) := do
  let (h, rest) ← digits? 2 w
  let (m, rest) ← digits? 2 (← after? ':' rest)
  match rest with
  | [] => return (h, m, 0)
  | rest =>
    let (s, rest) ← digits? 2 (← after? ':' rest)
    if rest.isEmpty then return (h, m, s) else none

/-- A time in words: a month's name, day and year, and perhaps a time of day with its zone. -/
def inWords? (cs : List Char) : Option Int := do
  let ws := words cs
  let month ← ws.findSome? monthOf?
  let numbers := (ws.filter fun w => !w.isEmpty && w.all Char.isDigit).map number
  let (day, year) ← match numbers with
    | [a, b] => some (if 31 < a then (b, a) else (a, b))
    | _ => none
  let (h, m, s) := (ws.findSome? clock?).getD (0, 0, 0)
  let zone := (ws.findSome? fun w =>
    if w.take 3 = ['G', 'M', 'T'] || w.take 3 = ['U', 'T', 'C'] then zone? (w.drop 3) else none).getD 0
  return toTime ⟨year, month, day, h, m - zone, s, 0, 0⟩

/-- The time that a text stands for. -/
def parse? (cs : List Char) : Option Int := ((standard? cs).orElse fun _ => inWords? cs).bind clip

end PluginRelay.Script.Calendar
