import Sevmgr.Model.Sample
import Sevmgr.Model.SampleBoost
import Sevmgr.Model.Simulation

/-!
A concrete setting for the interactive program and for the listings.

* `Date.ofDayNumber`, `PTime.ofDateTime`: the date of a day, and the date and the time of day of a
  date-time.
* `CalendarType`: the two event types, with date-times counted as in `ptime`.
* `calendarEvent`: an event as StdAir builds it, at a date-time of the calendar. The events of the
  sample queue are four of these.
* `sampleTerminal`, `sampleImport`: how its events are shown, and the commands in JSON.
-/

namespace Sevmgr

/-! ### Days back to dates -/

/-- The block in which a number lies is the last one that begins before it. -/
lemma findGreatest_block {f : ℕ → ℕ} (hf : Monotone f) {n r m : ℕ} (hr : f n + r < f (n + 1))
    (hm : n ≤ m) : Nat.findGreatest (fun n' => f n' ≤ f n + r) m = n := by
  rw [Nat.findGreatest_eq_iff]
  refine ⟨hm, fun _ => Nat.le_add_right _ _, fun n' hlt _ hle => ?_⟩
  have hmono := hf (show n + 1 ≤ n' from hlt)
  omega

/-- The year of a day. -/
def yearOf (n : ℕ) : ℕ := Nat.findGreatest (fun year => daysBeforeYear year ≤ n) (n / 365 + 1)

/-- The month of a day of the year. -/
def monthOf (year n : ℕ) : ℕ := Nat.findGreatest (fun month => daysBeforeMonth year month ≤ n) 12

/-- The number of years is at most that of the days divided by 365. -/
lemma mul_le_daysBeforeYear (year : ℕ) : 365 * (year - 1) ≤ daysBeforeYear year := by
  have hcenturies : (year - 1) / 100 ≤ (year - 1) / 4 :=
    Nat.div_le_div_left (by decide) (by decide)
  rw [daysBeforeYear]
  omega

namespace Date

/-- The date of a day, where there is one. -/
def ofDayNumber (n : ℕ) : Date :=
  let year := yearOf n
  let month := monthOf year (n - daysBeforeYear year)
  let day := n - daysBeforeYear year - daysBeforeMonth year month + 1
  if h : IsDate year month day then ⟨year, month, day, h⟩ else ⟨1400, 1, 1, by decide⟩

lemma yearOf_dayNumber (date : Date) : yearOf date.dayNumber = date.year := by
  refine findGreatest_block monotone_daysBeforeYear date.dayOfYear_lt ?_
  have hyears := mul_le_daysBeforeYear date.year
  rw [dayNumber]
  omega

lemma monthOf_dayNumber (date : Date) :
    monthOf date.year (daysBeforeMonth date.year date.month + (date.day - 1)) = date.month :=
  findGreatest_block (monotone_daysBeforeMonth date.year) date.dayOfMonth_lt date.valid.2.1.2

/-- **The date of the day of a date** is that date. -/
theorem ofDayNumber_dayNumber (date : Date) : ofDayNumber date.dayNumber = date := by
  have hrest : date.dayNumber - daysBeforeYear date.year
      = daysBeforeMonth date.year date.month + (date.day - 1) :=
    Nat.add_sub_cancel_left _ _
  have hday : date.day - 1 + 1 = date.day := Nat.sub_add_cancel date.valid.2.2.1
  have hdate : IsDate date.year date.month (date.day - 1 + 1) := by
    rw [hday]
    exact date.valid
  simp only [ofDayNumber, yearOf_dayNumber, hrest, monthOf_dayNumber, Nat.add_sub_cancel_left,
    hdate, dif_pos]
  exact Date.ext rfl rfl hday

end Date

/-- The date and the time of day of a date-time. -/
def PTime.ofDateTime (d : DateTime) : PTime where
  date := .ofDayNumber (d / microsecondsOfDay).toNat
  timeOfDay := d % microsecondsOfDay
  valid := ⟨Int.emod_nonneg _ (by decide), Int.emod_lt_of_pos _ (by decide)⟩

/-- **The date and the time of day of a date-time composed of them** are these. -/
theorem PTime.ofDateTime_dateTime (p : PTime) : ofDateTime p.dateTime = p := by
  have hbounds := p.bounds
  have hday : p.dateTime / microsecondsOfDay = p.date.dayNumber := by
    show (86400000000 * (p.date.dayNumber : ℤ) + p.timeOfDay) / 86400000000 = p.date.dayNumber
    omega
  have htime : p.dateTime % microsecondsOfDay = p.timeOfDay := by
    show (86400000000 * (p.date.dayNumber : ℤ) + p.timeOfDay) % 86400000000 = p.timeOfDay
    omega
  refine PTime.ext ?_ htime
  rw [ofDateTime, hday, Int.toNat_natCast, Date.ofDayNumber_dayNumber]

/-! ### Events of the calendar -/

/-- The members of `EN_EventType` named in SEvMgr. -/
def CalendarType : Type := SampleType

namespace CalendarType

instance : LinearOrder CalendarType := inferInstanceAs (LinearOrder SampleType)

instance : Stdair CalendarType where
  bkgReq := SampleType.bkgReq
  brkPt := SampleType.brkPt
  bkgReq_ne_brkPt := Stdair.bkgReq_ne_brkPt (T := SampleType)
  getLabel t := getLabel (show SampleType from t)
  defaultEventOldestDateTime := ptime ⟨2010, 1, 1, by decide⟩ 0

end CalendarType

/-- An event of the given type at `p`, labelled `n`. Its stamp counts the milliseconds from the
oldest date-time. -/
def calendarEvent (t : CalendarType) (p : PTime) (n : ℕ) : EventStruct CalendarType ℕ :=
  ⟨t, p.dateTime, n, (p.dateTime - defaultEventOldestDateTime CalendarType) / 1000⟩

namespace Calendar

/-- The first booking request of the sample queue, of 15 May 2011. -/
def request : EventStruct CalendarType ℕ :=
  calendarEvent bkgReq (Date.midnight ⟨2011, 5, 15, by decide⟩) 1

/-- The second one, of 22 January 2010. -/
def requestForCRS : EventStruct CalendarType ℕ :=
  calendarEvent bkgReq (Date.midnight ⟨2010, 1, 22, by decide⟩) 2

/-- The two break points. -/
def breakPoint1 : EventStruct CalendarType ℕ := calendarEvent brkPt lBP1DateTime 3

def breakPoint2 : EventStruct CalendarType ℕ := calendarEvent brkPt lBP2DateTime 4

end Calendar

/-! ### Texts -/

/-- The name of an event type. -/
def sampleTypeOf (s : Text) : Option CalendarType :=
  if s = "BookingRequest".toList then some bkgReq
  else if s = "BreakPoint".toList then some brkPt
  else none

/-- An object with one member, as `read_json` accepts it. -/
def sampleReadJson (s : String) : Option PTree :=
  match s.toList.splitOn '"' with
  | [['\x7b'], name, [':', ' '], data, ['\x7d']] =>
      some (.node "" [(String.ofList name, .node (String.ofList data) [])])
  | _ => none

mutual

/-- A property tree as `write_json` writes it, without the blanks and the line ends: a text, an
array if all names are empty, and an object else. -/
def sampleWriteJson : PTree → String
  | .node data [] => "\"" ++ data ++ "\""
  | .node _ (child :: children) =>
      if (child :: children).all (fun tree => tree.1 = "") then
        "[" ++ sampleWriteChildren false (child :: children) ++ "]"
      else "\x7b" ++ sampleWriteChildren true (child :: children) ++ "\x7d"

/-- The trees under a tree, with or without their names. -/
def sampleWriteChildren (named : Bool) : List (String × PTree) → String
  | [] => ""
  | (name, tree) :: children =>
      (if named then "\"" ++ name ++ "\":" else "") ++ sampleWriteJson tree
        ++ (if children.isEmpty then "" else ",") ++ sampleWriteChildren named children

end

/-- How the events of the calendar are shown. -/
def sampleShowing : Showing CalendarType ℕ where
  describe e := getLabel e.eventType ++ " " ++ Nat.repr e.content ++ "\n"
  jsonExportEventObject e := "\x7b\"id\": \"" ++ Nat.repr e.content ++ "\"\x7d"
  readJson := sampleReadJson
  writeJson := sampleWriteJson

/-- The commands that come as JSON, by their names: the first one of a text is the command, the
third one the event type. -/
def sampleImport : JsonImport CalendarType Text where
  eventList := "event_list".toList
  getLabel := String.ofList
  jsonImportCommand s := (s.toList.splitOn '"')[1]?
  jsonImportEventType s := (s.toList.splitOn '"')[5]?.bind sampleTypeOf

/-- The libraries of the interactive program. -/
def sampleTerminal : Terminal CalendarType ℕ where
  toBoost := sampleBoost true
  toShowing := sampleShowing
  ptimeOf := .ofDateTime
  showDateTime d :=
    let p := PTime.ofDateTime d
    (sampleBoost true).showDate p.date ++ ' ' :: timeText p.hours p.minutes p.seconds
  getTypeLabelAsString := getLabel
  eventTypeOfString s := sampleTypeOf s.toList
  ptimeOf_dateTime := PTime.ofDateTime_dateTime

end Sevmgr
