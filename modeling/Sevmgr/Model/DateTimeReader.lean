import Sevmgr.Library.Regex
import Sevmgr.Model.Boost

/-!
The reader of date-times of the interactive program, `sevmgr/ui/cmdline/sevmgr.cpp`.

* `toString`, `extractTokenList`, `extractTokenListForDateTime`: the line that the user typed, and
  the tokens that a regular expression finds in it.
* `readNumber`, `readMonth`: one component read from its token, with the default where that is
  empty.
* `readDate`, `readTime`: the components of the date and of the time, and what is recomposed of them
  by `recomposeDate` and `recomposeTime`.
* `parseEventDateTime`: the two of them one after the other, on a date and a time passed by
  reference.
-/

namespace Sevmgr

namespace DateTimeReader

/-! ### Tokens -/

/-- The loop of `toString`, whose counter is an `unsigned short`. -/
def toStringFrom (idx : ℕ) : List Text → Text
  | [] => []
  | tok :: toks =>
      (if idx ≠ 0 then [' '] else []) ++ tok ++ toStringFrom ((idx + 1) % 2 ^ 16) toks

/-- `toString (iTokenList)`. -/
def toString (iTokenList : List Text) : Text := toStringFrom 0 iTokenList

/-- `extractTokenList (iTokenList, iRegularExpression)`: what the groups 1 to `n` have recorded.
Whether the expression has been found is not asked; where it has not, no group has recorded
anything and all tokens are empty. -/
def extractTokenList (n : ℕ) (iTokenList : List Text) (iRegularExpression : Regex Char) :
    List Text :=
  match iRegularExpression.search (toString iTokenList) with
  | none => List.replicate n []
  | some what => (List.range n).map fun i => what.captures (i + 1)

/-- `[[:space:]]` -/
def isSpace (c : Char) : Bool :=
  c = ' ' || c = '\t' || c = '\n' || c = '\x0b' || c = '\x0c' || c = '\r'

/-- A slash or a hyphen. -/
def isDateSeparator (c : Char) : Bool := c = '/' || c = '-'

/-- A colon or a hyphen. -/
def isTimeSeparator (c : Char) : Bool := c = ':' || c = '-'

/-- The characters that end a line. -/
def isLineSeparator (c : Char) : Bool := c = '\n' || c = '\r' || c = '\x0c'

/-- `^`: the start of the text or of a line in it. -/
def lineStart : Regex Char := .assert fun before after =>
  match before with
  | none => true
  | some b => isLineSeparator b && !(b = '\r' && after = some '\n')

/-- `$`: the end of the text or of a line in it. -/
def lineEnd : Regex Char := .assert fun before after =>
  match after with
  | none => true
  | some a => isLineSeparator a && !(before = some '\r' && a = '\n')

/-- `[[:digit:]]{m,n}` -/
def digits (m n : ℕ) : Regex Char := (Regex.letter Char.isDigit).between m n

/-- `[[:alpha:]]{3}|[[:digit:]]{1,2}` -/
def wordOrNumber : Regex Char := .alt ((Regex.letter Char.isAlpha).times 3) (digits 1 2)

/-- `[[:space:]]*` -/
def spaces : Regex Char := .star (.letter isSpace)

/-- The expression of `extractTokenListForDateTime`. -/
def lRegEx : Regex Char := .seqs
  [lineStart, .opt (.group 1 (digits 2 4)), .opt (.letter isDateSeparator), spaces,
    .opt (.group 2 wordOrNumber), .opt (.letter isDateSeparator), spaces,
    .opt (.group 3 (digits 1 2)), spaces,
    .opt (.group 4 (digits 1 2)), .opt (.letter isTimeSeparator), spaces,
    .opt (.group 5 wordOrNumber), .opt (.letter isTimeSeparator), spaces,
    .opt (.group 6 (digits 1 2)), spaces, lineEnd]

/-- `extractTokenListForDateTime (iTokenList)`. -/
def extractTokenListForDateTime (iTokenList : List Text) : List Text :=
  extractTokenList 6 iTokenList lRegEx

/-! ### Components -/

/-- `"The " << subject << " ('" << text << "') cannot be understood. The default value (" << kept <<
") is kept. "` -/
structure Complaint where
  subject : String
  text : Text
  kept : Text
deriving DecidableEq

/-- The message on the error stream. -/
def Complaint.message (c : Complaint) : String :=
  "The " ++ c.subject ++ " ('" ++ String.ofList c.text
    ++ "') cannot be understood. The default value (" ++ String.ofList c.kept ++ ") is kept. "

/-- How the reader ends: it returns, after a complaint or without one, an exception leaves it, or it
reads out of the range of a list or a table. -/
inductive Exit where
  | returned (complaint : Option Complaint)
  | raised (x : BoostException)
  | outOfRange
deriving DecidableEq

/-- The reader returns because it does not understand a text. -/
def Exit.complain (subject : String) (text kept : Text) : Exit :=
  .returned (some ⟨subject, text, kept⟩)

/-- `kMonthStr`. -/
def kMonthStr : List Text :=
  [['J', 'a', 'n'], ['F', 'e', 'b'], ['M', 'a', 'r'], ['A', 'p', 'r'], ['M', 'a', 'y'],
    ['J', 'u', 'n'], ['J', 'u', 'l'], ['A', 'u', 'g'], ['S', 'e', 'p'], ['O', 'c', 't'],
    ['N', 'o', 'v'], ['D', 'e', 'c']]

/-- `kMonthStr[i]`. -/
def monthStr (i : ℤ) : Except Exit Text :=
  match i with
  | .ofNat n => match kMonthStr[n]? with
      | some s => .ok s
      | none => .error .outOfRange
  | .negSucc _ => .error .outOfRange

/-- `++itTok`. -/
def advance : List Text → Except Exit (List Text)
  | [] => .error .outOfRange
  | _ :: itTok => .ok itTok

/-- `if (itTok != iTokenList.end()) { ... } else { return; }` -/
def atToken {β : Type} (itTok : List Text) (read : Text → Except Exit β) : Except Exit β :=
  match itTok with
  | [] => .error (.returned none)
  | tok :: _ => read tok

variable (B : Boost)

/-- A component that is a number; `adjust` is applied to a number that was typed. -/
def readNumber (subject : String) (adjust : ℕ → ℕ) (default : ℕ) (tok : Text) : Except Exit ℕ :=
  if tok.isEmpty then .ok default
  else match B.lexicalCast tok with
    | some n => .ok (adjust n)
    | none => .error (.complain subject tok (decimal default))

/-- The year; below 100 it is one of this century. -/
def readYear (ioEventDateYear : ℕ) : Text → Except Exit ℕ :=
  readNumber B "year of the event date" (fun n => if n < 100 then n + 2000 else n) ioEventDateYear

/-- The day. -/
def readDay (ioEventDateDay : ℕ) : Text → Except Exit ℕ :=
  readNumber B "day of the event date" id ioEventDateDay

/-- The hours. -/
def readHours (ioEventTimeHours : ℕ) : Text → Except Exit ℕ :=
  readNumber B "hours of the event time" id ioEventTimeHours

/-- The minutes. -/
def readMinutes (ioEventTimeMinutes : ℕ) : Text → Except Exit ℕ :=
  readNumber B "minutes of the event time" id ioEventTimeMinutes

/-- The seconds. -/
def readSeconds (ioEventTimeSeconds : ℕ) : Text → Except Exit ℕ :=
  readNumber B "seconds of the event time" id ioEventTimeSeconds

/-- `"^(\\d{1,2})$"` -/
def lMonthRegex : Regex Char := .seqs [lineStart, .group 1 (digits 1 2), lineEnd]

/-- The month, as a number or as the first three letters of a word. -/
def readMonth (ioEventDateMonthStr tok : Text) : Except Exit Text :=
  let reject := Exit.complain "month of the event date" tok ioEventDateMonthStr
  if tok.isEmpty then .ok ioEventDateMonthStr
  else if lMonthRegex.matchesAll tok then
    match B.lexicalCast tok with
    | some lMonth => if lMonth > 12 then .error reject else monthStr ((lMonth : ℤ) - 1)
    | none => .error reject
  else if tok.length < 3 then .error reject
  else .ok ((tok.take 1).map Char.toUpper ++ ((tok.drop 1).take 2).map Char.toLower)

/-! ### The date and the time -/

/-- The conversion of an `int` to `unsigned short`. -/
def toUnsignedShort (x : ℤ) : ℕ := (x % 2 ^ 16).toNat

/-- `hours()` of a duration. -/
def hours (d : Duration) : ℤ := d.tdiv 3600000000

/-- `minutes()` of a duration. -/
def minutes (d : Duration) : ℤ := (d.tdiv 60000000).tmod 60

/-- `seconds()` of a duration. -/
def seconds (d : Duration) : ℤ := (d.tdiv 1000000).tmod 60

/-- The date read back from the text made of its components. -/
def recomposeDate (ioEventDate : Date) (year : ℕ) (month : Text) (day : ℕ) : Except Exit Date :=
  match B.fromSimpleString (dateText year month day) with
  | .ok date => .ok date
  | .error .badMonth =>
      .error (.complain "event date" (dateText year month day) (B.showDate ioEventDate))
  | .error x => .error (.raised x)

/-- The date, from the first token on, with the place in the list where it was completed. -/
def readDate (ioEventDate : Date) (iTokenList : List Text) : Except Exit (Date × List Text) := do
  let monthStr₀ ← monthStr ((ioEventDate.month : ℤ) - 1)
  let itTok := iTokenList
  let year ← atToken itTok (readYear B ioEventDate.year)
  let itTok ← advance itTok
  -- the one component whose absence does not end the reading
  let month ← match itTok with
    | [] => .ok monthStr₀
    | tok :: _ => readMonth B monthStr₀ tok
  let itTok ← advance itTok
  let day ← atToken itTok (readDay B ioEventDate.day)
  let date ← recomposeDate B ioEventDate year month day
  .ok (date, itTok)

/-- The time read back from the text made of its components. -/
def recomposeTime (ioEventTime : Duration) (hrs mins secs : ℕ) : Except Exit Duration :=
  match B.durationFromString (timeText hrs mins secs) with
  | .ok time => .ok time
  | .error .badMonth =>
      .error (.complain "event time" (timeText hrs mins secs) (B.showDuration ioEventTime))
  | .error x => .error (.raised x)

/-- The time, from the token after the one the date was completed with. -/
def readTime (ioEventTime : Duration) (itTok : List Text) : Except Exit Duration := do
  let itTok ← advance itTok
  let hrs ← atToken itTok (readHours B (toUnsignedShort (hours ioEventTime)))
  let itTok ← advance itTok
  let mins ← atToken itTok (readMinutes B (toUnsignedShort (minutes ioEventTime)))
  let itTok ← advance itTok
  let secs ← atToken itTok (readSeconds B (toUnsignedShort (seconds ioEventTime)))
  recomposeTime B ioEventTime hrs mins secs

/-- What the reader leaves: how it ended, and the date and the time passed by reference. -/
structure Reading where
  exit : Exit
  date : Date
  time : Duration
deriving DecidableEq

/-- `parseEventDateTime (iTokenList, ioEventDate, ioEventTime)`. -/
def parseEventDateTime (iTokenList : List Text) (ioEventDate : Date) (ioEventTime : Duration) :
    Reading :=
  if iTokenList.isEmpty then ⟨.returned none, ioEventDate, ioEventTime⟩
  else match readDate B ioEventDate iTokenList with
    | .error x => ⟨x, ioEventDate, ioEventTime⟩
    | .ok (date, itTok) =>
        -- the date is assigned before the time is read
        match readTime B ioEventTime itTok with
        | .error x => ⟨x, date, ioEventTime⟩
        | .ok time => ⟨.returned none, date, time⟩

end DateTimeReader

end Sevmgr
