import TokenSearch.Search.Match
import TokenSearch.Text.Utf8

namespace TokenSearch

/-! A match shown with the lines that it touches. -/

structure Hit where
  path : String
  file : Int
  startLine : Int
  endLine : Int
  first : Int
  last : Int
  text : String
  /-- Where the matched tokens begin and end in `text`, in characters. -/
  highlightStart : Int
  highlightEnd : Int
deriving DecidableEq, Repr, Inhabited

namespace Hit

def highlighted (hit : Hit) : String :=
  String.ofList (Data.slice hit.text.toList hit.highlightStart hit.highlightEnd)

/-- The pieces between line feeds. -/
def pieces (current : List Char) : List Char → List (List Char)
  | [] => [current.reverse]
  | c :: rest => if c = '\n' then current.reverse :: pieces [] rest else pieces (c :: current) rest

/-- A line without one carriage return at its end. -/
def withoutReturn (line : List Char) : List Char :=
  if line.getLast? = some '\r' then line.dropLast else line

def numberFrom (number : Int) : List String → List (Int × String)
  | [] => []
  | line :: rest => (number, line) :: numberFrom (number + 1) rest

/-- The lines with their numbers, without line ends. -/
def numberedLines (hit : Hit) : List (Int × String) :=
  numberFrom hit.startLine
    ((pieces [] hit.text.toList).map (fun line => String.ofList (withoutReturn line)))

/-- The text with blanks in front up to the given width. -/
def padLeft (width : Nat) (text : String) : String :=
  String.ofList (List.replicate (width - text.length) ' ') ++ text

/-- The place, the numbered lines, and a blank line. -/
def format (hit : Hit) : String :=
  let place :=
    if hit.startLine = hit.endLine then toString hit.startLine
    else toString hit.startLine ++ "-" ++ toString hit.endLine
  let width := (toString hit.endLine).length
  let lines := hit.numberedLines.map (fun (number, line) =>
    padLeft width (toString number) ++ ": " ++ line)
  "\n".intercalate ((hit.path ++ ":" ++ place) :: lines) ++ "\n\n"

end Hit

namespace Search

def lineFeed : UInt8 := 0x0A
def carriageReturn : UInt8 := 0x0D

/-- Where the line begins that holds the byte before `stop`. -/
def lineStart (source : Bytes) (stop : Int) : Nat :=
  let before := Data.slice source 0 stop
  before.length - (before.reverse.takeWhile (· != lineFeed)).length

/-- Where the line ends that goes on at `start`. -/
def lineEnd (source : Bytes) (start : Int) : Nat :=
  let from_ := Data.clamp source.length start
  from_ + ((source.drop from_).takeWhile (· != lineFeed)).length

/-- One carriage return before the end of a line is left out. -/
def dropReturn (source : Bytes) (start stop : Nat) : Nat :=
  if start < stop ∧ source[stop - 1]? = some carriageReturn then stop - 1 else stop

def decodeSlice (source : Bytes) (start stop : Int) : Except Fault (List Char) :=
  match Text.Utf8.decode (Data.slice source start stop) with
  | .ok chars => .ok chars
  | .error sequence => .error (.undecodable sequence)

/-- A place in the bytes of a file. -/
def offsetOf : Cell → Except Fault Int
  | .integer n => .ok n
  | _ => .error (.misfit .notIndex)

/-- The line of a hit, or why the value is none. -/
def lineOf (field : String) : Cell → Except (String × Settings.Cause) Int
  | .integer n => .ok n
  | .real _ => .error (field, .fraction)
  | _ => .error (field, .unreadableInteger)

/-- The two lines of a match. -/
def linesOf (found : Match) : Except Fault (Int × Int) :=
  match lineOf "start_line" found.startLine, lineOf "end_line" found.endLine with
  | .ok first, .ok last => .ok (first, last)
  | .error first, .error last => .error (.invalidHit [first, last])
  | .error problem, _ | _, .error problem => .error (.invalidHit [problem])

/-- The path that an entry tells. -/
def pathText : Cell → String
  | .blob value => Text.Utf8.decodeLossy value
  | cell => cell.words

/-- Shows a match by the bytes `source` of its file. -/
def renderFrom (reader : Reader) (found : Match) (source : Bytes) : Except Fault Hit := do
  let tokens ← reader.window found.file found.first (found.last + 1)
  match tokens with
  | [] => .error (.outOfRange reader.holder)
  | first :: rest => do
      let last := rest.getLastD first
      let begins ← offsetOf first.start.offset
      let ends ← offsetOf last.stop.offset
      let start := lineStart source begins
      let stop := dropReturn source start (lineEnd source ends)
      let before ← decodeSlice source start begins
      let marked ← decodeSlice source begins ends
      let entry ← reader.entry found.file
      let text ← decodeSlice source start stop
      let (startLine, endLine) ← linesOf found
      return {
        path := pathText entry.path
        file := found.file
        startLine
        endLine
        first := found.first
        last := found.last
        text := String.ofList text
        highlightStart := before.length
        highlightEnd := before.length + marked.length }

end Search

/-- Shows a match by the stored bytes of its file. -/
def Reader.render (reader : Reader) (found : Match) : Except Fault Hit := do
  Search.renderFrom reader found (← reader.source found.file)

end TokenSearch
