import TokenSearch.Text.Integer
import TokenSearch.Text.Quoted
import TokenSearch.Text.RawText

namespace TokenSearch.CommandLine

/-! The arguments of a command: options by name, and one operand. An option may be shortened as long
as it stays unique; its value follows it or is joined to it. -/

/-- What an option does: it ends the run with some text, it stands for itself, or it has a value. -/
inductive Effect where
  | help
  | version
  | flag
  | value
deriving DecidableEq, Repr

/-- The options of all commands. -/
inductive Key where
  | help
  | version
  | logLevel
  | jsonLogs
  | metricsFile
  | root
  | limit
  | indexDir
  | json
deriving DecidableEq, Repr

/-- An option with all its names. -/
structure Choice where
  key : Key
  names : List String
  effect : Effect
deriving DecidableEq, Repr

def Choice.title (choice : Choice) : String := "/".intercalate choice.names

/-- What the operand of a command is: it may be left out, it must be there, or it is a command of
its own that takes all that follows. -/
inductive Operand where
  | optional (name : String)
  | required (name : String)
  | command (name : String)
deriving DecidableEq, Repr

structure Grammar where
  program : String
  choices : List Choice
  operand : Operand
deriving DecidableEq, Repr

/-- A complaint about arguments, and which program complains. -/
structure UsageError where
  program : String
  words : Text.RawText
deriving DecidableEq, Repr

def UsageError.message (error : UsageError) : Text.RawText :=
  error.program ++ ": error: " ++ error.words

namespace Grammar

/-- All names with their options, in the order in which they were declared. -/
def names (grammar : Grammar) : List (String × Choice) :=
  grammar.choices.flatMap (fun choice => choice.names.map (fun name => (name, choice)))

def find? (grammar : Grammar) (name : String) : Option Choice :=
  (grammar.names.find? (fun pair => pair.1 = name)).map Prod.snd

end Grammar

/-- What an argument is taken for. -/
inductive Role where
  /-- An operand or the value of an option. -/
  | plain
  /-- The mark behind which all arguments are plain. -/
  | mark
  /-- An option under one of its names, with the value that is joined to it. -/
  | option (choice : Choice) (name : String) (joined : Option Text.RawText)
  /-- An option that the grammar does not know. -/
  | unknown
deriving DecidableEq, Repr

structure Argument where
  text : Text.RawText
  role : Role
deriving Repr

/-- The mark behind which all arguments are plain. -/
def endMark : Text.RawText := "--"

/-- Splits a text at its first equals sign. -/
def splitEquals? (text : Text.RawText) : Option (String × Text.RawText) :=
  let front := text.points.takeWhile (· ≠ 0x3D)
  match text.points.drop front.length with
  | _ :: rest => some (Text.RawText.toStringLossy ⟨front⟩, ⟨rest⟩)
  | [] => none

/-- The readings of a text that is no full name of an option: as the beginning of a name, or as a
name of one letter with a value joined to it. -/
def readings (grammar : Grammar) (text : Text.RawText) :
    List (Choice × String × Option Text.RawText) :=
  let whole := text.toStringLossy
  if whole.startsWith "--" then
    let (start, joined) := match splitEquals? text with
      | some (front, rest) => (front, some rest)
      | none => (whole, none)
    grammar.names.filterMap (fun (name, choice) =>
      if name.startsWith start then some (choice, name, joined) else none)
  else
    let short := Text.RawText.toStringLossy ⟨text.points.take 2⟩
    grammar.names.filterMap (fun (name, choice) =>
      if name = short then some (choice, name, some ⟨text.points.drop 2⟩)
      else if name.startsWith whole then some (choice, name, none)
      else none)

/-- Whether a text is a minus sign and a number, possibly before one line end. -/
def isNegativeNumber (text : String) : Bool :=
  let isDigit (c : Char) := (Text.Integer.digit? c).isSome
  match text.toList with
  | '-' :: body =>
      let body := if body.getLast? = some '\n' then body.dropLast else body
      let whole := body.takeWhile isDigit
      match body.drop whole.length with
      | [] => !whole.isEmpty
      | '.' :: fraction => !fraction.isEmpty && fraction.all isDigit
      | _ => false
  | _ => false

/-- What an argument before any mark is taken for. -/
def roleOf (grammar : Grammar) (text : Text.RawText) : Except UsageError Role :=
  let whole := text.toStringLossy
  if !whole.startsWith "-" then .ok .plain
  else
    match grammar.find? whole with
    | some choice => .ok (.option choice whole none)
    | none =>
        if whole.length = 1 then .ok .plain
        else
          let exact := (splitEquals? text).bind (fun (front, rest) =>
            (grammar.find? front).map (fun choice => Role.option choice front (some rest)))
          match exact with
          | some role => .ok role
          | none =>
              match readings grammar text with
              | [(choice, name, joined)] => .ok (.option choice name joined)
              | [] =>
                  if isNegativeNumber whole || whole.contains ' ' then .ok .plain else .ok .unknown
              | several =>
                  .error ⟨grammar.program, "ambiguous option: " ++ text ++ " could match " ++
                    ", ".intercalate (several.map (fun (_, name, _) => name))⟩

/-- Takes each argument for what it is. All are looked at before any is used. -/
def classify (grammar : Grammar) : List Text.RawText → Except UsageError (List Argument)
  | [] => .ok []
  | text :: rest => do
      if text = endMark then
        return ⟨text, .mark⟩ :: rest.map (fun text => ⟨text, .plain⟩)
      else
        let role ← roleOf grammar text
        return ⟨text, role⟩ :: (← classify grammar rest)

/-- What an option is given. The mark joined to an option gives it nothing. -/
inductive Given (α : Type) where
  | absent
  | void
  | value (a : α)
deriving DecidableEq, Repr

/-- The value, if there is one. -/
def Given.value? : Given α → Option α
  | .value a => some a
  | _ => none

/-- What the arguments say: an option without a value, an option with its value, an option with the
mark for a value, the operand, or a command with its own arguments. -/
inductive Event where
  | flag (key : Key)
  | value (key : Key) (text : Text.RawText)
  | void (key : Key)
  | operand (text : Text.RawText)
  | command (name : Text.RawText) (arguments : List Text.RawText)
deriving Repr

/-- The events in their order, and the arguments that nothing took. A complaint ends them. -/
structure Scan where
  events : List Event
  extras : List Text.RawText
  failure : Option UsageError
  /-- Whether the operand was there. -/
  filled : Bool
deriving Repr

def Scan.emit (scan : Scan) (event : Event) : Scan :=
  { scan with events := event :: scan.events }

def Scan.leave (scan : Scan) (text : Text.RawText) : Scan :=
  { scan with extras := text :: scan.extras }

def complain (grammar : Grammar) (choice : Choice) (words : String) : UsageError :=
  ⟨grammar.program, "argument " ++ choice.title ++ ": " ++ words⟩

def ignored (grammar : Grammar) (choice : Choice) (joined : Text.RawText) : UsageError :=
  complain grammar choice ("ignored explicit argument " ++ Text.Quoted.raw joined)

def unfinished (grammar : Grammar) (choice : Choice) : UsageError :=
  complain grammar choice "expected one argument"

def joinedEvent (key : Key) (joined : Text.RawText) : Event :=
  if joined = endMark then .void key else .value key joined

/-- What an argument with several options says, and the option that still needs its value. -/
structure Cluster where
  events : List Event
  pending : Option Choice
deriving Repr

/-- The events of an option with a joined value. Letters behind an option of one letter that takes
no value are options of one letter themselves, and the last of them may still need its value. -/
def cluster (grammar : Grammar) (choice : Choice) (name : String) :
    List UInt32 → Except UsageError Cluster
  | [] =>
      if choice.effect = .value then .ok ⟨[.value choice.key ""], none⟩
      else .error (ignored grammar choice "")
  | letter :: rest =>
      let joined : Text.RawText := ⟨letter :: rest⟩
      if choice.effect = .value then .ok ⟨[joinedEvent choice.key joined], none⟩
      else if name.startsWith "--" then .error (ignored grammar choice joined)
      else
        let next := String.ofList ['-', Text.RawText.charOf letter]
        match grammar.find? next with
        | none => .error (ignored grammar choice joined)
        | some other =>
            if rest.isEmpty then
              if other.effect = .value then .ok ⟨[.flag choice.key], some other⟩
              else .ok ⟨[.flag choice.key, .flag other.key], none⟩
            else
              (cluster grammar other next rest).map (fun later =>
                ⟨.flag choice.key :: later.events, later.pending⟩)

/-- Skips the mark at the front of some arguments. -/
def skipMark : List Argument → List Argument
  | [] => []
  | argument :: rest => if argument.role = .mark then rest else argument :: rest

theorem skipMark_length (arguments : List Argument) :
    (skipMark arguments).length ≤ arguments.length := by
  cases arguments with
  | nil => simp [skipMark]
  | cons argument rest =>
      simp only [skipMark]
      split <;> simp

/-- The argument behind an option that needs a value, and the arguments behind it. -/
def takeValue (grammar : Grammar) (choice : Choice) :
    (rest : List Argument) → Except UsageError (Text.RawText × {
      more : List Argument // more.length < rest.length })
  | [] => .error (unfinished grammar choice)
  | next :: more =>
      if next.role = .plain then .ok (next.text, ⟨more, by simp⟩)
      else .error (unfinished grammar choice)

/-- Reads arguments from left to right. The first plain argument is the operand; the marks around it
are dropped. -/
def scan (grammar : Grammar) (state : Scan) : List Argument → Scan
  | [] => state
  | argument :: rest =>
      match argument.role with
      | .unknown => scan grammar (state.leave argument.text) rest
      | .option choice name joined =>
          let read : Except UsageError Cluster := match joined with
            | some joined => cluster grammar choice name joined.points
            | none =>
                if choice.effect = .value then .ok ⟨[], some choice⟩
                else .ok ⟨[.flag choice.key], none⟩
          match read with
          | .error error => { state with failure := some error }
          | .ok ⟨events, none⟩ =>
              scan grammar { state with events := events.reverse ++ state.events } rest
          | .ok ⟨events, some pending⟩ =>
              match takeValue grammar pending rest with
              | .error error => { state with failure := some error }
              | .ok (text, ⟨more, _⟩) =>
                  let said := events ++ [Event.value pending.key text]
                  scan grammar { state with events := said.reverse ++ state.events } more
      | .plain =>
          if state.filled then scan grammar (state.leave argument.text) rest
          else
            match grammar.operand with
            | .command _ =>
                { state.emit (.command argument.text (rest.map Argument.text)) with filled := true }
            | _ =>
                scan grammar { state.emit (.operand argument.text) with filled := true }
                  (skipMark rest)
      | .mark =>
          if state.filled then scan grammar (state.leave argument.text) rest
          else
            match grammar.operand, rest with
            | .command _, _ :: _ =>
                { state.emit (.command argument.text (rest.map Argument.text)) with filled := true }
            | .optional _, [] => { state with filled := true }
            | .required _, next :: more | .optional _, next :: more =>
                scan grammar { state.emit (.operand next.text) with filled := true } more
            | _, [] => state.leave argument.text
termination_by arguments => arguments.length
decreasing_by
  all_goals simp only [wfParam, List.length_cons]
  all_goals first
    | omega
    | exact Nat.lt_succ_of_le (skipMark_length _)

/-- What arguments say by a grammar. -/
def Grammar.read (grammar : Grammar) (arguments : List Text.RawText) : Except UsageError Scan := do
  let classified ← classify grammar arguments
  let state := scan grammar ⟨[], [], none, false⟩ classified
  return { state with events := state.events.reverse, extras := state.extras.reverse }

end TokenSearch.CommandLine
