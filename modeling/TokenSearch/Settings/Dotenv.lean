import TokenSearch.Data.Assoc
import TokenSearch.Text.Ranges

namespace TokenSearch.Settings.Dotenv

/-! Files of variables, one assignment a line. A key may follow the word `export`; a value may stand
in single or double quotes, and then span lines; `#` begins a comment. A statement that cannot be
read is passed over up to the end of the line on which its reading stopped, and its line is
reported. -/

/-- A key with its value; a key without an equals sign has none. -/
abbrev Binding := String × Option String

def isLineEnd (c : Char) : Bool := c = '\n' || c = '\r'

/-- A blank that does not end a line. -/
def isGap (c : Char) : Bool := Text.isBlank c && !isLineEnd c

def skipGap (cs : List Char) : List Char := cs.dropWhile isGap

/-- Behind the rest of a line and its end. -/
def skipLine (cs : List Char) : List Char :=
  match cs.dropWhile (fun c => !isLineEnd c) with
  | '\r' :: '\n' :: rest => '\n' :: rest
  | _ :: rest => rest
  | [] => []

def skipExport (cs : List Char) : List Char :=
  match cs with
  | 'e' :: 'x' :: 'p' :: 'o' :: 'r' :: 't' :: rest =>
      if (rest.head?.map isGap).getD false then skipGap rest else cs
  | _ => cs

/-- Text up to a quote that no backslash marks, and what follows the quote. What a backslash marks
stays together with it. -/
def quoted? (quote : Char) (body : List Char) : List Char → Option (List Char × List Char)
  | [] => none
  | '\\' :: c :: rest => quoted? quote (c :: '\\' :: body) rest
  | c :: rest =>
      if c = quote then some (body.reverse, rest) else quoted? quote (c :: body) rest

/-- What a backslash makes of a letter inside double quotes. -/
def letterEscape? : Char → Option Char
  | '\\' => some '\\'
  | '\'' => some '\''
  | '"' => some '"'
  | 'a' => some '\x07'
  | 'b' => some '\x08'
  | 'f' => some '\x0c'
  | 'n' => some '\n'
  | 'r' => some '\r'
  | 't' => some '\t'
  | 'v' => some '\x0b'
  | _ => none

/-- Inside single quotes a backslash marks only itself and the quote. -/
def quoteEscape? : Char → Option Char
  | '\\' => some '\\'
  | '\'' => some '\''
  | _ => none

def unescape (escape? : Char → Option Char) : List Char → List Char
  | [] => []
  | '\\' :: c :: rest =>
      match escape? c with
      | some d => d :: unescape escape? rest
      | none => '\\' :: unescape escape? (c :: rest)
  | c :: rest => c :: unescape escape? rest

/-- Cuts a comment off: from a blank before a hash mark on. -/
def cutComment (blank : List Char) : List Char → List Char
  | [] => blank.reverse
  | c :: rest =>
      if Text.isBlank c then cutComment (c :: blank) rest
      else if c = '#' && !blank.isEmpty then []
      else blank.reverse ++ c :: cutComment [] rest

def unquotedValue (line : List Char) : List Char :=
  ((cutComment [] line).reverse.dropWhile Text.isBlank).reverse

/-- A value and what follows it. Behind a blank a hash mark begins a comment, and the value is
empty. -/
def value? (behindBlank : Bool) (cs : List Char) : Option (List Char × List Char) :=
  match cs with
  | '\'' :: rest =>
      (quoted? '\'' [] rest).map (fun (body, more) => (unescape quoteEscape? body, more))
  | '"' :: rest =>
      (quoted? '"' [] rest).map (fun (body, more) => (unescape letterEscape? body, more))
  | _ =>
      let line := cs.takeWhile (fun c => !isLineEnd c)
      let value := if behindBlank && line.head? = some '#' then [] else unquotedValue line
      some (value, cs.drop line.length)

/-- A key and what follows it; a comment has no key. -/
def key? (cs : List Char) : Option (Option (List Char) × List Char) :=
  match cs with
  | '#' :: _ => some (none, cs)
  | '\'' :: rest =>
      let key := rest.takeWhile (· ≠ '\'')
      match rest.drop key.length with
      | _ :: more => if key.isEmpty then none else some (some key, more)
      | [] => none
  | _ =>
      let key := cs.takeWhile (fun c => !(c = '=' || c = '#' || Text.isBlank c))
      if key.isEmpty then none else some (some key, cs.drop key.length)

/-- Behind a comment and the end of the line, if nothing else stands there. -/
def lineEnd? (cs : List Char) : Option (List Char) :=
  let rest := match skipGap cs with
    | '#' :: more => more.dropWhile (fun c => !isLineEnd c)
    | _ => cs
  match skipGap rest with
  | [] => some []
  | '\r' :: '\n' :: more => some more
  | c :: more => if isLineEnd c then some more else none

/-- The value that an equals sign at the front of a text gives, and what follows it. -/
def assigned? (cs : List Char) : Option (Option (List Char) × List Char) :=
  match cs with
  | '=' :: more =>
      (value? ((more.head?.map isGap).getD false) (skipGap more)).map (fun (value, rest) =>
        (some value, rest))
  | _ => some (none, cs)

/-- The statement that starts a text and what follows it, or the place where its reading stopped. -/
def statement (cs : List Char) : Except (List Char) (Option Binding × List Char) :=
  match key? (skipExport cs) with
  | none => .error cs
  | some (key, behind) =>
      match assigned? (skipGap behind) with
      | none => .error behind
      | some (value, rest) =>
          match lineEnd? rest with
          | none => .error rest
          | some next =>
              .ok (key.map (fun key => (String.ofList key, value.map String.ofList)), next)

/-- A statement that was read, or the text at which one begins that cannot be read. -/
inductive Item where
  | binding (binding : Binding)
  | unread (start : List Char)

/-- All statements; each step is behind the one before it, so `fuel` is the length of the text. A
statement begins where the one before it ended. -/
def items : (fuel : Nat) → List Char → List Item
  | 0, _ => []
  | fuel + 1, cs =>
      match cs.dropWhile Text.isBlank with
      | [] => []
      | rest =>
          match statement rest with
          | .ok (binding, more) => (binding.map Item.binding).toList ++ items fuel more
          | .error stopped => .unread cs :: items fuel (skipLine stopped)

/-- A name with a default in braces behind a dollar sign, and what follows it. -/
def reference? (cs : List Char) : Option (String × String × List Char) :=
  let name := cs.takeWhile (fun c => c ≠ '\x7d' && c ≠ ':')
  match cs.drop name.length with
  | '\x7d' :: rest => some (String.ofList name, "", rest)
  | ':' :: '-' :: more =>
      let default := more.takeWhile (· ≠ '\x7d')
      match more.drop default.length with
      | _ :: rest => some (String.ofList name, String.ofList default, rest)
      | [] => none
  | _ => none

/-- Replaces variables by their values. -/
def expand (known : String → Option String) : (fuel : Nat) → List Char → List Char
  | 0, cs => cs
  | _, [] => []
  | fuel + 1, '$' :: '\x7b' :: rest =>
      match reference? rest with
      | some (name, default, more) =>
          ((known name).getD default).toList ++ expand known fuel more
      | none => '$' :: expand known fuel ('\x7b' :: rest)
  | fuel + 1, c :: rest => c :: expand known fuel rest

/-- The value of a variable: that of the latest binding, which may be empty, or else that of the
environment. -/
def valueOf? (environment : Data.Assoc String String) (done : Data.Assoc String (Option String))
    (name : String) : Option String :=
  match Data.Assoc.get? done name with
  | some found => some (found.getD "")
  | none => Data.Assoc.get? environment name

/-- Expands each value by the environment and the bindings before it. -/
def resolve (environment : Data.Assoc String String) (done : Data.Assoc String (Option String)) :
    List Binding → Data.Assoc String (Option String)
  | [] => done
  | (key, value) :: rest =>
      let expanded := value.map (fun text =>
        String.ofList (expand (valueOf? environment done) (text.length + 1) text.toList))
      resolve environment (Data.Assoc.put done key expanded) rest

/-- All line ends as line feeds. -/
def unifyLines : List Char → List Char
  | '\r' :: '\n' :: rest => '\n' :: unifyLines rest
  | '\r' :: rest => '\n' :: unifyLines rest
  | c :: rest => c :: unifyLines rest
  | [] => []

/-- The characters of a file. One mark of the byte order at its front is dropped. -/
def characters (text : String) : List Char :=
  match text.toList with
  | '\ufeff' :: rest => unifyLines rest
  | cs => unifyLines cs

/-- The variables that a file sets, in their order; one may be without a value. -/
def read (environment : Data.Assoc String String) (text : String) :
    Data.Assoc String (Option String) :=
  let cs := characters text
  resolve environment [] ((items (cs.length + 1) cs).filterMap (fun item =>
    match item with
    | .binding binding => some binding
    | .unread _ => none))

/-- The lines at which statements begin that cannot be read. -/
def unreadLines (text : String) : List Nat :=
  let cs := characters text
  let feeds (cs : List Char) : Nat := cs.count '\n'
  (items (cs.length + 1) cs).filterMap (fun item =>
    match item with
    | .binding _ => none
    | .unread start => some (1 + feeds cs - feeds start))

end TokenSearch.Settings.Dotenv
