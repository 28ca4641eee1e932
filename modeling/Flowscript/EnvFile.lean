-- Files of variables. A line binds a name to a value, which may be quoted;
-- lines that make no sense are passed over. A value may refer to variables
-- bound before it, and variables given directly win over those of the file.
import Flowscript.Graph.Decode
import Flowscript.Settings

namespace Flowscript.EnvFile

/-! ## Lines -/

/-- A blank that does not end the line. -/
def isInlineBlank (c : Char) : Bool := Text.isBlank c && c ≠ '\n' && c ≠ '\r'

/-- Whether a character ends a line of the file. -/
def isEnd (c : Char) : Bool := c = '\n' || c = '\r'

/-- A name and the value bound to it, if the line has one. -/
structure Binding where
  name : String
  value : Option String
deriving DecidableEq, Repr

/-- What was read and the characters behind it, or the place where the line stops making sense. -/
abbrev Attempt (α : Type) := Except (List Char) (α × List Char)

/-- Passes over the word that may stand in front of a name. -/
def dropExport (cs : List Char) : List Char :=
  match "export".toList.isPrefixOf? cs with
  | some rest =>
    if (rest.head?.map isInlineBlank).getD false then rest.dropWhile isInlineBlank else cs
  | none => cs

/-- Reads a name, which may stand in single quotes; a comment has none. -/
def readName : List Char → Attempt (Option String)
  | '#' :: rest => .ok (none, '#' :: rest)
  | '\'' :: rest =>
    let (name, after) := rest.span (· ≠ '\'')
    match name, after with
    | _ :: _, '\'' :: after => .ok (some (String.ofList name), after)
    | _, _ => .error ('\'' :: rest)
  | cs =>
    let (name, after) := cs.span fun c => c ≠ '=' && c ≠ '#' && !Text.isBlank c
    if name.isEmpty then .error cs else .ok (some (String.ofList name), after)

/-- Reads up to the closing mark. A backslash takes the next character with it, so a mark behind it
does not close; `taken` tells that the next character is one of these. -/
def readQuoted? (mark : Char) (taken : Bool) : List Char → Option (List Char × List Char)
  | [] => none
  | c :: rest =>
    if c = mark && !taken then some ([], rest)
    else
      (readQuoted? mark (c = '\\' && !taken) rest).map fun (body, after) => (c :: body, after)

/-- The characters that may be escaped between single quotes. -/
def singleEscapes : List (Char × Char) := [('\\', '\\'), ('\'', '\'')]

/-- The characters that may be escaped between double quotes. -/
def doubleEscapes : List (Char × Char) :=
  singleEscapes ++ [('"', '"'), ('a', '\x07'), ('b', '\x08'), ('f', '\x0c'), ('n', '\n'),
    ('r', '\r'), ('t', '\t'), ('v', '\x0b')]

/-- Replaces the escapes of a table; `pending` tells that a backslash was passed last. -/
def unescape (table : List (Char × Char)) (pending : Bool) : List Char → List Char
  | [] => if pending then ['\\'] else []
  | c :: rest =>
    if pending then
      match table.lookup c with
      | some d => d :: unescape table false rest
      | none => '\\' :: c :: unescape table false rest
    else if c = '\\' then unescape table true rest
    else c :: unescape table false rest

/-- A value without quotes ends at a hash with a blank in front; `before` tells that the character
in front is a blank. -/
def cutComment (before : Bool) : List Char → List Char
  | [] => []
  | c :: rest => if c = '#' && before then [] else c :: cutComment (Text.isBlank c) rest

/-- Reads a value; `before` tells that blanks stand between it and the equals sign. -/
def readValue (before : Bool) : List Char → Attempt String
  | '\'' :: rest =>
    match readQuoted? '\'' false rest with
    | some (body, after) => .ok (String.ofList (unescape singleEscapes false body), after)
    | none => .error ('\'' :: rest)
  | '"' :: rest =>
    match readQuoted? '"' false rest with
    | some (body, after) => .ok (String.ofList (unescape doubleEscapes false body), after)
    | none => .error ('"' :: rest)
  | cs =>
    let (line, after) := cs.span (!isEnd ·)
    .ok (String.ofList (Text.dropEndWhile Text.isBlank (cutComment before line)), after)

/-- Reads the value behind an equals sign, if there is one. -/
def readBound (cs : List Char) : Attempt (Option String) :=
  match cs.dropWhile isInlineBlank with
  | '=' :: rest =>
    let before := (rest.head?.map isInlineBlank).getD false
    (readValue before (rest.dropWhile isInlineBlank)).map fun (v, after) => (some v, after)
  | rest => .ok (none, rest)

/-- Passes over a comment and the end of the line. -/
def readEnd (cs : List Char) : Attempt Unit :=
  let bare := cs.dropWhile isInlineBlank
  let rest := match bare with
    | '#' :: more => more.dropWhile (!isEnd ·)
    | _ => bare
  match rest with
  | [] => .ok ((), [])
  | '\r' :: '\n' :: after => .ok ((), after)
  | c :: after => if isEnd c then .ok ((), after) else .error rest

/-- Reads one line that is not blank. -/
def readLine (cs : List Char) : Except (List Char) (Option Binding × List Char) := do
  let (name, rest) ← readName (dropExport cs)
  let (value, rest) ← readBound rest
  let ((), rest) ← readEnd rest
  return (name.map (⟨·, value⟩), rest)

/-- Reads the bindings of a file in order, `fuel` lines at most. -/
def readLines : Nat → List Char → List Binding
  | 0, _ => []
  | fuel + 1, cs =>
    match cs.dropWhile Text.isBlank with
    | [] => []
    | start =>
      match readLine start with
      | .ok (binding, rest) => binding.toList ++ readLines fuel rest
      | .error rest => readLines fuel ((rest.dropWhile (!isEnd ·)).drop 1)

/-- Passes over one byte order mark at the start of a file. -/
def dropMark : List Char → List Char
  | [] => []
  | c :: rest => if c.toNat = 0xfeff then rest else c :: rest

/-- The bindings of a file in order. -/
def bindings (contents : String) : List Binding :=
  let cs := Graph.unifyLineEnds (dropMark contents.toList)
  readLines cs.length cs

/-! ## References -/

/-- A reference at the start of `cs`: the name, the text used where it is not bound, and what
follows the closing brace. -/
def reference? (cs : List Char) : Option (String × String × List Char) := do
  let body ← ['$', '\x7b'].isPrefixOf? cs
  let (name, rest) := body.span fun c => c ≠ '\x7d' && c ≠ ':'
  match rest with
  | '\x7d' :: after => return (String.ofList name, "", after)
  | ':' :: '-' :: more =>
    match more.span (· ≠ '\x7d') with
    | (default, '\x7d' :: after) => return (String.ofList name, String.ofList default, after)
    | _ => none
  | _ => none

/-- Replaces the references of a value, after `skip` characters that belong to one. -/
def expandFrom (vars : Settings.Variables) : Nat → List Char → List Char
  | _, [] => []
  | skip + 1, _ :: cs => expandFrom vars skip cs
  | 0, c :: cs =>
    match reference? (c :: cs) with
    | some (name, default, after) =>
      ((vars.lookup name).getD default).toList ++ expandFrom vars (cs.length - after.length) cs
    | none => c :: expandFrom vars 0 cs

/-- The value with its references replaced. -/
def expand (vars : Settings.Variables) (value : String) : String :=
  String.ofList (expandFrom vars 0 value.toList)

/-- Sets the value of a name: a known name keeps its place, a new one goes to the end. -/
def put (name : String) (value : Option String) :
    List (String × Option String) → List (String × Option String)
  | [] => [(name, value)]
  | (n, v) :: rest => if n = name then (n, value) :: rest else (n, v) :: put name value rest

/-- Binds a name, in place of an earlier binding. A reference to a name without a value gives the
empty text. -/
def bind (given : Settings.Variables) (bound : List (String × Option String)) (b : Binding) :
    List (String × Option String) :=
  let vars := given ++ bound.map fun (name, value) => (name, value.getD "")
  put b.name (b.value.map (expand vars)) bound

/-! ## Variables -/

/-- A variable that can be set: there is no null character in it, and no equals sign in its
name. -/
def checkVariable (name value : String) : Except Fault Unit :=
  if (name ++ value).toList.contains '\x00' then .error .nullCharacter
  else if name.toList.contains '=' then .error .variableName
  else .ok ()

/-- Adds bound names to the given variables, up to the first that cannot be set. A name that is
already given keeps its value, whatever the file binds it to. -/
def addAll (given : Settings.Variables) :
    List (String × Option String) → Except Fault Settings.Variables
  | [] => .ok given
  | (_, none) :: rest => addAll given rest
  | (name, some value) :: rest =>
    if (given.lookup name).isSome then addAll given rest
    else do
      checkVariable name value
      addAll (given ++ [(name, value)]) rest

/-- The given variables with those that a file adds. The last binding of a name counts. -/
def addTo (given : Settings.Variables) (file : List Binding) :
    Except Fault Settings.Variables :=
  addAll given (file.foldl (bind given) [])

end Flowscript.EnvFile

namespace Flowscript

/-- The settings that variables and the contents of a file give. -/
def Settings.load (given : Settings.Variables) (file : Option String) : Except Fault Settings := do
  let vars ← match file with
    | some contents => EnvFile.addTo given (EnvFile.bindings contents)
    | none => .ok given
  Settings.ofVariables vars

end Flowscript
