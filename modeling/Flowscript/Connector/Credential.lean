-- Credentials of a connector. A scheme says which script properties hold the
-- secrets; a property's name is the connector's stem with a fixed ending,
-- unless the configuration names another.
import Flowscript.Text.Case
import Flowscript.Value.Shown

namespace Flowscript

/-- How a connector proves who it is. -/
inductive Scheme where
  | apiKey
  | bearer
  | basic
  | oauth2
deriving DecidableEq, Repr

namespace Scheme

/-- The name of a scheme. -/
def name : Scheme → String
  | .apiKey => "api_key"
  | .bearer => "bearer"
  | .basic => "basic"
  | .oauth2 => "oauth2"

/-- All schemes. -/
def all : List Scheme := [apiKey, bearer, basic, oauth2]

/-- The scheme of a name. -/
def ofName? (s : String) : Option Scheme := all.find? fun x => x.name == s

/-- The spellings that are taken for a scheme. -/
def aliases : List (String × Scheme) :=
  [("apikey", apiKey), ("api_key", apiKey), ("bearer", bearer), ("token", bearer),
    ("basic", basic), ("oauth", oauth2), ("oauth2", oauth2)]

/-- Whether a character parts the words of a scheme's spelling. -/
def isGap (c : Char) : Bool := Text.isBlank c || c = '-'

/-- Writes each run of gaps as one underscore; `inGap` tells that a run has begun. -/
def joinGaps (inGap : Bool) : List Char → List Char
  | [] => []
  | c :: rest =>
    if isGap c then
      if inGap then joinGaps true rest else '_' :: joinGaps true rest
    else c :: joinGaps false rest

/-- The key that a spelling is looked up by. -/
def keyOf (s : String) : String :=
  String.ofList (joinGaps false (Text.lower (Text.trim s)).toList)

/-- The usual name of a spelling: the name of a scheme, or the key itself where no scheme is meant.
Nothing is meant by a value that is not set, and by the word `none`. -/
def normalize (raw : Value) : Option String :=
  if !raw.isTruthy then none
  else
    let key := keyOf raw.plain
    if key = "" || key = "none" then none
    else match aliases.lookup key with
      | some s => some s.name
      | none => some key

/-- The scheme that a value means. -/
def ofValue? (raw : Value) : Option Scheme := (normalize raw).bind ofName?

end Scheme

/-! ## Property names -/

/-- Whether a character is an ASCII letter or digit. -/
def isPlainLetter (c : Char) : Bool := c.isAlphanum

/-- The runs of ASCII letters and digits. -/
def plainRuns : List Char → List (List Char)
  | [] => []
  | c :: cs =>
    if !isPlainLetter c then plainRuns cs
    else match cs with
      | [] => [[c]]
      | d :: _ => if isPlainLetter d then Text.consHead c (plainRuns cs) else [c] :: plainRuns cs

/-- The stem of a connector's property names: the letters and digits of its slug in upper case,
with an underscore between the runs. -/
def propertyStem (slug : String) : String :=
  let runs := (plainRuns slug.toList).map fun run => String.ofList (run.map Char.toUpper)
  if runs.isEmpty then "API" else Text.joinWith "_" runs

end Flowscript
