import DailyBars.Settings.Environment
import DailyBars.Text.Characters

/-!
# Variables from a file

A file of lines `NAME=value` offers variables to the environment, which keeps those that it has.
A value may be quoted, in parts too: between apostrophes everything stands for itself, elsewhere a
backslash takes the meaning from the character after it, and `$NAME` or `$` with a name in braces
stands for the value of a variable. An open quote goes on over the end of the line. After the first
line that cannot be read nothing more is offered.
-/

namespace DailyBars.EnvFile

/-! ### Lines -/

/-- Where the search for the end of a line stands. -/
inductive LineState where
  | plain
  | escape
  | apostrophe
  | apostropheEscape
  | quote
  | quoteEscape
  | blank
  deriving DecidableEq, Repr

/-- The state after a character; `none` where a comment begins. -/
def LineState.next (s : LineState) (c : Char) : Option LineState :=
  let opened : Option LineState :=
    if c = '\\' then some escape
    else if c = '"' then some quote
    else if c = '\'' then some apostrophe
    else none
  match s with
  | blank => if c = '#' then none else some (opened.getD plain)
  | escape => some plain
  | plain =>
    if Text.isBlank c && c != '\n' && c != '\r' then some blank else some (opened.getD plain)
  | quote => some (if c = '\\' then quoteEscape else if c = '"' then plain else quote)
  | quoteEscape => some quote
  | apostrophe =>
    some (if c = '\\' then apostropheEscape else if c = '\'' then plain else apostrophe)
  | apostropheEscape => some apostrophe

/-- The part of a line before a comment and the state at its end; the state is `none` if there is a
comment. -/
def scan (s : LineState) : List Char → List Char × Option LineState
  | [] => ([], some s)
  | c :: cs =>
    match s.next c with
    | none => ([], none)
    | some s => ((c :: (scan s cs).1), (scan s cs).2)

/-- A text in pieces, each of which but the last one ends with a line feed. -/
def pieces : List Char → List (List Char)
  | [] => []
  | c :: cs =>
    if c = '\n' then [c] :: pieces cs
    else
      match pieces cs with
      | [] => [[c]]
      | p :: ps => (c :: p) :: ps

/-- A line without the line end. -/
def chomp (cs : List Char) : List Char :=
  match cs.reverse with
  | '\n' :: '\r' :: rest => rest.reverse
  | '\n' :: rest => rest.reverse
  | _ => cs

/-- The lines of a text, given its pieces: `open'` is what was read of a line that goes on. A line
that is still open at the end of the text is not one, and `none` stands for it. -/
def linesFrom (open' : List Char) (s : LineState) : List (List Char) → List (Option (List Char))
  | [] => if s = .plain then [] else [none]
  | p :: ps =>
    if (Text.dropBlanks (open' ++ p)).head? = some '#' then some [] :: linesFrom [] .plain ps
    else
      let (kept, s') := scan s p
      match s' with
      | none => some (open' ++ kept) :: linesFrom [] .plain ps
      | some .plain => some (chomp (open' ++ p)) :: linesFrom [] .plain ps
      | some s' => linesFrom (open' ++ p) s' ps

/-! ### Values -/

/-- The variables of the file so far; those that are written without a value are empty. -/
abbrev Known := List (String × String)

/-- The value that a name stands for: that of the environment first. -/
def valueOf (e : Environment) (known : Known) (name : List Char) : List Char :=
  (((e.get? (String.ofList name)).or (known.lookup (String.ofList name))).getD "").toList

/-- How a name is being read that stands for a value. -/
inductive NameState where
  | none
  | plain
  | braced
  deriving DecidableEq, Repr

/-- Where the reading of a value stands. -/
structure ValueState where
  apostrophe : Bool := false
  quote : Bool := false
  escaped : Bool := false
  /-- Only blanks and a comment may follow. -/
  ending : Bool := false
  naming : NameState := .none
  /-- The characters of the name so far, the last one first. -/
  name : List Char := []
  /-- The characters of the value so far, the last one first. -/
  output : List Char := []

namespace ValueState

/-- The state with a character more in the value. -/
def put (s : ValueState) (c : Char) : ValueState := { s with output := c :: s.output }

/-- The state with the value of the name in the place of the name. -/
def substitute (e : Environment) (known : Known) (s : ValueState) : ValueState :=
  { s with name := [], output := (valueOf e known s.name.reverse).reverse ++ s.output }

/-- The character that is meant after a backslash. -/
def escaped? (c : Char) : Option Char :=
  if c ∈ ['\\', '\'', '"', '$', ' '] then some c
  else if c = 'n' then some '\n'
  else Option.none

/-- Whether a character may be part of a name without braces. -/
def isNameChar (c : Char) : Bool := c.isAlphanum || 128 ≤ c.toNat

/-- The state after a character while a name is read. -/
def nextInName (e : Environment) (known : Known) (s : ValueState) (c : Char) : ValueState :=
  if isNameChar c then { s with name := c :: s.name }
  else if s.naming = .braced then
    if c = '\x7d' then { s.substitute e known with naming := .none }
    else { s with name := c :: s.name }
  else if c = '\x7b' && s.name.isEmpty then { s with naming := .braced }
  else if c = '$' then s.substitute e known
  else { s.substitute e known with naming := .none }.put c

/-- The state after a character; `none` for a character that must not stand there. -/
def next (e : Environment) (known : Known) (s : ValueState) (c : Char) : Option ValueState :=
  if s.escaped then (escaped? c).map fun c => { s with escaped := false }.put c
  else if s.apostrophe then
    some (if c = '\'' then { s with apostrophe := false } else s.put c)
  else if s.naming ≠ .none then some (s.nextInName e known c)
  else if c = '$' then some { s with naming := .plain }
  else if c = '\\' then some { s with escaped := true }
  else if s.quote then some (if c = '"' then { s with quote := false } else s.put c)
  else if c = '\'' then some { s with apostrophe := true }
  else if c = '"' then some { s with quote := true }
  else if c = ' ' || c = '\t' then some { s with ending := true }
  else some (s.put c)

/-- Reads a value to its end. -/
def read (e : Environment) (known : Known) (s : ValueState) : List Char → Option (List Char)
  | [] =>
    if s.naming = .braced || s.apostrophe || s.quote then Option.none
    else some (s.substitute e known).output.reverse
  | c :: cs =>
    if s.ending then
      if c = ' ' || c = '\t' then read e known s cs
      else if c = '#' then read e known s []
      else Option.none
    else
      match s.next e known c with
      | some s => read e known s cs
      | Option.none => Option.none

end ValueState

/-! ### Assignments -/

/-- Reads the name of a variable. -/
def readName (cs : List Char) : Option (String × List Char) :=
  match cs with
  | [] => none
  | c :: _ =>
    if c.isAlpha || c = '_' then
      let word := cs.takeWhile fun c => c.isAlphanum || c = '_' || c = '.'
      some (String.ofList word, cs.drop word.length)
    else none

/-- Reads a name and the equality sign after it, with the word `export` in front or not. -/
def readTarget (cs : List Char) : Option (String × List Char) := do
  let (name, rest) ← readName cs
  match Text.dropBlanks rest with
  | '=' :: rest => return (name, rest)
  | rest =>
    if name ≠ "export" then none
    let (name, rest) ← readName rest
    match Text.dropBlanks rest with
    | '=' :: rest => return (name, rest)
    | _ => none

/-- What a line says. -/
inductive Line where
  | nothing
  | assignment (name value : String)
  | problem
  deriving DecidableEq, Repr

/-- Reads a line. -/
def Line.ofChars (e : Environment) (known : Known) (cs : List Char) : Line :=
  let cs := Text.trimChars cs
  if cs.isEmpty || cs.head? = some '#' then .nothing
  else
    match readTarget cs with
    | none => .problem
    | some (name, rest) =>
      let rest := Text.dropBlanks rest
      if rest.isEmpty || rest.head? = some '#' then .assignment name ""
      else
        match ValueState.read e known {} rest with
        | some value => .assignment name (String.ofList value)
        | none => .problem

/-- Offers the assignments of lines to the environment, up to the first line with a problem. -/
def offerLines (e : Environment) (known : Known) : List (Option (List Char)) → Environment
  | [] => e
  | none :: _ => e
  | some line :: rest =>
    match Line.ofChars e known line with
    | .nothing => offerLines e known rest
    | .assignment name value => offerLines (e.offer name value) ((name, value) :: known) rest
    | .problem => e

end EnvFile

/-- The environment with the variables that a file offers, which may begin with a byte order
mark. -/
def Environment.withFile (e : Environment) (text : String) : Environment :=
  let cs := match text.toList with
    | '\uFEFF' :: cs => cs
    | cs => cs
  EnvFile.offerLines e [] (EnvFile.linesFrom [] .plain (EnvFile.pieces cs))

end DailyBars
