import DailyBars.Toml.Node
import DailyBars.Toml.Scalar

/-!
# TOML documents

A document is a list of lines: keys with their values, headers of tables, and comments. Lists may go
over several lines, tables in braces may not.
-/

namespace DailyBars.Toml

/-- What follows a comment, up to the end of the line. -/
def skipComment? (cs : List Char) : Option (List Char) :=
  match cs with
  | '#' :: rest =>
    let text := rest.takeWhile fun c => c ≠ '\n' && c ≠ '\r'
    if text.all isPlain then some (rest.drop text.length) else none
  | cs => some cs

/-- What follows the end of a line that holds nothing more than a comment. -/
def finishLine? (cs : List Char) : Option (List Char) := do
  match ← skipComment? (skipGaps cs) with
  | [] => some []
  | rest => lineEnd? rest

/-- What follows blanks, line ends and comments, of which there are less than `fuel`. -/
def skipLines? : (fuel : Nat) → List Char → Option (List Char)
  | 0, cs => some cs
  | fuel + 1, cs => do
    let cs := skipGaps cs
    match lineEnd? cs, cs with
    | some rest, _ => skipLines? fuel rest
    | none, '#' :: _ => skipLines? fuel (← skipComment? cs)
    | none, _ => some cs

/-! ### Keys -/

/-- Whether a character may be part of an unquoted key. -/
def isBareChar (c : Char) : Bool := c.isAlphanum || c = '_' || c = '-'

/-- A key without points. -/
def readSimpleKey : Reader String
  | '"' :: rest => (readQuoted rest).map fun (cs, rest) => (String.ofList cs, rest)
  | '\'' :: rest => (readLiteral rest).map fun (cs, rest) => (String.ofList cs, rest)
  | cs =>
    let word := cs.takeWhile isBareChar
    if word.isEmpty then none else some (String.ofList word, cs.drop word.length)

/-- A key with points in it, less than `fuel` of them: the path and the name. -/
def readKey : (fuel : Nat) → Reader (List String × String)
  | 0, _ => none
  | fuel + 1, cs => do
    let (k, rest) ← readSimpleKey (skipGaps cs)
    match skipGaps rest with
    | '.' :: rest =>
      let ((path, name), rest) ← readKey fuel rest
      return ((k :: path, name), rest)
    | rest => return (([], k), rest)

/-! ### Values -/

/-- The items of a list, up to its closing bracket; there are less than `fuel` of them. -/
def readItems (item : Reader Json) : (fuel : Nat) → Reader (List Json)
  | 0, _ => none
  | fuel + 1, cs => do
    match ← skipLines? cs.length cs with
    | ']' :: rest => return ([], rest)
    | cs =>
      let (v, rest) ← item cs
      match ← skipLines? rest.length rest with
      | ']' :: rest => return ([v], rest)
      | ',' :: rest =>
        let (vs, rest) ← readItems item fuel rest
        return (v :: vs, rest)
      | _ => none

/-- A key with its value, added to a table. -/
def readPair (item : Reader Json) (t : TomlNode) : Reader TomlNode := fun cs => do
  let ((path, name), rest) ← readKey cs.length cs
  match rest with
  | '=' :: rest =>
    let (v, rest) ← item (skipGaps rest)
    return (← t.defineAt path name v, rest)
  | _ => none

/-- The keys and values of a table in braces, up to the closing one; there are less than `fuel` of
them. -/
def readPairs (item : Reader Json) : (fuel : Nat) → TomlNode → Reader TomlNode
  | 0, _, _ => none
  | fuel + 1, t, cs => do
    let (t, rest) ← readPair item t cs
    match skipGaps rest with
    | '\x7d' :: rest => return (t, rest)
    | ',' :: rest => readPairs item fuel t rest
    | _ => none

/-- The greatest depth of lists and tables within each other. -/
def maxDepth : Nat := 80

/-- A value in which lists and tables are nested less than `depth` deep. -/
def readValue : (depth : Nat) → Reader Json
  | 0, _ => none
  | depth + 1, cs =>
    match cs with
    | '[' :: rest =>
      (readItems (readValue depth) cs.length rest).map fun (vs, rest) => (.list vs, rest)
    | '\x7b' :: rest =>
      match skipGaps rest with
      | '\x7d' :: rest => some (.object [], rest)
      | rest =>
        (readPairs (readValue depth) cs.length .empty rest).map fun (t, rest) => (t.toJson, rest)
    | '"' :: _ | '\'' :: _ => (readText cs).map fun (s, rest) => (.str s, rest)
    | cs => readWord cs

/-! ### Lines -/

/-- A document that is being read. -/
structure Draft where
  root : TomlNode
  /-- The table that keys are added to. -/
  current : List String

/-- The header of a table, up to the end of its line. -/
def readHeader (d : Draft) (doubled : Bool) (cs : List Char) : Option (Draft × List Char) := do
  let ((path, name), rest) ← readKey cs.length cs
  let rest ← match doubled, rest with
    | false, ']' :: rest => some rest
    | true, ']' :: ']' :: rest => some rest
    | _, _ => none
  let change := if doubled then TomlNode.addTable name else TomlNode.openTable name
  let root ← d.root.descend false change path
  return (⟨root, path ++ [name]⟩, ← finishLine? rest)

/-- A key with its value, up to the end of its line. -/
def readEntry (d : Draft) (cs : List Char) : Option (Draft × List Char) := do
  let ((path, name), rest) ← readKey cs.length cs
  match rest with
  | '=' :: rest =>
    let (v, rest) ← readValue maxDepth (skipGaps rest)
    let root ← d.root.descend false (TomlNode.inLast (TomlNode.defineAt path name v)) d.current
    return ({ d with root }, ← finishLine? rest)
  | _ => none

/-- The lines of a document, of which there are less than `fuel`. -/
def readLines : (fuel : Nat) → Draft → List Char → Option TomlNode
  | 0, _, _ => none
  | fuel + 1, d, cs =>
    match skipGaps cs with
    | [] => some d.root
    | '[' :: '[' :: rest => do
      let (d, rest) ← readHeader d true rest
      readLines fuel d rest
    | '[' :: rest => do
      let (d, rest) ← readHeader d false rest
      readLines fuel d rest
    | '#' :: _ => do readLines fuel d (← finishLine? cs)
    | c :: rest =>
      match lineEnd? (c :: rest) with
      | some rest => readLines fuel d rest
      | none => do
        let (d, rest) ← readEntry d (c :: rest)
        readLines fuel d rest

/-- Reads a document, which may begin with a byte order mark. -/
def ofText? (s : String) : Option Json :=
  let cs := match s.toList with
    | '\uFEFF' :: cs => cs
    | cs => cs
  (readLines (cs.length + 1) ⟨.empty, []⟩ cs).map (·.toJson)

end DailyBars.Toml
