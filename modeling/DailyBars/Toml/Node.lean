import DailyBars.Json.Value

/-!
# Tables of a TOML document

A document is built up line by line, and every line may define something that is not there yet only:
a table has one header, a key one value, and a dotted key adds to tables that dotted keys made. For
that a table remembers how it came to be.
-/

namespace DailyBars

/-- How a table came to be. -/
inductive TomlOrigin where
  /-- It has a header of its own, or is the document. -/
  | header
  /-- So far only a table inside it has a header. -/
  | implied
  /-- A dotted key made it. -/
  | dotted
  deriving DecidableEq, Repr

/-- A part of a document. -/
inductive TomlNode where
  | leaf (v : Json)
  | table (origin : TomlOrigin) (entries : List (String × TomlNode))
  /-- Tables under a header in double brackets, each of which was added by one. -/
  | tables (items : List TomlNode)

namespace TomlNode

/-- A document of which nothing was read. -/
def empty : TomlNode := .table .header []

/-- Changes the entry of a name, or adds one. -/
def alter (name : String) (f : Option TomlNode → Option TomlNode) :
    List (String × TomlNode) → Option (List (String × TomlNode))
  | [] => do return [(name, ← f none)]
  | (k, n) :: rest =>
    if k = name then do return (k, ← f (some n)) :: rest
    else do return (k, n) :: (← alter name f rest)

/-- Changes the table in which the next key of a path is looked for: of tables under one name, the
last one. -/
def inLast (f : TomlNode → Option TomlNode) : TomlNode → Option TomlNode
  | leaf _ => none
  | table origin entries => f (.table origin entries)
  | tables items =>
    match items.reverse with
    | [] => none
    | last :: before => do return .tables ((← f last) :: before).reverse

/-- Changes the table at the end of a path; tables that are missing are made on the way. A dotted
key must not go through a table that has a header. -/
def descend (dotted : Bool) (f : TomlNode → Option TomlNode) :
    List String → TomlNode → Option TomlNode
  | [], node => f node
  | k :: ks, table origin entries => do
    let fresh := table (if dotted then .dotted else .implied) []
    let entries ← alter k (fun entry =>
      match entry.getD fresh with
      | table .header es =>
        if dotted then none else inLast (descend dotted f ks) (.table .header es)
      | node => inLast (descend dotted f ks) node) entries
    return .table origin entries
  | _ :: _, _ => none

/-- Defines a name in a table, which a dotted key must have made exactly if the name has a path. -/
def define (afterPath : Bool) (name : String) (v : Json) : TomlNode → Option TomlNode
  | table origin entries =>
    if (origin == .dotted) != afterPath || entries.any (·.1 == name) then none
    else some (.table origin (entries ++ [(name, .leaf v)]))
  | _ => none

/-- Defines a dotted key, a path and a name, in a table. -/
def defineAt (path : List String) (name : String) (v : Json) : TomlNode → Option TomlNode :=
  descend true (define (!path.isEmpty) name v) path

/-- Gives a table its header. -/
def openTable (name : String) : TomlNode → Option TomlNode
  | table origin entries => do
    let entries ← alter name (fun
      | none => some empty
      | some (table .implied es) => some (.table .header es)
      | some _ => none) entries
    return .table origin entries
  | _ => none

/-- Adds a table to those under a name. -/
def addTable (name : String) : TomlNode → Option TomlNode
  | table origin entries => do
    let entries ← alter name (fun
      | none => some (.tables [empty])
      | some (tables items) => some (.tables (items ++ [empty]))
      | some _ => none) entries
    return .table origin entries
  | _ => none

mutual

/-- The part as a value. -/
def toJson : TomlNode → Json
  | leaf v => v
  | table _ entries => .object (entriesToJson entries)
  | tables items => .list (itemsToJson items)

/-- Entries as fields. -/
def entriesToJson : List (String × TomlNode) → List (Option String × Json)
  | [] => []
  | (k, n) :: rest => (some k, toJson n) :: entriesToJson rest

/-- Parts as values. -/
def itemsToJson : List TomlNode → List Json
  | [] => []
  | n :: rest => toJson n :: itemsToJson rest

end

end TomlNode

end DailyBars
