import Relabel.Text.Split
import Relabel.Text.Quoted

/-!
# Mapping tables

A mapping table declares namespaces and lists classes, fields and methods with their name in each
of them. Its text has one row per line, with a tab between columns: a header `v1` with the
namespaces, then rows `CLASS`, `FIELD` and `METHOD`. The owner and descriptor of a member row are
those of the first namespace. Blank lines and lines that start with `#` do not count, but they are
numbered like all others.
-/

namespace Relabel.Mapping

/-- What is wrong with a table, or with a request to it. -/
inductive TableError where
  | empty
  | header (line : Nat) (text : String)
  | noNamespace (line : Nat)
  | rowKind (line : Nat) (kind : String)
  | columns (line : Nat) (kind : String) (found expected : Nat)
  | undeclared (namespaceName : String) (declared : List String)
  deriving DecidableEq, Repr

/-- The number of the line to blame, 0 where no line is. -/
def TableError.line : TableError → Nat
  | .empty => 0
  | .header line _ => line
  | .noNamespace line => line
  | .rowKind line _ => line
  | .columns line _ _ _ => line
  | .undeclared _ _ => 0

/-- What is wrong, in words. -/
def TableError.message : TableError → String
  | .empty => "mapping file is empty"
  | .header _ text => "unsupported header: " ++ text
  | .noNamespace _ => "header must declare at least one namespace"
  | .rowKind _ kind => "unknown row kind " ++ Text.quoted kind
  | .columns _ kind found expected =>
    s!"{kind} row has {found} columns, expected {expected}"
  | .undeclared name declared =>
    "namespace " ++ Text.quoted name ++ " is not declared (declared: " ++
      Text.joinWith ", " declared ++ ")"

/-- The row of a field or method. -/
structure MemberNames where
  owner : String
  desc : String
  /-- The member's name in each namespace. -/
  names : List String
  deriving DecidableEq, Repr

/-- A mapping table. The rows of each kind stand in the order of the text. -/
structure Table where
  namespaces : List String := []
  /-- The name of each class in each namespace. -/
  classes : List (List String) := []
  fields : List MemberNames := []
  methods : List MemberNames := []
  deriving DecidableEq, Repr

/-! ### Reading a table -/

/-- One row below the header. -/
inductive Row where
  | ofClass (names : List String)
  | ofField (row : MemberNames)
  | ofMethod (row : MemberNames)
  deriving DecidableEq, Repr

/-- A line with its number. -/
structure Line where
  number : Nat
  text : List Char

/-- Whether a line counts. -/
def Line.counts (line : Line) : Bool :=
  !(Text.trimChars line.text).isEmpty && line.text.head? != some '#'

/-- The lines that count, without the carriage returns at their ends. -/
def countedLines (text : String) : List Line :=
  let numbered := (Text.lineChars text.toList).zipIdx 1
  (numbered.map fun (line, number) =>
    { number, text := Text.dropEndWhile (· = '\r') line : Line }).filter Line.counts

/-- The texts between the tabs. -/
def Line.columns (line : Line) : List String :=
  (Text.splitChars '\t' line.text).map String.ofList

/-- Reads the header: the namespaces it declares. -/
def readHeader (line : Line) : Except TableError (List String) :=
  match line.columns with
  | "v1" :: namespaces =>
    if namespaces.isEmpty || namespaces.any (· = "") then .error (.noNamespace line.number)
    else .ok namespaces
  | _ => .error (.header line.number (String.ofList line.text))

/-- Reads the row of a member, given what to make of it. -/
def readMember (make : MemberNames → Row) (width : Nat) (line : Line) (kind : String)
    (columns : List String) : Except TableError Row :=
  match columns with
  | owner :: desc :: names =>
    if names.length = width then .ok (make { owner, desc, names })
    else .error (.columns line.number kind (columns.length + 1) (3 + width))
  | _ => .error (.columns line.number kind (columns.length + 1) (3 + width))

/-- Reads a row of a table with `width` namespaces. -/
def readRow (width : Nat) (line : Line) : Except TableError Row :=
  match line.columns with
  | "CLASS" :: names =>
    if names.length = width then .ok (.ofClass names)
    else .error (.columns line.number "CLASS" (names.length + 1) (1 + width))
  | "FIELD" :: columns => readMember .ofField width line "FIELD" columns
  | "METHOD" :: columns => readMember .ofMethod width line "METHOD" columns
  | kind :: _ => .error (.rowKind line.number kind)
  | [] => .error (.rowKind line.number "")

/-- The table with these namespaces and rows. -/
def Table.ofRows (namespaces : List String) (rows : List Row) : Table where
  namespaces
  classes := rows.filterMap fun | .ofClass names => some names | _ => none
  fields := rows.filterMap fun | .ofField row => some row | _ => none
  methods := rows.filterMap fun | .ofMethod row => some row | _ => none

/-- Reads a table. The first line that is wrong is blamed. -/
def Table.parse (text : String) : Except TableError Table :=
  match countedLines text with
  | [] => .error .empty
  | header :: lines => do
    let namespaces ← readHeader header
    let rows ← lines.mapM (readRow namespaces.length)
    return .ofRows namespaces rows

end Relabel.Mapping
