import Relabel.Text.Age
import Relabel.Text.Segmentation

/-!
# Classes of characters by name

What the name of a property stands for, alone or with a value: `Lu`, `Greek` and `Alphabetic`
stand alone, `Script` and `Age` take a value.
-/

namespace Relabel.Text.CharClass

/-- The class with a name, given in its loose form. -/
def named? (classes : List NamedClass) (name : List Char) : Option CharClass :=
  (classes.find? (·.hasName name)).map (·.members)

/-- What a name stands for alone: a property, else a general category, else a script. -/
def ofName? (name : List Char) : Option CharClass :=
  let name := looseName name
  named? properties name <|> named? categories name <|> named? scripts name

/-- The characters for which a property has a value. -/
def ofValue? (property value : List Char) : Option CharClass :=
  let value := looseName value
  match String.ofList (looseName property) with
  | "generalcategory" | "gc" => named? categories value
  | "script" | "sc" => named? scripts value
  | "scriptextensions" | "scx" => (scripts.find? (·.hasName value)).map usedByScript
  | "age" => upToVersion (·.hasName value) versions
  | "graphemeclusterbreak" | "gcb" => named? clusterBreaks value
  | "wordbreak" | "wb" => named? wordBreaks value
  | "sentencebreak" | "sb" => named? sentenceBreaks value
  | _ => none

end Relabel.Text.CharClass
