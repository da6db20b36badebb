import Relabel.Descriptor

/-!
# Generic signatures

The syntax tree of the signatures of classes, fields and methods, its printer, its parser and the
action of a class map on it. A class type `Lo<…>.i<…>;` names the class `o$i`: the map is asked for
the names joined with `$`, and the printed part of an inner class is what its new name adds to the
new name of the class around it.

`rename` maps a signature that parses and leaves any other text as it is.
-/

namespace Relabel.Signature

open Descriptor (ClassMap)

/-! ### Syntax -/

/-- How a type argument bounds its type. -/
inductive Variance where
  | exactly
  | upper
  | lower
  deriving DecidableEq, Repr

mutual

/-- A type: a primitive (or the `V` of a method without result), a type variable, an array, or a
class with what follows its name. -/
inductive TypeSig where
  | primitive (letter : Char)
  | variable (name : String)
  | array (element : TypeSig)
  | ofClass (name : String) (tail : ClassTail)

/-- What follows a class name: lists of type arguments and names of inner classes. -/
inductive ClassTail where
  | done
  | args (list : TypeArgs) (rest : ClassTail)
  | inner (name : String) (rest : ClassTail)

/-- Type arguments: wildcards and types. -/
inductive TypeArgs where
  | done
  | any (rest : TypeArgs)
  | one (variance : Variance) (type : TypeSig) (rest : TypeArgs)

end

/-- A type parameter with its bounds; a bound may be left out. -/
structure TypeParam where
  name : String
  bounds : List (Option TypeSig)

/-- What a signature declares: a method's types, or types in a row (those of a class's superclass
and interfaces, or of a field). -/
inductive Body where
  | method (params : List TypeSig) (result : TypeSig) (throws : List TypeSig)
  | types (list : List TypeSig)

end Signature

/-- A generic signature. -/
structure Signature where
  /-- The type parameters, where the signature has a list of them. -/
  params : Option (List Signature.TypeParam)
  body : Signature.Body

namespace Signature

open Descriptor (ClassMap)

/-! ### Printing -/

/-- The wildcard character of an argument, if it has one. -/
def Variance.chars : Variance → List Char
  | .exactly => []
  | .upper => ['+']
  | .lower => ['-']

mutual

/-- A type signature as it is written. -/
def TypeSig.chars : TypeSig → List Char
  | .primitive letter => [letter]
  | .variable name => 'T' :: name.toList ++ [';']
  | .array element => '[' :: element.chars
  | .ofClass name tail => 'L' :: name.toList ++ tail.chars

/-- A tail as it is written, its closing semicolon included. -/
def ClassTail.chars : ClassTail → List Char
  | .done => [';']
  | .args list rest => '<' :: list.chars ++ rest.chars
  | .inner name rest => '.' :: name.toList ++ rest.chars

/-- Type arguments as they are written, up to the closing bracket. -/
def TypeArgs.chars : TypeArgs → List Char
  | .done => ['>']
  | .any rest => '*' :: rest.chars
  | .one variance type rest => variance.chars ++ type.chars ++ rest.chars

end

/-- A type parameter as it is written, each bound after a colon. -/
def TypeParam.chars (p : TypeParam) : List Char :=
  p.name.toList ++ p.bounds.flatMap fun bound => ':' :: (bound.elim [] TypeSig.chars)

/-- What follows the type parameters, as it is written. -/
def Body.chars : Body → List Char
  | .method params result throws =>
    '(' :: params.flatMap TypeSig.chars ++ ')' :: result.chars ++
      throws.flatMap fun t => '^' :: t.chars
  | .types list => list.flatMap TypeSig.chars

/-- The text of a signature, as characters. -/
def chars (s : Signature) : List Char :=
  (s.params.elim [] fun ps => '<' :: ps.flatMap TypeParam.chars ++ ['>']) ++ s.body.chars

/-- The text of a signature. -/
def print (s : Signature) : String :=
  String.ofList s.chars

/-! ### Parsing

Every call reads at least one character before the next, so the length of a text and one more
bound the depth of the calls on it. -/

/-- The text before the first character of a kind, and the rest from that character on. -/
def textBefore? (stop : Char → Bool) (s : List Char) : Option (String × List Char) :=
  match s.span (fun c => !stop c) with
  | (_, []) => none
  | (before, rest) => some (String.ofList before, rest)

/-- Whether a character ends a class name inside a signature. -/
def endsName (c : Char) : Bool :=
  c = '<' || c = '.' || c = ';'

mutual

/-- Reads one type signature. -/
def parseType : Nat → List Char → Option (TypeSig × List Char)
  | fuel + 1, 'L' :: rest => do
    let (name, rest) ← textBefore? endsName rest
    let (tail, rest) ← parseTail fuel rest
    return (.ofClass name tail, rest)
  | _ + 1, 'T' :: rest => do
    let (name, rest) ← textBefore? (· = ';') rest
    return (.variable name, rest.drop 1)
  | fuel + 1, '[' :: rest => do
    let (element, rest) ← parseType fuel rest
    return (.array element, rest)
  | _ + 1, c :: rest =>
    if Descriptor.isPrimitive c ∨ c = 'V' then some (.primitive c, rest) else none
  | _, _ => none

/-- Reads what follows the name of a class up to the semicolon. -/
def parseTail : Nat → List Char → Option (ClassTail × List Char)
  | fuel + 1, '<' :: rest => do
    let (list, rest) ← parseArgs fuel rest
    let (tail, rest) ← parseTail fuel rest
    return (.args list tail, rest)
  | fuel + 1, '.' :: rest => do
    let (name, rest) ← textBefore? endsName rest
    let (tail, rest) ← parseTail fuel rest
    return (.inner name tail, rest)
  | _ + 1, ';' :: rest => some (.done, rest)
  | _, _ => none

/-- Reads type arguments up to the closing bracket. -/
def parseArgs : Nat → List Char → Option (TypeArgs × List Char)
  | _ + 1, '>' :: rest => some (.done, rest)
  | fuel + 1, '*' :: rest => do
    let (args, rest) ← parseArgs fuel rest
    return (.any args, rest)
  | fuel + 1, '+' :: rest => do
    let (type, rest) ← parseType fuel rest
    let (args, rest) ← parseArgs fuel rest
    return (.one .upper type args, rest)
  | fuel + 1, '-' :: rest => do
    let (type, rest) ← parseType fuel rest
    let (args, rest) ← parseArgs fuel rest
    return (.one .lower type args, rest)
  | fuel + 1, rest => do
    let (type, rest) ← parseType fuel rest
    let (args, rest) ← parseArgs fuel rest
    return (.one .exactly type args, rest)
  | 0, _ => none

end

/-- Reads types up to the end of the text. -/
def parseTypes : Nat → List Char → Option (List TypeSig)
  | _, [] => some []
  | 0, _ => none
  | fuel + 1, s => do
    let (type, rest) ← parseType (s.length + 1) s
    let types ← parseTypes fuel rest
    return type :: types

/-- Reads types up to a closing parenthesis and past it. -/
def parseParams : Nat → List Char → Option (List TypeSig × List Char)
  | _, ')' :: rest => some ([], rest)
  | 0, _ => none
  | fuel + 1, s => do
    let (type, rest) ← parseType (s.length + 1) s
    let (types, rest) ← parseParams fuel rest
    return (type :: types, rest)

/-- Reads the types after a method's result, each with a `^` before it, up to the end. -/
def parseThrows : Nat → List Char → Option (List TypeSig)
  | _, [] => some []
  | fuel + 1, '^' :: rest => do
    let (type, rest) ← parseType (rest.length + 1) rest
    let types ← parseThrows fuel rest
    return type :: types
  | _, _ => none

/-- Reads bounds, each with a `:` before it. A bound may be left out. -/
def parseBounds : Nat → List Char → Option (List (Option TypeSig) × List Char)
  | fuel + 1, ':' :: rest =>
    match rest with
    | c :: _ =>
      if c = 'L' ∨ c = 'T' ∨ c = '[' then do
        let (type, rest) ← parseType (rest.length + 1) rest
        let (bounds, rest) ← parseBounds fuel rest
        return (some type :: bounds, rest)
      else do
        let (bounds, rest) ← parseBounds fuel rest
        return (none :: bounds, rest)
    | [] => some ([none], [])
  | _, s => some ([], s)

/-- Reads type parameters up to a `>` and past it. -/
def parseTypeParams : Nat → List Char → Option (List TypeParam × List Char)
  | _, '>' :: rest => some ([], rest)
  | 0, _ => none
  | fuel + 1, s => do
    let (name, rest) ← textBefore? (· = ':') s
    let (bounds, rest) ← parseBounds rest.length rest
    let (params, rest) ← parseTypeParams fuel rest
    return ({ name, bounds } :: params, rest)

/-- Reads what follows the type parameters, which must be all of it. -/
def parseBody : List Char → Option Body
  | '(' :: rest => do
    let (params, rest) ← parseParams (rest.length + 1) rest
    let (result, rest) ← parseType (rest.length + 1) rest
    let throws ← parseThrows rest.length rest
    return .method params result throws
  | s => do
    let list ← parseTypes s.length s
    return .types list

/-- Reads a signature. -/
def parse? (text : String) : Option Signature :=
  match text.toList with
  | '<' :: rest => do
    let (params, rest) ← parseTypeParams (rest.length + 1) rest
    let body ← parseBody rest
    return { params := some params, body }
  | s => do
    let body ← parseBody s
    return { params := none, body }

/-! ### Renaming -/

/-- What the name of an inner class adds to that of the class around it: what follows the latter
and a `$`, or else what follows the last `$`. -/
def simpleName (outer inner : String) : String :=
  match Text.stripFront? (outer.toList ++ ['$']) inner.toList with
  | some rest => String.ofList rest
  | none => String.ofList (Text.afterLast '$' inner.toList)

mutual

/-- Maps the classes in a type signature. -/
def TypeSig.rename (f : ClassMap) : TypeSig → TypeSig
  | .primitive letter => .primitive letter
  | .variable name => .variable name
  | .array element => .array (element.rename f)
  | .ofClass name tail =>
    let new := (f name).getD name
    .ofClass new (tail.rename f name new)

/-- Renames what follows a class, given its old and new full name. -/
def ClassTail.rename (f : ClassMap) (old new : String) : ClassTail → ClassTail
  | .done => .done
  | .args list rest => .args (list.rename f) (rest.rename f old new)
  | .inner name rest =>
    let oldInner := old ++ "$" ++ name
    let newInner := (f oldInner).getD (new ++ "$" ++ name)
    .inner (simpleName new newInner) (rest.rename f oldInner newInner)

/-- Maps the classes in type arguments. -/
def TypeArgs.rename (f : ClassMap) : TypeArgs → TypeArgs
  | .done => .done
  | .any rest => .any (rest.rename f)
  | .one variance type rest => .one variance (type.rename f) (rest.rename f)

end

/-- Maps the classes in the bounds of a type parameter. -/
def TypeParam.rename (f : ClassMap) (p : TypeParam) : TypeParam :=
  { p with bounds := p.bounds.map fun bound => bound.map (TypeSig.rename f) }

/-- Maps the classes in what follows the type parameters. -/
def Body.rename (f : ClassMap) : Body → Body
  | .method params result throws =>
    .method (params.map (TypeSig.rename f)) (result.rename f) (throws.map (TypeSig.rename f))
  | .types list => .types (list.map (TypeSig.rename f))

/-- The signature with every class name mapped. -/
def mapClasses (f : ClassMap) (s : Signature) : Signature :=
  { params := s.params.map fun ps => ps.map (TypeParam.rename f), body := s.body.rename f }

/-- The text of a signature with every class name mapped; a text that is no signature is left as
it is. -/
def rename (f : ClassMap) (text : String) : String :=
  match parse? text with
  | some s => (s.mapClasses f).print
  | none => text

end Relabel.Signature
