import Relabel.Proofs.Signature.Grammar

/-!
# Renaming in signatures

A signature is text that says how the types are put together, with class names in between. A class
map changes the names and nothing else: that of a class outside of any other to its new name, and
that of an inner class to what its new name adds to the new name of the class around it.

## Main results

- `TypeSig.chars_rename`: types.
- `rename_print`: signatures.
-/

namespace Relabel.Signature

open Descriptor (ClassMap)

variable {f : ClassMap}

/-! ### Classes inside of others -/

/-- The full name of a class, given its own and those of the classes around it, the next one
first. -/
def binaryName (name : String) : List String → String
  | [] => name
  | next :: outer => binaryName next outer ++ "$" ++ name

/-- The new full name of a class. One without an entry in the map goes where the class around it
goes. -/
def newName (f : ClassMap) (name : String) : List String → String
  | [] => (f name).getD name
  | next :: outer =>
    (f (binaryName name (next :: outer))).getD (newName f next outer ++ "$" ++ name)

/-- What is written for a class in place of its name: of an inner class without an entry in the map
the name itself. -/
def newPart (f : ClassMap) (name : String) : List String → String
  | [] => (f name).getD name
  | next :: outer =>
    match f (binaryName name (next :: outer)) with
    | some new => simpleName (newName f next outer) new
    | none => name

/-- What is written for an inner class is what the new name adds. -/
theorem newPart_cons (f : ClassMap) (name next : String) (outer : List String) :
    newPart f name (next :: outer) =
      simpleName (newName f next outer) (newName f name (next :: outer)) := by
  rw [newPart, newName]
  cases f (binaryName name (next :: outer)) with
  | some new => rfl
  | none => exact (simpleName_append _ _).symm

/-- An inner class is renamed under the outer classes and the new name it stands in. -/
theorem ClassTail.rename_inner (f : ClassMap) (name : String) (outer : List String) (part : String)
    (rest : ClassTail) :
    (ClassTail.inner part rest).rename f (binaryName name outer) (newName f name outer) =
      .inner (newPart f part (name :: outer))
        (rest.rename f (binaryName part (name :: outer)) (newName f part (name :: outer))) := by
  rw [newPart_cons]
  rfl

/-! ### Pieces -/

/-- A piece of a signature: text that is in no class name, or the name of a class with those of the
classes around it, the next one first. -/
inductive Piece where
  | text (s : List Char)
  | className (name : String) (outer : List String)

namespace Piece

/-- The characters of a piece as they are written. -/
def chars : Piece → List Char
  | .text s => s
  | .className name _ => name.toList

/-- The characters of a piece, with a new name for a class. -/
def renamed (f : ClassMap) : Piece → List Char
  | .text s => s
  | .className name outer => (newPart f name outer).toList

end Piece

mutual

/-- The pieces of a type signature, the names it writes apart from the text between them. -/
def TypeSig.pieces : TypeSig → List Piece
  | .primitive letter => [.text [letter]]
  | .variable name => [.text ('T' :: name.toList ++ [';'])]
  | .array element => .text ['['] :: element.pieces
  | .ofClass name tail => .text ['L'] :: .className name [] :: tail.pieces name []

/-- The pieces of what follows a class. -/
def ClassTail.pieces (name : String) (outer : List String) : ClassTail → List Piece
  | .done => [.text [';']]
  | .args list rest => .text ['<'] :: list.pieces ++ rest.pieces name outer
  | .inner inner rest =>
    .text ['.'] :: .className inner (name :: outer) :: rest.pieces inner (name :: outer)

/-- The pieces of type arguments. -/
def TypeArgs.pieces : TypeArgs → List Piece
  | .done => [.text ['>']]
  | .any rest => .text ['*'] :: rest.pieces
  | .one variance type rest => .text variance.chars :: type.pieces ++ rest.pieces

end

/-- The pieces of a type parameter. -/
def TypeParam.pieces (p : TypeParam) : List Piece :=
  .text p.name.toList :: p.bounds.flatMap fun bound => .text [':'] :: bound.elim [] TypeSig.pieces

/-- The pieces of the part after the type parameters. -/
def Body.pieces : Body → List Piece
  | .method params result throws =>
    .text ['('] :: params.flatMap TypeSig.pieces ++ .text [')'] :: result.pieces ++
      throws.flatMap fun t => .text ['^'] :: t.pieces
  | .types list => list.flatMap TypeSig.pieces

/-- The pieces of a signature. -/
def pieces (s : Signature) : List Piece :=
  (s.params.elim [] fun ps => .text ['<'] :: ps.flatMap TypeParam.pieces ++ [.text ['>']]) ++
    s.body.pieces

/-! ### Types -/

mutual

/-- A renamed type is written as the type is, with other class names. -/
theorem TypeSig.chars_rename (f : ClassMap) (type : TypeSig) :
    (type.rename f).chars = type.pieces.flatMap (Piece.renamed f) := by
  cases type with
  | primitive letter => rfl
  | «variable» name => simp [TypeSig.rename, TypeSig.chars, TypeSig.pieces, Piece.renamed]
  | array element =>
    simp [TypeSig.rename, TypeSig.chars, TypeSig.pieces, Piece.renamed, element.chars_rename f]
  | ofClass name tail =>
    have htail := tail.chars_rename f name []
    rw [binaryName, newName] at htail
    simp [TypeSig.rename, TypeSig.chars, TypeSig.pieces, Piece.renamed, newPart, htail]

/-- A renamed tail writes its pieces renamed. -/
theorem ClassTail.chars_rename (f : ClassMap) (tail : ClassTail) (name : String)
    (outer : List String) :
    (tail.rename f (binaryName name outer) (newName f name outer)).chars =
      (tail.pieces name outer).flatMap (Piece.renamed f) := by
  cases tail with
  | done => rfl
  | args list rest =>
    simp [ClassTail.rename, ClassTail.chars, ClassTail.pieces, Piece.renamed,
      list.chars_rename f, rest.chars_rename f name outer]
  | inner inner rest =>
    rw [ClassTail.rename_inner, ClassTail.chars, rest.chars_rename f inner (name :: outer)]
    simp [ClassTail.pieces, Piece.renamed]

/-- Renamed type arguments write their pieces renamed. -/
theorem TypeArgs.chars_rename (f : ClassMap) (args : TypeArgs) :
    (args.rename f).chars = args.pieces.flatMap (Piece.renamed f) := by
  cases args with
  | done => rfl
  | any rest =>
    simp [TypeArgs.rename, TypeArgs.chars, TypeArgs.pieces, Piece.renamed, rest.chars_rename f]
  | one variance type rest =>
    simp [TypeArgs.rename, TypeArgs.chars, TypeArgs.pieces, Piece.renamed, type.chars_rename f,
      rest.chars_rename f]

end

/-! ### Signatures -/

/-- A renamed type parameter writes its pieces renamed. -/
theorem TypeParam.chars_rename (f : ClassMap) (p : TypeParam) :
    (p.rename f).chars = p.pieces.flatMap (Piece.renamed f) := by
  have hbound (bound : Option TypeSig) :
      ((bound.map (TypeSig.rename f)).elim [] TypeSig.chars) =
        (bound.elim [] TypeSig.pieces).flatMap (Piece.renamed f) := by
    cases bound with
    | none => rfl
    | some type => exact type.chars_rename f
  simp [TypeParam.rename, TypeParam.chars, TypeParam.pieces, Piece.renamed, List.flatMap_map,
    List.flatMap_assoc, hbound]

/-- A renamed body writes its pieces renamed. -/
theorem Body.chars_rename (f : ClassMap) (body : Body) :
    (body.rename f).chars = body.pieces.flatMap (Piece.renamed f) := by
  cases body with
  | method params result throws =>
    simp [Body.rename, Body.chars, Body.pieces, Piece.renamed, List.flatMap_map, List.flatMap_assoc,
      TypeSig.chars_rename]
  | types list =>
    simp [Body.rename, Body.chars, Body.pieces, List.flatMap_map, List.flatMap_assoc,
      TypeSig.chars_rename]

/-- A signature with its classes mapped writes its pieces renamed. -/
theorem chars_mapClasses (f : ClassMap) (s : Signature) :
    (s.mapClasses f).chars = s.pieces.flatMap (Piece.renamed f) := by
  obtain ⟨params, body⟩ := s
  cases params with
  | none => simp [mapClasses, chars, pieces, Body.chars_rename]
  | some params =>
    simp [mapClasses, chars, pieces, Piece.renamed, List.flatMap_map, List.flatMap_assoc,
      TypeParam.chars_rename, Body.chars_rename]

/-- No part of a name changes where no class has a new name. -/
theorem newPart_none (name : String) (outer : List String) :
    newPart (fun _ => none) name outer = name := by
  cases outer <;> rfl

/-- The pieces of a signature make up its text. -/
theorem flatMap_chars_pieces (s : Signature) : s.pieces.flatMap Piece.chars = s.chars := by
  have hpiece : Piece.renamed (fun _ => none) = Piece.chars := by
    funext piece
    cases piece with
    | text s => rfl
    | className name outer => rw [Piece.renamed, newPart_none, Piece.chars]
  rw [← hpiece, ← chars_mapClasses, mapClasses_none]

/-- Renaming the text of a readable signature prints the signature with its classes mapped. -/
theorem Readable.rename_eq {s : Signature} (h : s.Readable) (f : ClassMap) :
    rename f s.print = (s.mapClasses f).print := by
  rw [rename, parse?_print h]

/-- A signature that is one type. -/
def ofType (type : TypeSig) : Signature where
  params := none
  body := .types [type]

/-- The signature of one field type is readable where the type is. -/
theorem readable_ofType {type : TypeSig} (h : type.Readable) : (ofType type).Readable :=
  ⟨fun _ hps => (Option.some_ne_none _ hps.symm).elim, List.forall_mem_singleton.2 h⟩

/-- Renaming the text of one field type prints the renamed type. -/
theorem rename_ofType {type : TypeSig} (h : type.Readable) (f : ClassMap) :
    rename f (ofType type).print = (ofType (type.rename f)).print :=
  (readable_ofType h).rename_eq f

/-- A class map acts on the class names in a signature of the grammar: what is written is the
signature that it makes of the tree, and, piece by piece, the text that was there with other names
for the classes. -/
theorem rename_print {s : Signature} (h : s.isGrammatical) (f : ClassMap) :
    s.print = String.ofList (s.pieces.flatMap Piece.chars) ∧
      rename f s.print = (s.mapClasses f).print ∧
      rename f s.print = String.ofList (s.pieces.flatMap (Piece.renamed f)) := by
  have htree : rename f s.print = (s.mapClasses f).print := (Readable.of_grammatical h).rename_eq f
  refine ⟨?_, htree, ?_⟩
  · rw [flatMap_chars_pieces, print]
  · rw [htree, print, chars_mapClasses]

/-- The class map that a list of old and new names gives. -/
def ofRows (rows : List (String × String)) : ClassMap :=
  fun name => rows.lookup name

/-- A generic method: a type variable with two bounds, an inner class of a class with type
arguments, and an exception. -/
def genericMethod : Signature where
  params := some [{
    name := "T"
    bounds := [some (.ofClass "a" .done),
      some (.ofClass "java/lang/Comparable" (.args (.one .lower (.variable "T") .done) .done))] }]
  body := .method
    [.variable "T", .array (.ofClass "a" (.args (.any .done)
      (.inner "b" (.args (.one .upper (.ofClass "T" .done) .done) .done))))]
    (.primitive 'V') [.ofClass "java/io/IOException" .done]

/-- The type variable `T` stays as it is where the class `T` gets a new name. -/
theorem rename_print_genericMethod :
    genericMethod.isGrammatical ∧
      rename (ofRows [("a", "pkg/Outer"), ("a$b", "pkg/Outer$Inner"), ("T", "U")])
          genericMethod.print =
        "<T:Lpkg/Outer;:Ljava/lang/Comparable<-TT;>;>" ++
          "(TT;[Lpkg/Outer<*>.Inner<+LU;>;)V^Ljava/io/IOException;" :=
  ⟨by decide, (rename_print (by decide) _).2.2.trans (by decide)⟩

/-! ### Reading what was renamed -/

/-- Two names free of a set of characters are so put together. -/
theorem Free.append {stop : Char → Bool} {name name' : String} (h : Free stop name)
    (h' : Free stop name') : Free stop (name ++ name') := by
  intro c hc
  rw [String.toList_append, List.mem_append] at hc
  exact hc.elim (h c) (h' c)

/-- What an inner class adds is the end of its name. -/
theorem Free.simpleName {stop : Char → Bool} {inner : String} (h : Free stop inner)
    (outer : String) : Free stop (simpleName outer inner) := by
  intro c hc
  apply h c
  rw [Signature.simpleName] at hc
  split at hc
  · next rest hrest =>
    rw [Text.stripFront?_eq_some_iff.1 hrest, List.mem_append]
    rw [String.toList_ofList] at hc
    exact .inr hc
  · rw [String.toList_ofList, Text.afterLast, List.mem_reverse] at hc
    exact List.mem_reverse.1 ((List.takeWhile_prefix _).subset hc)

/-- A class keeps out of a set of characters where the names it may be given do. -/
theorem Free.getD {stop : Char → Bool} {name : String}
    (hf : ∀ name new, f name = some new → Free stop new) (old : String) (h : Free stop name) :
    Free stop ((f old).getD name) := by
  cases hnew : f old with
  | none => exact h
  | some new => exact hf old new hnew

mutual

/-- A type can be read again behind a map whose names can. -/
theorem TypeSig.readable_rename (hf : ∀ name new, f name = some new → Free endsName new)
    (type : TypeSig) (h : type.Readable) : (type.rename f).Readable := by
  cases type with
  | primitive letter => exact h
  | «variable» name => exact h
  | array element => exact element.readable_rename hf h
  | ofClass name tail =>
    have hnew : Free endsName ((f name).getD name) := Free.getD hf name h.1
    exact ⟨hnew, tail.readable_rename hf h.2 name hnew⟩

/-- A tail stays readable under a map to names that are readable. -/
theorem ClassTail.readable_rename (hf : ∀ name new, f name = some new → Free endsName new)
    (tail : ClassTail) (h : tail.Readable) (old : String) {new : String}
    (hnew : Free endsName new) : (tail.rename f old new).Readable := by
  cases tail with
  | done => trivial
  | args list rest => exact ⟨list.readable_rename hf h.1, rest.readable_rename hf h.2 old hnew⟩
  | inner name rest =>
    -- The name without an answer of its own is the outer one, a `$` and the inner one.
    have hjoined : Free endsName (new ++ "$" ++ name) :=
      (hnew.append fun c hc => by simp_all [endsName]).append h.1
    have hinner : Free endsName ((f (old ++ "$" ++ name)).getD (new ++ "$" ++ name)) :=
      Free.getD hf _ hjoined
    exact ⟨hinner.simpleName new, rest.readable_rename hf h.2 _ hinner⟩

/-- Type arguments stay readable under such a map. -/
theorem TypeArgs.readable_rename (hf : ∀ name new, f name = some new → Free endsName new)
    (args : TypeArgs) (h : args.Readable) : (args.rename f).Readable := by
  cases args with
  | done => trivial
  | any rest => exact rest.readable_rename hf h
  | one variance type rest => exact ⟨type.readable_rename hf h.1, rest.readable_rename hf h.2⟩

end

end Relabel.Signature
