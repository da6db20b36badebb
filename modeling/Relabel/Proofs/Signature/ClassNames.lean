import Relabel.Proofs.Mapping.FieldTypes
import Relabel.Proofs.Signature.Renaming

/-!
# The classes that signatures name

A class type names a class by its parts, each inside of the one before. Behind a class map the parts
name the new classes as long as no class is moved out of the class around it: the form of a
signature has no place for an inner class other than behind its outer class, and what is written for
one that is elsewhere is what follows the last `$` of its new name.

## Main results

- `TypeSig.fullNames_rename_iff`: when the parts of a renamed type name the new classes.
- `denoted?_rename`: the class that a renamed class type names, and its descriptor.
- `denoted?_rename_movedOut`: a class that is moved out of the class around it.
-/

namespace Relabel.Signature

open Descriptor (ClassMap)

variable {f : ClassMap}

/-! ### Parts -/

/-- The classes that the parts of a class type name, the outermost first: each with the names of the
classes around it, the next one first. -/
def ClassTail.classes (name : String) (outer : List String) :
    ClassTail → List (String × List String)
  | .done => [(name, outer)]
  | .args _ rest => rest.classes name outer
  | .inner part rest => (name, outer) :: rest.classes part (name :: outer)

/-- The classes a type names outside its arguments, each with the classes it stands in. -/
def TypeSig.classes : TypeSig → List (String × List String)
  | .ofClass name tail => tail.classes name []
  | .primitive _ | .variable _ | .array _ => []

/-- The full names of the classes that the parts of a type name. -/
def TypeSig.fullNames (type : TypeSig) : List String :=
  type.classes.map fun c => binaryName c.1 c.2

/-- The new full names of the classes that the parts of a type name. -/
def TypeSig.newNames (f : ClassMap) (type : TypeSig) : List String :=
  type.classes.map fun c => newName f c.1 c.2

/-- What is written for the parts of a type. -/
def TypeSig.newParts (f : ClassMap) (type : TypeSig) : List String :=
  type.classes.map fun c => newPart f c.1 c.2

/-- The first class of a tail is the one the tail follows. -/
theorem ClassTail.exists_classes_eq_cons (name : String) (outer : List String) (tail : ClassTail) :
    ∃ inners, tail.classes name outer = (name, outer) :: inners := by
  cases tail with
  | done => exact ⟨_, rfl⟩
  | args list rest => exact rest.exists_classes_eq_cons name outer
  | inner part rest => exact ⟨_, rfl⟩

/-- Two parts joined beforehand are as good as two parts. -/
theorem joinWith_append (sep s next : String) (rest : List String) :
    Text.joinWith sep ((s ++ sep ++ next) :: rest) = Text.joinWith sep (s :: next :: rest) := by
  cases rest with
  | nil => rfl
  | cons last rest => simp [Text.joinWith, String.append_assoc]

/-- The class that is named behind a map, by the parts that are written behind the first. -/
theorem ClassTail.getLast?_fullNames_rename (f : ClassMap) (tail : ClassTail) (name name' : String)
    (outer outer' : List String) :
    ((tail.rename f (binaryName name outer) (newName f name outer)).classes
        name' outer').getLast?.map (fun c => binaryName c.1 c.2) =
      some (Text.joinWith "$" (binaryName name' outer' ::
        (tail.classes name outer).tail.map fun c => newPart f c.1 c.2)) := by
  cases tail with
  | done => rfl
  | args list rest => exact rest.getLast?_fullNames_rename f name name' outer outer'
  | inner part rest =>
    have hrest := rest.getLast?_fullNames_rename f part (newPart f part (name :: outer))
      (name :: outer) (name' :: outer')
    obtain ⟨inners, hinners⟩ := rest.exists_classes_eq_cons part (name :: outer)
    obtain ⟨inners', hinners'⟩ := (rest.rename f (binaryName part (name :: outer))
      (newName f part (name :: outer))).exists_classes_eq_cons
        (newPart f part (name :: outer)) (name' :: outer')
    have hjoin := joinWith_append "$" (binaryName name' outer') (newPart f part (name :: outer))
      (inners.map fun c => newPart f c.1 c.2)
    -- Both lists of classes are non-empty, so the last of the rest is the last of all.
    rw [hinners, hinners', List.tail_cons, binaryName.eq_2, hjoin] at hrest
    rw [ClassTail.rename_inner, ClassTail.classes, ClassTail.classes, List.tail_cons, hinners,
      hinners', List.map_cons, List.getLast?_cons_cons, hrest]

/-! ### Classes that stay where they are -/

/-- Whether a class that is inside of another is so behind a map. -/
def isInside (f : ClassMap) (name : String) : List String → Bool
  | [] => true
  | next :: outer =>
    (f (binaryName name (next :: outer))).all fun new =>
      Text.startsWith new (newName f next outer ++ "$")

/-- Whether a map moves none of the classes that the parts of a type name out of the class around
it. -/
def TypeSig.staysInside (f : ClassMap) (type : TypeSig) : Bool :=
  type.classes.all fun c => isInside f c.1 c.2

theorem startsWith_append (s rest : String) : Text.startsWith (s ++ rest) s := by
  have hfront : Text.stripFront? s.toList (s ++ rest).toList = some rest.toList :=
    Text.stripFront?_eq_some_iff.2 String.toList_append
  rw [Text.startsWith, hfront, Option.isSome_some]

/-- Being inside is a question about the class and the next outer one only. -/
theorem isInside_cons (name next : String) (outer : List String) :
    isInside f name (next :: outer) =
      Text.startsWith (newName f name (next :: outer)) (newName f next outer ++ "$") := by
  rw [isInside, newName]
  cases f (binaryName name (next :: outer)) with
  | some new => rfl
  | none => exact (startsWith_append _ name).symm

/-- The name of an inner class can be put together again if it is inside of the outer one. -/
theorem append_simpleName_iff {outer inner : String} :
    outer ++ "$" ++ simpleName outer inner = inner ↔ Text.startsWith inner (outer ++ "$") := by
  have hfront : (outer ++ "$").toList = outer.toList ++ ['$'] := String.toList_append
  rw [Text.startsWith, hfront, Option.isSome_iff_exists, simpleName]
  constructor
  · intro heq
    refine ⟨(simpleName outer inner).toList, Text.stripFront?_eq_some_iff.2 ?_⟩
    rw [← hfront, ← String.toList_append]
    exact congrArg String.toList heq.symm
  · rintro ⟨rest, hrest⟩
    rw [hrest]
    apply String.toList_injective
    rw [String.toList_append, hfront, String.toList_ofList, Text.stripFront?_eq_some_iff.1 hrest]

/-- The parts of what is written name the new classes if each stays inside of the one before. -/
theorem ClassTail.fullNames_rename_iff (tail : ClassTail) {name name' : String}
    {outer outer' : List String} (hname : binaryName name' outer' = newName f name outer)
    (hinside : isInside f name outer) :
    ((tail.rename f (binaryName name outer) (newName f name outer)).classes name' outer').map
        (fun c => binaryName c.1 c.2) =
      (tail.classes name outer).map (fun c => newName f c.1 c.2) ↔
    (tail.classes name outer).all fun c => isInside f c.1 c.2 := by
  cases tail with
  | done => simp [ClassTail.rename, ClassTail.classes, hname, hinside]
  | args list rest => exact rest.fullNames_rename_iff hname hinside
  | inner part rest =>
    -- The part is inside exactly when its new name is the outer one with the part behind it.
    have hjoin : binaryName (newPart f part (name :: outer)) (name' :: outer') =
        newName f part (name :: outer) ↔ isInside f part (name :: outer) := by
      rw [binaryName, hname, newPart_cons, append_simpleName_iff, isInside_cons]
    rw [ClassTail.rename_inner, ClassTail.classes, ClassTail.classes, List.map_cons, List.map_cons,
      List.all_cons, hinside, Bool.true_and, hname, List.cons_inj_right]
    by_cases hpart : isInside f part (name :: outer)
    · exact rest.fullNames_rename_iff (hjoin.2 hpart) hpart
    · -- The next part does not name the new class, and both lists begin with it.
      obtain ⟨inners, hinners⟩ := rest.exists_classes_eq_cons part (name :: outer)
      obtain ⟨inners', hinners'⟩ := (rest.rename f (binaryName part (name :: outer))
        (newName f part (name :: outer))).exists_classes_eq_cons
          (newPart f part (name :: outer)) (name' :: outer')
      rw [hinners, hinners', List.map_cons, List.map_cons, List.all_cons]
      refine iff_of_false (fun heq => hpart (hjoin.1 (List.cons.inj heq).1)) ?_
      simp [hpart]

/-- The new names are the names of the new classes exactly when every class stays inside. -/
theorem TypeSig.fullNames_rename_iff (f : ClassMap) (type : TypeSig) :
    (type.rename f).fullNames = type.newNames f ↔ type.staysInside f := by
  cases type with
  | ofClass name tail => exact @tail.fullNames_rename_iff f _ _ [] [] rfl rfl
  | primitive | «variable» | array => exact iff_of_true rfl rfl

/-! ### Texts of class types -/

/-- The class that the signature of a class type names: its parts, joined with `$`. -/
def denoted? (text : String) : Option String :=
  match parse? text with
  | some ⟨none, .types [type]⟩ => type.fullNames.getLast?
  | _ => none

/-- The descriptor of a class. -/
def erased (name : String) : String :=
  "L" ++ name ++ ";"

/-- Whether the new names of a map can stand in signatures. -/
def NewNamesFree (f : ClassMap) : Prop :=
  ∀ name new, f name = some new → Free (· ∈ ['.', ';', '[', '<', '>', ':']) new

/-- A new name ends no name early. -/
theorem NewNamesFree.endsName (hf : NewNamesFree f) (name new : String) (h : f name = some new) :
    Free endsName new := by
  intro c hc
  have hother := hf name new h c hc
  simp_all [Signature.endsName]

/-- A printed type denotes its last class. -/
theorem denoted?_print {type : TypeSig} (h : type.Readable) :
    denoted? (ofType type).print = type.fullNames.getLast? := by
  rw [denoted?, parse?_print (readable_ofType h)]
  rfl

/-! ### Descriptors of classes -/

/-- The names of the classes of a readable tail end no name early. -/
theorem ClassTail.free_of_mem_classes {tail : ClassTail} (h : tail.Readable) {name : String}
    {outer : List String} (hname : Free endsName (binaryName name outer)) :
    ∀ c ∈ tail.classes name outer, Free endsName (binaryName c.1 c.2) := by
  cases tail with
  | done => exact List.forall_mem_singleton.2 hname
  | args list rest => exact rest.free_of_mem_classes h.2 hname
  | inner part rest =>
    have hdollar : Free endsName "$" := fun c hc => by simp_all [endsName]
    have hpart : Free endsName (binaryName part (name :: outer)) :=
      (hname.append hdollar).append h.1
    exact List.forall_mem_cons.2 ⟨hname, rest.free_of_mem_classes h.2 hpart⟩

/-- The names of the classes of a readable type end no name early. -/
theorem TypeSig.free_of_mem_fullNames {type : TypeSig} (h : type.Readable) {name : String}
    (hname : name ∈ type.fullNames) : Free endsName name := by
  cases type with
  | ofClass first tail =>
    obtain ⟨c, hc, rfl⟩ := List.mem_map.1 hname
    have hfirst : Free endsName (binaryName first []) := h.1
    exact ClassTail.free_of_mem_classes h.2 hfirst c hc
  | primitive | «variable» | array => cases hname

/-- The erasure of a class is renamed as the class is. -/
theorem rename_erased (f : ClassMap) {name : String} (h : ';' ∉ name.toList) :
    Descriptor.rename f (erased name) = erased ((f name).getD name) := by
  have htext (name : String) : (erased name).toList = 'L' :: name.toList ++ ';' :: [] := by
    simp [erased]
  apply String.toList_injective
  rw [Descriptor.rename_eq, String.toList_ofList, htext, Descriptor.renameChars_ofClass h,
    Descriptor.ClassMap.image_toList, htext]
  rfl

/-! ### Renamed class types -/

/-- A class with a row of its own takes the name in it. -/
theorem newName_of_eq_some {name image : String} {outer : List String}
    (h : f (binaryName name outer) = some image) : newName f name outer = image := by
  cases outer with
  | nil =>
    rw [binaryName] at h
    rw [newName, h, Option.getD_some]
  | cons next outer => rw [newName, h, Option.getD_some]

/-- A class type names a class. -/
theorem TypeSig.exists_getLast?_classes {type : TypeSig} (h : type.isClass) :
    ∃ c, type.classes.getLast? = some c := by
  cases type with
  | ofClass name tail =>
    obtain ⟨inners, hinners⟩ := tail.exists_classes_eq_cons name []
    rw [TypeSig.classes, hinners, List.getLast?_cons]
    exact ⟨_, rfl⟩
  | primitive | «variable» | array => cases h

/-- A renamed class type ends in the class named by the new parts. -/
theorem TypeSig.getLast?_fullNames_rename (f : ClassMap) {type : TypeSig} (h : type.isClass) :
    (type.rename f).fullNames.getLast? = some (Text.joinWith "$" (type.newParts f)) := by
  cases type with
  | ofClass name tail =>
    obtain ⟨inners, hinners⟩ := tail.exists_classes_eq_cons name []
    have hlast := tail.getLast?_fullNames_rename f name ((f name).getD name) [] []
    rw [hinners] at hlast
    rw [TypeSig.newParts, TypeSig.classes, hinners, TypeSig.fullNames, List.getLast?_map]
    exact hlast
  | primitive | «variable» | array => cases h

/-- What is written for a class type is a class type again. Its parts name the new classes exactly
if none is moved out of the class around it, and the class that it names then is the new one, with
the renamed descriptor. -/
theorem denoted?_rename (hf : NewNamesFree f) {type : TypeSig} (hclass : type.isClass)
    (h : type.isGrammatical) :
    rename f (ofType type).print = (ofType (type.rename f)).print ∧
      denoted? (rename f (ofType type).print) = some (Text.joinWith "$" (type.newParts f)) ∧
      ((type.rename f).fullNames = type.newNames f ↔ type.staysInside f) ∧
      ∃ old, denoted? (ofType type).print = some old ∧
        (type.staysInside f → ∀ new, f old = some new →
          denoted? (rename f (ofType type).print) = some new ∧
            erased new = Descriptor.rename f (erased old)) := by
  have hreadable := type.readable h
  have hrename := rename_ofType hreadable f
  have hparts := type.fullNames_rename_iff f
  have hwritten : denoted? (rename f (ofType type).print) = (type.rename f).fullNames.getLast? := by
    rw [hrename, denoted?_print (type.readable_rename hf.endsName hreadable)]
  obtain ⟨c, hc⟩ := TypeSig.exists_getLast?_classes hclass
  have hold : type.fullNames.getLast? = some (binaryName c.1 c.2) := by
    rw [TypeSig.fullNames, List.getLast?_map, hc, Option.map_some]
  rw [hwritten]
  refine ⟨hrename, TypeSig.getLast?_fullNames_rename f hclass, hparts, _,
    (denoted?_print hreadable).trans hold, fun hinside new hnew => ⟨?_, ?_⟩⟩
  · rw [hparts.2 hinside, TypeSig.newNames, List.getLast?_map, hc, Option.map_some,
      newName_of_eq_some hnew]
  -- The old name holds no semicolon, so its erasure is one descriptor.
  · have hfree : ';' ∉ (binaryName c.1 c.2).toList := fun hmem =>
      Bool.false_ne_true (TypeSig.free_of_mem_fullNames hreadable
        (List.mem_of_getLast? hold) ';' hmem).symm
    rw [rename_erased f hfree, hnew, Option.getD_some]

/-- New names from rows without such characters end no name early. -/
theorem newNamesFree_ofRows {rows : List (String × String)}
    (h : ∀ row ∈ rows, Free (· ∈ ['.', ';', '[', '<', '>', ':']) row.2) :
    NewNamesFree (ofRows rows) := by
  intro name new hnew
  obtain ⟨before, after, rfl, -⟩ := List.lookup_eq_some_iff.1 hnew
  exact h (name, new) (List.mem_append_right _ List.mem_cons_self)

/-- An inner class with type arguments, of a class with a type argument. -/
def innerOfGeneric : TypeSig :=
  .ofClass "A" (.args (.one .exactly (.variable "T") .done)
    (.inner "B" (.args (.any .done) .done)))

/-- An inner class that moves with its outer class. -/
theorem denoted?_rename_innerOfGeneric :
    NewNamesFree (ofRows [("A", "X"), ("A$B", "X$Y")]) ∧ innerOfGeneric.isClass ∧
      innerOfGeneric.isGrammatical ∧
      innerOfGeneric.staysInside (ofRows [("A", "X"), ("A$B", "X$Y")]) ∧
      denoted? (rename (ofRows [("A", "X"), ("A$B", "X$Y")]) (ofType innerOfGeneric).print) =
        some "X$Y" ∧
      erased "X$Y" = Descriptor.rename (ofRows [("A", "X"), ("A$B", "X$Y")]) (erased "A$B") := by
  have hf : NewNamesFree (ofRows [("A", "X"), ("A$B", "X$Y")]) :=
    newNamesFree_ofRows (by simp [Free])
  have hclass : innerOfGeneric.isClass := rfl
  have hgrammatical : innerOfGeneric.isGrammatical := by decide
  have hinside : innerOfGeneric.staysInside (ofRows [("A", "X"), ("A$B", "X$Y")]) := by decide
  refine ⟨hf, hclass, hgrammatical, hinside, ?_⟩
  obtain ⟨-, -, -, old, hold, hkeep⟩ := denoted?_rename hf hclass hgrammatical
  obtain rfl : "A$B" = old := Option.some.inj (Eq.trans (by decide) hold)
  exact hkeep hinside "X$Y" (by decide)

/-- A class that is moved out of the class around it is still written behind it: `A$B` gets the name
`C`, and what is written names `A$C`. -/
theorem denoted?_rename_movedOut :
    NewNamesFree (ofRows [("A$B", "C")]) ∧
      (TypeSig.ofClass "A" (.inner "B" .done)).isClass ∧
      (TypeSig.ofClass "A" (.inner "B" .done)).isGrammatical ∧
      (ofType (.ofClass "A" (.inner "B" .done))).print = "LA.B;" ∧
      denoted? "LA.B;" = some "A$B" ∧ ofRows [("A$B", "C")] "A$B" = some "C" ∧
      denoted? (rename (ofRows [("A$B", "C")]) "LA.B;") = some "A$C" ∧
      Descriptor.rename (ofRows [("A$B", "C")]) (erased "A$B") = erased "C" ∧
      erased "A$C" ≠ erased "C" := by
  refine ⟨newNamesFree_ofRows (by simp [Free]), ?_⟩
  decide

end Relabel.Signature
