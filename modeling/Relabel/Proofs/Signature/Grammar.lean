import Relabel.Proofs.Signature.Parsing
import Relabel.Proofs.Text.Lines

/-!
# The grammar of signatures

The signatures of classes, fields and methods, as a class file may hold them. The parser knows less
of the grammar than it demands: it takes any types in a row, and type arguments wherever a class
name has ended. Whatever the grammar allows it reads as it was printed.

## Main results

- `Readable.of_grammatical`: a signature of the grammar is read as it was printed.
-/

namespace Relabel.Signature

/-! ### Names -/

/-- Whether a character stands between names in signatures. -/
def isDelimiter (c : Char) : Bool :=
  c = '.' || c = ';' || c = '[' || c = '/' || c = '<' || c = '>' || c = ':'

/-- Whether a text is the name of a type variable, or of a class without its package. -/
def isIdentifier (name : String) : Bool :=
  name ≠ "" && name.toList.all fun c => !isDelimiter c

/-- Whether a text is the name of a class: identifiers with a slash between them. -/
def isClassName (name : String) : Bool :=
  (Text.split '/' name).all isIdentifier

/-- An identifier holds no character that ends a name. -/
theorem free_of_isIdentifier {name : String} (h : isIdentifier name) : Free isDelimiter name := by
  intro c hc
  rw [isIdentifier, Bool.and_eq_true, List.all_eq_true] at h
  simpa using h.2 c hc

/-- Nothing in a class name ends it, whether it is in a package or not. -/
theorem free_of_isClassName {name : String} (h : isClassName name) : Free endsName name := by
  intro c hc
  rw [isClassName, List.all_eq_true] at h
  have hsplit : c = '/' ∨ ∃ piece ∈ Text.splitChars '/' name.toList, c ∈ piece :=
    Text.exists_mem_splitChars hc
  rcases hsplit with rfl | ⟨piece, hpiece, hmem⟩
  · rfl
  · have hidentifier := h (String.ofList piece) (List.mem_map_of_mem hpiece)
    have hother := free_of_isIdentifier hidentifier c (by rwa [String.toList_ofList])
    simp_all [isDelimiter, endsName]

/-! ### Types -/

/-- Whether there are no type arguments. -/
def TypeArgs.isEmpty : TypeArgs → Bool
  | .done => true
  | .any _ | .one _ _ _ => false

mutual

/-- Whether a tree is a type of the grammar. -/
def TypeSig.isGrammatical : TypeSig → Bool
  | .primitive letter => Descriptor.isPrimitive letter
  | .variable name => isIdentifier name
  | .array element => element.isGrammatical
  | .ofClass name tail => isClassName name && tail.isGrammatical true

/-- Whether a tree may follow a class name: type arguments stand once at most behind each name. -/
def ClassTail.isGrammatical (mayHaveArgs : Bool) : ClassTail → Bool
  | .done => true
  | .args list rest =>
    mayHaveArgs && !list.isEmpty && list.isGrammatical && rest.isGrammatical false
  | .inner name rest => isIdentifier name && rest.isGrammatical true

/-- Whether all type arguments are wildcards or references. -/
def TypeArgs.isGrammatical : TypeArgs → Bool
  | .done => true
  | .any rest => rest.isGrammatical
  | .one _ type rest => type.isReference && type.isGrammatical && rest.isGrammatical

end

/-- Whether a type is that of a class. -/
def TypeSig.isClass : TypeSig → Bool
  | .ofClass _ _ => true
  | .primitive _ | .variable _ | .array _ => false

/-- Whether a type may stand for what a method throws. -/
def TypeSig.isThrowable : TypeSig → Bool
  | .ofClass _ _ | .variable _ => true
  | .primitive _ | .array _ => false

/-- Whether a type may be the result of a method: `V` stands for none. -/
def TypeSig.isResult : TypeSig → Bool
  | .primitive letter => Descriptor.isPrimitive letter || letter = 'V'
  | type => type.isGrammatical

/-! ### Signatures -/

/-- Whether a type parameter has a bound: a class, which may be left out where interfaces follow. -/
def TypeParam.isGrammatical (p : TypeParam) : Bool :=
  isIdentifier p.name && match p.bounds with
    | [] => false
    | classBound :: interfaces =>
      (classBound.isSome || !interfaces.isEmpty) &&
        classBound.all (fun t => t.isReference && t.isGrammatical) &&
        interfaces.all fun bound => bound.any fun t => t.isReference && t.isGrammatical

/-- Whether there are no type parameters, or at least one. -/
def paramsGrammatical (params : Option (List TypeParam)) : Bool :=
  params.all fun ps => !ps.isEmpty && ps.all (·.isGrammatical)

/-- The signature of a class: its superclass and its interfaces. -/
def isOfClass (s : Signature) : Bool :=
  paramsGrammatical s.params && match s.body with
    | .types list => !list.isEmpty && list.all fun t => t.isClass && t.isGrammatical
    | .method _ _ _ => false

/-- The signature of a field: one reference. -/
def isOfField (s : Signature) : Bool :=
  s.params.isNone && match s.body with
    | .types [type] => type.isReference && type.isGrammatical
    | _ => false

/-- The signature of a method. -/
def isOfMethod (s : Signature) : Bool :=
  paramsGrammatical s.params && match s.body with
    | .method params result throws => params.all (·.isGrammatical) && result.isResult &&
      throws.all fun t => t.isThrowable && t.isGrammatical
    | .types _ => false

/-- Whether a tree is a signature of the grammar. -/
def isGrammatical (s : Signature) : Bool :=
  s.isOfClass || s.isOfField || s.isOfMethod

/-! ### Reading -/

mutual

/-- A grammatical type is readable. -/
theorem TypeSig.readable (type : TypeSig) (h : type.isGrammatical) : type.Readable := by
  cases type with
  | primitive letter => exact .inl h
  | «variable» name =>
    intro c hc
    have hother := free_of_isIdentifier h c hc
    simp_all [isDelimiter]
  | array element => exact element.readable h
  | ofClass name tail =>
    rw [TypeSig.isGrammatical, Bool.and_eq_true] at h
    exact ⟨free_of_isClassName h.1, tail.readable h.2⟩

/-- A grammatical tail is readable. -/
theorem ClassTail.readable (tail : ClassTail) {mayHaveArgs : Bool}
    (h : tail.isGrammatical mayHaveArgs) : tail.Readable := by
  cases tail with
  | done => trivial
  | args list rest =>
    simp only [ClassTail.isGrammatical, Bool.and_eq_true] at h
    exact ⟨list.readable h.1.2, rest.readable h.2⟩
  | inner name rest =>
    rw [ClassTail.isGrammatical, Bool.and_eq_true] at h
    refine ⟨fun c hc => ?_, rest.readable h.2⟩
    have hother := free_of_isIdentifier h.1 c hc
    simp_all [isDelimiter, endsName]

/-- Grammatical type arguments are readable. -/
theorem TypeArgs.readable (args : TypeArgs) (h : args.isGrammatical) : args.Readable := by
  cases args with
  | done => trivial
  | any rest => exact rest.readable h
  | one variance type rest =>
    simp only [TypeArgs.isGrammatical, Bool.and_eq_true] at h
    exact ⟨type.readable h.1.2, rest.readable h.2⟩

end

/-- A grammatical result is readable. -/
theorem TypeSig.readable_of_isResult {type : TypeSig} (h : type.isResult) : type.Readable := by
  cases type with
  | primitive letter => simpa [TypeSig.isResult, TypeSig.Readable] using h
  | «variable» | array | ofClass => exact TypeSig.readable _ h

/-- Only the bound of a class may be left out, and then one of an interface follows. -/
theorem TypeParam.readable {p : TypeParam} (h : p.isGrammatical) : p.Readable := by
  obtain ⟨name, bounds⟩ := p
  rw [TypeParam.isGrammatical, Bool.and_eq_true] at h
  obtain ⟨hname, hbounds⟩ := h
  cases bounds with
  | nil => cases hbounds
  | cons classBound interfaces =>
    simp only [Bool.and_eq_true, List.all_eq_true] at hbounds
    obtain ⟨⟨hsome, hclass⟩, hinterfaces⟩ := hbounds
    refine ⟨?_, ?_, ?_, ?_⟩
    · rw [isIdentifier, Bool.and_eq_true] at hname
      exact of_decide_eq_true hname.1
    · intro c hc
      have hother := free_of_isIdentifier hname c hc
      simp_all [isDelimiter]
    -- The last bound is not left out: without interfaces it is that of the class.
    · cases hlast : interfaces.getLast? with
      | none =>
        obtain rfl := List.getLast?_eq_none_iff.1 hlast
        have hclassBound : classBound.isSome := by simpa using hsome
        obtain ⟨type, rfl⟩ := Option.isSome_iff_exists.1 hclassBound
        exact ⟨type, rfl⟩
      | some bound =>
        have hbound := hinterfaces bound (List.mem_of_getLast? hlast)
        obtain ⟨type, rfl, -⟩ := (Option.any_eq_true _ _).1 hbound
        exact ⟨type, by rw [List.getLast?_cons, hlast]; rfl⟩
    · rw [List.forall_mem_cons]
      refine ⟨?_, ?_⟩
      · rintro type rfl
        rw [Option.all_some, Bool.and_eq_true] at hclass
        exact ⟨hclass.1, type.readable hclass.2⟩
      · rintro bound hbound type rfl
        have hinterface := hinterfaces (some type) hbound
        rw [Option.any_some, Bool.and_eq_true] at hinterface
        exact ⟨hinterface.1, type.readable hinterface.2⟩

/-- A signature of the grammar is read as it was printed. -/
theorem Readable.of_grammatical {s : Signature} (h : s.isGrammatical) : s.Readable := by
  obtain ⟨params, body⟩ := s
  have hparams (h : paramsGrammatical params) : ∀ ps, params = some ps → ∀ p ∈ ps, p.Readable := by
    rintro ps rfl p hp
    rw [paramsGrammatical, Option.all_some, Bool.and_eq_true, List.all_eq_true] at h
    exact TypeParam.readable (h.2 p hp)
  rw [isGrammatical, Bool.or_eq_true, Bool.or_eq_true] at h
  -- The signature of a class, of a field or of a method: each has a body of its own shape.
  rcases h with (hclass | hfield) | hmethod
  · rw [isOfClass, Bool.and_eq_true] at hclass
    cases body with
    | method => cases hclass.2
    | types list =>
      simp only [Bool.and_eq_true, List.all_eq_true] at hclass
      exact ⟨hparams hclass.1, fun t ht => t.readable (hclass.2.2 t ht).2⟩
  · rw [isOfField, Bool.and_eq_true, Option.isNone_iff_eq_none] at hfield
    obtain ⟨hnone, hbody⟩ := hfield
    split at hbody
    · next type htype =>
      rw [Bool.and_eq_true] at hbody
      refine ⟨fun ps hps => by simp_all, ?_⟩
      simp only at htype
      rw [htype]
      exact List.forall_mem_singleton.2 (type.readable hbody.2)
    · cases hbody
  · rw [isOfMethod, Bool.and_eq_true] at hmethod
    cases body with
    | types => cases hmethod.2
    | method types result throws =>
      simp only [Bool.and_eq_true, List.all_eq_true] at hmethod
      obtain ⟨hps, ⟨htypes, hresult⟩, hthrows⟩ := hmethod
      exact ⟨hparams hps, fun t ht => t.readable (htypes t ht),
        TypeSig.readable_of_isResult hresult, fun t ht => t.readable (hthrows t ht).2⟩

end Relabel.Signature
