import Mathlib.Data.List.TakeDrop
import Relabel.Signature

/-!
# Signatures that are read and printed

What the parser takes off the front of a text is what the printer writes for the tree it gives. So a
text that is a signature is printed as it was, and a class map that renames nothing changes no text,
whether it is a signature or not.

## Main results

- `takes_parseType`: types, what follows class names, and type arguments.
- `print_of_parse?`: a signature is printed as it was read.
- `rename_none`: a map without new names leaves every text alone.
-/

namespace Relabel.Signature

open Descriptor (ClassMap)

variable {α β : Type} {s rest : List Char}

/-! ### Steps of the parser -/

/-- What was read, if anything was, is printed as the front of the text that does not remain. -/
def Takes (s : List Char) (read : Option (α × List Char)) (print : α → List Char) : Prop :=
  ∀ a rest, read = some (a, rest) → s = print a ++ rest

/-- A reader succeeds where its two steps do, one after the other. -/
theorem bind_eq_some {x : Option (α × List Char)} {f : α × List Char → Option β} {b : β} :
    (x >>= f) = some b ↔ ∃ a rest, x = some (a, rest) ∧ f (a, rest) = some b := by
  rw [Option.bind_eq_bind, Option.bind_eq_some_iff, Prod.exists]

theorem return_eq_some {a b : α} : (return a : Option α) = some b ↔ a = b := by
  simp

/-- The text ends where a character of the kind stands. -/
theorem textBefore?_eq_some {stop : Char → Bool} {before : String}
    (h : textBefore? stop s = some (before, rest)) :
    s = before.toList ++ rest ∧ ∃ c after, rest = c :: after ∧ stop c := by
  unfold textBefore? at h
  rw [List.span_eq_takeWhile_dropWhile] at h
  split at h
  · cases h
  · next taken left hne hspan =>
    obtain ⟨rfl, rfl⟩ := Prod.mk.inj (Option.some.inj h)
    obtain ⟨htake, hdrop⟩ := Prod.mk.inj hspan
    -- The search stops at the first character that ends the text.
    have hhead := List.head?_dropWhile_not (fun c => !stop c) s
    rw [hdrop] at hhead
    refine ⟨?_, ?_⟩
    · rw [String.toList_ofList, ← htake, ← hdrop, List.takeWhile_append_dropWhile]
    · cases left with
      | nil => exact absurd rfl hne
      | cons c after => exact ⟨c, after, rfl, by simpa using hhead⟩

/-! ### Types -/

/-- Types, what follows class names and type arguments nest in each other. The cases are those of
the parser: one for each character that it knows in a place, and one for anything else. -/
theorem takes_parse_all :
    (∀ fuel s, Takes s (parseType fuel s) TypeSig.chars) ∧
    (∀ fuel s, Takes s (parseTail fuel s) ClassTail.chars) ∧
    (∀ fuel s, Takes s (parseArgs fuel s) TypeArgs.chars) := by
  refine parseType.mutual_induct _ _ _ ?ofClass ?typeVariable ?array ?primitive ?noPrimitive ?noType
    ?args ?inner ?tailDone ?noTail ?argsDone ?any ?upper ?lower ?exactly ?noArgs
  case ofClass =>
    intro fuel rest htail type rest' h
    simp only [parseType, bind_eq_some, return_eq_some, Prod.mk.injEq] at h
    obtain ⟨name, rest₁, hname, tail, rest₂, hrest, rfl, rfl⟩ := h
    rw [(textBefore?_eq_some hname).1, htail _ _ _ hrest]
    simp [TypeSig.chars]
  case typeVariable =>
    intro fuel rest type rest' h
    simp only [parseType, bind_eq_some, return_eq_some, Prod.mk.injEq] at h
    obtain ⟨name, rest₁, hname, rfl, rfl⟩ := h
    -- The name ends at a semicolon, which is dropped and printed again.
    obtain ⟨rfl, c, after, rfl, hc⟩ := textBefore?_eq_some hname
    obtain rfl := of_decide_eq_true hc
    simp [TypeSig.chars]
  case array =>
    intro fuel rest helement type rest' h
    simp only [parseType, bind_eq_some, return_eq_some, Prod.mk.injEq] at h
    obtain ⟨element, rest₁, hrest, rfl, rfl⟩ := h
    rw [helement _ _ hrest]
    simp [TypeSig.chars]
  case primitive =>
    intro fuel c rest hL hT harray hc type rest' h
    rw [parseType.eq_4 fuel c rest hL hT harray, if_pos hc] at h
    obtain ⟨rfl, rfl⟩ := Prod.mk.inj (Option.some.inj h)
    rfl
  case noPrimitive =>
    intro fuel c rest hL hT harray hc type rest' h
    rw [parseType.eq_4 fuel c rest hL hT harray, if_neg hc] at h
    cases h
  case noType =>
    intro fuel s hL hT harray hother type rest h
    rw [parseType.eq_5 fuel s hL hT harray hother] at h
    cases h
  case args =>
    intro fuel rest hargs htail tail rest' h
    simp only [parseTail, bind_eq_some, return_eq_some, Prod.mk.injEq] at h
    obtain ⟨list, rest₁, hlist, tail, rest₂, hrest, rfl, rfl⟩ := h
    rw [hargs _ _ hlist, htail _ _ _ hrest]
    simp [ClassTail.chars]
  case inner =>
    intro fuel rest htail tail rest' h
    simp only [parseTail, bind_eq_some, return_eq_some, Prod.mk.injEq] at h
    obtain ⟨name, rest₁, hname, tail, rest₂, hrest, rfl, rfl⟩ := h
    rw [(textBefore?_eq_some hname).1, htail _ _ _ hrest]
    simp [ClassTail.chars]
  case tailDone =>
    intro fuel rest tail rest' h
    obtain ⟨rfl, rfl⟩ := Prod.mk.inj (Option.some.inj h)
    rfl
  case noTail =>
    intro fuel s hargs hinner hdone tail rest h
    rw [parseTail.eq_4 fuel s hargs hinner hdone] at h
    cases h
  case argsDone =>
    intro fuel rest args rest' h
    obtain ⟨rfl, rfl⟩ := Prod.mk.inj (Option.some.inj h)
    rfl
  case any =>
    intro fuel rest hargs args rest' h
    simp only [parseArgs, bind_eq_some, return_eq_some, Prod.mk.injEq] at h
    obtain ⟨list, rest₁, hlist, rfl, rfl⟩ := h
    rw [hargs _ _ hlist]
    simp [TypeArgs.chars]
  case upper =>
    intro fuel rest htype hargs args rest' h
    simp only [parseArgs, bind_eq_some, return_eq_some, Prod.mk.injEq] at h
    obtain ⟨type, rest₁, hread, list, rest₂, hlist, rfl, rfl⟩ := h
    rw [htype _ _ hread, hargs _ _ _ hlist]
    simp [TypeArgs.chars, Variance.chars]
  case lower =>
    intro fuel rest htype hargs args rest' h
    simp only [parseArgs, bind_eq_some, return_eq_some, Prod.mk.injEq] at h
    obtain ⟨type, rest₁, hread, list, rest₂, hlist, rfl, rfl⟩ := h
    rw [htype _ _ hread, hargs _ _ _ hlist]
    simp [TypeArgs.chars, Variance.chars]
  case exactly =>
    intro fuel s hdone hany hupper hlower htype hargs args rest' h
    rw [parseArgs.eq_5 s fuel hdone hany hupper hlower] at h
    simp only [bind_eq_some, return_eq_some, Prod.mk.injEq] at h
    obtain ⟨type, rest₁, hread, list, rest₂, hlist, rfl, rfl⟩ := h
    rw [htype _ _ hread, hargs _ _ _ hlist]
    simp [TypeArgs.chars, Variance.chars]
  case noArgs =>
    intro s args rest h
    cases h

/-- A type takes from the text what it is written as. -/
theorem takes_parseType (fuel : Nat) (s : List Char) :
    Takes s (parseType fuel s) TypeSig.chars :=
  takes_parse_all.1 fuel s

/-! ### Signatures -/

/-- Types that are read are all of the text. -/
theorem eq_of_parseTypes {fuel : Nat} {types : List TypeSig} (h : parseTypes fuel s = some types) :
    s = types.flatMap TypeSig.chars := by
  -- In the second case the fuel is out.
  induction fuel, s using parseTypes.induct generalizing types with
  | case1 fuel =>
    rw [parseTypes] at h
    obtain rfl := Option.some.inj h
    rfl
  | case2 s hs =>
    rw [parseTypes.eq_2 s hs] at h
    cases h
  | case3 fuel s hs ih =>
    rw [parseTypes.eq_3 s fuel hs] at h
    simp only [Option.bind_eq_bind, Option.bind_eq_some_iff, Prod.exists, return_eq_some] at h
    obtain ⟨type, rest, htype, types, htypes, rfl⟩ := h
    rw [takes_parseType _ _ _ _ htype, ih _ htypes]
    rfl

/-- The types of parameters are read past the parenthesis behind them. -/
theorem takes_parseParams (fuel : Nat) (s : List Char) :
    Takes s (parseParams fuel s) fun types => types.flatMap TypeSig.chars ++ [')'] := by
  -- The cases are the closing parenthesis, no fuel, and a type in front.
  induction fuel, s using parseParams.induct with
  | case1 fuel rest =>
    intro types rest' h
    rw [parseParams] at h
    obtain ⟨rfl, rfl⟩ := Prod.mk.inj (Option.some.inj h)
    rfl
  | case2 s hs =>
    intro types rest h
    rw [parseParams.eq_2 s hs] at h
    cases h
  | case3 fuel s hs ih =>
    intro types rest h
    rw [parseParams.eq_3 s fuel hs] at h
    simp only [bind_eq_some, return_eq_some, Prod.mk.injEq] at h
    obtain ⟨type, rest₁, htype, types, rest₂, htypes, rfl, rfl⟩ := h
    rw [takes_parseType _ _ _ _ htype, ih _ _ _ htypes]
    simp

/-- Thrown types that are read are all of the text. -/
theorem eq_of_parseThrows {fuel : Nat} {types : List TypeSig}
    (h : parseThrows fuel s = some types) : s = types.flatMap fun t => '^' :: t.chars := by
  -- The cases are the end, a caret in front, and any other text.
  induction fuel, s using parseThrows.induct generalizing types with
  | case1 fuel =>
    rw [parseThrows] at h
    obtain rfl := Option.some.inj h
    rfl
  | case2 fuel rest ih =>
    rw [parseThrows] at h
    simp only [Option.bind_eq_bind, Option.bind_eq_some_iff, Prod.exists, return_eq_some] at h
    obtain ⟨type, rest₁, htype, types, htypes, rfl⟩ := h
    rw [takes_parseType _ _ _ _ htype, ih _ htypes]
    simp
  | case3 fuel s hs hcaret =>
    rw [parseThrows.eq_3 fuel s hs hcaret] at h
    cases h

/-- A bound that is left out is printed as nothing behind its colon. -/
theorem takes_parseBounds (fuel : Nat) (s : List Char) :
    Takes s (parseBounds fuel s) fun bounds =>
      bounds.flatMap fun bound => ':' :: bound.elim [] TypeSig.chars := by
  -- The cases are a bound, a bound that is left out, no fuel, and no colon in front.
  induction fuel, s using parseBounds.induct with
  | case1 fuel c rest hc ih =>
    intro bounds rest' h
    rw [parseBounds] at h
    simp only [if_pos hc, bind_eq_some, return_eq_some, Prod.mk.injEq] at h
    obtain ⟨type, rest₁, htype, bounds, rest₂, hbounds, rfl, rfl⟩ := h
    rw [takes_parseType _ _ _ _ htype, ih _ _ _ hbounds]
    simp
  | case2 fuel c rest hc ih =>
    intro bounds rest' h
    rw [parseBounds] at h
    simp only [if_neg hc, bind_eq_some, return_eq_some, Prod.mk.injEq] at h
    obtain ⟨bounds, rest₁, hbounds, rfl, rfl⟩ := h
    rw [ih _ _ hbounds]
    simp
  | case3 fuel =>
    intro bounds rest' h
    rw [parseBounds] at h
    obtain ⟨rfl, rfl⟩ := Prod.mk.inj (Option.some.inj h)
    rfl
  | case4 fuel s hs =>
    intro bounds rest' h
    rw [parseBounds.eq_3 fuel s hs] at h
    obtain ⟨rfl, rfl⟩ := Prod.mk.inj (Option.some.inj h)
    rfl

/-- Type parameters are read past the `>` behind them. -/
theorem takes_parseTypeParams (fuel : Nat) (s : List Char) :
    Takes s (parseTypeParams fuel s) fun params => params.flatMap TypeParam.chars ++ ['>'] := by
  -- The cases are the closing bracket, no fuel, and a parameter in front.
  induction fuel, s using parseTypeParams.induct with
  | case1 fuel rest =>
    intro params rest' h
    rw [parseTypeParams] at h
    obtain ⟨rfl, rfl⟩ := Prod.mk.inj (Option.some.inj h)
    rfl
  | case2 s hs =>
    intro params rest h
    rw [parseTypeParams.eq_2 s hs] at h
    cases h
  | case3 fuel s hs ih =>
    intro params rest h
    rw [parseTypeParams.eq_3 s fuel hs] at h
    simp only [bind_eq_some, return_eq_some, Prod.mk.injEq] at h
    obtain ⟨name, rest₁, hname, bounds, rest₂, hbounds, params, rest₃, hparams, rfl, rfl⟩ := h
    rw [(textBefore?_eq_some hname).1, takes_parseBounds _ _ _ _ hbounds, ih _ _ _ hparams]
    simp [TypeParam.chars]

/-- A body that is read is all of the text. -/
theorem eq_of_parseBody {body : Body} (h : parseBody s = some body) : s = body.chars := by
  unfold parseBody at h
  split at h
  · simp only [Option.bind_eq_bind, Option.bind_eq_some_iff, Prod.exists, return_eq_some] at h
    obtain ⟨params, rest₁, hparams, result, rest₂, hresult, throws, hthrows, rfl⟩ := h
    rw [takes_parseParams _ _ _ _ hparams, takes_parseType _ _ _ _ hresult,
      eq_of_parseThrows hthrows]
    simp [Body.chars]
  · simp only [Option.bind_eq_bind, Option.bind_eq_some_iff, return_eq_some] at h
    obtain ⟨types, htypes, rfl⟩ := h
    exact eq_of_parseTypes htypes

/-- A signature is printed as it was read. -/
theorem print_of_parse? {text : String} {signature : Signature} (h : parse? text = some signature) :
    signature.print = text := by
  have hchars : text.toList = signature.chars := by
    unfold parse? at h
    -- With type parameters in front, or without.
    split at h
    · next rest hrest =>
      simp only [Option.bind_eq_bind, Option.bind_eq_some_iff, Prod.exists, return_eq_some] at h
      obtain ⟨params, rest₁, hparams, body, hbody, rfl⟩ := h
      rw [hrest, takes_parseTypeParams _ _ _ _ hparams, eq_of_parseBody hbody]
      simp [chars]
    · simp only [Option.bind_eq_bind, Option.bind_eq_some_iff, return_eq_some] at h
      obtain ⟨body, hbody, rfl⟩ := h
      rw [eq_of_parseBody hbody]
      rfl
  rw [print, ← hchars, String.ofList_toList]

/-! ### A map without new names -/

/-- The simple name is what stands behind the outer one. -/
theorem simpleName_append (outer name : String) :
    simpleName outer (outer ++ "$" ++ name) = name := by
  have hfront : Text.stripFront? (outer.toList ++ ['$']) (outer ++ "$" ++ name).toList =
      some name.toList := Text.stripFront?_eq_some_iff.2 (by simp)
  rw [simpleName, hfront]
  exact String.ofList_toList

mutual

/-- A type with no class renamed stays. -/
theorem TypeSig.rename_none (type : TypeSig) : type.rename (fun _ => none) = type := by
  cases type with
  | primitive letter => rfl
  | «variable» name => rfl
  | array element => exact congrArg TypeSig.array element.rename_none
  | ofClass name tail => exact congrArg (TypeSig.ofClass name) (tail.rename_none name)

/-- An inner class adds to the class around it what it was called. -/
theorem ClassTail.rename_none (tail : ClassTail) (name : String) :
    tail.rename (fun _ => none) name name = tail := by
  cases tail with
  | done => rfl
  | args list rest => exact congrArg₂ ClassTail.args list.rename_none (rest.rename_none name)
  | inner inner rest =>
    exact congrArg₂ ClassTail.inner (simpleName_append name inner) (rest.rename_none _)

/-- Type arguments with no class renamed stay. -/
theorem TypeArgs.rename_none (args : TypeArgs) : args.rename (fun _ => none) = args := by
  cases args with
  | done => rfl
  | any rest => exact congrArg TypeArgs.any rest.rename_none
  | one variance type rest =>
    exact congrArg₂ (TypeArgs.one variance) type.rename_none rest.rename_none

end

/-- A signature with no class renamed stays. -/
theorem mapClasses_none (signature : Signature) :
    signature.mapClasses (fun _ => none) = signature := by
  have htype : TypeSig.rename (fun _ => none) = id := funext TypeSig.rename_none
  have hparam : TypeParam.rename (fun _ => none) = id := by
    funext p
    simp [TypeParam.rename, htype]
  obtain ⟨params, body⟩ := signature
  cases body with
  | method params result throws =>
    simp [mapClasses, hparam, Body.rename, htype, TypeSig.rename_none]
  | types list => simp [mapClasses, hparam, Body.rename, htype]

/-- No text changes where no class is renamed, be it a signature or not. -/
theorem rename_none (text : String) : rename (fun _ => none) text = text := by
  unfold rename
  split
  · next signature hparse => rw [mapClasses_none, print_of_parse? hparse]
  · rfl

end Relabel.Signature
