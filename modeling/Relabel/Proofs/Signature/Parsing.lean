import Relabel.Proofs.Mapping.Signatures

/-!
# Signatures that are printed and read

The parser reads every signature that the printer writes, as long as no name holds a character that
ends it and it can be told which bounds a type parameter has. Types begin with different characters
than what may stand in their place, so one character tells the parser what comes next.

## Main results

- `parseType_chars`: types, with any text behind them.
- `parse?_print`: signatures.
-/

namespace Relabel.Signature

variable {c d : Char} {s rest : List Char} {fuel : Nat}

/-! ### What can be read back -/

/-- No character of a name is of a kind. -/
def Free (stop : Char → Bool) (name : String) : Prop :=
  ∀ c ∈ name.toList, stop c = false

mutual

/-- The names in a type end where the parser takes them to end. -/
def TypeSig.Readable : TypeSig → Prop
  | .primitive letter => Descriptor.isPrimitive letter ∨ letter = 'V'
  | .variable name => Free (· = ';') name
  | .array element => element.Readable
  | .ofClass name tail => Free endsName name ∧ tail.Readable

/-- The names in a tail hold no character that ends a name. -/
def ClassTail.Readable : ClassTail → Prop
  | .done => True
  | .args list rest => list.Readable ∧ rest.Readable
  | .inner name rest => Free endsName name ∧ rest.Readable

/-- Every type among the arguments is readable. -/
def TypeArgs.Readable : TypeArgs → Prop
  | .done => True
  | .any rest => rest.Readable
  | .one _ type rest => type.Readable ∧ rest.Readable

end

/-- Whether a type is that of a class, a variable or an array. -/
def TypeSig.isReference : TypeSig → Bool
  | .primitive _ => false
  | .variable _ | .array _ | .ofClass _ _ => true

/-- A type parameter with a name, and bounds of which the last is not left out. -/
structure TypeParam.Readable (p : TypeParam) : Prop where
  name_ne : p.name ≠ ""
  name_free : Free (fun c => c = ':' ∨ c = '>') p.name
  last : ∃ type, p.bounds.getLast? = some (some type)
  bounds : ∀ bound ∈ p.bounds, ∀ type ∈ bound, type.isReference ∧ type.Readable

/-- Every type of the body is readable. -/
def Body.Readable : Body → Prop
  | .method params result throws =>
    (∀ t ∈ params, t.Readable) ∧ result.Readable ∧ ∀ t ∈ throws, t.Readable
  | .types list => ∀ t ∈ list, t.Readable

/-- A signature that the parser reads as it was printed. -/
structure Readable (signature : Signature) : Prop where
  params : ∀ ps, signature.params = some ps → ∀ p ∈ ps, p.Readable
  body : signature.body.Readable

/-! ### Names -/

/-- A name is read up to the character that ends it. -/
theorem textBefore?_append {stop : Char → Bool} {name : String} (hname : Free stop name)
    (hd : stop d) (rest : List Char) :
    textBefore? stop (name.toList ++ d :: rest) = some (name, d :: rest) := by
  have htake : (name.toList ++ d :: rest).takeWhile (fun c => !stop c) = name.toList := by
    rw [List.takeWhile_append_of_pos fun c hc => by simp [hname c hc]]
    simp [hd]
  have hdrop : (name.toList ++ d :: rest).dropWhile (fun c => !stop c) = d :: rest := by
    rw [List.dropWhile_append_of_pos fun c hc => by simp [hname c hc]]
    simp [hd]
  rw [textBefore?, List.span_eq_takeWhile_dropWhile, htake, hdrop]
  simp

/-! ### First characters -/

/-- Whether a type can begin with a character. -/
def startsType (c : Char) : Bool :=
  c = 'L' || c = 'T' || c = '[' || Descriptor.isPrimitive c || c = 'V'

/-- A readable type begins with a character that starts a type. -/
theorem TypeSig.exists_cons {type : TypeSig} (h : type.Readable) :
    ∃ c s, type.chars = c :: s ∧ startsType c := by
  cases type with
  | primitive letter =>
    refine ⟨letter, [], rfl, ?_⟩
    rcases h with h | rfl
    · simp [startsType, h]
    · rfl
  | «variable» name => exact ⟨'T', _, rfl, rfl⟩
  | array element => exact ⟨'[', _, rfl, rfl⟩
  | ofClass name tail => exact ⟨'L', _, rfl, rfl⟩

/-- A class name ends where what follows it begins. -/
theorem ClassTail.exists_cons (tail : ClassTail) : ∃ c s, tail.chars = c :: s ∧ endsName c := by
  cases tail with
  | done => exact ⟨';', _, rfl, rfl⟩
  | args list rest => exact ⟨'<', _, rfl, rfl⟩
  | inner name rest => exact ⟨'.', _, rfl, rfl⟩

/-- Type arguments are never written as nothing. -/
theorem TypeArgs.length_pos (args : TypeArgs) : 0 < args.chars.length := by
  cases args with
  | done => exact Nat.one_pos
  | any rest => exact Nat.succ_pos _
  | one variance type rest =>
    have := rest.length_pos
    simp only [TypeArgs.chars, List.length_append]
    omega

/-- References begin with other characters than what is none. -/
theorem TypeSig.exists_cons_of_isReference {type : TypeSig} (h : type.isReference) :
    ∃ c s, type.chars = c :: s ∧ (c = 'L' ∨ c = 'T' ∨ c = '[') := by
  cases type with
  | primitive letter => cases h
  | «variable» name => exact ⟨'T', _, rfl, .inr (.inl rfl)⟩
  | array element => exact ⟨'[', _, rfl, .inr (.inr rfl)⟩
  | ofClass name tail => exact ⟨'L', _, rfl, .inl rfl⟩

/-- A character that starts a type differs from one that does not. -/
theorem startsType_ne (hc : startsType c) (hd : startsType d = false) : c ≠ d := by
  rintro rfl
  exact Bool.false_ne_true (hd.symm.trans hc)

/-! ### Types -/

/-- A primitive letter is read as the type it stands for. -/
theorem parseType_primitive {letter : Char} (h : Descriptor.isPrimitive letter ∨ letter = 'V') :
    parseType (fuel + 1) (letter :: rest) = some (.primitive letter, rest) := by
  have hother : letter ≠ 'L' ∧ letter ≠ 'T' ∧ letter ≠ '[' := by
    refine ⟨?_, ?_, ?_⟩ <;> rintro rfl <;> simp [Descriptor.isPrimitive] at h
  rw [parseType.eq_4 fuel letter rest (hother.1 ·) (hother.2.1 ·) (hother.2.2 ·), if_pos h]

/-- Where no other type argument begins, one without a wildcard is read. -/
theorem parseArgs_exactly (hc : startsType c) :
    parseArgs (fuel + 1) (c :: s) = (do
      let (type, rest) ← parseType fuel (c :: s)
      let (args, rest) ← parseArgs fuel rest
      return (.one .exactly type args, rest)) := by
  refine parseArgs.eq_5 (c :: s) fuel ?_ ?_ ?_ ?_ <;> rintro _ ⟨⟩ <;>
    exact Bool.false_ne_true hc

mutual

/-- A type is read as it was printed. Every call reads a character before the next, so the length of
the text is fuel enough. -/
theorem TypeSig.parse_chars (type : TypeSig) (h : type.Readable) (rest : List Char) {fuel : Nat}
    (hfuel : type.chars.length ≤ fuel) :
    parseType fuel (type.chars ++ rest) = some (type, rest) := by
  -- A type is at least one character long, so there is fuel for its first one.
  obtain ⟨fuel, rfl⟩ : ∃ n, fuel = n + 1 := by
    obtain ⟨c, s, hchars, -⟩ := TypeSig.exists_cons h
    rw [hchars, List.length_cons] at hfuel
    exact Nat.exists_eq_add_one.2 (by omega)
  cases type with
  | primitive letter => exact parseType_primitive h
  | «variable» name =>
    have hname := textBefore?_append (d := ';') h (by simp) rest
    simp only [TypeSig.chars, List.cons_append, List.append_assoc, List.nil_append, parseType,
      hname]
    rfl
  | array element =>
    simp only [TypeSig.chars, List.length_cons] at hfuel
    have helement := element.parse_chars h rest (by omega : _ ≤ fuel)
    simp only [TypeSig.chars, List.cons_append, parseType, helement]
    rfl
  | ofClass name tail =>
    obtain ⟨hname, htail⟩ := h
    simp only [TypeSig.chars, List.cons_append, List.length_cons, List.length_append] at hfuel
    have hrest := tail.parse_chars htail rest (by omega : _ ≤ fuel)
    -- The name ends where the tail begins, for no tail begins with a letter of a name.
    obtain ⟨c, s, hchars, hc⟩ := tail.exists_cons
    rw [hchars] at hrest
    simp only [TypeSig.chars, List.cons_append, List.append_assoc, hchars, parseType,
      textBefore?_append hname hc]
    simp only [Option.bind_eq_bind, Option.bind_some]
    rw [← List.cons_append, hrest]
    rfl

/-- A tail written in front of any text is read back, and the text is left. -/
theorem ClassTail.parse_chars (tail : ClassTail) (h : tail.Readable) (rest : List Char) {fuel : Nat}
    (hfuel : tail.chars.length ≤ fuel) :
    parseTail fuel (tail.chars ++ rest) = some (tail, rest) := by
  obtain ⟨fuel, rfl⟩ : ∃ n, fuel = n + 1 := by
    obtain ⟨c, s, hchars, -⟩ := tail.exists_cons
    rw [hchars, List.length_cons] at hfuel
    exact Nat.exists_eq_add_one.2 (by omega)
  cases tail with
  | done => rfl
  | args list after =>
    obtain ⟨hlist, hafter⟩ := h
    simp only [ClassTail.chars, List.cons_append, List.length_cons, List.length_append] at hfuel
    have hread := list.parse_chars hlist (after.chars ++ rest) (by omega : _ ≤ fuel)
    have hrest := after.parse_chars hafter rest (by omega : _ ≤ fuel)
    simp only [ClassTail.chars, List.cons_append, List.append_assoc, parseTail, hread]
    simp only [Option.bind_eq_bind, Option.bind_some, hrest]
    rfl
  | inner name after =>
    obtain ⟨hname, hafter⟩ := h
    simp only [ClassTail.chars, List.cons_append, List.length_cons, List.length_append] at hfuel
    have hrest := after.parse_chars hafter rest (by omega : _ ≤ fuel)
    -- As for a class name: what follows ends the name.
    obtain ⟨c, s, hchars, hc⟩ := after.exists_cons
    rw [hchars] at hrest
    simp only [ClassTail.chars, List.cons_append, List.append_assoc, hchars, parseTail,
      textBefore?_append hname hc]
    simp only [Option.bind_eq_bind, Option.bind_some]
    rw [← List.cons_append, hrest]
    rfl

/-- Type arguments written in front of any text are read back, and the text is left. -/
theorem TypeArgs.parse_chars (args : TypeArgs) (h : args.Readable) (rest : List Char) {fuel : Nat}
    (hfuel : args.chars.length ≤ fuel) :
    parseArgs fuel (args.chars ++ rest) = some (args, rest) := by
  obtain ⟨fuel, rfl⟩ : ∃ n, fuel = n + 1 :=
    Nat.exists_eq_add_one.2 (Nat.lt_of_lt_of_le args.length_pos hfuel)
  cases args with
  | done => rfl
  | any after =>
    simp only [TypeArgs.chars, List.length_cons] at hfuel
    have hrest := after.parse_chars h rest (by omega : _ ≤ fuel)
    simp only [TypeArgs.chars, List.cons_append, parseArgs, hrest]
    rfl
  | one variance type after =>
    obtain ⟨htype, hafter⟩ := h
    obtain ⟨c, s, hchars, hc⟩ := TypeSig.exists_cons htype
    have hpos := after.length_pos
    have htypePos : 0 < type.chars.length := by simp [hchars]
    simp only [TypeArgs.chars, List.length_append] at hfuel
    have hread := type.parse_chars htype (after.chars ++ rest) (by omega : _ ≤ fuel)
    have hrest := after.parse_chars hafter rest (by omega : _ ≤ fuel)
    cases variance with
    | exactly =>
      -- The type is read from where the arguments begin.
      rw [hchars, List.cons_append] at hread
      simp only [TypeArgs.chars, Variance.chars, List.nil_append, List.append_assoc, hchars,
        List.cons_append, parseArgs_exactly hc, hread]
      simp only [Option.bind_eq_bind, Option.bind_some, hrest]
      rfl
    | upper =>
      simp only [TypeArgs.chars, Variance.chars, List.cons_append, List.nil_append,
        List.append_assoc, parseArgs, hread]
      simp only [Option.bind_eq_bind, Option.bind_some, hrest]
      rfl
    | lower =>
      simp only [TypeArgs.chars, Variance.chars, List.cons_append, List.nil_append,
        List.append_assoc, parseArgs, hread]
      simp only [Option.bind_eq_bind, Option.bind_some, hrest]
      rfl

end

/-- A type in front of other text is read with the fuel that a row of types gives it. -/
theorem TypeSig.parse_append {type : TypeSig} (h : type.Readable) (rest : List Char) :
    parseType ((type.chars ++ rest).length + 1) (type.chars ++ rest) = some (type, rest) :=
  type.parse_chars h rest (Nat.le_succ_of_le (List.prefix_append _ _).length_le)

/-! ### Rows of types

As for types, the length of a text is fuel enough for it. -/

variable {types : List TypeSig}

theorem TypeSig.length_pos {type : TypeSig} (h : type.Readable) : 0 < type.chars.length := by
  obtain ⟨c, s, hchars, -⟩ := TypeSig.exists_cons h
  simp [hchars]

/-- The text of types does not begin as that of a method or of type parameters does. -/
theorem flatMap_chars_ne (h : ∀ t ∈ types, t.Readable) (hd : startsType d = false)
    (s : List Char) : types.flatMap TypeSig.chars ≠ d :: s := by
  cases types with
  | nil => simp
  | cons type types =>
    obtain ⟨c, t, hchars, hc⟩ := TypeSig.exists_cons (h type List.mem_cons_self)
    simp [hchars, startsType_ne hc hd]

/-- Types written one after the other are read back. -/
theorem parseTypes_chars (h : ∀ t ∈ types, t.Readable)
    (hfuel : (types.flatMap TypeSig.chars).length ≤ fuel) :
    parseTypes fuel (types.flatMap TypeSig.chars) = some types := by
  induction types generalizing fuel with
  | nil => rw [List.flatMap_nil, parseTypes]
  | cons type types ih =>
    obtain ⟨htype, htypes⟩ := List.forall_mem_cons.1 h
    -- A type has at least one character, so the fuel is enough for the others.
    have hpos := TypeSig.length_pos htype
    rw [List.flatMap_cons, List.length_append] at hfuel
    obtain ⟨fuel, rfl⟩ : ∃ n, fuel = n + 1 := Nat.exists_eq_add_one.2 (by omega)
    have hlength : (types.flatMap TypeSig.chars).length ≤ fuel := by omega
    have hne : type.chars ++ types.flatMap TypeSig.chars ≠ [] :=
      List.append_ne_nil_of_left_ne_nil (List.ne_nil_of_length_pos hpos) _
    have hread := TypeSig.parse_append htype (types.flatMap TypeSig.chars)
    rw [List.flatMap_cons, parseTypes.eq_3 _ _ hne, hread]
    simp [ih htypes hlength]

/-- The parameters of a method are read up to the closing parenthesis. -/
theorem parseParams_chars (h : ∀ t ∈ types, t.Readable) (rest : List Char)
    (hfuel : (types.flatMap TypeSig.chars).length ≤ fuel) :
    parseParams fuel (types.flatMap TypeSig.chars ++ ')' :: rest) = some (types, rest) := by
  induction types generalizing fuel with
  | nil => simp [parseParams]
  | cons type types ih =>
    obtain ⟨htype, htypes⟩ := List.forall_mem_cons.1 h
    obtain ⟨c, s, hchars, hc⟩ := TypeSig.exists_cons htype
    -- The text of a type does not start with the parenthesis that ends the list.
    have hopen : c ≠ ')' := startsType_ne hc rfl
    have hpos := TypeSig.length_pos htype
    rw [List.flatMap_cons, List.length_append] at hfuel
    obtain ⟨fuel, rfl⟩ : ∃ n, fuel = n + 1 := Nat.exists_eq_add_one.2 (by omega)
    have hlength : (types.flatMap TypeSig.chars).length ≤ fuel := by omega
    have hread := TypeSig.parse_append htype (types.flatMap TypeSig.chars ++ ')' :: rest)
    rw [List.flatMap_cons, List.append_assoc, parseParams.eq_3 _ _ (by simp [hchars, hopen]), hread]
    simp [ih htypes hlength]

/-- The thrown types are read back, each after its caret. -/
theorem parseThrows_chars (h : ∀ t ∈ types, t.Readable)
    (hfuel : (types.flatMap fun t => '^' :: t.chars).length ≤ fuel) :
    parseThrows fuel (types.flatMap fun t => '^' :: t.chars) = some types := by
  induction types generalizing fuel with
  | nil => rw [List.flatMap_nil, parseThrows]
  | cons type types ih =>
    obtain ⟨htype, htypes⟩ := List.forall_mem_cons.1 h
    rw [List.flatMap_cons, List.length_append, List.length_cons] at hfuel
    obtain ⟨fuel, rfl⟩ : ∃ n, fuel = n + 1 := Nat.exists_eq_add_one.2 (by omega)
    have hlength : (types.flatMap fun t => '^' :: t.chars).length ≤ fuel := by omega
    have hread := TypeSig.parse_append htype (types.flatMap fun t => '^' :: t.chars)
    rw [List.flatMap_cons, List.cons_append, parseThrows, hread]
    simp [ih htypes hlength]

/-! ### Type parameters -/

/-- Bounds with a `:` before each. -/
def boundsChars (bounds : List (Option TypeSig)) : List Char :=
  bounds.flatMap fun bound => ':' :: bound.elim [] TypeSig.chars

theorem boundsChars_cons (bound : Option TypeSig) (bounds : List (Option TypeSig)) :
    boundsChars (bound :: bounds) = ':' :: (bound.elim [] TypeSig.chars ++ boundsChars bounds) := by
  rw [boundsChars, List.flatMap_cons, List.cons_append, boundsChars]

/-- A bound that is left out is told by the `:` of the next, so the last must not be left out. -/
theorem parseBounds_chars {bounds : List (Option TypeSig)}
    (h : ∀ bound ∈ bounds, ∀ type ∈ bound, type.isReference ∧ type.Readable)
    (hlast : bounds.getLast? ≠ some none) (hrest : ∀ s, rest ≠ ':' :: s)
    (hfuel : (boundsChars bounds).length ≤ fuel) :
    parseBounds fuel (boundsChars bounds ++ rest) = some (bounds, rest) := by
  induction bounds generalizing fuel with
  | nil => exact parseBounds.eq_3 fuel rest fun _ s _ hs => hrest s hs
  | cons bound bounds ih =>
    obtain ⟨hbound, hbounds⟩ := List.forall_mem_cons.1 h
    rw [boundsChars_cons, List.length_cons, List.length_append] at hfuel
    obtain ⟨fuel, rfl⟩ : ∃ n, fuel = n + 1 := Nat.exists_eq_add_one.2 (by omega)
    have hlength : (boundsChars bounds).length ≤ fuel := by omega
    rw [boundsChars_cons, List.cons_append, List.append_assoc]
    cases bound with
    | some type =>
      obtain ⟨hreference, htype⟩ := hbound type rfl
      obtain ⟨c, s, hchars, hc⟩ := TypeSig.exists_cons_of_isReference hreference
      -- The bounds that are left end as the whole list does.
      have hafter : bounds.getLast? ≠ some none := by
        cases bounds with
        | nil => simp
        | cons next bounds => exact hlast
      have hread := TypeSig.parse_append htype (boundsChars bounds ++ rest)
      rw [hchars, List.cons_append] at hread
      rw [Option.elim_some, hchars, List.cons_append, parseBounds]
      simp only [if_pos hc, hread]
      simp [ih hbounds hafter hlength]
    | none =>
      cases bounds with
      -- One empty bound at the end is excluded by `hlast`.
      | nil => exact absurd rfl hlast
      | cons next bounds =>
        have hread := ih hbounds hlast hlength
        rw [boundsChars_cons, List.cons_append, List.append_assoc] at hread
        rw [Option.elim_none, List.nil_append, boundsChars_cons, List.cons_append,
          List.append_assoc, parseBounds]
        simp [hread]

namespace TypeParam.Readable

variable {p : TypeParam}

/-- No type parameter is without a name, so that none begins as a bound or as the end does. -/
theorem exists_cons (h : p.Readable) : ∃ c s, p.chars = c :: s ∧ c ≠ ':' ∧ c ≠ '>' := by
  cases hname : p.name.toList with
  | nil => exact absurd (String.toList_eq_nil_iff.1 hname) h.name_ne
  | cons c s =>
    have hc := h.name_free c (hname ▸ List.mem_cons_self)
    rw [decide_eq_false_iff_not, not_or] at hc
    exact ⟨c, s ++ boundsChars p.bounds, by rw [TypeParam.chars, hname]; rfl, hc⟩

/-- The name of a type parameter ends before its first colon. -/
theorem free_colon (h : p.Readable) : Free (· = ':') p.name := by
  intro c hc
  have hother := h.name_free c hc
  rw [decide_eq_false_iff_not, not_or] at hother
  exact decide_eq_false hother.1

/-- A readable type parameter has a bound, so its name is followed by a colon. -/
theorem exists_bounds (h : p.Readable) : ∃ s, boundsChars p.bounds = ':' :: s := by
  obtain ⟨type, hlast⟩ := h.last
  cases hbounds : p.bounds with
  | nil => simp [hbounds] at hlast
  | cons bound bounds => exact ⟨_, boundsChars_cons bound bounds⟩

end TypeParam.Readable

/-- Type parameters written before the closing bracket are read back. -/
theorem parseTypeParams_chars {params : List TypeParam} (h : ∀ p ∈ params, p.Readable)
    (rest : List Char) (hfuel : (params.flatMap TypeParam.chars).length ≤ fuel) :
    parseTypeParams fuel (params.flatMap TypeParam.chars ++ '>' :: rest) = some (params, rest) := by
  induction params generalizing fuel with
  | nil => simp [parseTypeParams]
  | cons p params ih =>
    obtain ⟨hp, hparams⟩ := List.forall_mem_cons.1 h
    obtain ⟨c, s, hchars, -, hend⟩ := hp.exists_cons
    rw [List.flatMap_cons, List.length_append, hchars, List.length_cons] at hfuel
    obtain ⟨fuel, rfl⟩ : ∃ n, fuel = n + 1 := Nat.exists_eq_add_one.2 (by omega)
    have hlength : (params.flatMap TypeParam.chars).length ≤ fuel := by omega
    have hrest := ih hparams hlength
    generalize htext : params.flatMap TypeParam.chars ++ '>' :: rest = text at hrest
    -- What follows the bounds is another name or the end.
    have hnext : ∀ s, text ≠ ':' :: s := by
      cases params with
      | nil => simp [← htext]
      | cons next params =>
        obtain ⟨d, t, hchars, hd, -⟩ := (hparams next List.mem_cons_self).exists_cons
        simp [← htext, hchars, hd]
    obtain ⟨type, hlast⟩ := hp.last
    have hbounds := parseBounds_chars hp.bounds (by simp [hlast]) hnext
      (List.prefix_append _ text).length_le
    obtain ⟨t, ht⟩ := hp.exists_bounds
    have hname := textBefore?_append hp.free_colon (decide_eq_true rfl) (t ++ text)
    rw [List.flatMap_cons, List.append_assoc, htext,
      parseTypeParams.eq_3 _ _ (by simp [hchars, hend])]
    rw [ht, List.cons_append] at hbounds
    have hsplit : p.chars ++ text = p.name.toList ++ ':' :: (t ++ text) := by
      rw [TypeParam.chars, ← boundsChars, ht, List.append_assoc, List.cons_append]
    rw [hsplit, hname]
    simp only [Option.bind_eq_bind, Option.bind_some, hbounds, hrest]
    rfl

/-! ### Signatures -/

/-- A readable body is read back from its characters. -/
theorem parseBody_chars {body : Body} (h : body.Readable) : parseBody body.chars = some body := by
  cases body with
  | method params result throws =>
    obtain ⟨hparams, hresult, hthrows⟩ := h
    have hthrown := parseThrows_chars hthrows (Nat.le_refl _)
    generalize htext : (throws.flatMap fun t => '^' :: t.chars) = text at hthrown
    have hread := TypeSig.parse_append hresult text
    have hbefore := parseParams_chars hparams (result.chars ++ text)
      (Nat.le_succ_of_le (List.prefix_append _ (')' :: (result.chars ++ text))).length_le)
    have hchars : (Body.method params result throws).chars =
        '(' :: (params.flatMap TypeSig.chars ++ ')' :: (result.chars ++ text)) := by
      simp [Body.chars, htext]
    rw [hchars, parseBody, hbefore]
    simp only [Option.bind_eq_bind, Option.bind_some, hread, hthrown]
    rfl
  | types list =>
    -- A list of types does not start like the parameters of a method.
    rw [Body.chars, parseBody.eq_2 _ fun rest => flatMap_chars_ne h rfl rest,
      parseTypes_chars h (Nat.le_refl _)]
    rfl

/-- No body begins as type parameters do. -/
theorem Body.chars_ne {body : Body} (h : body.Readable) (s : List Char) :
    body.chars ≠ '<' :: s := by
  cases body with
  | method params result throws => simp [Body.chars]
  | types list => exact flatMap_chars_ne h rfl s

/-- A signature is read as it was printed. -/
theorem parse?_print {signature : Signature} (h : signature.Readable) :
    parse? signature.print = some signature := by
  obtain ⟨params, body⟩ := signature
  have hbody := parseBody_chars h.body
  cases params with
  | some params =>
    have hparams := parseTypeParams_chars (h.params params rfl) body.chars
      (Nat.le_succ_of_le (List.prefix_append _ ('>' :: body.chars)).length_le)
    have hchars : (String.toList (Signature.print ⟨some params, body⟩)) =
        '<' :: (params.flatMap TypeParam.chars ++ '>' :: body.chars) := by
      simp [print, chars]
    rw [parse?, hchars]
    simp only [Option.bind_eq_bind, hparams, Option.bind_some, hbody]
    rfl
  | none =>
    have hchars : (String.toList (Signature.print ⟨none, body⟩)) = body.chars := by
      simp [print, chars]
    rw [parse?, hchars]
    split
    · next s hs => exact absurd hs (Body.chars_ne h.body s)
    · rw [hbody]
      rfl

end Relabel.Signature
