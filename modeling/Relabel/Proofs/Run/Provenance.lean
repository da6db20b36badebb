import Relabel.Run
import Relabel.Proofs.Steps

/-!
# Where classes come from

The catalog of a run holds every class under its own name, and a class that counts as an input is
the shape of a source that was accepted: what is loaded later, or stands in for a missing class,
never counts as one.

## Main results

- `ClassShape.shows_of_decode`: what a shape tells of the class file it was taken from.
- `Catalog.All.loadNeeded`, `Catalog.All.fillGaps`: what holds of all classes but inputs goes on to
  hold while classes are loaded.
- `all_enrol`: every class of the catalog was accepted.
-/

namespace Relabel

/-! ### Shapes -/

/-- A shape with the kind of a member and the names it has in a pool. -/
structure MemberShape.Shows (kind : MemberKind) (p : Pool) (m : MemberInfo) (shape : MemberShape) :
    Prop where
  kind_eq : shape.kind = kind
  name_eq : m.name p = .ok shape.name
  desc_eq : m.desc p = .ok shape.desc

namespace ClassShape

/-- The shape of a class file: its name, its fields and then its methods. -/
structure Shows (c : ClassFile) (origin : Origin) (shape : ClassShape) : Prop where
  name_eq : c.name = .ok shape.name
  origin_eq : shape.origin = origin
  members_eq : ∃ fields methods, shape.members.toList = fields ++ methods ∧
    List.Forall₂ (MemberShape.Shows .field c.pool) c.fields.toList fields ∧
    List.Forall₂ (MemberShape.Shows .method c.pool) c.methods.toList methods

/-- The shape of a field shows the field. -/
theorem shows_ofField {p : Pool} {m : MemberInfo} {shape : MemberShape}
    (h : ofField p m = .ok shape) : shape.Shows .field p m := by
  simp only [ofField, Except.bind_eq_ok, Except.pure_eq_ok] at h
  obtain ⟨name, hname, desc, hdesc, signature, -, rfl⟩ := h
  exact ⟨rfl, hname, hdesc⟩

/-- The shape of a method shows the method. -/
theorem shows_ofMethod {p : Pool} {m : MemberInfo} {shape : MemberShape}
    (h : ofMethod p m = .ok shape) : shape.Shows .method p m := by
  simp only [ofMethod, Except.bind_eq_ok, Except.pure_eq_ok] at h
  obtain ⟨target, -, name, hname, desc, hdesc, signature, -, rfl⟩ := h
  exact ⟨rfl, hname, hdesc⟩

/-- The shape of a class file shows the class. -/
theorem shows_ofClassFile {c : ClassFile} {origin : Origin} {shape : ClassShape}
    (h : ofClassFile c origin = .ok shape) : shape.Shows c origin := by
  simp only [ofClassFile, Except.bind_eq_ok] at h
  obtain ⟨name, hname, fields, hfields, methods, hmethods, h⟩ := h
  -- What a shape shows does not depend on its supertypes and references.
  obtain ⟨superName, interfaces, references, rfl⟩ : ∃ superName interfaces references, shape =
      { name, access := c.access, superName, interfaces, members := (fields ++ methods).toArray,
        origin, references } := by
    split at h
    all_goals
      simp only [Except.bind_eq_ok, Except.pure_eq_ok] at h
      obtain ⟨references, -, superName, -, interfaces, -, rfl⟩ := h
      exact ⟨superName, interfaces, references, rfl⟩
  refine ⟨hname, rfl, fields, methods, rfl, ?_, ?_⟩
  · exact (forall₂_of_mapM_eq_ok hfields).imp fun _ _ => shows_ofField
  · exact (forall₂_of_mapM_eq_ok hmethods).imp fun _ _ => shows_ofMethod

/-- The shape of bytes shows the class file that they hold. -/
theorem shows_of_decode {data : Bytes} {origin : Origin} {shape : ClassShape}
    (h : decode data origin = .ok shape) :
    ∃ c, ClassFile.decode data = .ok c ∧ shape.Shows c origin := by
  obtain ⟨c, hc, hshape⟩ := Except.bind_eq_ok.1 h
  exact ⟨c, hc, shows_ofClassFile hshape⟩

end ClassShape

/-! ### The catalog -/

namespace Catalog

variable {P : ClassShape → Prop} {c : Catalog} {shape : ClassShape}

/-- All classes stand under their own names and have a property. -/
def All (P : ClassShape → Prop) (c : Catalog) : Prop :=
  ∀ name shape, c.get? name = some shape → shape.name = name ∧ P shape

theorem get?_put (c : Catalog) (shape : ClassShape) (name : String) :
    (c.put shape).get? name = if shape.name = name then some shape else c.get? name := by
  simp only [get?, put, Std.TreeMap.getElem?_insert, Std.LawfulEqCmp.compare_eq_iff_eq]

namespace All

/-- What holds of all classes holds of them with one more. -/
theorem put (h : c.All P) (hshape : P shape) : (c.put shape).All P := by
  intro name found hfound
  rw [get?_put] at hfound
  split at hfound
  · next hname =>
    obtain rfl := Option.some.inj hfound
    exact ⟨hname, hshape⟩
  · exact h name found hfound

/-- What holds of all classes holds of them with one more registered. -/
theorem register (h : c.All P) (hshape : P shape) : (c.register shape).catalog.All P := by
  rw [register_eq_commit, commit]
  split
  · exact h
  · exact h.put hshape

/-- Loading adds classes of the classpath and stand-ins only. -/
theorem fetch (hP : ∀ shape, ¬ shape.isInput → P shape) (h : c.All P) (name : String)
    (required : Bool) : (c.fetch name required).2.All P := by
  unfold Catalog.fetch
  split
  -- Known already, missing, or an entry of the classpath.
  · exact h
  split
  · split
    · exact h.register (hP _ (by simp [ClassShape.isInput, ClassShape.standIn]))
    · exact h
  · split
    · exact h
    · next shape hdecode =>
      split
      · obtain ⟨file, -, hshows⟩ := ClassShape.shows_of_decode hdecode
        exact h.register (hP _ (by simp [ClassShape.isInput, hshows.origin_eq]))
      · exact h

/-- What a wave fetches is no input. -/
theorem fetchWave (hP : ∀ shape, ¬ shape.isInput → P shape) (h : c.All P)
    (due : List (String × Request)) : (c.fetchWave due).2.All P := by
  induction due generalizing c with
  | nil => exact h
  | cons entry rest ih => exact ih (h.fetch hP entry.1 entry.2.required)

/-- What wave after wave fetches is no input. -/
theorem fetchFrom (hP : ∀ shape, ¬ shape.isInput → P shape) (fuel : Nat) (h : c.All P)
    (report : LoadReport) (due : Requests) : (Catalog.fetchFrom fuel c report due).2.All P := by
  induction fuel generalizing c report due with
  | zero => exact h
  | succ fuel ih =>
    simp only [Catalog.fetchFrom]
    split
    · exact h
    · exact ih (h.fetchWave hP due.toList) _ _

/-- What is loaded is no input. -/
theorem loadNeeded (hP : ∀ shape, ¬ shape.isInput → P shape) (h : c.All P) :
    c.loadNeeded.2.All P :=
  h.fetchFrom hP _ _ _

/-- What fills the gaps is no input. -/
theorem fillGaps (hP : ∀ shape, ¬ shape.isInput → P shape) (h : c.All P)
    (unresolved : Std.TreeMap String String) (resolveMissing : Bool) :
    (c.fillGaps unresolved resolveMissing).2.All P := by
  refine List.foldlRecOn (motive := fun state : List Problem × Catalog => state.2.All P)
    unresolved.toList _ h ?_
  rintro ⟨problems, c⟩ hc ⟨name, referencedBy⟩ -
  dsimp only
  split
  · exact hc.put (hP _ (by simp [ClassShape.isInput, ClassShape.standIn]))
  · exact hc

end All

/-- The classes in order have different names. -/
theorem All.pairwise_classes (h : c.All P) :
    c.classes.Pairwise fun a b => a.name ≠ b.name := by
  refine List.pairwise_map.2 (Std.TreeMap.distinct_keys_toList.imp_of_mem ?_)
  intro a b ha hb hne hname
  obtain ⟨hkey, -⟩ := h a.1 a.2 (Std.TreeMap.mem_toList_iff_getElem?_eq_some.1 ha)
  obtain ⟨hkey', -⟩ := h b.1 b.2 (Std.TreeMap.mem_toList_iff_getElem?_eq_some.1 hb)
  rw [Std.LawfulEqCmp.compare_eq_iff_eq] at hne
  exact hne (by rw [← hkey, ← hkey', hname])

/-- What holds of all classes holds of each that is listed. -/
theorem All.of_mem_classes (h : c.All P) (hshape : shape ∈ c.classes) : P shape := by
  obtain ⟨⟨name, shape⟩, hmem, rfl⟩ := List.mem_map.1 hshape
  exact (h name shape (Std.TreeMap.mem_toList_iff_getElem?_eq_some.1 hmem)).2

end Catalog

/-! ### Enrolling -/

/-- One more source is passed over, or it is accepted and registered under a name that was free. -/
theorem enrol_cons (c : Catalog) (source : LocatedClass) (rest : List LocatedClass) :
    ((enrol c (source :: rest)).accepted = (enrol c rest).accepted ∧
      (enrol c (source :: rest)).catalog = (enrol c rest).catalog) ∨
    ∃ shape, ClassShape.decode source.bytes .input = .ok shape ∧ c.get? shape.name = none ∧
      (enrol c (source :: rest)).accepted = source :: (enrol (c.put shape) rest).accepted ∧
      (enrol c (source :: rest)).catalog = (enrol (c.put shape) rest).catalog := by
  cases hdecode : ClassShape.decode source.bytes .input with
  | error e =>
    -- Bytes that are no class, a class that is registered before, and a new one.
    left
    simp only [enrol, hdecode, and_self]
  | ok shape =>
    cases hfound : c.get? shape.name with
    | some existing =>
      left
      simp only [enrol, hdecode, Catalog.register, hfound]
      exact ⟨rfl, rfl⟩
    | none =>
      right
      refine ⟨shape, rfl, hfound, ?_⟩
      simp only [enrol, hdecode, Catalog.register, Catalog.commit, hfound]
      exact ⟨rfl, rfl⟩

/-- Every class that inputs are enrolled into the catalog as comes from one that was accepted. -/
theorem all_enrol {P : ClassShape → Prop} {c : Catalog} {inputs : List LocatedClass}
    (hc : c.All P) (hP : ∀ source ∈ (enrol c inputs).accepted, ∀ shape,
      ClassShape.decode source.bytes .input = .ok shape → P shape) :
    (enrol c inputs).catalog.All P := by
  induction inputs generalizing c with
  | nil => exact hc
  | cons source rest ih =>
    rcases enrol_cons c source rest with
      ⟨haccepted, hcatalog⟩ | ⟨shape, hdecode, -, haccepted, hcatalog⟩
    · rw [haccepted] at hP
      rw [hcatalog]
      exact ih hc hP
    · rw [haccepted, List.forall_mem_cons] at hP
      rw [hcatalog]
      exact ih (hc.put (hP.1 shape hdecode)) hP.2

end Relabel
