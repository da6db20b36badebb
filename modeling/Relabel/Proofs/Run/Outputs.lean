import Relabel.Proofs.Catalog.FromRoots
import Relabel.Proofs.Decisions.Distinct
import Relabel.Proofs.Renaming.WellFormed
import Relabel.Proofs.Run.References

/-!
# What a run gives

An output gets its name from the path of its source, and its bytes from the class that the source
holds. A class of the classpath is only loaded from a file that holds what its path says, but inputs
are not asked for that. Where they hold what their paths say all the same, every output holds the
class it is named after, and no two outputs have one name.

## Main results

- `holds_of_relabelBytes`: the class that relabeled bytes hold.
- `exists_registeredAs_enrol`, `pairwise_accepted`: accepted sources hold different classes, and all
  of these are registered.
- `Session.outputs_of_run`: the names of outputs and of the classes they hold.
-/

namespace Relabel

/-! ### Classes and their bytes -/

/-- Some bytes are a class file of a class with this name. -/
def Bytes.Holds (data : Bytes) (name : String) : Prop :=
  ∃ c, ClassFile.decode data = .ok c ∧ c.name = .ok name

/-- Bytes hold one class at most. -/
theorem Bytes.Holds.unique {data : Bytes} {name name' : String} (h : data.Holds name)
    (h' : data.Holds name') : name = name' := by
  obtain ⟨c, hc, hname⟩ := h
  obtain ⟨c', hc', hname'⟩ := h'
  obtain rfl := Except.ok.inj (hc.symm.trans hc')
  exact Except.ok.inj (hname.symm.trans hname')

/-- Bytes hold the class whose shape is read from them. -/
theorem ClassShape.holds_of_decode {data : Bytes} {origin : Origin} {shape : ClassShape}
    (h : decode data origin = .ok shape) : data.Holds shape.name := by
  obtain ⟨c, hc, hshows⟩ := shows_of_decode h
  exact ⟨c, hc, hshows.name_eq⟩

namespace ClassFile

variable {names : Renaming} {settings : RelabelSettings} {c c' : ClassFile}

/-- A relabeling does not move the constant that names the class. -/
theorem thisClass_relabel (h : c.relabel names settings = .ok c') : c'.thisClass = c.thisClass := by
  obtain ⟨thisName, methods, d, p, p₁, p₂, p₃, -, -, -, hsteps, hc'⟩ := relabel_ok h
  obtain ⟨fields, methods', attributes, rfl⟩ := hsteps.header
  rw [hc']

/-- The name of a class after a relabeling. -/
theorem name_relabel (hc : c.pool.Coherent) (h : c.relabel names settings = .ok c') {name : String}
    (hname : c.name = .ok name) : c'.name = .ok ((names.mapReference name).getD name) := by
  obtain ⟨thisName, methods, -, -, hbecomes⟩ := relabel_becomes hc h
  rw [ClassFile.name, thisClass_relabel h]
  exact hbecomes.finished.className hname

end ClassFile

/-- Relabeled bytes hold the class of the bytes before under its new name. -/
theorem holds_of_relabelBytes {names : Renaming} {settings : RelabelSettings} {data bytes : Bytes}
    (h : relabelBytes names settings data = .ok bytes) :
    ∃ name, data.Holds name ∧ bytes.Holds ((names.mapReference name).getD name) := by
  obtain ⟨c, hc, c', hc', hencode⟩ := by
    simpa only [relabelBytes, Except.bind_eq_ok] using h
  have hsize := ClassFile.size_le_of_encode_relabel hc' hencode
  obtain ⟨hwell, hsound⟩ := ClassFile.wellFormed_sound_of_decode hc
  obtain ⟨hwell', -⟩ := hwell.relabel ⟨hsize, hsound⟩ hc'
  obtain ⟨name, hname⟩ := hwell.named
  exact ⟨name, ⟨c, hc, hname⟩, c'.withoutIndex, ClassFile.decode_encode hwell' hencode,
    ClassFile.name_relabel (ClassFile.coherent_of_decode hc hsize) hc' hname⟩

/-- A reference to a class that is no array gets the new name of the class. -/
theorem Decisions.mapReference_of_not_array {r : Decisions} {name : String}
    (h : ¬ ClassShape.isArray name) :
    (r.toRenaming.mapReference name).getD name = r.className name := by
  have hclass : r.toRenaming.mapReference name = r.mapClass name := by
    rw [show r.toRenaming.mapReference = Descriptor.renameReference r.mapClass from rfl,
      Descriptor.renameReference]
    split
    · next rest hname =>
      refine absurd ?_ h
      simp [ClassShape.isArray, Text.startsWith, hname, Text.stripFront?]
    · rfl
  rw [hclass, className]

/-! ### Enrolling -/

section

variable {c : Catalog} {inputs : List LocatedClass} {name : String} {shape : ClassShape}

/-- A class that is registered stays so while inputs are enrolled. -/
theorem get?_enrol (h : c.get? name = some shape) :
    (enrol c inputs).catalog.get? name = some shape := by
  induction inputs generalizing c with
  | nil => exact h
  | cons source rest ih =>
    -- A source that is refused leaves the catalog, and one that is accepted takes a name that was
    -- free.
    rcases enrol_cons c source rest with ⟨-, hcatalog⟩ | ⟨other, -, hfree, -, hcatalog⟩
    · rw [hcatalog]
      exact ih h
    · rw [hcatalog]
      refine ih ?_
      rw [Catalog.get?_put, if_neg, h]
      rintro rfl
      cases hfree.symm.trans h

/-- A source whose class is registered. -/
structure LocatedClass.RegisteredAs (source : LocatedClass) (c : Catalog) (shape : ClassShape) :
    Prop where
  decoded : ClassShape.decode source.bytes .input = .ok shape
  registered : c.get? shape.name = some shape

/-- The class of every accepted source is registered, under a name that was free before. -/
theorem exists_registeredAs_enrol (c : Catalog) :
    ∀ source ∈ (enrol c inputs).accepted,
      ∃ shape, source.RegisteredAs (enrol c inputs).catalog shape ∧ c.get? shape.name = none := by
  induction inputs generalizing c with
  | nil => exact List.forall_mem_nil _
  | cons first rest ih =>
    rcases enrol_cons c first rest with
      ⟨haccepted, hcatalog⟩ | ⟨shape, hdecode, hfree, haccepted, hcatalog⟩
    · rw [haccepted, hcatalog]
      exact ih c
    · rw [haccepted, hcatalog, List.forall_mem_cons]
      have hput : (c.put shape).get? shape.name = some shape := by simp [Catalog.get?_put]
      refine ⟨⟨shape, ⟨hdecode, get?_enrol hput⟩, hfree⟩, fun source hsource => ?_⟩
      obtain ⟨other, hother, hfree'⟩ := ih (c.put shape) source hsource
      refine ⟨other, hother, ?_⟩
      rw [Catalog.get?_put] at hfree'
      split at hfree'
      · cases hfree'
      · exact hfree'

/-- No two accepted sources hold one class. -/
theorem pairwise_accepted (c : Catalog) (inputs : List LocatedClass) :
    (enrol c inputs).accepted.Pairwise fun a b =>
      ∀ name, a.bytes.Holds name → ¬ b.bytes.Holds name := by
  induction inputs generalizing c with
  | nil => exact .nil
  | cons first rest ih =>
    rcases enrol_cons c first rest with ⟨haccepted, -⟩ | ⟨shape, hdecode, -, haccepted, -⟩
    · rw [haccepted]
      exact ih c
    · rw [haccepted]
      refine .cons (fun source hsource name hfirst hholds => ?_) (ih (c.put shape))
      -- The name of the first is taken by the time the other is looked at.
      obtain ⟨other, hother, hfree⟩ := exists_registeredAs_enrol (c.put shape) source hsource
      obtain rfl := hfirst.unique (ClassShape.holds_of_decode hdecode)
      rw [← hholds.unique (ClassShape.holds_of_decode hother.decoded), Catalog.get?_put,
        if_pos rfl] at hfree
      cases hfree

end

/-! ### Runs -/

namespace Session

variable {options : Options} {cancelled : Phase → Bool} {threads : Nat}
  {inputs classpath : List LocatedClass} {mappings : Mapping.Renames} {result : RunResult}

/-- The class that an accepted source is registered as is one that the run decides on. -/
theorem mem_classes_catalog {source : LocatedClass} {shape : ClassShape}
    (h : source.RegisteredAs (enrol (.ofClasspath classpath) inputs).catalog shape) :
    shape ∈ (catalog options inputs classpath).classes :=
  Catalog.mem_classes.2 ⟨shape.name,
    Catalog.get?_fillGaps_loadNeeded h.registered options.resolveMissing⟩

/-- Accepted sources that hold the classes they are named after have different names
afterwards. -/
theorem className_ne_of_accepted
    (h : runPhases options cancelled threads inputs classpath mappings = .ok result)
    {a b : LocatedClass} (ha : a ∈ (enrol (.ofClasspath classpath) inputs).accepted)
    (hb : b ∈ (enrol (.ofClasspath classpath) inputs).accepted) (hholds : a.bytes.Holds a.name)
    (hholds' : b.bytes.Holds b.name) (hne : a.name ≠ b.name) :
    result.decisions.className a.name ≠ result.decisions.className b.name := by
  -- Both classes are in the graph the decisions were made from, where new names are different.
  obtain ⟨⟨warnings, hdecisions⟩, -⟩ := runPhases_ok h
  obtain ⟨x, hx, -⟩ := exists_registeredAs_enrol _ a ha
  obtain ⟨y, hy, -⟩ := exists_registeredAs_enrol _ b hb
  obtain ⟨_, -, hshows⟩ := ClassShape.shows_of_decode hx.decoded
  obtain ⟨_, -, hshows'⟩ := ClassShape.shows_of_decode hy.decoded
  rw [hholds.unique (ClassShape.holds_of_decode hx.decoded),
    hholds'.unique (ClassShape.holds_of_decode hy.decoded)] at hne ⊢
  exact (Decisions.Distinct.of_ofGraph hdecisions).className_ne
    (Decisions.graph_ofGraph hdecisions) (mem_classes_catalog hx) (mem_classes_catalog hy)
    hshows.origin_eq hshows'.origin_eq hne

/-- What a source becomes in a run: the path makes the name, and the class that the source holds
makes the class that the output holds. -/
structure Becomes (result : RunResult) (source : LocatedClass) (out : RelabeledClass) : Prop where
  name_eq : out.name = result.decisions.className source.name
  holds : ∃ name, source.bytes.Holds name ∧
    out.bytes.Holds ((result.decisions.toRenaming.mapReference name).getD name)

/-- An output holds the class it is named after if its source does, arrays apart. -/
theorem Becomes.holds_name {source : LocatedClass} {out : RelabeledClass}
    (h : Becomes result source out) (hholds : source.bytes.Holds source.name)
    (harray : ¬ ClassShape.isArray source.name) : out.bytes.Holds out.name := by
  obtain ⟨name, hname, hout⟩ := h.holds
  obtain rfl := hname.unique hholds
  rwa [h.name_eq, ← Decisions.mapReference_of_not_array harray]

/-- Every output of a successful run is what an accepted source becomes. If all accepted sources
hold the classes they are named after, the outputs have different names; and if none of these is an
array, each output holds the class it is named after. -/
theorem outputs_of_run {s : Session}
    (h : (s.run cancelled threads inputs classpath mappings).1 = .ok result) :
    let accepted := (enrol (.ofClasspath classpath) inputs).accepted
    (∀ out ∈ result.classes, ∃ source ∈ accepted, Becomes result source out) ∧
    ((∀ source ∈ accepted, source.bytes.Holds source.name) →
      (result.classes.map (·.name)).Nodup) ∧
    ((∀ source ∈ accepted, source.bytes.Holds source.name ∧ ¬ ClassShape.isArray source.name) →
      ∀ out ∈ result.classes, out.bytes.Holds out.name ∧ out.path = out.name ++ ".class") := by
  intro accepted
  have hrun := run_ok h
  obtain ⟨-, hrelabel⟩ := runPhases_ok hrun
  obtain ⟨made, hperm, hmade⟩ := exists_perm_of_relabelAll hrelabel
  have hbecomes : ∀ out ∈ result.classes, ∃ source ∈ accepted, Becomes result source out := by
    intro out hout
    obtain ⟨source, hsource, hfrom⟩ := exists_of_mem_forall₂ hmade.flip (hperm.mem_iff.1 hout)
    exact ⟨source, hsource, hfrom.name_eq, holds_of_relabelBytes hfrom.relabeled⟩
  refine ⟨hbecomes, fun hholds => ?_, fun hholds out hout => ?_⟩
  · have hnames : (accepted.map fun s => result.decisions.className s.name) =
        made.map (·.name) := by
      rw [← List.forall₂_eq_eq_eq, List.forall₂_map_left_iff, List.forall₂_map_right_iff]
      exact hmade.imp fun _ _ hfrom => hfrom.name_eq.symm
    -- Two sources of one name would hold the same class, and the second would have been refused.
    rw [(hperm.map _).nodup_iff, ← hnames]
    refine List.pairwise_map.2 ((pairwise_accepted _ _).imp_of_mem fun {a b} ha hb hdiffer => ?_)
    refine className_ne_of_accepted hrun ha hb (hholds a ha) (hholds b hb) fun hname => ?_
    exact hdiffer a.name (hholds a ha) (hname ▸ hholds b hb)
  · obtain ⟨source, hsource, hsourceBecomes⟩ := hbecomes out hout
    obtain ⟨hname, harray⟩ := hholds source hsource
    exact ⟨hsourceBecomes.holds_name hname harray, rfl⟩

/-- Both inputs hold the classes they are named after, and so do the outputs. -/
theorem outputs_of_run_inherited : ∃ result : RunResult,
    (({ options := {} } : Session).run (fun _ => false) 1 inherited [] toG).1 = .ok result ∧
    (∀ source ∈ (enrol (.ofClasspath []) inherited).accepted,
      source.bytes.Holds source.name ∧ ¬ ClassShape.isArray source.name) ∧
    (result.classes.map (·.name)).Nodup ∧
    (∀ out ∈ result.classes, out.bytes.Holds out.name ∧ out.path = out.name ++ ".class") ∧
    ∃ out ∈ result.classes, out.name = "B" ∧ out.bytes.Holds "B" := by
  obtain ⟨result, hrun, hdecisions⟩ := exists_run_inherited
  have hholds : ∀ source ∈ (enrol (.ofClasspath []) inherited).accepted,
      source.bytes.Holds source.name ∧ ¬ ClassShape.isArray source.name := by
    rw [enrol_inherited]
    refine List.forall_mem_cons.2 ⟨⟨⟨base, rfl, rfl⟩, by decide⟩, ?_⟩
    exact List.forall_mem_singleton.2 ⟨⟨derived, rfl, rfl⟩, by decide⟩
  obtain ⟨-, hdistinct, hnamed⟩ := outputs_of_run hrun
  have hnamed := hnamed hholds
  refine ⟨result, hrun, hholds, hdistinct fun source hsource => (hholds source hsource).1,
    hnamed, ?_⟩
  -- One of the outputs is made of the second input, which keeps its name.
  obtain ⟨-, hrelabel⟩ := runPhases_ok (run_ok hrun)
  rw [enrol_inherited] at hrelabel
  obtain ⟨c, c', hc'⟩ := exists_rewritten hrelabel
    (List.getElem_mem (by decide : 1 < inherited.length))
  obtain ⟨out, hout, hname, -⟩ := hc'.written
  have hB : out.name = "B" := by
    rw [hname, hdecisions, Decisions.className]
    show (familyDecisions.mapClass "B").getD "B" = "B"
    rw [mapClass_family "B" (.inr rfl)]
    rfl
  exact ⟨out, hout, hB, hB ▸ (hnamed out hout).1⟩

end Session

end Relabel
