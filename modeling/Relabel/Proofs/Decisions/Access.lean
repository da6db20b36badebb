import Mathlib.Data.List.ReduceOption
import Relabel.Proofs.Decisions.Conflicts

/-!
# Access across packages

A reference is broken where the new names put the class that refers and the one that declares its
target into different packages, and only the package may use the target. Each broken reference of an
input is reported once. Where that is asked for, the targets in inputs become public, methods
together with their groups, and nothing else does.

## Main results

- `Draft.namesOnly_settled`: before access is reviewed, only names have been decided on.
- `Draft.reviewed_reviewAccess`: what the review of access does, from one breach to the next.
- `Draft.breach?_ofClass_iff`, `Draft.breach?_ofMember_iff`: what a breach is.
- `Decisions.accessReviewed_of_ofGraph`: what becomes public and what is reported.
-/

namespace Relabel

/-- The references of all inputs, in order, each with the class that refers. -/
def Graph.inputReferences (g : Graph) : List (ClassPlace × Reference) :=
  (g.places.filter fun c => (g.classAt c).isInput).flatMap fun c =>
    (g.classAt c).references.map (c, ·)

/-- The references that are looked at are those of the input classes. -/
theorem Graph.mem_inputReferences {g : Graph} {c : ClassPlace} {ref : Reference} :
    (c, ref) ∈ g.inputReferences ↔
      c < g.size ∧ (g.classAt c).isInput ∧ ref ∈ (g.classAt c).references := by
  simp only [inputReferences, places, List.mem_flatMap, List.mem_filter, List.mem_range,
    List.mem_map, Prod.mk.injEq]
  constructor
  · rintro ⟨c', ⟨hlt, hinput⟩, ref', href, rfl, rfl⟩
    exact ⟨hlt, hinput, href⟩
  · rintro ⟨hlt, hinput, href⟩
    exact ⟨c, ⟨hlt, hinput⟩, ref, href, rfl, rfl⟩

/-- The classes of a graph, by their places. -/
theorem Graph.toList_classes (g : Graph) : g.classes.toList = g.places.map g.classAt := by
  refine List.ext_getElem (by simp [places, size]) fun c hc _ => ?_
  rw [Array.length_toList] at hc
  simp [places, classAt, Array.getD_eq_getD_getElem?, hc]

/-- Whether a warning is about names that were not given. -/
def Warning.isOnNames : Warning → Bool
  | .conflictIgnored .. | .conflictingMappings .. => true
  | .accessViolation .. | .duplicateClass .. => false

namespace Draft

variable {options : Options} {d d' : Draft}

/-! ### Before access is reviewed -/

/-- So far only names have been decided on. -/
structure NamesOnly (d : Draft) : Prop where
  publishedMembers : d.decisions.publishedMembers = {}
  publishedClasses : d.decisions.publishedClasses = {}
  reported : ∀ w ∈ d.reported, w.isOnNames

namespace NamesOnly

/-- A warning about names is one more report about names. -/
theorem warn (h : NamesOnly d) {w : Warning} (hw : w.isOnNames) : NamesOnly (d.warn w) where
  publishedMembers := h.publishedMembers
  publishedClasses := h.publishedClasses
  reported := List.forall_mem_cons.2 ⟨hw, h.reported⟩

/-- Taking the name of a member back touches names only. -/
theorem keepMember (h : NamesOnly d) (id : MemberPlace) : NamesOnly (d.keepMember id) := by
  unfold Draft.keepMember
  dsimp only
  split
  · split
    · exact ⟨h.publishedMembers, h.publishedClasses, h.reported⟩
    · exact h
  · exact ⟨h.publishedMembers, h.publishedClasses, h.reported⟩

theorem keepClass (h : NamesOnly d) (name : String) : NamesOnly (d.keepClass name) :=
  ⟨h.publishedMembers, h.publishedClasses, h.reported⟩

/-- Choosing the names touches names only. -/
theorem takeNames (h : NamesOnly d) (options : Options) : NamesOnly (d.takeNames options).2 := by
  have hnamed : NamesOnly { d with decisions := { d.decisions with
      groupNames := chosenNames d.decisions
      fieldNames := chosenFields d.decisions } } :=
    ⟨h.publishedMembers, h.publishedClasses, h.reported⟩
  simp only [Draft.takeNames]
  split
  · refine List.foldlRecOn (motive := NamesOnly) _ _ hnamed ?_
    exact fun e he _ _ => he.warn rfl
  · exact hnamed

/-- A pass over the classes touches names only. -/
theorem classPass (h : NamesOnly d) (hpass : Draft.classPass options d = some d') :
    NamesOnly d' := by
  unfold Draft.classPass at hpass
  split at hpass
  · cases hpass
  · split at hpass
    · obtain rfl := Option.some.inj hpass
      exact (h.keepClass _).warn rfl
    · split at hpass
      · obtain rfl := Option.some.inj hpass
        exact (h.keepClass _).warn rfl
      · cases hpass

/-- A pass over the members touches names only. -/
theorem memberPass (h : NamesOnly d) (hpass : Draft.memberPass options d = some d') :
    NamesOnly d' := by
  obtain ⟨⟨c, victim, kept⟩, -, rfl⟩ := Option.map_eq_some_iff.1 hpass
  exact (h.keepMember victim).warn rfl

end NamesOnly

/-- Up to the settled draft nothing is published. -/
theorem namesOnly_settled (g : Graph) (mappings : Mapping.Renames) (options : Options) :
    NamesOnly (settled g mappings options) := by
  have hstart : NamesOnly (start g mappings options) := ⟨rfl, rfl, by simp [start]⟩
  have hclasses : NamesOnly (classesSettled g mappings options) :=
    (endsAt_settleClasses _ options).1.invariant (fun _ _ hpass h => h.classPass hpass)
      (hstart.takeNames options)
  exact (endsAt_settleMembers _ options).1.invariant (fun _ _ hpass h => h.memberPass hpass)
    hclasses

/-! ### Breach by breach -/

/-- Whether a breach is mended. -/
def mends (options : Options) (g : Graph) : Breach → Bool
  | .ofClass name => options.fixPackageAccess && (g.classNamed? name).any (·.isInput)
  | .ofMember id => options.fixPackageAccess && (g.classAt id.owner).isInput

/-- What is reported of a breach. -/
def breachWarning (options : Options) (g : Graph) : String × Breach → Warning
  | (referencing, .ofClass name) =>
    .accessViolation referencing name none (mends options g (.ofClass name))
  | (referencing, .ofMember id) =>
    .accessViolation referencing (g.classAt id.owner).name (some (g.memberAt id).describe)
      (mends options g (.ofMember id))

/-- A breach is mended where that is asked for, and reported in either case. -/
theorem noteBreach_eq (d : Draft) (b : String × Breach) : noteBreach options d b =
    (if mends options d.decisions.graph b.2 then
      match b.2 with
      | .ofClass name => d.publishClass name
      | .ofMember id => d.publishMember id
    else d).warn (breachWarning options d.decisions.graph b) := by
  obtain ⟨c, name | id⟩ := b <;> rfl

/-- A class becomes public with a breach that is mended and leads to it. -/
theorem contains_publishedClasses_noteBreach (d : Draft) (b : String × Breach) (name : String) :
    (noteBreach options d b).decisions.publishedClasses.contains name ↔
      d.decisions.publishedClasses.contains name ∨
        b.2 = .ofClass name ∧ mends options d.decisions.graph b.2 := by
  rw [noteBreach_eq]
  -- A breach that is not mended publishes nothing, and one to a member publishes no class.
  by_cases hmends : mends options d.decisions.graph b.2
  · obtain ⟨c, name' | id⟩ := b
    · rw [if_pos hmends]
      show (d.decisions.publishedClasses.insert name').contains name ↔ _
      rw [Std.HashSet.contains_insert, Bool.or_eq_true, beq_iff_eq, or_comm, and_iff_left hmends,
        Breach.ofClass.injEq]
    · rw [if_pos hmends]
      exact (or_iff_left fun h => Breach.noConfusion h.1).symm
  · rw [if_neg hmends]
    exact (or_iff_left fun h => hmends h.2).symm

/-- A member becomes public with a breach that is mended and leads to it, or to a method of its
group. -/
theorem contains_publishedMembers_noteBreach (d : Draft) (b : String × Breach) (n : Nat) :
    (noteBreach options d b).decisions.publishedMembers.contains n ↔
      d.decisions.publishedMembers.contains n ∨
        ∃ source, b.2 = .ofMember source ∧ mends options d.decisions.graph b.2 ∧
          ∃ id ∈ publishedWith d.decisions source, (d.decisions.graph.classAt id.owner).isInput ∧
            d.decisions.graph.number id = n := by
  rw [noteBreach_eq]
  by_cases hmends : mends options d.decisions.graph b.2
  · obtain ⟨c, name | source⟩ := b
    · rw [if_pos hmends]
      exact (or_iff_left fun ⟨_, h, _⟩ => Breach.noConfusion h).symm
    · rw [if_pos hmends]
      show (d.decisions.publishedMembers.insertMany _).contains n ↔ _
      rw [Std.HashSet.contains_insertMany_list, Bool.or_eq_true, List.contains_iff_mem]
      simp only [List.mem_map, List.mem_filter, and_assoc, Breach.ofMember.injEq, hmends, true_and,
        exists_eq_left']
  · rw [if_neg hmends]
    exact (or_iff_left fun ⟨_, _, h, _⟩ => hmends h).symm

/-- A draft after some breaches have been gone through. -/
structure Reviewed (options : Options) (d : Draft) (noted : List (String × Breach)) (d' : Draft) :
    Prop where
  graph : d'.decisions.graph = d.decisions.graph
  linkage : d'.decisions.linkage = d.decisions.linkage
  reported : d'.reported =
    (noted.map (breachWarning options d.decisions.graph)).reverse ++ d.reported
  classes : ∀ name, d'.decisions.publishedClasses.contains name ↔
    d.decisions.publishedClasses.contains name ∨
      ∃ b ∈ noted, b.2 = .ofClass name ∧ mends options d.decisions.graph b.2
  members : ∀ n, d'.decisions.publishedMembers.contains n ↔
    d.decisions.publishedMembers.contains n ∨
      ∃ b ∈ noted, ∃ source, b.2 = .ofMember source ∧ mends options d.decisions.graph b.2 ∧
        ∃ id ∈ publishedWith d.decisions source, (d.decisions.graph.classAt id.owner).isInput ∧
          d.decisions.graph.number id = n

theorem Reviewed.refl (options : Options) (d : Draft) : Reviewed options d [] d :=
  ⟨rfl, rfl, rfl, by simp, by simp⟩

/-- One more breach is gone through. -/
theorem Reviewed.noteBreach {noted : List (String × Breach)} (h : Reviewed options d noted d')
    (b : String × Breach) : Reviewed options d (noted ++ [b]) (noteBreach options d' b) := by
  -- Publishing changes neither the graph nor the linkage, and so not what is published with a
  -- member.
  have hwith : ∀ id, publishedWith d'.decisions id = publishedWith d.decisions id := fun id => by
    rw [publishedWith, publishedWith, h.graph, h.linkage]
  -- Graph, linkage, reports, classes and members, as in the structure.
  refine ⟨?_, ?_, ?_, fun name => ?_, fun n => ?_⟩
  · rw [noteBreach_eq, ← h.graph]
    split <;> [split; skip] <;> rfl
  · rw [noteBreach_eq, ← h.linkage]
    split <;> [split; skip] <;> rfl
  · have hreported : (Draft.noteBreach options d' b).reported =
        breachWarning options d'.decisions.graph b :: d'.reported := by
      rw [noteBreach_eq]
      split <;> [split; skip] <;> rfl
    simp [hreported, h.graph, h.reported]
  · rw [contains_publishedClasses_noteBreach, h.classes, h.graph, or_assoc]
    simp only [List.mem_append, List.mem_singleton, or_and_right, exists_or, exists_eq_left]
  · rw [contains_publishedMembers_noteBreach, h.members, h.graph, or_assoc]
    simp only [List.mem_append, List.mem_singleton, or_and_right, exists_or, exists_eq_left, hwith]

/-- The review goes through all breaches. -/
theorem reviewed_reviewAccess (d : Draft) (options : Options) :
    Reviewed options d (breaches d.decisions) (d.reviewAccess options) := by
  have hrun : ∀ noted : List (String × Breach),
      Reviewed options d noted (noted.foldl (Draft.noteBreach options) d) := by
    intro noted
    induction noted using List.reverseRecOn with
    | nil => exact .refl options d
    | append_singleton noted b ih =>
      rw [List.foldl_append, List.foldl_cons, List.foldl_nil]
      exact ih.noteBreach b
  exact hrun _

end Draft

/-! ### Broken references -/

namespace Decisions

variable {r : Decisions} {c d : ClassPlace} {ref : Reference} {id : MemberPlace}

/-- The new names put two classes of one package into different ones. -/
def Parted (r : Decisions) (a b : ClassPlace) : Prop :=
  packageName (r.graph.classAt a).name = packageName (r.graph.classAt b).name ∧
    packageName (r.className (r.graph.classAt a).name) ≠
      packageName (r.className (r.graph.classAt b).name)

theorem Parted.name_ne (h : r.Parted c d) :
    (r.graph.classAt c).name ≠ (r.graph.classAt d).name :=
  fun heq => h.2 (by rw [heq])

/-- A reference leads to a class that only its package may use, and which the class that refers is
parted from. -/
structure BreaksClass (r : Decisions) (c : ClassPlace) (ref : Reference) (d : ClassPlace) :
    Prop where
  refers : ∃ name, ref = .ofClass name ∧ r.graph.place? name = some d
  /-- What stands in for a missing class is no target. -/
  known : (r.graph.classAt d).origin ≠ .synthetic
  isPackagePrivate : (r.graph.classAt d).access.isPackagePrivate
  parted : r.Parted d c

/-- A reference leads to a member of another class that only its package may use, and which the
class that refers is parted from. -/
structure BreaksMember (r : Decisions) (c : ClassPlace) (ref : Reference) (id : MemberPlace) :
    Prop where
  refers : ∃ kind key, ref = .ofMember kind key ∧ r.graph.lookUpMember kind key = some id
  other : id.owner ≠ c
  isPackagePrivate : (r.graph.memberAt id).access.isPackagePrivate
  parted : r.Parted id.owner c

/-- The check of the packages is that the two classes are parted. -/
theorem movesApart_iff : Draft.movesApart r (r.graph.classAt d).name (r.graph.classAt c).name ↔
    r.Parted d c := by
  simp [Draft.movesApart, Parted]

/-- A breach of a class. -/
theorem breach?_eq_ofClass {name : String} :
    Draft.breach? r (r.graph.classAt c) ref = some (.ofClass name) ↔
      ∃ d, r.BreaksClass c ref d ∧ (r.graph.classAt d).name = name := by
  cases ref with
  | ofMember kind key =>
    -- A reference to a member never gives a breach of a class.
    refine iff_of_false (fun h => ?_) ?_
    · simp only [Draft.breach?, Option.bind_eq_bind, Option.bind_eq_some_iff] at h
      obtain ⟨id, -, h⟩ := h
      split at h <;> cases h
    · rintro ⟨d, ⟨⟨name, ⟨⟩, -⟩, -, -, -⟩, -⟩
  | ofClass target =>
    simp only [Draft.breach?, Graph.classNamed?, Option.bind_eq_bind, Option.bind_eq_some_iff,
      Option.map_eq_some_iff]
    -- The guards of the check are the fields of `BreaksClass`.
    constructor
    · rintro ⟨_, ⟨d, hd, rfl⟩, h⟩
      split at h
      · next hbreaks =>
        simp only [Bool.and_eq_true, bne_iff_ne] at hbreaks
        obtain ⟨⟨hknown, hprivate⟩, hparted⟩ := hbreaks
        exact ⟨d, ⟨⟨target, rfl, hd⟩, hknown, hprivate, movesApart_iff.1 hparted⟩,
          Draft.Breach.ofClass.inj (Option.some.inj h)⟩
      · cases h
    · rintro ⟨d, ⟨⟨_, heq, hd⟩, hknown, hprivate, hparted⟩, rfl⟩
      obtain rfl := Reference.ofClass.inj heq
      refine ⟨_, ⟨d, hd, rfl⟩, if_pos ?_⟩
      simp [hknown, hprivate, movesApart_iff.2 hparted]

/-- The class that a broken reference leads to is found by its own name. -/
theorem BreaksClass.place? (h : r.BreaksClass c ref d) (hindexed : r.graph.Indexed) :
    r.graph.place? (r.graph.classAt d).name = some d := by
  obtain ⟨name, -, hplace⟩ := h.refers
  rwa [(hindexed _ _ hplace).2]

/-- A breach of a member. That a class always reaches its own members adds nothing: it is not parted
from itself. -/
theorem breach?_eq_ofMember (hindexed : r.graph.Indexed) :
    Draft.breach? r (r.graph.classAt c) ref = some (.ofMember id) ↔ r.BreaksMember c ref id := by
  cases ref with
  | ofClass target =>
    refine iff_of_false (fun h => ?_) ?_
    · simp only [Draft.breach?, Option.bind_eq_bind, Option.bind_eq_some_iff] at h
      obtain ⟨d, -, h⟩ := h
      split at h <;> cases h
    · rintro ⟨⟨kind, key, ⟨⟩, -⟩, -, -, -⟩
  | ofMember kind key =>
    simp only [Draft.breach?, Option.bind_eq_bind, Option.bind_eq_some_iff]
    constructor
    · rintro ⟨found, hfound, h⟩
      split at h
      · next hbreaks =>
        simp only [Bool.and_eq_true] at hbreaks
        obtain ⟨⟨-, hprivate⟩, hparted⟩ := hbreaks
        obtain rfl := Draft.Breach.ofMember.inj (Option.some.inj h)
        have hparted := movesApart_iff.1 hparted
        exact ⟨⟨kind, key, rfl, hfound⟩, fun heq => hparted.name_ne (heq ▸ rfl), hprivate, hparted⟩
      · cases h
    · rintro ⟨⟨_, _, heq, hfound⟩, -, hprivate, hparted⟩
      obtain ⟨rfl, rfl⟩ := Reference.ofMember.inj heq
      -- Parted classes differ in name, so the check for one owner never stands in the way.
      have hother : r.graph.place? (r.graph.classAt c).name ≠ some id.owner := fun hplace =>
        hparted.name_ne (hindexed _ _ hplace).2
      refine ⟨id, hfound, if_pos ?_⟩
      simp [hother.symm, hprivate, movesApart_iff.2 hparted]

/-- The breaches are those of the references of inputs, in order. -/
theorem breaches_eq (r : Decisions) : Draft.breaches r = r.graph.inputReferences.filterMap fun x =>
    (Draft.breach? r (r.graph.classAt x.1) x.2).map ((r.graph.classAt x.1).name, ·) := by
  simp only [Draft.breaches, Graph.toList_classes, List.filter_map, Function.comp_def,
    List.flatMap_map, Graph.inputReferences, List.filterMap_flatMap, List.filterMap_map,
    List.map_filterMap]

/-- The breaches are those of the references that are looked at. -/
theorem mem_breaches {r : Decisions} {b : Draft.Breach} :
    (∃ entry ∈ Draft.breaches r, entry.2 = b) ↔ ∃ c ref, (c, ref) ∈ r.graph.inputReferences ∧
      Draft.breach? r (r.graph.classAt c) ref = some b := by
  rw [breaches_eq]
  simp only [List.mem_filterMap, Option.map_eq_some_iff]
  constructor
  · rintro ⟨_, ⟨⟨c, ref⟩, href, _, hbreach, rfl⟩, rfl⟩
    exact ⟨c, ref, href, hbreach⟩
  · rintro ⟨c, ref, href, hbreach⟩
    exact ⟨_, ⟨(c, ref), href, b, hbreach, rfl⟩, rfl⟩

/-! ### Decisions on a graph -/

variable {g : Graph} {mappings : Mapping.Renames} {options : Options} {warnings : List Warning}

/-- What becomes public breaks no reference. -/
theorem breaches_published (r : Decisions) (members : Std.HashSet Nat)
    (classes : Std.HashSet String) : Draft.breaches
      { r with publishedMembers := members, publishedClasses := classes } = Draft.breaches r :=
  rfl

/-- Decisions come from names that are settled, and a review of access where one is asked for. -/
theorem exists_reviewed (h : ofGraph g mappings options = .ok (r, warnings)) :
    ∃ d, r = d.decisions ∧ warnings = d.warnings ∧
      Draft.Reviewed options (Draft.settled g mappings options)
        (if options.examinesAccess then Draft.breaches r else []) d := by
  simp only [ofGraph] at h
  split at h
  · obtain ⟨hr, hwarnings⟩ := Prod.mk.inj (Except.ok.inj h)
    refine ⟨_, hr.symm, hwarnings.symm, ?_⟩
    rw [← hr]
    -- Without the options the review runs over no breach.
    by_cases hexamines : options.examinesAccess
    · rw [if_pos hexamines, if_pos hexamines]
      obtain ⟨members, classes, hreviewed⟩ :=
        Draft.decisions_reviewAccess (Draft.settled g mappings options) options
      have hrun := Draft.reviewed_reviewAccess (Draft.settled g mappings options) options
      rw [← breaches_published _ members classes, ← hreviewed] at hrun
      exact hrun
    · rw [if_neg hexamines, if_neg hexamines]
      exact .refl options _
  · cases h

/-- Whoever lets access be fixed lets it be examined. -/
theorem examinesAccess_of_fix (h : options.fixPackageAccess) : options.examinesAccess := by
  simp [Options.examinesAccess, h]

/-- A class is public iff an input was found to refer to it across packages, and it is an input. -/
theorem contains_publishedClasses_iff (hindexed : g.Indexed)
    (h : ofGraph g mappings options = .ok (r, warnings)) (name : String) :
    r.publishedClasses.contains name ↔ options.fixPackageAccess ∧
      ∃ c ref d, (c, ref) ∈ g.inputReferences ∧ r.BreaksClass c ref d ∧ (g.classAt d).isInput ∧
        (g.classAt d).name = name := by
  have hgraph : r.graph = g := (retreats_of_ofGraph h).graph
  obtain ⟨settled, rfl, -, hreviewed⟩ := exists_reviewed h
  rw [hreviewed.classes, (Draft.namesOnly_settled g mappings options).publishedClasses,
    Draft.graph_settled]
  -- The class named in a breach is found in the graph again.
  have htarget : ∀ {c ref d}, settled.decisions.BreaksClass c ref d →
      g.classNamed? (g.classAt d).name = some (g.classAt d) := fun hbreaks => by
    have hplace := hbreaks.place? (hgraph ▸ hindexed)
    rw [hgraph] at hplace
    rw [Graph.classNamed?, hplace, Option.map_some]
  constructor
  -- Nothing was published before the review, so what is published answers a breach.
  · rintro (hempty | ⟨entry, hentry, htargets, hmends⟩)
    · simp at hempty
    · rw [htargets, Draft.mends, Bool.and_eq_true] at hmends
      obtain ⟨hfix, hinput⟩ := hmends
      rw [if_pos (examinesAccess_of_fix hfix)] at hentry
      obtain ⟨c, ref, href, hbreach⟩ := mem_breaches.1 ⟨entry, hentry, htargets⟩
      obtain ⟨d, hbreaks, rfl⟩ := breach?_eq_ofClass.1 hbreach
      rw [hgraph] at href hinput
      rw [htarget hbreaks] at hinput
      exact ⟨hfix, c, ref, d, href, hbreaks, hinput, by rw [hgraph]⟩
  · rintro ⟨hfix, c, ref, d, href, hbreaks, hinput, rfl⟩
    rw [← hgraph] at href
    obtain ⟨entry, hentry, htargets⟩ :=
      mem_breaches.2 ⟨c, ref, href, breach?_eq_ofClass.2 ⟨d, hbreaks, rfl⟩⟩
    rw [hgraph] at htargets
    refine .inr ⟨entry, ?_, htargets, ?_⟩
    · rwa [if_pos (examinesAccess_of_fix hfix)]
    · simp [htargets, Draft.mends, hfix, htarget hbreaks, hinput]

/-- A member is public iff an input was found to refer across packages to it, or to a method of its
group, and both are declared by inputs. -/
theorem contains_publishedMembers_iff (hindexed : g.Indexed)
    (h : ofGraph g mappings options = .ok (r, warnings)) (n : Nat) :
    r.publishedMembers.contains n ↔ options.fixPackageAccess ∧
      ∃ c ref source, (c, ref) ∈ g.inputReferences ∧ r.BreaksMember c ref source ∧
        (g.classAt source.owner).isInput ∧
        ∃ id ∈ Draft.publishedWith r source, (g.classAt id.owner).isInput ∧ g.number id = n := by
  have hgraph : r.graph = g := (retreats_of_ofGraph h).graph
  obtain ⟨settled, rfl, -, hreviewed⟩ := exists_reviewed h
  -- The review keeps the linkage, so groups may be read off either draft.
  have hwith : ∀ id, Draft.publishedWith (Draft.settled g mappings options).decisions id =
      Draft.publishedWith settled.decisions id := fun id => by
    rw [Draft.publishedWith, Draft.publishedWith, hreviewed.graph, hreviewed.linkage]
  rw [hreviewed.members, (Draft.namesOnly_settled g mappings options).publishedMembers,
    Draft.graph_settled]
  simp only [hwith]
  constructor
  · rintro (hempty | ⟨entry, hentry, source, htargets, hmends, hpublic⟩)
    · simp at hempty
    · rw [htargets, Draft.mends, Bool.and_eq_true] at hmends
      obtain ⟨hfix, hinput⟩ := hmends
      rw [if_pos (examinesAccess_of_fix hfix)] at hentry
      obtain ⟨c, ref, href, hbreach⟩ := mem_breaches.1 ⟨entry, hentry, htargets⟩
      rw [hgraph] at href
      exact ⟨hfix, c, ref, source, href,
        (breach?_eq_ofMember (hgraph ▸ hindexed)).1 hbreach, hinput, hpublic⟩
  · rintro ⟨hfix, c, ref, source, href, hbreaks, hinput, hpublic⟩
    rw [← hgraph] at href
    obtain ⟨entry, hentry, htargets⟩ :=
      mem_breaches.2 ⟨c, ref, href, (breach?_eq_ofMember (hgraph ▸ hindexed)).2 hbreaks⟩
    refine .inr ⟨entry, ?_, source, htargets, ?_, hpublic⟩
    · rwa [if_pos (examinesAccess_of_fix hfix)]
    · simp [htargets, Draft.mends, hfix, hinput]

/-- What becomes public with a member: it alone, or all methods of its group. -/
theorem mem_publishedWith (hg : g.WellNumbered) (hgraph : r.graph = g)
    (hlinkage : r.linkage = Linkage.ofGraph g options) {source : MemberPlace}
    (hsource : g.Declares source) : id ∈ Draft.publishedWith r source ↔
      id = source ∨ ∃ k, (Linkage.ofGraph g options).InGroup k id ∧
        (Linkage.ofGraph g options).InGroup k source := by
  obtain ⟨byRoot, hgrouped⟩ := Linkage.exists_grouped hg options
  have hnumber := fun k => hgrouped.groupNumber?_eq_some_iff hsource (k := k)
  rw [Draft.publishedWith, hgraph, hlinkage]
  cases hgroup : (Linkage.ofGraph g options).group? g source with
  -- Without a group the member stands alone.
  | none =>
    rw [List.mem_singleton]
    refine (or_iff_left ?_).symm
    rintro ⟨k, -, hin⟩
    rw [Linkage.group?, (hnumber k).2 hin, Option.bind_some] at hgroup
    obtain ⟨group, hget, -⟩ := hin
    cases hgroup.symm.trans hget
  -- Only methods have groups, so the check for a method never stops this branch.
  | some group =>
    obtain ⟨k, hk, hget⟩ := Option.bind_eq_some_iff.1 hgroup
    have hin := (hnumber k).1 hk
    have hmethod : (g.memberAt source).isMethod :=
      MemberShape.isMethod_iff.2 (hgrouped.inGroup_iff.1 hin).1.isMethod
    simp only [hmethod, if_true, Array.mem_toList_iff]
    constructor
    · exact fun hid => .inr ⟨k, ⟨group, hget, hid⟩, hin⟩
    · rintro (rfl | ⟨k', ⟨group', hget', hid⟩, hin'⟩)
      · obtain ⟨group', hget', hid⟩ := hin
        cases hget.symm.trans hget'
        exact hid
      · -- A member has one group.
        cases hk.symm.trans ((hnumber k').2 hin')
        cases hget.symm.trans hget'
        exact hid

/-- A member of an input becomes public iff a member of an input that it is, or shares its group
with, is the target of a broken reference. -/
theorem isPublished_iff (hg : g.WellNumbered) (hindexed : g.Indexed)
    (h : ofGraph g mappings options = .ok (r, warnings)) (hid : g.Declares id) :
    r.isPublished id ↔ options.fixPackageAccess ∧ (g.classAt id.owner).isInput ∧
      ∃ source, (g.classAt source.owner).isInput ∧
        (∃ c ref, (c, ref) ∈ g.inputReferences ∧ r.BreaksMember c ref source) ∧
        (id = source ∨ ∃ k, (Linkage.ofGraph g options).InGroup k id ∧
          (Linkage.ofGraph g options).InGroup k source) := by
  have hgraph : r.graph = g := (retreats_of_ofGraph h).graph
  have hlinkage : r.linkage = Linkage.ofGraph g options := linkage_ofGraph h
  obtain ⟨byRoot, hgrouped⟩ := Linkage.exists_grouped hg options
  -- A member that a reference leads to is declared.
  have hdeclares : ∀ {c ref source}, r.BreaksMember c ref source → g.Declares source := by
    rintro c ref source ⟨⟨kind, key, -, hfound⟩, -, -, -⟩
    rw [hgraph] at hfound
    exact Graph.declares_of_lookUpMember hfound
  rw [isPublished, contains_publishedMembers_iff hindexed h, hgraph]
  refine and_congr_right fun _ => ⟨?_, ?_⟩
  · rintro ⟨c, ref, source, href, hbreaks, hinput, id', hwith, hinput', hnumber⟩
    have hsource := hdeclares hbreaks
    rw [mem_publishedWith hg hgraph hlinkage hsource] at hwith
    have hid' : g.Declares id' := by
      rcases hwith with rfl | ⟨k, hin, -⟩
      · exact hsource
      · exact (hgrouped.inGroup_iff.1 hin).1.declared
    -- Members are numbered without repetition, so the number stands for `id` itself.
    obtain rfl := hg.number_injective hid' hid hnumber
    exact ⟨hinput', source, hinput, ⟨c, ref, href, hbreaks⟩, hwith⟩
  · rintro ⟨hinput', source, hinput, ⟨c, ref, href, hbreaks⟩, hwith⟩
    have hwith := (mem_publishedWith hg hgraph hlinkage (hdeclares hbreaks)).2 hwith
    exact ⟨c, ref, source, href, hbreaks, hinput, id, hwith, hinput', rfl⟩

/-- What is reported of a reference of a class: a broken one is mended iff it leads into an input
and that is asked for, which is iff its target is public now. -/
inductive Verdict (options : Options) (r : Decisions) (c : ClassPlace) (ref : Reference) :
    Option Warning → Prop
  | ofClass {d : ClassPlace} {fixed : Bool} : r.BreaksClass c ref d →
      (fixed ↔ options.fixPackageAccess ∧ (r.graph.classAt d).isInput) →
      (fixed ↔ r.publishedClasses.contains (r.graph.classAt d).name) →
      Verdict options r c ref
        (some (.accessViolation (r.graph.classAt c).name (r.graph.classAt d).name none fixed))
  | ofMember {id : MemberPlace} {fixed : Bool} : r.BreaksMember c ref id →
      (fixed ↔ options.fixPackageAccess ∧ (r.graph.classAt id.owner).isInput) →
      (fixed ↔ r.isPublished id) →
      Verdict options r c ref
        (some (.accessViolation (r.graph.classAt c).name (r.graph.classAt id.owner).name
          (some (r.graph.memberAt id).describe) fixed))
  | sound : (∀ d, ¬ r.BreaksClass c ref d) → (∀ id, ¬ r.BreaksMember c ref id) →
      Verdict options r c ref none

/-- What becomes public, and what is reported, of references across packages. -/
structure AccessReviewed (g : Graph) (options : Options) (r : Decisions) (warnings : List Warning) :
    Prop where
  /-- An input becomes public iff an input refers to it across packages. -/
  classes : options.fixPackageAccess → ∀ d < g.size, (g.classAt d).isInput →
    (r.publishedClasses.contains (g.classAt d).name ↔
      ∃ c ref, (c, ref) ∈ g.inputReferences ∧ r.BreaksClass c ref d)
  /-- A member of an input becomes public iff an input refers across packages to it, or to a method
  of its group that is declared by an input. -/
  members : options.fixPackageAccess → ∀ id, g.Declares id → (g.classAt id.owner).isInput →
    (r.isPublished id ↔ ∃ source, (g.classAt source.owner).isInput ∧
      (∃ c ref, (c, ref) ∈ g.inputReferences ∧ r.BreaksMember c ref source) ∧
      (id = source ∨ ∃ k, (Linkage.ofGraph g options).InGroup k id ∧
        (Linkage.ofGraph g options).InGroup k source))
  unasked : options.fixPackageAccess = false →
    (∀ name, ¬ r.publishedClasses.contains name) ∧ ∀ id, ¬ r.isPublished id
  /-- Behind the warnings on names there is one for each broken reference of an input, in order. -/
  reported : options.examinesAccess → ∃ onNames answers,
    warnings = onNames ++ answers.reduceOption ∧ (∀ w ∈ onNames, w.isOnNames) ∧
      List.Forall₂ (fun x answer => r.Verdict options x.1 x.2 answer) g.inputReferences answers

/-- What is reported of a reference is the verdict on it. -/
theorem verdict_breach? (hg : g.WellNumbered) (hindexed : g.Indexed)
    (h : ofGraph g mappings options = .ok (r, warnings)) {c : ClassPlace} {ref : Reference}
    (href : (c, ref) ∈ g.inputReferences) :
    r.Verdict options c ref ((Draft.breach? r (r.graph.classAt c) ref).map fun b =>
      Draft.breachWarning options r.graph ((r.graph.classAt c).name, b)) := by
  have hgraph : r.graph = g := (retreats_of_ofGraph h).graph
  have hindexed' : r.graph.Indexed := hgraph ▸ hindexed
  cases hbreach : Draft.breach? r (r.graph.classAt c) ref with
  | none =>
    refine .sound (fun d hbreaks => ?_) fun id hbreaks => ?_
    · cases hbreach.symm.trans (breach?_eq_ofClass.2 ⟨d, hbreaks, rfl⟩)
    · cases hbreach.symm.trans ((breach?_eq_ofMember hindexed').2 hbreaks)
  | some b =>
    cases b with
    | ofClass name =>
      obtain ⟨d, hbreaks, rfl⟩ := breach?_eq_ofClass.1 hbreach
      have hfixed : Draft.mends options r.graph (.ofClass (r.graph.classAt d).name) ↔
          options.fixPackageAccess ∧ (r.graph.classAt d).isInput := by
        simp [Draft.mends, Graph.classNamed?, hbreaks.place? hindexed']
      refine .ofClass hbreaks hfixed (hfixed.trans ?_)
      rw [contains_publishedClasses_iff hindexed h, hgraph]
      constructor
      · rintro ⟨hfix, hinput⟩
        exact ⟨hfix, c, ref, d, href, hbreaks, hinput, rfl⟩
      · rintro ⟨hfix, c', ref', d', -, hbreaks', hinput, hname⟩
        -- One class is found by the name, so the other reference leads to the same.
        have hplace := hbreaks'.place? hindexed'
        rw [hgraph, hname, ← hgraph, hbreaks.place? hindexed'] at hplace
        obtain rfl := Option.some.inj hplace
        exact ⟨hfix, hinput⟩
    | ofMember id =>
      have hbreaks := (breach?_eq_ofMember hindexed').1 hbreach
      have hid : g.Declares id := by
        obtain ⟨kind, key, -, hfound⟩ := hbreaks.refers
        rw [hgraph] at hfound
        exact Graph.declares_of_lookUpMember hfound
      have hfixed : Draft.mends options r.graph (.ofMember id) ↔
          options.fixPackageAccess ∧ (r.graph.classAt id.owner).isInput := by
        simp [Draft.mends]
      refine .ofMember hbreaks hfixed (hfixed.trans ?_)
      rw [isPublished_iff hg hindexed h hid, hgraph]
      constructor
      · rintro ⟨hfix, hinput⟩
        exact ⟨hfix, hinput, id, hinput, ⟨c, ref, href, hbreaks⟩, .inl rfl⟩
      · rintro ⟨hfix, hinput, -⟩
        exact ⟨hfix, hinput⟩

/-- Where access is reviewed, each reference of an input gets its verdict, in order. -/
theorem exists_verdicts (hg : g.WellNumbered) (hindexed : g.Indexed)
    (h : ofGraph g mappings options = .ok (r, warnings)) (hexamines : options.examinesAccess) :
    ∃ onNames answers, warnings = onNames ++ answers.reduceOption ∧
      (∀ w ∈ onNames, w.isOnNames) ∧
      List.Forall₂ (fun x answer => r.Verdict options x.1 x.2 answer) g.inputReferences answers := by
  have hgraph : r.graph = g := (retreats_of_ofGraph h).graph
  have hverdict := fun (x : ClassPlace × Reference) (href : x ∈ g.inputReferences) =>
    verdict_breach? hg hindexed h href
  -- The review starts from the settled draft, whose reports are all on names.
  obtain ⟨d, rfl, rfl, hreviewed⟩ := exists_reviewed h
  rw [if_pos hexamines] at hreviewed
  refine ⟨(Draft.settled g mappings options).reported.reverse, g.inputReferences.map _, ?_,
    fun w hw => ?_, List.forall₂_map_right_iff.2 (List.forall₂_same.2 hverdict)⟩
  · rw [Draft.warnings, hreviewed.reported, List.reverse_append, List.reverse_reverse, breaches_eq,
      List.map_filterMap, List.reduceOption, List.filterMap_map, ← hreviewed.graph, hgraph]
    simp only [Option.map_map]
    rfl
  · exact (Draft.namesOnly_settled g mappings options).reported w (List.mem_reverse.1 hw)

/-- Inputs and their members become public iff inputs refer to them across packages, as far as that
is asked for, and each broken reference of an input is reported once. -/
theorem accessReviewed_of_ofGraph {shapes : List ClassShape}
    (h : ofGraph (.ofShapes shapes) mappings options = .ok (r, warnings)) :
    r.AccessReviewed (.ofShapes shapes) options warnings := by
  have hg := Graph.wellNumbered_ofShapes shapes
  have hindexed := Graph.indexed_ofShapes shapes
  generalize Graph.ofShapes shapes = g at hg hindexed h
  have hgraph : r.graph = g := (retreats_of_ofGraph h).graph
  have hclasses := contains_publishedClasses_iff hindexed h
  refine ⟨fun hfix d hd hinput => ?_, fun hfix id hid hinput => ?_, fun hfix => ⟨?_, ?_⟩,
    exists_verdicts hg hindexed h⟩
  · rw [hclasses, and_iff_right hfix]
    constructor
    · rintro ⟨c, ref, d', href, hbreaks, hinput', hname⟩
      have hd' : d' < g.size := (hindexed _ _ (hgraph ▸ hbreaks.place? (hgraph ▸ hindexed))).1
      -- Inputs with one name are one.
      have heq : d' = d := by
        by_contra hne
        have hdistinct := (Distinct.of_ofGraph h).classes d' d
        rw [hgraph] at hdistinct
        exact hdistinct hd' hd hne (.inl (of_decide_eq_true hinput'))
          (.inl (of_decide_eq_true hinput)) (by rw [hname])
      exact ⟨c, ref, href, heq ▸ hbreaks⟩
    · rintro ⟨c, ref, href, hbreaks⟩
      exact ⟨c, ref, d, href, hbreaks, hinput, rfl⟩
  · rw [isPublished_iff hg hindexed h hid, and_iff_right hfix, and_iff_right hinput]
  · intro name hname
    have hfix' := ((hclasses name).1 hname).1
    rw [hfix] at hfix'
    cases hfix'
  · intro id hid
    have hfix' := ((contains_publishedMembers_iff hindexed h _).1 hid).1
    rw [hfix] at hfix'
    cases hfix'

/-! ### A class that leaves its package -/

/-- A class that calls another one of its package. -/
def callerShape : ClassShape :=
  { name := "p/A", access := .onlyPublic, origin := .input
    references := [.ofClass "p/B", .ofMember .method ⟨"p/B", "run", "()V"⟩] }

/-- A class that only its package may use, with one method. -/
def calleeShape : ClassShape :=
  { name := "p/B", access := ⟨0⟩, origin := .input
    members := #[{ kind := .method, name := "run", desc := "()V", access := ⟨0⟩ }] }

/-- The mappings put the second class into another package. -/
def leaving : Mapping.Renames where
  classes := .ofList [("p/B", "q/B")]

/-- Only the callee moves to another package. -/
theorem mapClass_leaving : leaving.mapClass "p/A" = none ∧ leaving.mapClass "p/B" = some "q/B" := by
  simp [Mapping.Renames.mapClass, leaving, Nested.rename, Nested.answer, Nested.renameOuter]

/-- Nothing collides where the callee moves. -/
theorem harmonious_leaving (options : Options) :
    leaving.Harmonious (.ofShapes [callerShape, calleeShape]) options where
  groups := by
    rintro group - ⟨a, -, b, -, hmapped, -⟩
    simp [Mapping.Renames.methodName, leaving] at hmapped
  classes := by
    have hperm : (Graph.ofShapes [callerShape, calleeShape]).classes.toList.Perm
        [callerShape, calleeShape] := List.mergeSort_perm _ _
    refine (hperm.pairwise_iff fun h hsay hsay' => (h hsay' hsay).symm).2 ?_
    refine List.pairwise_pair.2 fun _ _ => ?_
    rw [Mapping.Renames.className, Mapping.Renames.className, callerShape, calleeShape,
      mapClass_leaving.1, mapClass_leaving.2]
    decide
  members := by
    intro a b ha hb hne howner
    -- No class has two members.
    have hsize :
        ((Graph.ofShapes [callerShape, calleeShape]).classAt a.owner).members.size ≤ 1 := by
      have hmem := Graph.classAt_mem ha.owner_lt
      rcases List.mem_pair.1 hmem with heq | heq
      · rw [heq]
        decide
      · rw [heq]
        decide
    have hindex : a.index = b.index := by
      rw [Graph.Declares] at ha hb
      rw [← howner] at hb
      omega
    cases a
    cases b
    exact absurd (by simp_all) hne

/-- The class and its method become public, for the caller stays behind. -/
theorem accessReviewed_of_ofGraph_leaving : ∃ r warnings,
    ofGraph (.ofShapes [callerShape, calleeShape]) leaving { fixPackageAccess := true } =
      .ok (r, warnings) ∧
    r.publishedClasses.contains "p/B" ∧
    r.publishesMember .method ⟨"p/B", "run", "()V"⟩ := by
  have hg := Graph.wellNumbered_ofShapes [callerShape, calleeShape]
  obtain ⟨⟨r, warnings⟩, h⟩ := (isOk_ofGraph_iff_harmonious hg rfl).2
    (harmonious_leaving { fixPackageAccess := true })
  -- No name is taken back, so the names are the ones that are asked for.
  have hasked := asAsked_of_ofGraph hg h rfl
  have hreviewed := accessReviewed_of_ofGraph h
  have hmem : callerShape ∈ [callerShape, calleeShape] := List.mem_cons_self
  have hmem' : calleeShape ∈ [callerShape, calleeShape] := List.mem_of_getLast? rfl
  obtain ⟨c, hc, hcaller⟩ := Graph.exists_classAt hmem
  obtain ⟨d, hd, hcallee⟩ := Graph.exists_classAt hmem'
  have hplace : (Graph.ofShapes [callerShape, calleeShape]).place? "p/B" = some d := by
    have hnamed := Graph.place?_name (List.pairwise_pair.2 (by decide)) hd
    rwa [hcallee] at hnamed
  have hgraph := hasked.graph
  generalize Graph.ofShapes [callerShape, calleeShape] = g at *
  subst hgraph
  -- The caller stays in `p`, the callee moves to `q`.
  have hparted : r.Parted d c := by
    have hcallerName : r.className "p/A" = "p/A" := by
      rw [className, hasked.mapClass, mapClass_leaving.1]
      rfl
    have hcalleeName : r.className "p/B" = "q/B" := by
      rw [className, hasked.mapClass, mapClass_leaving.2]
      rfl
    rw [Parted, hcaller, hcallee, calleeShape, callerShape, hcallerName, hcalleeName]
    decide
  have href : ∀ ref ∈ callerShape.references, (c, ref) ∈ r.graph.inputReferences := by
    intro ref href
    rw [Graph.mem_inputReferences, hcaller]
    exact ⟨hc, rfl, href⟩
  have hindex : (r.graph.classAt d).memberIndex? .method "run" "()V" = some 0 := by
    rw [hcallee]
    simp [ClassShape.memberIndex?, calleeShape]
  refine ⟨r, warnings, h, ?_, ?_⟩
  · have hpublic := (hreviewed.classes rfl d hd (by rw [hcallee]; rfl)).2
      ⟨c, .ofClass "p/B", href _ (by decide), ⟨_, rfl, hplace⟩, by rw [hcallee]; decide,
        by rw [hcallee]; decide, hparted⟩
    rwa [hcallee] at hpublic
  · have hmember : (r.graph.memberAt ⟨d, 0⟩).access.isPackagePrivate := by
      have hprivate : (⟨0⟩ : Access).isPackagePrivate := by decide
      rwa [Graph.memberAt, hcallee]
    have hother : d ≠ c := by
      rintro rfl
      exact hparted.name_ne rfl
    have hdeclares : r.graph.Declares ⟨d, 0⟩ := by
      rw [Graph.Declares, hcallee]
      exact Nat.zero_lt_one
    have hinput : (r.graph.classAt d).isInput := by rw [hcallee]; rfl
    have hpublic := (hreviewed.members rfl ⟨d, 0⟩ hdeclares hinput).2 ⟨⟨d, 0⟩, hinput,
        ⟨c, _, href (.ofMember .method ⟨"p/B", "run", "()V"⟩) (by decide),
          ⟨_, _, rfl, Graph.lookUpMember_of_place? hplace hindex⟩, hother, hmember, hparted⟩,
        .inl rfl⟩
    simp [publishesMember, hplace, hindex, hpublic]

end Decisions

end Relabel
