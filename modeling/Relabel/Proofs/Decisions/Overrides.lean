import Relabel.Proofs.Decisions.Propagation

/-!
# Overriding after renaming

Clashes are looked for among the members of one input at a time. A method can therefore get the name
of one that its class inherits, and so come to override it. Where bridges are not followed, that
happens only out of sight of the search: two methods that get one name had one before, unless no
input declares a method linked with the one beside a method linked with the other.

## Main results

- `Linkage.sameKey_of_linked`: without bridges, all linked methods have one name and descriptor.
- `Decisions.sameKey_of_linked_beside`: methods that meet in one input are told apart.
- `Decisions.sameKey_or_captured_of_ofGraph`: what a new override takes.
- `Decisions.exists_new_override`: there are new overrides.
-/

namespace Relabel

open Relation (EqvGen)

namespace Linkage

variable {g : Graph} {options : Options} {a b c : MemberPlace}

theorem SameKey.symm (h : SameKey g a b) : SameKey g b a :=
  ⟨h.name_eq.symm, h.desc_eq.symm⟩

theorem SameKey.trans (h : SameKey g a b) (h' : SameKey g b c) : SameKey g a c :=
  ⟨h.name_eq.trans h'.name_eq, h.desc_eq.trans h'.desc_eq⟩

/-- Where bridges are not followed, only overriding links methods. -/
theorem Edge.sameKey (hpolicy : options.propagateBridges = .disabled) (h : Edge g options a b) :
    SameKey g a b := by
  cases h with
  | override _ _ _ _ _ same => exact same
  | bridges _ _ _ _ _ same => exact same
  | target _ _ _ _ _ follows =>
    cases follows with
    | always policy => rw [hpolicy] at policy; cases policy
    | erased policy => rw [hpolicy] at policy; cases policy

/-- Without bridges linked members have one key. -/
theorem sameKey_of_linked (hpolicy : options.propagateBridges = .disabled)
    (h : EqvGen (Edge g options) a b) : SameKey g a b := by
  induction h with
  | rel a b hedge => exact hedge.sameKey hpolicy
  | refl a => exact ⟨rfl, rfl⟩
  | symm a b _ ih => exact ih.symm
  | trans a b c _ _ ih ih' => exact ih.trans ih'

/-- Both ends of an edge take part. -/
theorem Edge.taking (h : Edge g options a b) : Taking g options a ∧ Taking g options b := by
  cases h with
  | override _ left right => exact ⟨left, right⟩
  | bridges _ left right => exact ⟨left, right⟩
  | target left right => exact ⟨left, right⟩

/-- A member that takes no part is linked with itself only. -/
theorem eq_or_taking_of_linked (h : EqvGen (Edge g options) a b) :
    a = b ∨ Taking g options a ∧ Taking g options b := by
  induction h with
  | rel a b hedge => exact .inr hedge.taking
  | refl a => exact .inl rfl
  | symm a b _ ih => exact ih.imp Eq.symm And.symm
  | trans a b c _ _ ih ih' =>
    rcases ih with rfl | ⟨ha, hb⟩
    · exact ih'
    · rcases ih' with rfl | ⟨-, hc⟩
      · exact .inr ⟨ha, hb⟩
      · exact .inr ⟨ha, hc⟩

end Linkage

namespace Decisions

open Linkage (Taking SameKey Edge)

variable {g : Graph} {mappings : Mapping.Renames} {options : Options} {r : Decisions}
  {warnings : List Warning} {a b m m' : MemberPlace}

/-- A method that a subclass can override: no constructor, and neither static nor private. -/
structure Overridable (g : Graph) (id : MemberPlace) : Prop where
  declared : g.Declares id
  isMethod : (g.memberAt id).kind = .method
  ne_init : (g.memberAt id).name ≠ "<init>"
  not_static : ¬ (g.memberAt id).access.isStatic
  not_private : ¬ (g.memberAt id).access.isPrivate

/-- A method with the name and descriptor of one that takes part takes part itself. -/
theorem Overridable.taking (ha : Overridable g a) (hm : Taking g options m)
    (hkey : SameKey g m a) : Taking g options a := by
  have hclinit := hm.groupable.ne_clinit
  rw [hkey.name_eq] at hclinit
  refine ⟨ha.declared, ?_⟩
  simp [Linkage.takesPart, MemberShape.isMethod, MemberShape.isInitializer, ha.isMethod,
    ha.ne_init, hclinit, ha.not_static, ha.not_private]

/-- Where bridges are not followed, linked methods have one name and descriptor afterwards. -/
theorem memberAfter_eq_of_policy (hg : g.WellNumbered)
    (h : ofGraph g mappings options = .ok (r, warnings))
    (hpolicy : options.propagateBridges = .disabled) (hlinked : EqvGen (Edge g options) a b) :
    r.memberAfter a = r.memberAfter b := by
  rcases Linkage.eq_or_taking_of_linked hlinked with rfl | ⟨ha, hb⟩
  · rfl
  · exact memberAfter_eq_of_linked hg h ha hb hlinked (Linkage.sameKey_of_linked hpolicy hlinked)

/-- Methods with one name and descriptor afterwards had them before, where an input declares methods
that are linked with them. -/
theorem sameKey_of_linked_beside (hg : g.WellNumbered)
    (h : ofGraph g mappings options = .ok (r, warnings))
    (hpolicy : options.propagateBridges = .disabled) (hb : Overridable g b) (ha : Overridable g a)
    (hafter : r.memberAfter b = r.memberAfter a) (hm : EqvGen (Edge g options) m b)
    (hm' : EqvGen (Edge g options) m' a) (howner : m.owner = m'.owner)
    (hinput : (g.classAt m.owner).origin = .input) : SameKey g b a := by
  have hgraph : r.graph = g := (retreats_of_ofGraph h).graph
  have hmethod : ∀ {id id'}, Overridable g id → EqvGen (Edge g options) id' id →
      g.Declares id' ∧ (g.memberAt id').kind = .method := by
    intro id id' hid hlinked
    rcases Linkage.eq_or_taking_of_linked hlinked with rfl | ⟨htaking, -⟩
    · exact ⟨hid.declared, hid.isMethod⟩
    · exact ⟨htaking.declared, htaking.groupable.isMethod⟩
  obtain ⟨hdeclared, hkind⟩ := hmethod hb hm
  obtain ⟨hdeclared', hkind'⟩ := hmethod ha hm'
  -- The two in one class get one name, so they are one method, and that is linked with both.
  have hsame : m = m' := by
    by_contra hne
    refine (Distinct.of_ofGraph h).members m m' ?_ ?_ hne howner ?_ ?_ ?_
    · rwa [hgraph]
    · rwa [hgraph]
    · rwa [hgraph]
    · rw [hgraph, hkind, hkind']
    · calc r.memberAfter m = r.memberAfter b := memberAfter_eq_of_policy hg h hpolicy hm
        _ = r.memberAfter a := hafter
        _ = r.memberAfter m' := (memberAfter_eq_of_policy hg h hpolicy hm').symm
  subst hsame
  exact Linkage.sameKey_of_linked hpolicy (.trans _ _ _ (.symm _ _ hm) hm')

/-- A method `b` gets the name and descriptor of a method `a` of a supertype out of sight of the
search for clashes. -/
structure Captured (g : Graph) (options : Options) (r : Decisions) (b a : MemberPlace) : Prop where
  /-- One of the two has a new name or descriptor. -/
  changed : r.memberAfter b ≠ ((g.memberAt b).name, (g.memberAt b).desc) ∨
    r.memberAfter a ≠ ((g.memberAt a).name, (g.memberAt a).desc)
  /-- The class of `b` has no method of its own in the place of `a`. -/
  inherited : ∀ m, Taking g options m → m.owner = b.owner → ¬ SameKey g m a
  /-- No input declares a method linked with `b` beside one linked with `a`. -/
  apart : ∀ m m', EqvGen (Edge g options) m b → EqvGen (Edge g options) m' a →
    m.owner = m'.owner → (g.classAt m.owner).origin ≠ .input

/-- Where bridges are not followed, a method of an input has the name and descriptor of a method of
a supertype only if it had them before, or if no class shows the two together. -/
theorem sameKey_or_captured_of_ofGraph {shapes : List ClassShape}
    (h : ofGraph (.ofShapes shapes) mappings options = .ok (r, warnings))
    (hpolicy : options.propagateBridges = .disabled)
    (hb : Overridable (.ofShapes shapes) b)
    (hinput : ((Graph.ofShapes shapes).classAt b.owner).origin = .input)
    (ha : Overridable (.ofShapes shapes) a)
    (habove : a.owner ∈ (Graph.ofShapes shapes).ancestorsOf b.owner)
    (hafter : r.memberAfter b = r.memberAfter a) :
    SameKey (.ofShapes shapes) b a ∨ Captured (.ofShapes shapes) options r b a := by
  have hg := Graph.wellNumbered_ofShapes shapes
  generalize Graph.ofShapes shapes = g at *
  refine or_iff_not_imp_left.2 fun hnew => ?_
  have hapart : ∀ m m', EqvGen (Edge g options) m b → EqvGen (Edge g options) m' a →
      m.owner = m'.owner → (g.classAt m.owner).origin ≠ .input :=
    fun m m' hm hm' howner hinput =>
      hnew (sameKey_of_linked_beside hg h hpolicy hb ha hafter hm hm' howner hinput)
  refine ⟨?_, fun m hm howner hkey => ?_, hapart⟩
  -- Had both kept what they had, they would have agreed before.
  · refine not_and_or.1 fun ⟨hkept, hkept'⟩ => hnew ?_
    rw [hkept, hkept', Prod.mk.injEq] at hafter
    exact ⟨hafter.1, hafter.2⟩
  · -- A method in the place of `a` is linked with it, and stands beside `b`.
    have hedge : Edge g options m a := by
      refine .override hb.declared.owner_lt hm (ha.taking hm hkey) ?_ ?_ hkey
      · rw [howner]
        exact List.mem_cons_self
      · exact List.mem_cons_of_mem _ habove
    exact hapart b m (.refl b) (.rel m a hedge) howner.symm hinput

/-- `stop` of `A` and `halt` of `B`, which gets its name. -/
private theorem overridable_kinship :
    Overridable kinship ⟨1, 1⟩ ∧ Overridable kinship ⟨0, 1⟩ :=
  ⟨⟨Nat.one_lt_two, rfl, by decide, by decide, by decide⟩,
    ⟨Nat.one_lt_two, rfl, by decide, by decide, by decide⟩⟩

private theorem not_sameKey_kinship : ¬ SameKey kinship ⟨1, 1⟩ ⟨0, 1⟩ := by
  intro h
  exact absurd h.name_eq (by decide)

/-- `halt` gets the name of `stop` out of sight of the search: `B` has no method `stop`. -/
theorem sameKey_or_captured_of_ofGraph_kinship :
    ofGraph (.ofShapes [parentShape, childShape]) capturing {} = .ok (kinshipDecisions, []) ∧
      kinshipDecisions.memberAfter ⟨1, 1⟩ = kinshipDecisions.memberAfter ⟨0, 1⟩ ∧
      Captured (.ofShapes [parentShape, childShape]) {} kinshipDecisions ⟨1, 1⟩ ⟨0, 1⟩ := by
  refine ⟨ofGraph_kinship, rfl, ?_⟩
  have hor := @sameKey_or_captured_of_ofGraph capturing {} kinshipDecisions [] ⟨0, 1⟩ ⟨1, 1⟩
    [parentShape, childShape] ofGraph_kinship rfl
  rw [ofShapes_kinship] at hor ⊢
  obtain ⟨hhalt, hstop⟩ := overridable_kinship
  exact (hor hhalt rfl hstop (by decide) rfl).resolve_left not_sameKey_kinship

/-- A method comes to override one that it did not override before. -/
theorem exists_new_override : ∃ (shapes : List ClassShape) (mappings : Mapping.Renames)
    (options : Options) (r : Decisions) (warnings : List Warning) (b a : MemberPlace),
    ofGraph (.ofShapes shapes) mappings options = .ok (r, warnings) ∧
      options.propagateBridges = .disabled ∧ Overridable (.ofShapes shapes) b ∧
      ((Graph.ofShapes shapes).classAt b.owner).origin = .input ∧
      Overridable (.ofShapes shapes) a ∧
      a.owner ∈ (Graph.ofShapes shapes).ancestorsOf b.owner ∧
      r.memberAfter b = r.memberAfter a ∧ ¬ SameKey (.ofShapes shapes) b a := by
  refine ⟨[parentShape, childShape], capturing, {}, kinshipDecisions, [], ⟨1, 1⟩, ⟨0, 1⟩,
    ofGraph_kinship, rfl, ?_⟩
  rw [ofShapes_kinship]
  obtain ⟨hhalt, hstop⟩ := overridable_kinship
  exact ⟨hhalt, rfl, hstop, by decide, rfl, not_sameKey_kinship⟩

end Decisions

end Relabel
