import Relabel.Proofs.Renaming.Classes

/-!
# What a relabeled class says

Read through its new pool, every constant of a relabeled class names what the renaming makes of what
it named, and so does every member. A call site keeps its name unless it makes the object of a
lambda expression: then it is called as the interface method it implements.

## Main results

- `Pool.LambdaSite`: the call sites that follow a renaming of methods.
- `ClassFile.Renamed`: how each kind of constant and each member reads before and after.
- `ClassFile.renamed_of_relabel`: a relabeled class is renamed in this sense.
-/

namespace Relabel

/-! ### Call sites -/

/-- A call site with this descriptor makes the object of a lambda expression: its bootstrap method
exists and is a handle on a method of the lambda metafactory, the descriptor has the class `owner`
for its result, and the first static argument is a method type, `sam`. -/
inductive Pool.LambdaSite (p : Pool) (methods : Array BootstrapMethod) (bootstrap : UInt16)
    (desc : String) : (owner sam : String) → Prop
  | intro {method : BootstrapMethod} {kind : UInt8} {reference arg i : UInt16}
    {factory : MemberReference} {types : Descriptor.Method} {owner sam : String} :
    methods[bootstrap.toNat]? = some method →
    p.get? method.handle = some (.methodHandle kind reference) →
    p.memberReference reference = .ok factory →
    factory.owner = Scope.lambdaMetafactory →
    Descriptor.method? desc = some types →
    Descriptor.className? types.result = some owner →
    method.args[0]? = some arg →
    p.get? arg = some (.methodType i) →
    p.utf8 i = .ok sam →
    LambdaSite p methods bootstrap desc owner sam

namespace Scope

variable {s : Scope} {methods : Array BootstrapMethod} {bootstrap : UInt16} {name desc : String}
  {r : Option String}

/-- Where a lambda expression is made, the call site follows its interface method. -/
theorem eq_of_lambdaSite {owner sam : String}
    (hsite : s.source.LambdaSite methods bootstrap desc owner sam)
    (h : s.callSiteName methods[bootstrap.toNat]? name desc = .ok r) :
    r = s.names.mapMethod { owner, name, desc := sam } := by
  obtain ⟨hmethod, hhandle, hfactory, howner, hdesc, hresult, harg, htype, hsam⟩ := hsite
  simp only [callSiteName, hmethod, hhandle, hfactory, hdesc, hresult, samDesc?, harg,
    Option.bind_some, htype, hsam, Except.bind_eq_ok] at h
  obtain ⟨_, ⟨⟩, h⟩ := h
  rw [if_neg (not_not_intro howner)] at h
  exact (Except.ok.inj h).symm

/-- Everywhere else a call site keeps its name. -/
theorem eq_none_of_forall_not_lambdaSite
    (hsite : ∀ owner sam, ¬ s.source.LambdaSite methods bootstrap desc owner sam)
    (h : s.callSiteName methods[bootstrap.toNat]? name desc = .ok r) : r = none := by
  -- A new name is given in one branch only, and there all conditions of a lambda site hold.
  refine Option.eq_none_iff_forall_ne_some.2 fun new hr => ?_
  subst hr
  unfold callSiteName at h
  split at h
  · cases h
  · next method hmethod =>
    split at h
    · next kind reference hhandle =>
      obtain ⟨factory, hfactory, h⟩ := Except.bind_eq_ok.1 h
      split at h
      · cases h
      · next howner =>
        split at h
        · cases h
        · next owner hresult =>
          obtain ⟨types, hdesc, hresult⟩ := Option.bind_eq_some_iff.1 hresult
          obtain ⟨sam, hsam, h⟩ := Except.bind_eq_ok.1 h
          unfold samDesc? at hsam
          split at hsam
          · next i harg =>
            obtain ⟨arg, harg, htype⟩ := Option.bind_eq_some_iff.1 harg
            obtain ⟨text, htext, -⟩ := Except.map_eq_ok.1 hsam
            exact hsite owner text ⟨hmethod, hhandle, hfactory, Decidable.not_not.1 howner, hdesc,
              hresult, harg, htype, htext⟩
          · obtain rfl := Except.ok.inj hsam
            cases h
    · cases h

end Scope

/-! ### Classes -/

namespace ClassFile

/-- `c'` is `c` under a renaming, given the name of `c` and its bootstrap methods, as the pools of
the two read. -/
structure Renamed (names : Renaming) (thisName : String) (bootstraps : Array BootstrapMethod)
    (c c' : ClassFile) : Prop where
  classes : ∀ i n, c.pool.get? i = some (.ofClass n) →
    ∃ old, c.pool.className i = .ok old ∧
      c'.pool.className i = .ok ((names.mapReference old).getD old)
  references : ∀ i kind owner n, c.pool.get? i = some (.member kind owner n) →
    ∃ ref, c.pool.memberReference i = .ok ref ∧ ref.kind = kind ∧
      c'.pool.memberReference i = .ok
        { kind
          owner := (names.mapReference ref.owner).getD ref.owner
          name := (names.mapMember kind.member
            { owner := ref.owner, name := ref.name, desc := ref.desc }).getD ref.name
          desc := names.mapDescriptor ref.desc }
  methodTypes : ∀ i d, c.pool.get? i = some (.methodType d) →
    ∃ d' old, c.pool.utf8 d = .ok old ∧ c'.pool.get? i = some (.methodType d') ∧
      c'.pool.utf8 d' = .ok (names.mapDescriptor old)
  dynamics : ∀ i bootstrap n, c.pool.get? i = some (.dynamic bootstrap n) →
    ∃ n' name desc, c.pool.nameAndType n = .ok (name, desc) ∧
      c'.pool.get? i = some (.dynamic bootstrap n') ∧
      c'.pool.nameAndType n' = .ok (name, names.mapDescriptor desc)
  callSites : ∀ i bootstrap n, c.pool.get? i = some (.invokeDynamic bootstrap n) →
    ∃ n' name desc name', c.pool.nameAndType n = .ok (name, desc) ∧
      c'.pool.get? i = some (.invokeDynamic bootstrap n') ∧
      c'.pool.nameAndType n' = .ok (name', names.mapDescriptor desc) ∧
      (∀ owner sam, c.pool.LambdaSite bootstraps bootstrap desc owner sam →
        name' = (names.mapMethod { owner, name, desc := sam }).getD name) ∧
      ((∀ owner sam, ¬ c.pool.LambdaSite bootstraps bootstrap desc owner sam) → name' = name)
  fields : List.Forall₂ (MemberInfo.Renamed names thisName .field c.pool c'.pool)
    c.fields.toList c'.fields.toList
  methods : List.Forall₂ (MemberInfo.Renamed names thisName .method c.pool c'.pool)
    c.methods.toList c'.methods.toList

variable {names : Renaming} {settings : RelabelSettings} {c c' : ClassFile}

/-- A relabeled class whose slots have indices is renamed: each of its constants and members reads
as what the renaming makes of it. -/
theorem renamed_of_relabel {data : Bytes} (hdecode : decode data = .ok c)
    (hsize : c.pool.size ≤ 65536) (h : c.relabel names settings = .ok c') :
    ∃ thisName bootstraps, c.name = .ok thisName ∧ c.bootstrapMethods = .ok bootstraps ∧
      c.Renamed names thisName bootstraps c' := by
  have hcoherent := coherent_of_decode hdecode hsize
  obtain ⟨thisName, bootstraps, hname, hbootstraps, hbecomes⟩ := relabel_becomes hcoherent h
  have hfinished := hbecomes.finished
  refine ⟨thisName, bootstraps, hname, hbootstraps, ?_⟩
  exact
    { classes := fun _ _ hi => hfinished.ofClass hi
      references := fun _ _ _ _ hi => hfinished.member hi
      methodTypes := fun _ _ hi => hfinished.methodType hi
      dynamics := fun _ _ _ hi => hfinished.dynamic hi
      callSites := fun _ _ _ hi => by
        obtain ⟨n', name, desc, newName, hold, hget, hsite, hnew⟩ := hfinished.invokeDynamic hi
        refine ⟨n', name, desc, newName.getD name, hold, hget, hnew, ?_, ?_⟩
        · intro owner sam hlambda
          rw [Scope.eq_of_lambdaSite hlambda hsite]
          rfl
        · intro hnone
          rw [Scope.eq_none_of_forall_not_lambdaSite hnone hsite]
          rfl
      fields := hbecomes.fields
      methods := hbecomes.methods }

/-- The smallest class under a new name. -/
theorem renamed_of_relabel_lone :
    decode loneBytes = .ok lone ∧ lone.pool.size ≤ 65536 ∧
      ∃ c', lone.relabel toB {} = .ok c' ∧
        ∃ thisName bootstraps, lone.name = .ok thisName ∧
          lone.bootstrapMethods = .ok bootstraps ∧ lone.Renamed toB thisName bootstraps c' := by
  obtain ⟨c', hc'⟩ := exists_relabel_lone
  exact ⟨decode_loneBytes, by decide, c', hc',
    renamed_of_relabel decode_loneBytes (by decide) hc'⟩

end ClassFile

end Relabel
