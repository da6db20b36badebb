import Relabel.Proofs.ClassFile.Decoding
import Relabel.Proofs.Renaming.Constants
import Relabel.Proofs.Renaming.Payloads

/-!
# A relabeled class in its parts

A relabeling first points the constants of the pool at their new names, then renames the members and
attributes. Only searches follow the first step, so what the constants became lasts to the end, and
so does what is read through an index that was handed out on the way.

## Main results

- `Scope.Finished.ofClass`, `Scope.Finished.member` and so on: how the constants read at the end.
- `Scope.Ready.forall₂_mapM`: what one step does to a value, a list of steps does to each value.
- `ClassFile.relabel_ok`: the parts of a successful relabeling.
-/

namespace Relabel

/-- A member of a class under its new name, type and visibility, as the pools before and after
read. -/
def MemberInfo.Renamed (names : Renaming) (owner : String) (kind : MemberKind) (p p' : Pool)
    (m m' : MemberInfo) : Prop :=
  ∃ name desc, m.name p = .ok name ∧ m.desc p = .ok desc ∧
    m'.name p' = .ok ((names.mapMember kind { owner, name, desc }).getD name) ∧
    m'.desc p' = .ok (names.mapDescriptor desc) ∧
    m'.access = if names.publishesMember kind { owner, name, desc } then
      m.access.withVisibility .everyone else m.access

namespace Scope

open Pool

variable {s : Scope} {methods : Array BootstrapMethod} {p q : Pool}

/-! ### The pool at the end -/

/-- All constants of the source are what they become, with names behind them. -/
def Finished (s : Scope) (methods : Array BootstrapMethod) (q : Pool) : Prop :=
  ∃ k, s.source.size ≤ k ∧ s.Halfway methods k q

namespace Finished

/-- A pool with all constants rewritten is ready for what comes after them. -/
theorem ready (h : s.Finished methods q) : s.Ready q := by
  obtain ⟨k, -, hhalf⟩ := h
  exact hhalf.ready

/-- Names behind the constants do not undo them. -/
theorem of_interns (h : s.Finished methods p) (hpq : p.Interns q) : s.Finished methods q := by
  obtain ⟨k, hk, hhalf⟩ := h
  obtain ⟨hq, hext⟩ := hpq.coherent hhalf.coherent
  exact ⟨k, hk, hhalf.of_extends hq hext⟩

/-- Every constant of the source stands in its slot as what it becomes. -/
theorem becomes (h : s.Finished methods q) {i : Nat} {c : Constant}
    (hi : s.source.slots[i]? = some c) :
    ∃ c', q.slots[i]? = some c' ∧ s.Becomes methods q c c' := by
  obtain ⟨k, hk, hhalf⟩ := h
  exact hhalf.done i c (Nat.lt_of_lt_of_le (lt_size_of_getElem? hi) hk) hi

/-- A slot behind those of the source holds a name that stands nowhere else. -/
theorem added (h : s.Finished methods q) {i : Nat} {c : Constant} (hi : s.source.size ≤ i)
    (hc : q.slots[i]? = some c) : c.isName ∧ ∀ j : Nat, q.slots[j]? = some c → j = i := by
  obtain ⟨k, -, hhalf⟩ := h
  exact hhalf.added i c hi hc

/-- A class constant reads as the new form of its name. -/
theorem ofClass (h : s.Finished methods q) {i n : UInt16}
    (hi : s.source.get? i = some (.ofClass n)) :
    ∃ old, s.source.className i = .ok old ∧
      q.className i = .ok ((s.names.mapReference old).getD old) := by
  obtain ⟨c', hc', hbecomes⟩ := h.becomes hi
  cases hbecomes with
  | ofClass hold hnew =>
    exact ⟨_, className_eq_ok.2 ⟨n, hi, hold⟩, className_eq_ok.2 ⟨_, hc', hnew⟩⟩
  | stays hc => cases hc

/-- The name of a class reads as its new form. -/
theorem className (h : s.Finished methods q) {i : UInt16} {old : String}
    (hi : s.source.className i = .ok old) :
    q.className i = .ok ((s.names.mapReference old).getD old) := by
  obtain ⟨n, hget, -⟩ := className_eq_ok.1 hi
  obtain ⟨old', hold, hnew⟩ := h.ofClass hget
  obtain rfl := Except.ok.inj (hi.symm.trans hold)
  exact hnew

/-- A member reference keeps its kind and reads as the new forms of its owner, name and
descriptor. -/
theorem member (h : s.Finished methods q) {i owner names : UInt16} {kind : ReferenceKind}
    (hi : s.source.get? i = some (.member kind owner names)) :
    ∃ ref, s.source.memberReference i = .ok ref ∧ ref.kind = kind ∧
      q.memberReference i = .ok
        { kind
          owner := (s.names.mapReference ref.owner).getD ref.owner
          name := s.newMemberName kind ref.owner ref.name ref.desc
          desc := s.names.mapDescriptor ref.desc } := by
  obtain ⟨c', hc', hbecomes⟩ := h.becomes hi
  cases hbecomes with
  | @member _ _ _ _ ownerName name desc howner hnames hnew =>
    have href : s.source.memberReference i = .ok ⟨kind, ownerName, name, desc⟩ :=
      memberReference_eq_ok.2 ⟨owner, names, hi, hnames, howner⟩
    refine ⟨_, href, rfl, ?_⟩
    exact memberReference_eq_ok.2 ⟨owner, _, hc', hnew, h.className howner⟩
  | stays hc => cases hc

/-- A reference to a member reads as one to the new owner, name and type. -/
theorem memberReference (h : s.Finished methods q) {i : UInt16} {ref : MemberReference}
    (hi : s.source.memberReference i = .ok ref) :
    q.memberReference i = .ok
      { kind := ref.kind
        owner := (s.names.mapReference ref.owner).getD ref.owner
        name := s.newMemberName ref.kind ref.owner ref.name ref.desc
        desc := s.names.mapDescriptor ref.desc } := by
  obtain ⟨owner, names, hget, -⟩ := memberReference_eq_ok.1 hi
  obtain ⟨ref', href', hkind, hnew⟩ := h.member hget
  obtain rfl := Except.ok.inj (hi.symm.trans href')
  exact hnew

/-- A method type reads as the new form of its descriptor. -/
theorem methodType (h : s.Finished methods q) {i d : UInt16}
    (hi : s.source.get? i = some (.methodType d)) :
    ∃ d' old, s.source.utf8 d = .ok old ∧ q.get? i = some (.methodType d') ∧
      q.utf8 d' = .ok (s.names.mapDescriptor old) := by
  obtain ⟨c', hc', hbecomes⟩ := h.becomes hi
  cases hbecomes with
  | methodType hold hnew => exact ⟨_, _, hold, hc', hnew⟩
  | stays hc => cases hc

/-- A dynamic constant keeps its name and reads as the new form of its descriptor. -/
theorem dynamic (h : s.Finished methods q) {i bootstrap n : UInt16}
    (hi : s.source.get? i = some (.dynamic bootstrap n)) :
    ∃ n' name desc, s.source.nameAndType n = .ok (name, desc) ∧
      q.get? i = some (.dynamic bootstrap n') ∧
      q.nameAndType n' = .ok (name, s.names.mapDescriptor desc) := by
  obtain ⟨c', hc', hbecomes⟩ := h.becomes hi
  cases hbecomes with
  | dynamic hold hnew => exact ⟨_, _, _, hold, hc', hnew⟩
  | stays hc => cases hc

/-- A call site reads as the name it is given, if any, and the new form of its descriptor. -/
theorem invokeDynamic (h : s.Finished methods q) {i bootstrap n : UInt16}
    (hi : s.source.get? i = some (.invokeDynamic bootstrap n)) :
    ∃ n' name desc newName, s.source.nameAndType n = .ok (name, desc) ∧
      q.get? i = some (.invokeDynamic bootstrap n') ∧
      s.callSiteName methods[bootstrap.toNat]? name desc = .ok newName ∧
      q.nameAndType n' = .ok (newName.getD name, s.names.mapDescriptor desc) := by
  obtain ⟨c', hc', hbecomes⟩ := h.becomes hi
  cases hbecomes with
  | invokeDynamic hold hsite hnew => exact ⟨_, _, _, _, hold, hc', hsite, hnew⟩
  | stays hc => cases hc

end Finished

/-! ### Lists of steps -/

variable {α β : Type}

/-- What a step gives for a value, a list of steps gives for each of its values: `I` holds before
every step, and what `F` says of the pool after all steps holds after each of them. -/
theorem forall₂_listMapM {I F : Pool → Prop} {act : α → PoolM β} {R : α → β → Prop}
    {values : List α} {results : List β} (hI : ∀ {p q}, I p → p.Interns q → I q)
    (hF : ∀ {p q}, I p → p.Interns q → F q → F p)
    (hinterns : ∀ a ∈ values, OnlyInterns (act a))
    (hstep : ∀ a ∈ values, ∀ p b q, I p → act a p = .ok b q → F q → R a b) (hp : I p)
    (h : values.mapM act p = .ok results q) (hfinal : F q) : List.Forall₂ R values results := by
  induction values generalizing p results with
  | nil =>
    obtain ⟨rfl, -⟩ := EStateM.pure_eq_ok.1 h
    exact .nil
  | cons a rest ih =>
    simp only [List.mapM_cons, EStateM.bind_eq_ok, EStateM.pure_eq_ok] at h
    obtain ⟨b, p₁, hb, bs, _, hbs, rfl, rfl⟩ := h
    have hrest : ∀ a' ∈ rest, OnlyInterns (act a') :=
      fun a' ha' => hinterns a' (List.mem_cons_of_mem _ ha')
    -- What the first step gave is read in the last pool, so the other steps must not undo it.
    have hp₁ := hI hp (hinterns a List.mem_cons_self p b p₁ hb)
    have hfinal₁ := hF hp₁ (OnlyInterns.listMapM hrest p₁ bs _ hbs) hfinal
    refine .cons (hstep a List.mem_cons_self p b p₁ hp hb hfinal₁) ?_
    exact ih hrest (fun a' ha' => hstep a' (List.mem_cons_of_mem _ ha')) hp₁ hbs

/-- A table is rewritten entry by entry where each entry is. -/
theorem forall₂_arrayMapM {I F : Pool → Prop} {act : α → PoolM β} {R : α → β → Prop}
    {values : Array α} {results : Array β} (hI : ∀ {p q}, I p → p.Interns q → I q)
    (hF : ∀ {p q}, I p → p.Interns q → F q → F p)
    (hinterns : ∀ a ∈ values, OnlyInterns (act a))
    (hstep : ∀ a ∈ values, ∀ p b q, I p → act a p = .ok b q → F q → R a b) (hp : I p)
    (h : values.mapM act p = .ok results q) (hfinal : F q) :
    List.Forall₂ R values.toList results.toList := by
  rw [Array.mapM_eq_mapM_toList] at h
  obtain ⟨list, hlist, rfl⟩ := EStateM.map_eq_ok.1 h
  exact forall₂_listMapM hI hF (fun a ha => hinterns a (Array.mem_toList_iff.1 ha))
    (fun a ha => hstep a (Array.mem_toList_iff.1 ha)) hp hlist hfinal

/-- A pool stays ready while names are put behind it. -/
theorem Ready.of_interns (hp : s.Ready p) (h : p.Interns q) : s.Ready q :=
  hp.of_extends (h.coherent hp.coherent).1 (h.coherent hp.coherent).2

/-- The entries of a table are rewritten one by one into any later pool. -/
theorem Ready.forall₂_mapM {act : α → PoolM β} {R : α → β → Prop} {values : Array α}
    {results : Array β} {final : Pool} (hinterns : ∀ a ∈ values, OnlyInterns (act a))
    (hstep : ∀ a ∈ values, ∀ p b q, s.Ready p → act a p = .ok b q → q.Extends final → R a b)
    (hp : s.Ready p) (h : values.mapM act p = .ok results q) (hfinal : q.Extends final) :
    List.Forall₂ R values.toList results.toList := by
  exact forall₂_arrayMapM .of_interns (fun hp h hq => (h.coherent hp.coherent).2.trans hq)
    hinterns hstep hp h hfinal

/-! ### Members -/

/-- A member is renamed before its attributes are. Those of a method see its parameters where local
variables are renamed. -/
theorem Ready.renameMember {kind : MemberKind} {m m' : MemberInfo} (hp : s.Ready p)
    (h : s.renameMember kind m p = .ok m' q) :
    ∃ p' params, s.Ready p' ∧
      (kind = .method → s.settings.locals.isSome → ∀ desc, m.desc s.source = .ok desc →
        params = s.names.slotsOfParameters m'.access desc) ∧
      ({ s with params } : Scope).renameAttributes m.attributes p' = .ok m'.attributes q ∧
      ∀ final, p'.Extends final →
        m.Renamed s.names s.thisName kind s.source final m' := by
  simp only [Scope.renameMember, EStateM.bind_eq_ok, Scope.text, EStateM.ofExcept_eq_ok,
    EStateM.pure_eq_ok] at h
  obtain ⟨name, _, ⟨hname, rfl⟩, desc, _, ⟨hdesc, rfl⟩, i, p₁, hi, j, p₂, hj, attributes, _,
    hattributes, rfl, rfl⟩ := h
  -- The name first, then the type, each into a pool that is still ready.
  obtain ⟨hp₁, hext₁, hreadName⟩ := hp.newIndex hname hi
  have hready := hp.of_extends hp₁ hext₁
  obtain ⟨old, hold, hp₂, hext, hreadDesc⟩ := hready.mapText hj
  obtain rfl := Except.ok.inj (hdesc.symm.trans hold)
  -- The parameters are handed on for the names of locals only.
  obtain ⟨params, hparams, hattributes⟩ : ∃ params,
      (kind = .method → s.settings.locals.isSome → ∀ desc', m.desc s.source = .ok desc' →
        params = s.names.slotsOfParameters _ desc') ∧
      ({ s with params } : Scope).renameAttributes m.attributes p₂ = .ok attributes _ := by
    split at hattributes
    · exact ⟨_, fun _ _ desc' hdesc' => by rw [Except.ok.inj (hdesc'.symm.trans hdesc)], hattributes⟩
    · next hother =>
      exact ⟨s.params, fun hkind hlocals => absurd ⟨hkind, hlocals⟩ hother, hattributes⟩
  exact ⟨p₂, params, hready.of_extends hp₂ hext, hparams, hattributes, fun final hfinal =>
    ⟨name, desc, hname, hdesc, (hext.trans hfinal).keeps.utf8 hreadName,
      hfinal.keeps.utf8 hreadDesc, rfl⟩⟩

/-- All members are renamed one by one. -/
theorem Ready.forall₂_renameMember {kind : MemberKind} {ms ms' : Array MemberInfo} {final : Pool}
    (hp : s.Ready p) (h : ms.mapM (s.renameMember kind) p = .ok ms' q) (hfinal : q.Extends final) :
    List.Forall₂ (MemberInfo.Renamed s.names s.thisName kind s.source final)
      ms.toList ms'.toList := by
  refine hp.forall₂_mapM (fun m _ => onlyInterns_renameMember s kind m) ?_ h hfinal
  intro m _ p m' q hp hm hext
  obtain ⟨p', params, hp', -, hattributes, hbecomes⟩ := hp.renameMember hm
  have hinterns := onlyInterns_renameAttributes _ _ _ _ _ hattributes
  exact hbecomes final ((hinterns.coherent hp'.coherent).2.trans hext)

/-! ### Classes -/

/-- The steps of renaming a class after its pool: fields, methods and attributes, in this order, and
at last the name of the source file. -/
structure BodySteps (s : Scope) (c d : ClassFile) (p p₁ p₂ p₃ q : Pool) : Prop where
  header : ∃ fields methods attributes, d = { c with
    access := if s.names.publishesClass s.thisName then c.access.withVisibility .everyone
      else c.access
    fields, methods, attributes }
  fields : c.fields.mapM (s.renameMember .field) p = .ok d.fields p₁
  methods : c.methods.mapM (s.renameMember .method) p₁ = .ok d.methods p₂
  attributes : ∃ attributes, s.renameAttributes c.attributes p₂ = .ok attributes p₃ ∧
    (if s.settings.rebuildSourceFilenames then s.nameSourceFile attributes
      else pure attributes) p₃ = .ok d.attributes q

/-- A class is renamed in the steps of `BodySteps`. -/
theorem renameBody_ok {c d : ClassFile} (h : s.renameBody c p = .ok d q) :
    ∃ p₁ p₂ p₃, s.BodySteps c d p p₁ p₂ p₃ q := by
  simp only [renameBody, EStateM.bind_eq_ok] at h
  obtain ⟨fields, p₁, hfields, methods, p₂, hmethods, attributes, p₃, hattributes, h⟩ := h
  refine ⟨p₁, p₂, p₃, ?_⟩
  split at h
  · next hrebuild =>
    obtain ⟨attributes', _, hattributes', rfl, rfl⟩ := EStateM.bind_eq_ok.1 h
    exact ⟨⟨_, _, _, rfl⟩, hfields, hmethods, attributes, hattributes, by
      rw [if_pos hrebuild]; exact hattributes'⟩
  · next hrebuild =>
    obtain ⟨attributes', _, hattributes', rfl, rfl⟩ := EStateM.bind_eq_ok.1 h
    exact ⟨⟨_, _, _, rfl⟩, hfields, hmethods, attributes, hattributes, by
      rw [if_neg hrebuild]; exact hattributes'⟩

namespace BodySteps

variable {c d : ClassFile} {p₁ p₂ p₃ : Pool}

/-- After the pool, a class is renamed by searches only. -/
theorem interns (h : s.BodySteps c d p p₁ p₂ p₃ q) :
    p.Interns p₁ ∧ p₁.Interns p₂ ∧ p₂.Interns p₃ ∧ p₃.Interns q := by
  obtain ⟨attributes, hattributes, hsource⟩ := h.attributes
  refine ⟨OnlyInterns.arrayMapM (onlyInterns_renameMember s _) _ _ _ h.fields,
    OnlyInterns.arrayMapM (onlyInterns_renameMember s _) _ _ _ h.methods,
    onlyInterns_renameAttributes s _ _ _ _ hattributes, ?_⟩
  split at hsource
  · exact onlyInterns_nameSourceFile s _ _ _ _ hsource
  · obtain ⟨-, rfl⟩ := EStateM.pure_eq_ok.1 hsource
    exact Interns.refl _

/-- Renaming a class only puts names behind its pool. -/
theorem interns_all (h : s.BodySteps c d p p₁ p₂ p₃ q) : p.Interns q := by
  obtain ⟨hfields, hmethods, hattributes, hsource⟩ := h.interns
  exact ((hfields.trans hmethods).trans hattributes).trans hsource

/-- Every step starts from a pool in which the old names are there, and the last pool extends that
after each step. -/
theorem ready (h : s.BodySteps c d p p₁ p₂ p₃ q) (hp : s.Ready p) :
    (s.Ready p₁ ∧ p₁.Extends q) ∧ (s.Ready p₂ ∧ p₂.Extends q) ∧ s.Ready p₃ ∧ p₃.Extends q := by
  obtain ⟨hfields, hmethods, hattributes, hsource⟩ := h.interns
  obtain ⟨hp₁, hext₁⟩ := hfields.coherent hp.coherent
  obtain ⟨hp₂, hext₂⟩ := hmethods.coherent hp₁
  obtain ⟨hp₃, hext₃⟩ := hattributes.coherent hp₂
  obtain ⟨-, hext₄⟩ := hsource.coherent hp₃
  have hready₁ := hp.of_extends hp₁ hext₁
  have hready₂ := hready₁.of_extends hp₂ hext₂
  exact ⟨⟨hready₁, (hext₂.trans hext₃).trans hext₄⟩, ⟨hready₂, hext₃.trans hext₄⟩,
    hready₂.of_extends hp₃ hext₃, hext₄⟩

end BodySteps

/-- What becomes of the constants, the members and the access of a class. -/
structure ClassBecomes (s : Scope) (methods : Array BootstrapMethod) (c c' : ClassFile) :
    Prop where
  finished : s.Finished methods c'.pool
  fields : List.Forall₂ (MemberInfo.Renamed s.names s.thisName .field s.source c'.pool)
    c.fields.toList c'.fields.toList
  methods : List.Forall₂ (MemberInfo.Renamed s.names s.thisName .method s.source c'.pool)
    c.methods.toList c'.methods.toList
  access : c'.access = if s.names.publishesClass s.thisName then
    c.access.withVisibility .everyone else c.access

end Scope

namespace ClassFile

open Pool

/-- The scope in which a class with this name is relabeled. -/
def scope (c : ClassFile) (names : Renaming) (settings : RelabelSettings) (thisName : String) :
    Scope :=
  { names, settings, source := c.pool, thisName }

variable {names : Renaming} {settings : RelabelSettings} {c c' : ClassFile}

/-- A successful relabeling: the pool first, then the rest of the class. -/
theorem relabel_ok (h : c.relabel names settings = .ok c') :
    ∃ thisName methods d p p₁ p₂ p₃, c.name = .ok thisName ∧ c.bootstrapMethods = .ok methods ∧
      (c.scope names settings thisName).mapPool methods c.pool = .ok () p ∧
      (c.scope names settings thisName).BodySteps c d p p₁ p₂ p₃ c'.pool ∧
      c' = { d with pool := c'.pool } := by
  simp only [relabel, Except.bind_eq_ok] at h
  obtain ⟨thisName, hname, methods, hmethods, h⟩ := h
  -- An error of the pool or of the body is an error of the whole, so both have succeeded.
  split at h
  · next d q hact =>
    obtain rfl := Except.ok.inj h
    obtain ⟨⟨⟩, p, hpool, hbody⟩ := EStateM.bind_eq_ok.1 hact
    obtain ⟨p₁, p₂, p₃, hsteps⟩ := Scope.renameBody_ok hbody
    exact ⟨thisName, methods, d, p, p₁, p₂, p₃, hname, hmethods, hpool, hsteps, rfl⟩
  · cases h

/-- The steps of a relabeling one after the other. -/
theorem relabel_of_steps {thisName : String} {methods : Array BootstrapMethod} {d : ClassFile}
    {p q : Pool} (hname : c.name = .ok thisName) (hmethods : c.bootstrapMethods = .ok methods)
    (hpool : (c.scope names settings thisName).mapPool methods c.pool = .ok () p)
    (hbody : (c.scope names settings thisName).renameBody c p = .ok d q) :
    c.relabel names settings = .ok { d with pool := q } := by
  have hact : (do
      (c.scope names settings thisName).mapPool methods
      (c.scope names settings thisName).renameBody c) c.pool = .ok d q :=
    EStateM.bind_eq_ok.2 ⟨(), p, hpool, hbody⟩
  simp only [relabel, Except.bind_eq_ok]
  refine ⟨thisName, hname, methods, hmethods, ?_⟩
  rw [show ({ names, settings, source := c.pool, thisName } : Scope) =
    c.scope names settings thisName from rfl, hact]

/-- A relabeling never shortens the pool, coherent or not. -/
theorem size_le_relabel (h : c.relabel names settings = .ok c') : c.pool.size ≤ c'.pool.size := by
  obtain ⟨thisName, methods, d, p, p₁, p₂, p₃, -, -, hpool, hsteps, -⟩ := relabel_ok h
  exact Nat.le_trans (Scope.size_le_mapPool hpool) hsteps.interns_all.size_le

/-- What a relabeling makes of a class whose pool is coherent. -/
theorem relabel_becomes (hc : c.pool.Coherent) (h : c.relabel names settings = .ok c') :
    ∃ thisName methods, c.name = .ok thisName ∧ c.bootstrapMethods = .ok methods ∧
      (c.scope names settings thisName).ClassBecomes methods c c' := by
  obtain ⟨thisName, methods, d, p, p₁, p₂, p₃, hname, hmethods, hpool, hsteps, hc'⟩ := relabel_ok h
  have hp : (c.scope names settings thisName).Finished methods p := Scope.mapPool_ok hc hpool
  -- Once the pool is finished, searches keep it so.
  obtain ⟨⟨hp₁, hext₁⟩, ⟨hp₂, hext₂⟩, -⟩ := hsteps.ready hp.ready
  have hfinished := hp.of_interns hsteps.interns_all
  obtain ⟨fields, methods', attributes, rfl⟩ := hsteps.header
  refine ⟨thisName, methods, hname, hmethods, hfinished, ?_, ?_, ?_⟩
  · rw [hc']
    exact hp.ready.forall₂_renameMember hsteps.fields hext₁
  · rw [hc']
    exact hp₁.forall₂_renameMember hsteps.methods hext₂
  · rw [hc']

/-! ### The smallest class -/

/-- A class without members, `A`. -/
def lone : ClassFile :=
  { pool := { slots := #[.unusable, .utf8 "A", .ofClass 1] }
    access := ⟨0x21⟩
    thisClass := 2
    superClass := 0 }

/-- The binary form of `lone`. -/
def loneBytes : Bytes :=
  [0xca, 0xfe, 0xba, 0xbe, 0, 0, 0, 52, 0, 3, 1, 0, 1, 65, 7, 0, 1, 0, 0x21, 0, 2, 0, 0, 0, 0, 0, 0,
    0, 0, 0, 0]

/-- Every class is called `B`. -/
def toB : Renaming where
  mapClass _ := some "B"

theorem decode_loneBytes : decode loneBytes = .ok lone := rfl

/-- The one class constant of `lone` is pointed at a new text. -/
private theorem mapPool_lone {i : UInt16} {q : Pool}
    (hi : internText "B" lone.pool = .ok i q) :
    (lone.scope toB {} "A").mapPool #[] lone.pool = .ok () (q.set 2 (.ofClass i)) := by
  have hentries : lone.pool.slots.toList.zipIdx.drop 1 = [(.utf8 "A", 1), (.ofClass 1, 2)] := rfl
  have hnew : toB.mapReference "A" = some "B" := rfl
  simp only [Scope.mapPool, scope, hentries, List.forM_eq_forM, List.forM_cons, List.forM_nil,
    EStateM.bind_eq_ok]
  -- A text is no pointer; the class constant is.
  refine ⟨(), _, ⟨none, _, rfl, rfl⟩, (), _, ⟨some (.ofClass i), q, ?_, rfl⟩, rfl⟩
  simp only [Scope.mapConstant, EStateM.bind_eq_ok]
  refine ⟨"A", _, rfl, ?_⟩
  simp only [hnew, EStateM.bind_eq_ok]
  exact ⟨i, q, hi, rfl⟩

theorem renameAttributes_empty (s : Scope) : s.renameAttributes #[] = pure #[] := by
  simp [Scope.renameAttributes, Scope.renameAttributesTo]

/-- A pool with room can take the new name of `lone`. -/
theorem exists_relabel_lone : ∃ c', lone.relabel toB {} = .ok c' := by
  obtain ⟨i, q, hi⟩ := @exists_intern (.utf8 "B") rfl lone.pool (by decide)
  have hbody : (lone.scope toB {} "A").renameBody lone (q.set 2 (.ofClass i)) =
      .ok lone (q.set 2 (.ofClass i)) := by
    simp only [Scope.renameBody, lone, renameAttributes_empty, List.mapM_toArray, List.mapM_nil,
      EStateM.bind_eq_ok]
    exact ⟨#[], _, rfl, #[], _, rfl, #[], _, rfl, rfl⟩
  exact ⟨_, relabel_of_steps rfl rfl (mapPool_lone hi) hbody⟩

end ClassFile

end Relabel
