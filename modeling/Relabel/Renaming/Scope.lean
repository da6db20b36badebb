import Relabel.LocalNames
import Relabel.Renaming
import Relabel.ClassFile.Basic

/-!
# The scope of a renaming

What the steps that relabel a class share. Instructions address the pool by index, so nothing in it
moves: an entry is pointed at new entries behind all old ones, and texts are never changed, because
others may share them. Old names are read from the pool as it was.
-/

namespace Relabel

/-- What is done beside renaming. -/
structure RelabelSettings where
  /-- Whether stack map frames are left out. -/
  removeFrames : Bool := false
  /-- Whether the source file is named after the class. -/
  rebuildSourceFilenames : Bool := false
  /-- How unusable names of local variables are replaced, if at all. -/
  locals : Option LocalPolicy := none

/-- What the steps that relabel a class share. -/
structure Scope where
  names : Renaming
  settings : RelabelSettings
  /-- The pool before any change. -/
  source : Pool
  /-- The old name of the class. -/
  thisName : String
  /-- The first slot and the new type of each parameter of the method at hand. -/
  params : List (UInt16 × String) := []

namespace Scope

/-- The old text at an index. -/
def text (s : Scope) (i : UInt16) : PoolM String :=
  MonadExcept.ofExcept (s.source.utf8 i)

/-- The old class name at an index. -/
def className (s : Scope) (i : UInt16) : PoolM String :=
  MonadExcept.ofExcept (s.source.className i)

/-- The old name and descriptor at an index. -/
def nameAndType (s : Scope) (i : UInt16) : PoolM (String × String) :=
  MonadExcept.ofExcept (s.source.nameAndType i)

/-- The index of a new text, or the old index where there is none. -/
def newIndex (new : Option String) (i : UInt16) : PoolM UInt16 :=
  match new with
  | some new => Pool.internText new
  | none => pure i

/-- The index of the new form of a text, which is the old one where nothing changes. -/
def mapText (s : Scope) (f : String → String) (i : UInt16) : PoolM UInt16 := do
  let old ← s.text i
  let new := f old
  if new = old then pure i else Pool.internText new

/-- The index of the new form of a descriptor. -/
def mapDescriptor (s : Scope) (i : UInt16) : PoolM UInt16 :=
  s.mapText s.names.mapDescriptor i

/-- The index of the new form of a signature. -/
def mapSignature (s : Scope) (i : UInt16) : PoolM UInt16 :=
  s.mapText s.names.mapSignature i

/-- The index of a new name and descriptor, unless both stay. -/
def changedNames (s : Scope) (name desc : String) (newName : Option String) :
    PoolM (Option UInt16) :=
  let newDesc := s.names.mapDescriptor desc
  if newName.isNone ∧ newDesc = desc then pure none
  else some <$> Pool.internNameAndType (newName.getD name) newDesc

end Scope

end Relabel
