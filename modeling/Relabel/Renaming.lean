import Relabel.Member
import Relabel.Signature

/-!
# Renamings

All that has to be known to relabel a class: the new names of classes and members, and what becomes
public. Questions are put in old names. `none` means that a name stays.
-/

namespace Relabel

/-- New names of classes, fields, methods and annotation elements, and new forms of the texts that
name classes. Unless told otherwise, a text is renamed class by class, but a renaming may answer for
descriptors, signatures and references of its own accord. -/
structure Renaming where
  mapClass : Descriptor.ClassMap := fun _ => none
  mapField : MemberKey → Option String := fun _ => none
  mapMethod : MemberKey → Option String := fun _ => none
  /-- The new name of an element, given the descriptor of its annotation. -/
  mapElement : String → String → Option String := fun _ _ => none
  /-- Whether a member becomes public. -/
  publishesMember : MemberKind → MemberKey → Bool := fun _ _ => false
  /-- Whether a class becomes public. -/
  publishesClass : String → Bool := fun _ => false
  /-- The new form of a class name or an array descriptor. -/
  mapReference : String → Option String := Descriptor.renameReference mapClass
  /-- The new form of a descriptor. -/
  mapDescriptor : String → String := Descriptor.rename mapClass
  /-- The new form of a signature. -/
  mapSignature : String → String := Signature.rename mapClass

namespace Renaming

/-- The new name of a member of either kind. -/
def mapMember (r : Renaming) : MemberKind → MemberKey → Option String
  | .field => r.mapField
  | .method => r.mapMethod

end Renaming

end Relabel
