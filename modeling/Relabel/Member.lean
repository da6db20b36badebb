/-!
# Member keys

A field or method is known by the class it is looked up in, its name and its descriptor.
-/

namespace Relabel

/-- Owner, name and descriptor of a field or method. -/
structure MemberKey where
  owner : String
  name : String
  desc : String
  deriving DecidableEq, Hashable, Repr

/-- The two kinds of members, whose names never meet. -/
inductive MemberKind where
  | field
  | method
  deriving DecidableEq, Hashable, Repr

end Relabel
