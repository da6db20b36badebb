import Relabel.Renaming.Attributes
import Relabel.Renaming.Constants

/-!
# Relabeling a class

`ClassFile.relabel` carries a renaming through a whole class: its pool, the access and names of the
class and its members, and all attributes.
-/

namespace Relabel

namespace Scope

/-- Renames a member. -/
def renameMember (s : Scope) (kind : MemberKind) (m : MemberInfo) : PoolM MemberInfo := do
  let name ← s.text m.nameIndex
  let desc ← s.text m.descIndex
  let key : MemberKey := { owner := s.thisName, name, desc }
  let access :=
    if s.names.publishesMember kind key then m.access.withVisibility .everyone else m.access
  let nameIndex ← newIndex (s.names.mapMember kind key) m.nameIndex
  let descIndex ← s.mapDescriptor m.descIndex
  -- Parameters count by the new access, which is static exactly where the old one is.
  let s := if kind = .method ∧ s.settings.locals.isSome then
    { s with params := s.names.slotsOfParameters access desc } else s
  let attributes ← s.renameAttributes m.attributes
  return { access, nameIndex, descIndex, attributes }

/-- The name of the source file of a class with this name: that of the outermost class, with the
extension of the old file. -/
def sourceFileName (className oldFile : String) : String :=
  let extension := match Text.splitLast? '.' oldFile.toList with
    | some (_, extension) => extension
    | none => "java".toList
  let simple := Text.afterLast '/' className.toList
  -- A name that starts with `$` has no outer part.
  let outer := simple.takeWhile (· ≠ '$')
  String.ofList ((if outer.isEmpty then simple else outer) ++ '.' :: extension)

/-- Names the source file after the class, where the class has one. -/
def nameSourceFile (s : Scope) (attributes : Array Attribute) : PoolM (Array Attribute) :=
  match attributes.findIdx? (Attribute.isNamed s.source "SourceFile") with
  | none => pure attributes
  | some i =>
    match payload attributes i with
    | [high, low] => do
      let old ← s.text (Bytes.toUInt16 high low)
      let className := (s.names.mapClass s.thisName).getD s.thisName
      let new ← Pool.internText (sourceFileName className old)
      return setPayload attributes i (Bytes.ofUInt16 new)
    | data => throw (.truncated data.length)

/-- Renames all of a class but what its pool holds. -/
def renameBody (s : Scope) (c : ClassFile) : PoolM ClassFile := do
  let access :=
    if s.names.publishesClass s.thisName then c.access.withVisibility .everyone else c.access
  let fields ← c.fields.mapM (s.renameMember .field)
  let methods ← c.methods.mapM (s.renameMember .method)
  let attributes ← s.renameAttributes c.attributes
  let attributes ← if s.settings.rebuildSourceFilenames then s.nameSourceFile attributes
    else pure attributes
  return { c with access, fields, methods, attributes }

end Scope

/-- Carries a renaming through a class. -/
def ClassFile.relabel (names : Renaming) (settings : RelabelSettings) (c : ClassFile) :
    Except FormatError ClassFile := do
  let thisName ← c.name
  let methods ← c.bootstrapMethods
  let s : Scope := { names, settings, source := c.pool, thisName }
  let act : PoolM ClassFile := do
    -- Whatever fails, nothing of the pool is kept.
    s.mapPool methods
    s.renameBody c
  match act c.pool with
  | .ok c pool => .ok { c with pool }
  | .error e _ => .error e

end Relabel
