/-!
# Access flags

The flags of a class or member are one 16-bit word. Three of its bits give the visibility, of
which the widest set bit counts; `withVisibility` replaces those three and keeps all others.
-/

namespace Relabel

/-- From where a class or member may be used, narrowest first: only its own class (`private`), its
package, also subclasses elsewhere (`protected`), everywhere (`public`). -/
inductive Visibility where
  | own
  | package
  | family
  | everyone
  deriving DecidableEq, Repr

/-- The word of access flags of a class or member. -/
structure Access where
  bits : UInt16
  deriving DecidableEq, Repr, Inhabited

namespace Access

/-- The flags of a public class or member with no other flag. -/
def onlyPublic : Access := ⟨0x0001⟩

/-- The bits that give the visibility. -/
def visibilityMask : UInt16 := 0x0007

/-- Whether a bit of `mask` is set. -/
def has (a : Access) (mask : UInt16) : Bool :=
  a.bits &&& mask != 0

/-- The widest visibility whose bit is set; that of the package where none is. -/
def visibility (a : Access) : Visibility :=
  if a.has 0x0001 then .everyone
  else if a.has 0x0004 then .family
  else if a.has 0x0002 then .own
  else .package

/-- The bit that stands for a visibility. -/
def visibilityBit : Visibility → UInt16
  | .everyone => 0x0001
  | .family => 0x0004
  | .own => 0x0002
  | .package => 0

/-- The same flags under another visibility. -/
def withVisibility (a : Access) (v : Visibility) : Access :=
  ⟨(a.bits &&& ~~~visibilityMask) ||| visibilityBit v⟩

/-- Whether a bit of the visibility is set is for the new visibility alone to say. -/
theorem has_withVisibility (a : Access) (v : Visibility) (mask : UInt16)
    (h : ~~~visibilityMask &&& mask = 0) :
    (a.withVisibility v).has mask = Access.has ⟨visibilityBit v⟩ mask := by
  have bits : ((a.bits &&& ~~~visibilityMask) ||| visibilityBit v) &&& mask =
      visibilityBit v &&& mask := by
    apply UInt16.toBitVec_inj.1
    have h' := congrArg UInt16.toBitVec h
    simp only [UInt16.toBitVec_and, UInt16.toBitVec_or, UInt16.toBitVec_not,
      BitVec.and_or_distrib_right, BitVec.and_assoc] at h' ⊢
    simp [h']
  simp [has, withVisibility, bits]

/-- The visibility asked for is the one there is. -/
@[simp]
theorem visibility_withVisibility (a : Access) (v : Visibility) :
    (a.withVisibility v).visibility = v := by
  rw [visibility, has_withVisibility a v 1 (by decide), has_withVisibility a v 4 (by decide),
    has_withVisibility a v 2 (by decide)]
  cases v <;> decide

def isPublic (a : Access) : Bool := a.visibility = .everyone
def isPrivate (a : Access) : Bool := a.visibility = .own
def isPackagePrivate (a : Access) : Bool := a.visibility = .package
def isStatic (a : Access) : Bool := a.has 0x0008
def isFinal (a : Access) : Bool := a.has 0x0010

/-- Set on methods the compiler adds to forward an erased call. -/
def isBridge (a : Access) : Bool := a.has 0x0040
def isInterface (a : Access) : Bool := a.has 0x0200
def isAbstract (a : Access) : Bool := a.has 0x0400
def isSynthetic (a : Access) : Bool := a.has 0x1000

end Access

end Relabel
