import Relabel.Decisions.Draft

/-!
# Clashes of names

Two classes, or two members of one kind in an input, must not end up with one name. Where conflicts
are ignored one of the two keeps its old name, the later one if it has a new name and else the
earlier one, and the search starts again; each time one name less is new, so this ends.
-/

namespace Relabel.Draft

/-! ### Members -/

/-- Two members of a class with one name and descriptor afterwards. -/
structure NameClash where
  owner : ClassPlace
  first : MemberPlace
  second : MemberPlace
  target : String
  deriving DecidableEq, Repr

/-- The name and descriptor of a member afterwards, in words. -/
def targetText (isMethod : Bool) (target : String × String) : String :=
  target.1 ++ (if isMethod then "" else ":") ++ target.2

/-- The clashes of a class: each member that clashes, with the first it clashes with. -/
def clashesIn (r : Decisions) (owner : ClassPlace) : List NameClash :=
  let (_, found) := (r.graph.membersOf owner).foldl (fun (seen, found) id =>
    let isMethod := (r.graph.memberAt id).isMethod
    let target := r.memberAfter id
    -- Fields and methods do not clash with one another.
    match seen[(isMethod, target)]? with
    | some first =>
      (seen, { owner, first, second := id, target := targetText isMethod target } :: found)
    | none => (seen.insert (isMethod, target) id, found))
    (({} : Std.HashMap (Bool × String × String) MemberPlace), ([] : List NameClash))
  found.reverse

/-- The clashes of all inputs. -/
def memberClashes (d : Draft) : List NameClash :=
  let r := d.decisions
  (r.graph.places.filter fun id => (r.graph.classAt id).isInput).flatMap (clashesIn r)

/-- The member that gives way in a clash, and the one that does not. -/
def givesWay? (d : Draft) (options : Options) (c : NameClash) :
    Option (MemberPlace × MemberPlace) :=
  if !options.ignoreConflicts then none
  -- The later member gives way before the earlier one.
  else if d.hasNewName c.second then some (c.second, c.first)
  else if d.hasNewName c.first then some (c.first, c.second)
  else none

/-- A clash as a problem. -/
def clashProblem (r : Decisions) (c : NameClash) : Problem :=
  .conflict (r.graph.classAt c.owner).name (r.describeMember c.first)
    (r.describeMember c.second) c.target

/-- Takes the name of the first member back that gives way, until none does. -/
def settleMembersFrom (options : Options) : Nat → Draft → List Problem × Draft
  | 0, d => (d.memberClashes.map (clashProblem d.decisions), d)
  | fuel + 1, d =>
    let r := d.decisions
    let clashes := d.memberClashes
    match clashes.findSome? fun c => (d.givesWay? options c).map (c, ·) with
    | none => (clashes.map (clashProblem r), d)
    | some (c, victim, kept) =>
      let warning := .conflictIgnored (r.graph.classAt c.owner).name (r.describeMember kept)
        (r.describeMember victim) c.target
      settleMembersFrom options fuel ((d.keepMember victim).warn warning)

/-- The number of names that can be taken back. -/
def renamedCount (r : Decisions) : Nat :=
  r.groupNames.countP Option.isSome + r.fieldNames.countP Option.isSome

/-- Settles the clashes of members. -/
def settleMembers (d : Draft) (options : Options) : List Problem × Draft :=
  settleMembersFrom options (renamedCount d.decisions + 1) d

/-! ### Classes -/

/-- The first two classes with one name afterwards, and that name. -/
def classClash? (r : Decisions) : Option (String × String × String) :=
  -- What stands in for a missing class has no say in names.
  let classes := r.graph.classes.toList.filter fun c => c.origin = .input || c.origin = .classpath
  let rec search (owners : Std.HashMap String String) :
      List ClassShape → Option (String × String × String)
    | [] => none
    | c :: rest =>
      let target := r.className c.name
      match owners[target]? with
      | some first => some (first, c.name, target)
      | none => search (owners.insert target c.name) rest
  search {} classes

/-- Takes the name of a class back that gives way, until no two classes clash. -/
def settleClassesFrom (options : Options) : Nat → Draft → List Problem × Draft
  | 0, d => ([], d)
  | fuel + 1, d =>
    let r := d.decisions
    match classClash? r with
    | none => ([], d)
    | some (first, second, target) =>
      let giveWay (victim kept : String) : List Problem × Draft :=
        settleClassesFrom options fuel
          ((d.keepClass victim).warn (.conflictIgnored target kept victim target))
      if options.ignoreConflicts && (r.mapClass second).isSome then giveWay second first
      else if options.ignoreConflicts && (r.mapClass first).isSome then giveWay first second
      else ([.conflict target first second target], d)

/-- Settles the clashes of classes. Each class gives way once at most. -/
def settleClasses (d : Draft) (options : Options) : List Problem × Draft :=
  settleClassesFrom options (d.decisions.graph.size + 1) d

end Relabel.Draft
