import Mathlib.Data.List.Infix
import ZagrosNode.Lib.Text

/-!
# ZagrosNode — path resolution

What a path denotes: `.` and empty names stand for nothing, `..` for the
parent, and a symbolic link for what its target denotes where the link is.
Relative paths start at the working directory. A place in the file system is
the list of names from the root down to it.

A directory is made together with the missing ones above it. That fails where
something that is no directory is in the way, at the place or above it, and
where the system refuses: no permission, no space, a name that is too long.

Resolution goes name by name from the left and restarts where a link points, with a
budget for the links as the operating system has one; a loop of links is a path
that resolves to nothing. `resolve` is the strict part of `Path.resolve()`: whether
the place exists is not asked, so a path to a file that is still to be made resolves
as well.

`Kind` is what may be at a place: a directory, or anything else that has a name. A
place with nothing at it takes a new directory unless the system refuses, and what
is there already need not be made. `blocked` is the same question for a file that
is to be written: a directory is there, or the system refuses.

Being below a directory is a question about resolved places and never about texts:
`inside` compares lists of names.

Main results:

* `Fs.inside_iff` — a place is inside another if that one is a prefix of it.
* `Fs.makeDirs_eq_false_iff` — when a directory cannot be made.
-/

namespace ZagrosNode.Lib

/-- A name in a path. -/
abbrev Name : Type := List Char

/-- `Path.is_absolute` -/
def isAbsolute : List Char → Bool
  | '/' :: _ => true
  | _        => false

/-- What a place without a link may hold. -/
inductive Kind
  | directory
  /-- a regular file, a socket, a device -/
  | other
  deriving DecidableEq, Repr

/-- The file system as a process sees it. -/
structure Fs where
  /-- the working directory -/
  cwd     : List Name
  /-- the target of the symbolic link at a place -/
  link    : List Name → Option (List Char)
  /-- how many links are followed before a path counts as a loop -/
  limit   : Nat
  /-- what is at a place; the root is a directory whatever this says -/
  kind    : List Name → Option Kind
  /-- the system refuses to put anything there, for a reason of its own: no
  permission, no space left, a name too long -/
  refuses : List Name → Bool

namespace Fs

variable (fs : Fs)

/-- Go down a path from a place, leaving links to `follow`. -/
def walkWith (follow : List Name → List Name → Option (List Name)) :
    List Name → List Name → Option (List Name)
  | place, []           => some place
  | place, name :: rest =>
    if name = [] ∨ name = ['.'] then walkWith follow place rest
    else if name = ['.', '.'] then walkWith follow place.dropLast rest
    else
      match fs.link (place ++ [name]) with
      | none        => walkWith follow (place ++ [name]) rest
      | some target =>
        follow (if isAbsolute target then [] else place) (splitSep '/' target ++ rest)

/-- Go down a path, following links as long as there are any left. -/
def walk : Nat → List Name → List Name → Option (List Name)
  | 0         => fs.walkWith fun _ _ => none
  | links + 1 => fs.walkWith (walk links)

/-- The place a path denotes; none in a loop of links, or with a NUL in it. -/
def resolve (path : List Char) : Option (List Name) :=
  if path.contains '\x00' then none
  else fs.walk fs.limit (if isAbsolute path then [] else fs.cwd) (splitSep '/' path)

/-- The place is the root or below it. -/
def inside (root place : List Name) : Bool := root.isPrefixOf place

theorem inside_iff {root place : List Name} : inside root place = true ↔ root <+: place :=
  List.isPrefixOf_iff_prefix

/-- The place is a directory, or can become one in the directory above it:
`os.mkdir` there, where `FileExistsError` is passed over for a directory. -/
def makeDir (place : List Name) : Bool :=
  match fs.kind place with
  | some .directory => true
  | some .other     => false
  | none            => !fs.refuses place

/-- `Path.mkdir(parents=True, exist_ok=True)` of a resolved place: whether every
directory on the way down is there or can be made. -/
def makeDirs (place : List Name) : Bool :=
  place.inits.all fun above => above.isEmpty || fs.makeDir above

/-- No file can be written or moved there: a directory is at the place, or the
system refuses. -/
def blocked (place : List Name) : Bool := fs.kind place == some .directory || fs.refuses place

/-- Something is in the way, or the system refuses, at the place or above it. -/
theorem makeDirs_eq_false_iff {place : List Name} :
    fs.makeDirs place = false ↔
      ∃ above, above <+: place ∧ above ≠ [] ∧
        (fs.kind above = some .other ∨ fs.kind above = none ∧ fs.refuses above = true) := by
  have hOne : ∀ above, fs.makeDir above = false ↔
      fs.kind above = some .other ∨ fs.kind above = none ∧ fs.refuses above = true := by
    intro above
    unfold makeDir
    cases fs.kind above with
    | none => simp
    | some kind => cases kind <;> simp
  simp only [makeDirs, List.all_eq_false, List.mem_inits, Bool.not_eq_true, Bool.or_eq_false_iff,
    List.isEmpty_eq_false_iff, hOne]

end Fs

end ZagrosNode.Lib
