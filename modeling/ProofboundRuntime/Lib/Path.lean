import Mathlib

/-!
# Paths

The documented behaviour of `std::path::Path` on Unix, over the bytes of a path:
repeated and trailing separators and inner `.` components are not seen, a `.` at
the start of a relative path and every `..` are.
-/

namespace ProofboundRuntime.Path

/-- The separator. -/
def separator : UInt8 := 0x2f

/-- `.` and `..`. -/
def dot : List UInt8 := [0x2e]

def dotDot : List UInt8 := [0x2e, 0x2e]

inductive Component where
  | rootDir
  | curDir
  | parentDir
  | normal (name : List UInt8)
deriving DecidableEq

def isAbsolute (path : List UInt8) : Bool := path.head? == some separator

/-- The component of one part between separators. -/
def component (part : List UInt8) : Option Component :=
  if part = [] ∨ part = dot then none
  else if part = dotDot then some .parentDir
  else some (.normal part)

/-- `Path::components`. -/
def components (path : List UInt8) : List Component :=
  let parts := path.splitOn separator
  let first :=
    if isAbsolute path then [Component.rootDir]
    else if parts.head? = some dot then [Component.curDir]
    else []
  first ++ parts.filterMap component

/-- `Path::parent`, by its components; those of the empty path are none. -/
def parent (path : List UInt8) : Option (List Component) :=
  match (components path).getLast? with
  | none => none
  | some .rootDir => none
  | some _ => some (components path).dropLast

/-- `Path::file_name`. -/
def fileName (path : List UInt8) : Option (List UInt8) :=
  match (components path).getLast? with
  | some (.normal name) => some name
  | _ => none

/-- `Path::join`. -/
def join (base path : List UInt8) : List UInt8 :=
  if isAbsolute path ∨ base = [] then path
  else if base.getLast? = some separator then base ++ path
  else base ++ separator :: path

/-- The directory and the name of the entry that a path names.  A path whose last
part is empty, `.` or `..` names no entry: only a directory can be found there. -/
def location (path : List UInt8) : Option (List Component × List UInt8) :=
  match (path.splitOn separator).getLast? with
  | none => none
  | some part =>
    if part = [] ∨ part = dot ∨ part = dotDot then none
    else some ((components path).dropLast, part)

/-- The entry is below the parent and has the file name. -/
theorem parent_of_location_eq_some {path name : List UInt8} {directory : List Component}
    (h : location path = some (directory, name)) :
    parent path = some directory ∧ fileName path = some name := by
  unfold location at h
  split at h
  · cases h
  · rename_i part hlast
    split at h
    · cases h
    · rename_i hpart
      cases h
      have hcomponent : component name = some (.normal name) := by
        rw [component, if_neg (by tauto), if_neg (by tauto)]
      have hcomponents : (components path).getLast? = some (.normal name) := by
        obtain ⟨parts, hparts⟩ := List.getLast?_eq_some_iff.mp hlast
        simp only [components, hparts, List.filterMap_append, List.filterMap_cons, hcomponent,
          List.filterMap_nil, ← List.append_assoc, List.getLast?_append, List.getLast?_singleton,
          Option.some_or]
      simp [parent, fileName, hcomponents]

end ProofboundRuntime.Path
