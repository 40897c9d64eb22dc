-- SUMMARY: A working directory that holds files, how a path is followed from it, and why a file cannot be read.

/-!
# Working directories

A directory is given by the files in it. A path is followed component by component.
Outside of the directory are the standard directories of a system, with two devices
that have contents; nothing else is known to be there.
-/

namespace LoxLexer.CommandLine

/-- Why a source file cannot be read. -/
inductive ReadFailure where
  | missing
  | isDirectory
  | notDirectory
  /-- A path, or a name in it, that no file can have. -/
  | nameTooLong
  /-- Its content is not UTF-8. -/
  | notText
  deriving DecidableEq, Repr

def ReadFailure.message : ReadFailure → String
  | missing => "No such file or directory (os error 2)"
  | isDirectory => "Is a directory (os error 21)"
  | notDirectory => "Not a directory (os error 20)"
  | nameTooLong => "File name too long (os error 36)"
  | notText => "stream did not contain valid UTF-8"

/-! ## Limits -/

/-- The most bytes of a name in a directory. -/
def longestName : Nat := 255

/-- The most bytes of a path. -/
def longestPath : Nat := 4095

/-! ## Places -/

/-- A directory with files only, each with its name and content. -/
structure Directory where
  files : List (String × List UInt8)
  /-- What the device for the standard input yields. -/
  input : List UInt8

/-- Where a path leads. -/
inductive Directory.Place where
  | here
  /-- The directory that all absolute paths start in. -/
  | root
  | devices
  /-- Some other directory. -/
  | outside
  | file (content : List UInt8)

namespace Directory

/-- The directories that every system has in its root, next to that of the devices. -/
def standard : List String :=
  ["bin", "boot", "etc", "home", "lib", "media", "mnt", "opt", "proc", "root", "run", "sbin",
    "srv", "sys", "tmp", "usr", "var"]

/-- What a directory holds under a name. -/
def find? (d : Directory) : Place → String → Option Place
  | .here, name => (d.files.lookup name).map .file
  | .root, name =>
    if name = "dev" then some .devices
    else if name ∈ standard then some .outside
    else none
  | .devices, name =>
    if name = "null" then some (.file [])
    else if name = "stdin" then some (.file d.input)
    else none
  | .outside, _ | .file _, _ => none

/-- The directory that holds a directory. -/
def Place.parent : Place → Place
  | .root | .devices => .root
  | _ => .outside

/-- Follows one component of a path. A directory is searched only for names that it
could hold, and a file is not searched at all. -/
def enter (d : Directory) (place : Place) (name : String) : Except ReadFailure Place :=
  match place with
  | .file _ => .error .notDirectory
  | _ =>
    if name = "" ∨ name = "." then .ok place
    else if name = ".." then .ok place.parent
    else if longestName < name.utf8ByteSize then .error .nameTooLong
    else match d.find? place name with
      | some next => .ok next
      | none => .error .missing

/-- The content of the file that a path leads to. The length of a path is checked
before any of it is followed. -/
def read (d : Directory) (path : String) : Except ReadFailure (List UInt8) := do
  if longestPath < path.utf8ByteSize then throw .nameTooLong
  let start := if path.toList.head? = some '/' then Place.root else .here
  match ← ((path.toList.splitOn '/').map String.ofList).foldlM d.enter start with
  | .file content => return content
  | .here | .root | .devices | .outside => throw .isDirectory

/-! ## Names -/

/-- A name that a file in a directory can have. -/
structure IsName (name : String) : Prop where
  nonempty : name ≠ ""
  notHere : name ≠ "."
  notParent : name ≠ ".."
  noSlash : '/' ∉ name.toList
  short : name.utf8ByteSize ≤ longestName

instance (name : String) : Decidable (IsName name) :=
  decidable_of_iff (name ≠ "" ∧ name ≠ "." ∧ name ≠ ".." ∧ '/' ∉ name.toList ∧
      name.utf8ByteSize ≤ longestName)
    ⟨fun ⟨nonempty, notHere, notParent, noSlash, short⟩ =>
        ⟨nonempty, notHere, notParent, noSlash, short⟩,
      fun h => ⟨h.nonempty, h.notHere, h.notParent, h.noSlash, h.short⟩⟩

/-- A name as a path leads to the file that has it. -/
theorem read_name (d : Directory) {name : String} (h : IsName name) :
    d.read name = match d.files.lookup name with
      | some content => .ok content
      | none => .error .missing := by
  have short : ¬ longestPath < name.utf8ByteSize :=
    Nat.not_lt_of_le (Nat.le_trans h.short (by decide))
  have start : name.toList.head? ≠ some '/' := fun first => h.noSlash (List.mem_of_head? first)
  have found : d.enter .here name = match d.files.lookup name with
      | some content => .ok (.file content)
      | none => .error .missing := by
    have name_found : d.find? .here name = (d.files.lookup name).map .file := rfl
    simp only [enter, name_found, h.nonempty, h.notHere, h.notParent, or_self, if_false,
      Nat.not_lt_of_le h.short]
    cases d.files.lookup name <;> rfl
  simp only [read, short, if_false, start, List.splitOn_eq_singleton h.noSlash]
  simp only [List.map_cons, List.map_nil, String.ofList_toList, List.foldlM_cons, found]
  cases d.files.lookup name <;> rfl

end Directory

end LoxLexer.CommandLine
