/-!
# Files

Named files and their bytes, as a value that can be given back changed. A directory is there when a
file lies in it. One file is always there and never holds anything, whatever is written to it: the
null device. Names with parts `..` are not followed.

* `get?_put`: what is written can be read, but for what is written to the null device.
-/

namespace QueryExpr

/-- Named files and their bytes, the last written first. -/
abbrev Files := List (String × List UInt8)

/-- Why a file cannot be read or written. -/
inductive FileFault where
  /-- There is no such file, or no such directory. -/
  | missing
  /-- A file is taken for a directory. -/
  | notDirectory
  /-- A directory is taken for a file. -/
  | isDirectory
  deriving DecidableEq, Repr

/-- How the operating system words a fault. -/
def FileFault.text : FileFault → String
  | missing => "No such file or directory (os error 2)"
  | notDirectory => "Not a directory (os error 20)"
  | isDirectory => "Is a directory (os error 21)"

namespace Files

/-! ## Names -/

/-- The parts of a name between its slashes. -/
def parts (name : String) : List String := name.splitToList (· == '/')

/-- The name of a file without what does not change it: empty parts and single points. -/
def normalizedName (name : String) : String :=
  let path := "/".intercalate ((parts name).filter fun part => part != "." && part != "")
  if name.startsWith "/" then "/" ++ path else path

/-- Whether a name can only be that of a directory. -/
def namesDirectory (name : String) : Bool :=
  (parts name).getLast?.any fun part => part == "" || part == "." || part == ".."

/-- The directory of a file with a normalized name, empty for the one in which the program runs. -/
def directory (name : String) : String :=
  match "/".intercalate (parts name).dropLast with
  | "" => if name.startsWith "/" then "/" else ""
  | directory => directory

/-- The file that takes all bytes and keeps none. -/
def nullDevice : String := "/dev/null"

/-- Whether a file holds what is written to it. -/
def keeps (name : String) : Bool := normalizedName name != nullDevice

/-! ## Content -/

variable {files : Files} {name : String} {bytes : List UInt8}

/-- The bytes of a file. -/
def get? (files : Files) (name : String) : Option (List UInt8) :=
  if keeps name then (files.find? fun f => f.1 == normalizedName name).map Prod.snd else some []

/-- The files after one is written. -/
def put (files : Files) (name : String) (bytes : List UInt8) : Files :=
  if keeps name then
    (normalizedName name, bytes) :: files.filter fun f => f.1 != normalizedName name
  else files

theorem get?_put (h : keeps name = true) : (files.put name bytes).get? name = some bytes := by
  simp [get?, put, h]

theorem get?_nullDevice (h : keeps name = false) : files.get? name = some [] := by
  simp [get?, h]

/-! ## Reading and writing -/

/-- The names of all that is there and is no directory. -/
def names (files : Files) : List String := nullDevice :: files.map Prod.fst

/-- Whether a directory is there. -/
def hasDirectory (files : Files) (name : String) : Bool :=
  name == "" || name == "/" || files.names.any fun f => f.startsWith (name ++ "/")

/-- Whether the way to a normalized name goes through a file. -/
def passesFile (files : Files) (name : String) : Bool :=
  files.names.any fun f => name.startsWith (f ++ "/")

/-- Reads a file. -/
def read (files : Files) (name : String) : Except FileFault (List UInt8) :=
  match files.get? name with
  | some bytes => if namesDirectory name then .error .notDirectory else .ok bytes
  | none =>
    if files.passesFile (normalizedName name) then .error .notDirectory
    else if files.hasDirectory (normalizedName name) then .error .isDirectory
    else .error .missing

/-- Why a file cannot be written, if it cannot. -/
def writeFault? (files : Files) (name : String) : Option FileFault :=
  let path := normalizedName name
  if files.passesFile path then some .notDirectory
  else if !files.hasDirectory (directory path) then some .missing
  else if namesDirectory name || files.hasDirectory path then some .isDirectory
  else none

/-- Whether a file can be written. -/
def canWrite (files : Files) (name : String) : Bool := (files.writeFault? name).isNone

/-- What can be written is no directory. -/
theorem namesDirectory_of_canWrite (h : files.canWrite name = true) :
    namesDirectory name = false := by
  rw [canWrite, writeFault?, Option.isNone_iff_eq_none] at h
  cases hname : namesDirectory name with
  | false => rfl
  | true =>
    simp only [hname, Bool.true_or, if_true] at h
    split at h
    · cases h
    · split at h <;> cases h

/-- **What is written is read again** from a file that keeps it. -/
theorem read_put (hcan : files.canWrite name = true) (h : keeps name = true) :
    (files.put name bytes).read name = .ok bytes := by
  rw [read, get?_put h]
  simp only [namesDirectory_of_canWrite hcan, Bool.false_eq_true, if_false]

/-- From the null device nothing is read. -/
theorem read_nullDevice (hfile : namesDirectory name = false) (h : keeps name = false) :
    files.read name = .ok [] := by
  rw [read, get?_nullDevice h]
  simp only [hfile, Bool.false_eq_true, if_false]

end Files

end QueryExpr
