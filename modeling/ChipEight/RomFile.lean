import ChipEight.Fault

/-!
# Files of programs

A folder of files, with no folders inside, of which one file is read as a program.
-/

namespace ChipEight

/-- The files of a folder by name. -/
structure Folder where
  files : List (String × List UInt8) := []
deriving DecidableEq

namespace Folder

/-- The parts of a path that separators cut it into. -/
def parts (path : String) : List String := path.splitOn "/"

/-- Whether a path names a folder and no file: it has separators and dots only. -/
def isFolderPath (path : String) : Bool :=
  path ≠ "" && (parts path).all fun part => part = "" || part = "." || part = ".."

/-- The contents of the file at a path, which may begin with a reference to the folder itself. -/
def read (f : Folder) (path : String) : Except Fault (List UInt8) :=
  if isFolderPath path then .error (.isDirectory path)
  else
    match (parts path).dropWhile (· = ".") with
    | [name] =>
      match f.files.lookup name with
      | some contents => .ok contents
      | none => .error (.missingFile path)
    | _ => .error (.missingFile path)

/-- The lines that tell which program is read. -/
def readingLines (logging : Bool) (path : String) : Array String :=
  if logging then #["Loading ROM: " ++ path] else #[]

end Folder

end ChipEight
