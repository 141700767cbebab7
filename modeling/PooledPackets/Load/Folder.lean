/-!
# The folder of a call

The settings of a run are read from a file. A call can be understood without
any other file: a path is followed name by name through a folder that holds
nothing but the settings.
-/

namespace PooledPackets.Load

/-- Why a file could not be read. -/
inductive FileError where
  | missing
  /-- A name ahead of others is not that of a folder. -/
  | notFolder
  /-- A folder is no file. -/
  | isFolder
  | nameTooLong
  | other (reason : String)
  deriving DecidableEq, Repr

def FileError.message : FileError → String
  | missing => "No such file or directory (os error 2)"
  | notFolder => "Not a directory (os error 20)"
  | isFolder => "Is a directory (os error 21)"
  | nameTooLong => "File name too long (os error 36)"
  | other reason => reason

/-- A folder with the settings in it, if there are any. -/
structure Folder where
  settings : Option String
  deriving DecidableEq, Repr

namespace Folder

def settingsName : String := "config.toml"

/-- A place on a path. -/
inductive Place where
  /-- The folder itself. -/
  | inside
  /-- A folder above it, of which nothing else is known. -/
  | outside
  /-- The file with the settings. -/
  | file (text : String)
  deriving DecidableEq, Repr

def maxName : Nat := 255

def maxPath : Nat := 4095

/-- Follows one more name. -/
def follow (folder : Folder) (place : Place) (name : String) :
    Except FileError Place :=
  match place, name with
  | .file _, _ => .error .notFolder
  | place, "" => .ok place
  | place, "." => .ok place
  | _, ".." => .ok .outside
  | place, name =>
      if maxName < name.utf8ByteSize then .error .nameTooLong
      else
        match place, folder.settings with
        | .inside, some text =>
            if name = settingsName then .ok (.file text) else .error .missing
        | _, _ => .error .missing

def read (folder : Folder) (path : String) : Except FileError String := do
  let start := if path.startsWith "/" then Place.outside else .inside
  if path.isEmpty then throw .missing
  else if maxPath < path.utf8ByteSize then throw .nameTooLong
  else
    let names := (path.toList.splitOn '/').map String.ofList
    match ← names.foldlM folder.follow start with
    | .file text => pure text
    | _ => throw .isFolder

end Folder

end PooledPackets.Load
