import Sentential.Text.Quoted
/-!
# Folders and paths

A file tree holds the folders below its topmost one, and one of its folders is the working folder.
A path is followed name by name, from the topmost folder if it begins with a slash and else from the
working folder: an empty name and `.` stay, `..` goes up, and any other name goes down into the
folder of that name.

A file is opened for writing where all names of its path but the last lead to a folder, and the last
one does not.  Paths and names must not be too long.  The tree has no files: one that is there is
written anew, and one in the place of a folder is left out, as are links and the rights of users.
-/

namespace Sentential

/-- Why a file is not opened for writing. -/
inductive OpenError where
  | missing
  | isFolder
  | tooLong
  deriving DecidableEq

namespace OpenError

/-- The number by which the system calls the error. -/
def number : OpenError → Nat
  | .missing => 2
  | .isFolder => 21
  | .tooLong => 36

def text : OpenError → String
  | .missing => "No such file or directory"
  | .isFolder => "Is a directory"
  | .tooLong => "File name too long"

def message (e : OpenError) (path : String) : String :=
  "[Errno " ++ toString e.number ++ "] " ++ e.text ++ ": " ++ Text.quoted path

end OpenError

/-- Folders, each by the names on the way to it from the topmost one. -/
structure FileTree where
  folders : List (List String)
  working : List String

namespace FileTree

/-! ## Paths -/

/-- The names in a path, which are separated by slashes. -/
def namesOf (path : String) : List String := (path.toList.splitOn '/').map String.ofList

/-- The part of a path in front of the last name, without slashes at its end unless it has nothing
but slashes. -/
def folderPart (path : String) : String :=
  let reversed := path.toList.reverse.dropWhile (· ≠ '/')
  let trimmed := reversed.dropWhile (· = '/')
  String.ofList (if trimmed.isEmpty then reversed else trimmed).reverse

/-- The most bytes that a name may have. -/
def longestName : Nat := 255

/-- The most bytes that a path may have. -/
def longestPath : Nat := 4095

/-! ## Following a path -/

/-- The folder from which a path is followed. -/
def startOf (t : FileTree) (path : String) : List String :=
  if path.toList.head? = some '/' then [] else t.working

/-- Follows one name, if there is a folder to which it leads. -/
def follow (t : FileTree) (place : List String) (name : String) : Option (List String) :=
  if name = "" ∨ name = "." then some place
  else if name = ".." then some place.dropLast
  else if t.folders.contains (place ++ [name]) then some (place ++ [name])
  else none

/-- The folder to which a path leads. -/
def folderAt? (t : FileTree) (path : String) : Option (List String) :=
  (namesOf path).foldlM t.follow (t.startOf path)

/-! ## Opening a file -/

/-- Enters the folder to which one name leads. -/
def enter (t : FileTree) (place : List String) (name : String) : Except OpenError (List String) :=
  if longestName < name.utf8ByteSize then .error .tooLong
  else match t.follow place name with
    | some place' => .ok place'
    | none => .error .missing

/-- What stands in the way of writing a file.  The names are followed one after the other, so the
first fault on the way counts. -/
def openError? (t : FileTree) (path : String) : Option OpenError :=
  if longestPath < path.utf8ByteSize then some .tooLong
  else
    match (namesOf path).dropLast.foldlM t.enter (t.startOf path) with
    | .error e => some e
    | .ok place =>
      match t.enter place ((namesOf path).getLast?.getD "") with
      | .error .missing => none
      | .error e => some e
      | .ok _ => some .isFolder

/-- The tree with some folders made in the working folder. -/
def make (t : FileTree) (folders : List (List String)) : FileTree :=
  { t with folders := t.folders ++ folders.map (t.working ++ ·) }

end FileTree

/-- The folders in a working folder, each by the names on the way to it.  Nothing is known about the
folders outside, except that those above the working folder exist. -/
structure Workspace where
  folders : List (List String)

/-- The workspace as a tree in which no path names the working folder. -/
def Workspace.tree (w : Workspace) : FileTree where
  folders := w.folders.map ("/" :: ·)
  working := ["/"]

end Sentential
