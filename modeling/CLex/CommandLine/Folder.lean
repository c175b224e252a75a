/-!
# Folders

A folder holds files and further folders, and is where paths start. A path is followed from
component to component: an empty component and a single dot stay, two dots go up, and every
other component goes down. Only folders can be left in any of these ways, even by a dot. What
lies outside of the folder is not known and cannot be read.

## Main definitions

* `Folder`: what it holds, by paths without dots.
* `Folder.follow`: where a path leads.
* `Folder.read?`: the content of the file that a path leads to.
-/

namespace CLex.CommandLine

/-- What a name stands for. -/
inductive Node where
  /-- A file with its content. -/
  | file (content : ByteArray)
  /-- A folder. -/
  | directory

/-- Files and folders by their places. A place is a list of names, the outermost first. -/
structure Folder where
  /-- The places that are given. -/
  entries : List (List String × Node)

namespace Folder

/-- The names in a path. -/
def components (path : String) : List String :=
  (path.toList.splitOn '/').map String.ofList

/-- The folder that holds the given files and folders. -/
def ofList (entries : List (String × Node)) : Folder where
  entries := entries.map fun (name, node) => (components name, node)

/-- What is at a place: what is given there, or a folder if something is given below. -/
def lookup (folder : Folder) (place : List String) : Option Node :=
  if place = [] then some .directory
  else match folder.entries.lookup place with
    | some node => some node
    | none =>
      if folder.entries.any fun (other, _) => place.isPrefixOf other then some .directory
      else none

/-- The place that names lead to from a place. -/
def follow (folder : Folder) (place : List String) : List String → Option (List String)
  | [] => some place
  | name :: names =>
    match folder.lookup place with
    | some .directory =>
      if name = "" ∨ name = "." then folder.follow place names
      else if name = ".." then
        if place = [] then none else folder.follow place.dropLast names
      else folder.follow (place ++ [name]) names
    | _ => none

/-- The length in bytes that a path must not exceed. -/
def maxPathBytes : Nat := 4095

/-- The content of the file that a path leads to. The empty path leads nowhere, and a path
that starts with a slash leads out of the folder. -/
def read? (folder : Folder) (path : String) : Option ByteArray :=
  if path = "" ∨ path.toList.head? = some '/' ∨ maxPathBytes < path.utf8ByteSize then none
  else match (folder.follow [] (components path)).bind folder.lookup with
    | some (.file content) => some content
    | _ => none

end Folder

end CLex.CommandLine
