import AllowedValues.Files.Contents
import AllowedValues.Files.Path

/-!
A tree of files held in memory. A directory is there if it is named, or if anything in it is.
-/

namespace AllowedValues.Files

inductive Entry where
  | file (bytes : ByteArray)
  | directory

/-- The entries of a tree, each with the names that lead to it from the root. -/
structure Tree where
  entries : List (List Text × Entry)

namespace Tree

def entry? (tree : Tree) (place : List Text) : Option Entry :=
  match tree.entries.find? (·.1 = place) with
  | some (_, entry) => some entry
  | none =>
      if place = [] || tree.entries.any (place.isPrefixOf ·.1) then some .directory else none

/-- Follows names from a place in the tree. There is nothing outside of the root. -/
def follow (tree : Tree) (place : List Text) : List Text → Except Fault Entry
  | [] =>
      match tree.entry? place with
      | some entry => .ok entry
      | none => .error .notFound
  | name :: rest =>
      match tree.entry? place with
      | none => .error .notFound
      | some (.file _) => .error .notDirectory
      | some .directory =>
          if name = [] || name = ['.'] then tree.follow place rest
          else if name = ['.', '.'] then
            if place = [] then .error .notFound else tree.follow place.dropLast rest
          else tree.follow (place ++ [name]) rest

/-- What reading a path gives. A path that begins with a slash does not lead into the tree. -/
def read (tree : Tree) (path : Text) : Contents :=
  if path = [] || path.head? = some '/' then .error .notFound
  else
    match tree.follow [] (names path) with
    | .error fault => .error fault
    | .ok .directory => .error .isDirectory
    | .ok (.file bytes) => Contents.ofBytes bytes

end Tree

end AllowedValues.Files
