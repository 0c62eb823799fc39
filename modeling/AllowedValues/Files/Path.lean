import AllowedValues.Text

/-!
Paths of files: names with slashes between them. An empty name and a single dot name the directory
that has been reached, two dots the one around it.
-/

namespace AllowedValues.Files

def names : Text → List Text
  | [] => [[]]
  | c :: s =>
      match c, names s with
      | '/', rest => [] :: rest
      | c, [] => [[c]]
      | c, name :: rest => (c :: name) :: rest

/-- The last name of a path that is not the directory already reached. -/
def lastName? (path : Text) : Option Text :=
  (names path).reverse.find? fun name => name ≠ [] && name ≠ ['.']

/-- The extension of a path: what follows on the last dot of its last name. The dot at the very
beginning of a name does not count, nor do two dots alone. -/
def extension? (path : Text) : Option Text := do
  let name ← lastName? path
  let extension := (name.reverse.takeWhile (· ≠ '.')).reverse
  if name = "..".toList || name.length ≤ extension.length + 1 then none else some extension

end AllowedValues.Files
