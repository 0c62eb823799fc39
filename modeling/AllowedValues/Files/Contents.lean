import AllowedValues.Text

/-!
What reading a file gives: its text, or the reason why there is none.
-/

namespace AllowedValues.Files

inductive Fault where
  | notFound
  | isDirectory
  /-- The path goes through a file as if it were a directory. -/
  | notDirectory
  /-- The bytes of the file are not the UTF-8 form of a text. -/
  | notUtf8
  /-- Another reason, in the words of the system. -/
  | other (reason : Text)
deriving DecidableEq, Repr

def Fault.message : Fault → Text
  | notFound => "No such file or directory (os error 2)".toList
  | isDirectory => "Is a directory (os error 21)".toList
  | notDirectory => "Not a directory (os error 20)".toList
  | notUtf8 => "stream did not contain valid UTF-8".toList
  | other reason => reason

abbrev Contents := Except Fault Text

/-- The text whose UTF-8 form the bytes are. -/
def Contents.ofBytes (bytes : ByteArray) : Contents :=
  match bytes.utf8Decode? with
  | some characters => .ok characters.toList
  | none => .error .notUtf8

end AllowedValues.Files
