import TokenForge.Disk.Path

/-!
# Files as they are read

A *disk* answers every path with the bytes of a file or with the reason why there are none; what is
read from it is a text, so bytes that are not UTF-8 are one more reason.

* `ReadFault` — the reasons, and `ReadFault.message`, their wording;
* `Disk.readText` — the text of a file.
-/

namespace TokenForge

/-- Why a file has no text. -/
inductive ReadFault where
  | notFound
  /-- The path goes through something that is no directory. -/
  | notDirectory
  | isDirectory
  /-- The path, or a part of it, is too long. -/
  | nameTooLong
  | zeroInName
  /-- The bytes of the file are not UTF-8. -/
  | notText
  /-- Another reason, in the words of the system. -/
  | other (reason : String)
  deriving DecidableEq, Repr

def ReadFault.message : ReadFault → String
  | .notFound => "No such file or directory (os error 2)"
  | .notDirectory => "Not a directory (os error 20)"
  | .isDirectory => "Is a directory (os error 21)"
  | .nameTooLong => "File name too long (os error 36)"
  | .zeroInName => "file name contained an unexpected NUL byte"
  | .notText => "stream did not contain valid UTF-8"
  | .other reason => reason

/-- What the files are: an answer to every path. -/
abbrev Disk := Path → Except ReadFault Bytes

def Disk.readText (disk : Disk) (path : Path) : Except ReadFault String :=
  match disk path with
  | .error fault => .error fault
  | .ok bytes =>
    match text? bytes with
    | some text => .ok text
    | none => .error .notText

end TokenForge
