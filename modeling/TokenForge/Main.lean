import Std.Time.DateTime
import TokenForge.Run

/-!
# The program

The outer layer: it reads the files and variables that a run may ask for, draws the nonce, and
prints what the run leaves behind.
-/

namespace TokenForge.Program

/-- An error code, whatever sign the system gives it. -/
def errorCode (code : UInt32) : Nat :=
  if code.toNat < 0x80000000 then code.toNat else 0x100000000 - code.toNat

def readFault : IO.Error → ReadFault
  | .noFileOrDirectory _ _ _ => .notFound
  | .inappropriateType _ code _ => if errorCode code = 20 then .notDirectory else .isDirectory
  | .invalidArgument _ code _ => if errorCode code = 36 then .nameTooLong else .zeroInName
  | .permissionDenied _ code _ =>
    .other ("Permission denied (os error " ++ toString (errorCode code) ++ ")")
  | e => .other (toString e)

def readPath (path : Path) : IO (Except ReadFault Bytes) := do
  try
    return .ok (← IO.FS.readBinFile path.shown).toList
  catch e => return .error (readFault e)

/-- The disk as far as some paths go. -/
def snapshot (paths : List Path) : IO Disk := do
  let reads ← paths.mapM fun path => return (path, ← readPath path)
  return fun path => (reads.lookup path).getD (.error .notFound)

/-- The environment as far as some names go. -/
def environment (names : List String) : IO Environment := do
  let found ← names.mapM fun name => return (utf8 name, (← IO.getEnv name).map utf8)
  return fun name => (found.lookup name).join

/-- How many random bytes make a nonce; so many that no nonce is much likelier than another. -/
def nonceSize : Nat := 48

def drawNonce : IO P256.Scalar := do
  return P256.Scalar.fold (ofBytes (← IO.getRandomBytes nonceSize.toUSize).toList)

def column (width n : Nat) : String :=
  let digits := natDigits n
  String.ofList (List.replicate (width - digits.length) '0' ++ digits)

/-- The time at which events are shown. -/
def timeStamp : IO String := do
  let now ← Std.Time.Timestamp.now
  let t := Std.Time.PlainDateTime.ofWallTime (.ofNanoseconds now.toNanosecondsSinceUnixEpoch)
  return column 4 t.year.toInt.toNat ++ "-" ++ column 2 t.month.toNat ++ "-"
    ++ column 2 t.day.toNat ++ "T" ++ column 2 t.hour.toNat ++ ":" ++ column 2 t.minute.toNat
    ++ ":" ++ column 2 t.second.toNat ++ "." ++ column 6 (t.nanosecond.toNat / 1000) ++ "Z"

end TokenForge.Program

open TokenForge Program in
def main (args : List String) : IO UInt32 := do
  let words := args.map utf8
  let env ← environment (wantedVariables words)
  let disk ← snapshot (wantedFiles words)
  let outcome := run env disk (← drawNonce) words
  (← IO.getStderr).putStr (outcome.diagnostics (← timeStamp))
  (← IO.getStdout).putStr outcome.output
  return outcome.exit.toUInt32
