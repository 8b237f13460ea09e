/-
The program.

The files that a command line names are read from the disk; everything else is decided by
`Edl.Cli.run`.
-/

import Edl.Cli.Lint

set_option relaxedAutoImplicit false
set_option autoImplicit false

namespace Edl.Main

/-- The cause with a given number of the operating system. -/
def causeOf (number : Nat) (words : String) : Files.Cause :=
  match number with
  | 2 => .missing
  | 13 => .other 13 "Permission denied"
  | 20 => .notDirectory
  | 21 => .isDirectory
  | 36 => .nameTooLong
  | _ => .other number words

/-- The number of the operating system behind a code, which may be negated. -/
def numberOf (code : UInt32) : Nat :=
  if code.toNat < Nat.pow 2 31 then code.toNat else Nat.pow 2 32 - code.toNat

/-- The cause of a failure. -/
def cause (e : IO.Error) : Files.Cause :=
  match e with
  | .noFileOrDirectory _ code words => causeOf (numberOf code) words
  | .permissionDenied _ code words => causeOf (numberOf code) words
  | .inappropriateType _ code words => causeOf (numberOf code) words
  | .invalidArgument _ code words => causeOf (numberOf code) words
  | .resourceExhausted _ code words => causeOf (numberOf code) words
  | .noSuchThing _ code words => causeOf (numberOf code) words
  | .otherError code words => causeOf (numberOf code) words
  | e => .other 5 (toString e)

/-- The address and the octets of a file on the disk.  A directory can be opened by the system, but
not as a file. -/
def readFile (name : Files.Name) : IO (Except Files.Failure (String × List UInt8)) := do
  let opened ← (IO.FS.Handle.mk name.text .read).toBaseIO
  match opened with
  | .error e => return .error (.opening (cause e))
  | .ok handle =>
      match ← handle.readBinToEnd.toBaseIO with
      | .error e =>
          let failure := cause e
          return .error (if failure = .isDirectory then .opening failure else .reading failure)
      | .ok octets =>
          match ← (IO.FS.realPath name.text).toBaseIO with
          | .error e => return .error (.opening (cause e))
          | .ok place => return .ok (Files.address place.toString, octets.toList)

end Edl.Main

/-- Reads the files that the command line names, and prints the outcome. -/
def main (words : List String) : IO UInt32 := do
  let names := match Edl.Cli.parse words with
    | .ok (.lint _ options) => options.files.map Edl.Files.Name.ofText
    | _ => []
  let files ← names.mapM fun name => do return (name, ← Edl.Main.readFile name)
  let outcome :=
    Edl.Cli.run (fun name => (files.lookup name).getD (.error (.opening .missing))) words
  IO.print outcome.stdout
  IO.eprint outcome.stderr
  match outcome.exit with
  | .ok status => return status.toUInt32
  | .error fault =>
      IO.eprintln (fault.kind ++ ": " ++ fault.message)
      return 1
