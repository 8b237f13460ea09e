/-
Names of files.

A name is a path: its components are what stands between slashes.  Empty components and single
dots say nothing and are dropped, double dots stay.  A name that starts with slashes is counted
from the root; exactly two of them are a root of their own and are kept.

Main definitions:

* `Edl.Files.Name` — a path;
* `Edl.Files.Name.ofText`, `Edl.Files.Name.text` — reading and writing it;
* `Edl.Files.address` — the address of a file at an absolute place.
-/

import Edl.Text.Lines
import Edl.Text.Utf8

set_option relaxedAutoImplicit false
set_option autoImplicit false

namespace Edl.Files

/-- A path: the slashes it starts with, and its components. -/
structure Name where
  root : String
  parts : List String
  deriving DecidableEq, Repr

namespace Name

/-- The path that a text names. -/
def ofText (text : String) : Name where
  root :=
    match (text.toList.takeWhile (· == '/')).length with
    | 0 => ""
    | 2 => "//"
    | _ => "/"
  parts := ((Text.cutAt '/' text.toList).map String.ofList).filter fun part =>
    part != "" && part != "."

/-- Whether a path is counted from the root. -/
def isAbsolute (n : Name) : Bool :=
  n.root != ""

/-- The written form of a path. -/
def text (n : Name) : String :=
  if n.root = "" && n.parts.isEmpty then "." else n.root ++ "/".intercalate n.parts

end Name

/-- The upper-case hexadecimal digit of a number below sixteen. -/
def upperHexDigit (n : Nat) : Char :=
  if n < 10 then Char.ofNat (n + 48) else Char.ofNat (n + 55)

/-- An octet in an address: unreserved characters and slashes stand for themselves. -/
def addressOctet (octet : UInt8) : List Char :=
  let c := Char.ofNat octet.toNat
  if octet < 0x80 && (c.isAlphanum || c == '_' || c == '.' || c == '-' || c == '~' || c == '/') then
    [c]
  else ['%', upperHexDigit (octet.toNat / 16), upperHexDigit (octet.toNat % 16)]

/-- The address of the file at an absolute place. -/
def address (path : String) : String :=
  "file://" ++ String.ofList ((Text.Utf8.encode path.toList).flatMap addressOctet)

example : (Name.ofText "./sub//x.edl/").text = "sub/x.edl" := by decide +kernel
example : (Name.ofText "//a/../b").text = "//a/../b" := by decide +kernel
example : (Name.ofText "").text = "." := by decide +kernel

end Edl.Files
