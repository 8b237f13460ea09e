/-
File trees and how names are looked up in them.

A tree has files and directories at absolute places, which are lists of components from the root.
A name is looked up component by component from the current directory, or from the root if it is
absolute.  What cannot be read is reported with its cause, by the number and words of the operating
system.

Main definitions:

* `Edl.Files.Cause`, `Edl.Files.Failure`, `Edl.Files.Unreadable` — why a file could not be read;
* `Edl.Files.Tree` — files and directories;
* `Edl.Files.Tree.locate`, `Edl.Files.Tree.read` — looking up a name, and reading the file there.
-/

import Edl.Files.Name

set_option relaxedAutoImplicit false
set_option autoImplicit false

namespace Edl.Files

/-- Why the operating system could not give a file. -/
inductive Cause where
  | missing
  | notDirectory
  | isDirectory
  | nameTooLong
  | other (number : Nat) (words : String)
  deriving DecidableEq, Repr

namespace Cause

/-- The number of a cause. -/
def number : Cause → Nat
  | missing => 2
  | notDirectory => 20
  | isDirectory => 21
  | nameTooLong => 36
  | other number _ => number

/-- The words for a cause. -/
def words : Cause → String
  | missing => "No such file or directory"
  | notDirectory => "Not a directory"
  | isDirectory => "Is a directory"
  | nameTooLong => "File name too long"
  | other _ words => words

/-- The number and the words of a cause. -/
def message (c : Cause) : String :=
  "[Errno " ++ toString c.number ++ "] " ++ c.words

end Cause

/-- What could not be done with a file: it could not be opened, or not be read once it was open. -/
inductive Failure where
  | opening (cause : Cause)
  | reading (cause : Cause)
  deriving DecidableEq, Repr

/-- Why a file could not be read as text. -/
inductive Unreadable where
  | system (failure : Failure) (name : Name)
  | encoding (fault : Text.Utf8.Fault)

/-- The message that goes with an unreadable file.  The system names a file that it cannot open, but
not one that it cannot read. -/
def Unreadable.message : Unreadable → String
  | system (.opening cause) name => cause.message ++ ": " ++ Text.quote name.text
  | system (.reading cause) _ => cause.message
  | encoding fault => fault.message

/-! ### Trees -/

/-- What stands at a place of a tree. -/
inductive Node where
  | directory
  | file (octets : List UInt8)

/-- A file tree: what stands where, and the place of the current directory.  The root is always
there. -/
structure Tree where
  nodes : List (List String × Node) := []
  current : List String := []

namespace Tree

/-- What stands at a place. -/
def node? (t : Tree) : List String → Option Node
  | [] => some .directory
  | place => t.nodes.lookup place

/-- The longest component that a place may have, in octets. -/
def maxComponent : Nat := 255

/-- The longest name that can be looked up, in octets. -/
def maxName : Nat := 4095

/-- The place reached from `place` by following components one after another. -/
def follow (t : Tree) (place : List String) : List String → Except Cause (List String)
  | [] => .ok place
  | part :: parts =>
      match t.node? place with
      | some .directory =>
          if part = ".." then t.follow place.dropLast parts
          else if maxComponent < part.utf8ByteSize then .error .nameTooLong
          else
            match t.node? (place ++ [part]) with
            | some _ => t.follow (place ++ [part]) parts
            | none => .error .missing
      | some (.file _) => .error .notDirectory
      | none => .error .missing

/-- The place that a name leads to. -/
def locate (t : Tree) (name : Name) : Except Cause (List String) :=
  if maxName < name.text.utf8ByteSize then .error .nameTooLong
  else t.follow (if name.isAbsolute then [] else t.current) name.parts

/-- The address and the octets of the file that a name leads to.  A file of a tree that can be
opened can be read. -/
def read (t : Tree) (name : Name) : Except Failure (String × List UInt8) :=
  match t.locate name with
  | .error cause => .error (.opening cause)
  | .ok place =>
      match t.node? place with
      | some (.file octets) => .ok (address ("/" ++ "/".intercalate place), octets)
      | some .directory => .error (.opening .isDirectory)
      | none => .error (.opening .missing)

/-- The tree with a directory, and those above it, at a place. -/
def addDirectory (t : Tree) (place : List String) : Tree :=
  { t with
    nodes := t.nodes ++ (List.range place.length).map fun n => (place.take (n + 1), .directory) }

/-- The tree with a file at a place, in directories that are made where they are missing. -/
def addFile (t : Tree) (place : List String) (octets : List UInt8) : Tree :=
  let t := t.addDirectory place.dropLast
  { t with nodes := (place, .file octets) :: t.nodes }

end Tree

end Edl.Files
