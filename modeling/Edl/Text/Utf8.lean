/-
Strict UTF-8.

A text is read from octets, and reading stops at the first place where they are not the encoding of
a character.  The refusal says where that is, which octets are at fault, and why: an octet that
starts no character, an octet that cannot continue the character begun before it, or the end of the
data inside a character.  The octets at fault are the start of the character and what correctly
continues it.

Main definitions:

* `Edl.Text.Utf8.encode` — the octets of a text;
* `Edl.Text.Utf8.Fault` — why, where and on which octets reading stopped;
* `Edl.Text.Utf8.decode` — the text that octets encode.
-/

import Edl.Text.Quoted

set_option relaxedAutoImplicit false
set_option autoImplicit false

namespace Edl.Text.Utf8

/-- The octets of a text. -/
def encode (text : List Char) : List UInt8 :=
  text.flatMap String.utf8EncodeChar

/-- Why octets are not the encoding of a text. -/
inductive Reason where
  | start
  | continuation
  | ending
  deriving DecidableEq, Repr

/-- The words for a reason. -/
def Reason.text : Reason → String
  | start => "invalid start byte"
  | continuation => "invalid continuation byte"
  | ending => "unexpected end of data"

/-- Where reading stopped, on which octets, and why. -/
structure Fault where
  position : Nat
  octets : List UInt8
  reason : Reason
  deriving DecidableEq, Repr

/-- The message that goes with a refusal. -/
def Fault.message (f : Fault) : String :=
  let place := match f.octets with
    | [octet] => "byte 0x" ++ String.ofList (hex 2 octet.toNat) ++ " in position " ++
        toString f.position
    | octets => "bytes in position " ++ toString f.position ++ "-" ++
        toString (f.position + octets.length - 1)
  "'utf-8' codec can't decode " ++ place ++ ": " ++ f.reason.text

/-- The number of octets of a character that starts with the given one; zero if none does. -/
def width (octet : UInt8) : Nat :=
  if octet < 0x80 then 1
  else if octet < 0xC2 then 0
  else if octet < 0xE0 then 2
  else if octet < 0xF0 then 3
  else if octet < 0xF5 then 4
  else 0

/-- Whether an octet continues a character. -/
def continues (octet : UInt8) : Bool :=
  0x80 ≤ octet && octet < 0xC0

/-- Whether an octet may come second after the given first one: overlong forms, surrogates and
numbers beyond the last character are ruled out here. -/
def continuesFirst (first octet : UInt8) : Bool :=
  if first = 0xE0 then 0xA0 ≤ octet && octet < 0xC0
  else if first = 0xED then 0x80 ≤ octet && octet < 0xA0
  else if first = 0xF0 then 0x90 ≤ octet && octet < 0xC0
  else if first = 0xF4 then 0x80 ≤ octet && octet < 0x90
  else continues octet

/-- The last six bits of a continuing octet. -/
def payload (octet : UInt8) : Nat :=
  octet.toNat % 64

/-- The text that octets encode, the first of which stands at `position`. -/
def decodeFrom (position : Nat) : List UInt8 → Except Fault (List Char)
  | [] => .ok []
  | a :: rest =>
      match width a with
      | 1 => (decodeFrom (position + 1) rest).map (Char.ofNat a.toNat :: ·)
      | 2 =>
          match rest with
          | [] => .error ⟨position, [a], .ending⟩
          | b :: rest =>
              if !continues b then .error ⟨position, [a], .continuation⟩
              else
                (decodeFrom (position + 2) rest).map
                  (Char.ofNat (a.toNat % 32 * 64 + payload b) :: ·)
      | 3 =>
          match rest with
          | [] => .error ⟨position, [a], .ending⟩
          | b :: rest =>
              if !continuesFirst a b then .error ⟨position, [a], .continuation⟩
              else
                match rest with
                | [] => .error ⟨position, [a, b], .ending⟩
                | c :: rest =>
                    if !continues c then .error ⟨position, [a, b], .continuation⟩
                    else
                      (decodeFrom (position + 3) rest).map
                        (Char.ofNat ((a.toNat % 16 * 64 + payload b) * 64 + payload c) :: ·)
      | 4 =>
          match rest with
          | [] => .error ⟨position, [a], .ending⟩
          | b :: rest =>
              if !continuesFirst a b then .error ⟨position, [a], .continuation⟩
              else
                match rest with
                | [] => .error ⟨position, [a, b], .ending⟩
                | c :: rest =>
                    if !continues c then .error ⟨position, [a, b], .continuation⟩
                    else
                      match rest with
                      | [] => .error ⟨position, [a, b, c], .ending⟩
                      | d :: rest =>
                          if !continues d then .error ⟨position, [a, b, c], .continuation⟩
                          else
                            (decodeFrom (position + 4) rest).map
                              (Char.ofNat (((a.toNat % 8 * 64 + payload b) * 64 + payload c) * 64 +
                                payload d) :: ·)
      | _ => .error ⟨position, [a], .start⟩

/-- The text that octets encode. -/
def decode (octets : List UInt8) : Except Fault (List Char) :=
  decodeFrom 0 octets

example : (decode (encode ['a', 'é', '日', '😀'])).toOption = some ['a', 'é', '日', '😀'] := by
  decide +kernel
example : (decode [0x61, 0xED, 0xA0, 0x80]).toOption = none := by decide +kernel

end Edl.Text.Utf8
