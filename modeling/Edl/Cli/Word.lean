/-
Words of a command line.

Each word is classified before any is acted on.  A word is an argument unless it starts with a
hyphen; a lone hyphen, a negative number, and an unknown option with a space in it are arguments
too.  An option may carry its value after an equals sign, and a long option may be cut short as
long as only one option starts like that.  After a double hyphen all words are arguments.

Main definitions:

* `Edl.Cli.Word` — a classified word;
* `Edl.Cli.classify` — the class of a word among given options;
* `Edl.Cli.classifyAll` — the classes of a whole command line;
* `Edl.Cli.refusedCluster?` — what is wrong with characters that follow a short flag.
-/

import Edl.Text.Digit
import Edl.Text.Search

set_option relaxedAutoImplicit false
set_option autoImplicit false

namespace Edl.Cli

/-- A classified word of a command line, where `κ` are the options. -/
inductive Word (κ : Type) where
  | argument
  | separator
  | option (kind : κ) (value : Option String)
  | cluster (kind : κ) (more : List Char)
  | unknown

/-- The options that can be meant by a word, when it could be several. -/
structure Ambiguous where
  word : String
  candidates : List String

/-- An optional sign of line end aside, digits alone or after a point, behind a hyphen. -/
def isNegativeNumber : List Char → Bool
  | '-' :: rest =>
      let body := if rest.getLast? = some '\n' then rest.dropLast else rest
      let fraction := body.dropWhile Text.isDecimalDigit
      match fraction with
      | [] => !body.isEmpty
      | '.' :: digits => !digits.isEmpty && digits.all Text.isDecimalDigit
      | _ => false
  | _ => false

/-- The text before the first equals sign, and the text after it if there is one. -/
def splitValue (word : List Char) : List Char × Option String :=
  (word.takeWhile (· != '='),
    match word.dropWhile (· != '=') with
    | _ :: value => some (String.ofList value)
    | [] => none)

/-- The options that a word with a hyphen can mean although it is none of them: a long word, those
it is the start of; a short word, the flag that its first two characters are. -/
def candidates {κ : Type} (options : List (String × κ)) (word : List Char) :
    List (String × Word κ) :=
  match word with
  | '-' :: '-' :: _ =>
      let (start, value) := splitValue word
      options.filterMap fun (name, kind) =>
        if start.isPrefixOf name.toList then some (name, .option kind value) else none
  | _ =>
      options.filterMap fun (name, kind) =>
        if name.toList = word.take 2 then some (name, .cluster kind (word.drop 2)) else none

/-- The class of a word with a hyphen that is no option and cannot be read as one. -/
def classifyRest {κ : Type} (word : List Char) : Word κ :=
  if isNegativeNumber word || word.contains ' ' then .argument else .unknown

/-- The class of a word other than the separator. -/
def classify {κ : Type} (options : List (String × κ)) (word : String) :
    Except Ambiguous (Word κ) :=
  match word.toList with
  | '-' :: _ :: _ =>
      match options.lookup word with
      | some kind => .ok (.option kind none)
      | none =>
          let (start, value) := splitValue word.toList
          match value, options.lookup (String.ofList start) with
          | some value, some kind =>
              -- A value behind a short flag is judged like the characters of a cluster.
              if start.length = 2 then .ok (.cluster kind value.toList)
              else .ok (.option kind (some value))
          | _, _ =>
              match candidates options word.toList with
              | [] => .ok (classifyRest word.toList)
              | [(_, w)] => .ok w
              | many => .error ⟨word, many.map Prod.fst⟩
  | _ => .ok .argument

/-- The classes of the words of a command line. -/
def classifyAll {κ : Type} (options : List (String × κ)) :
    List String → Except Ambiguous (List (String × Word κ))
  | [] => .ok []
  | "--" :: rest => .ok (("--", .separator) :: rest.map fun word => (word, .argument))
  | word :: rest => do
      let w ← classify options word
      let ws ← classifyAll options rest
      return (word, w) :: ws

/-- Characters after a short flag are more short flags.  From the first that is none, the text is
refused; so is the empty text behind an equals sign. -/
def refusedCluster? (isFlag : Char → Bool) (more : List Char) : Option String :=
  if more = [] then some ""
  else
    match more.dropWhile isFlag with
    | [] => none
    | rest => some (String.ofList rest)

example : refusedCluster? (· == 'h') ['h', 'h'] = none := by decide
example : refusedCluster? (· == 'h') ['h', '=', 'x'] = some "=x" := by decide
example : refusedCluster? (· == 'h') [] = some "" := by decide

end Edl.Cli
