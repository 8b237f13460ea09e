/-
The log of the language tools.

A record says what happened; its level, the component that speaks and its text follow from that.

Main definitions:

* `Edl.Log.Level` — how urgent a record is;
* `Edl.Log.Record` — what happened;
* `Edl.Log.Record.render` — the record on one line.
-/

set_option relaxedAutoImplicit false
set_option autoImplicit false

namespace Edl.Log

/-- How urgent a record is. -/
inductive Level where
  | debug
  | info
  | warning
  | error
  deriving DecidableEq, Repr

namespace Level

/-- The name of a level. -/
def name : Level → String
  | debug => "DEBUG"
  | info => "INFO"
  | warning => "WARNING"
  | error => "ERROR"

/-- The levels from the least urgent to the most. -/
def all : List Level :=
  [debug, info, warning, error]

/-- The rank of a level. -/
def rank : Level → Nat
  | debug => 0
  | info => 1
  | warning => 2
  | error => 3

end Level

/-- Something that happened. -/
inductive Record where
  | commandStarted (name : String)
  | validated (uri : String) (lineCount findings : Nat)
  | skipped (uri : String)
  | documentChanged (uri : String) (before after : Int)
  | informed (text : String)
  | warned (text : String)
  | activated
  | deactivated
  deriving DecidableEq, Repr

namespace Record

/-- How urgent a record is. -/
def level : Record → Level
  | commandStarted _ => .debug
  | validated .. => .debug
  | skipped _ => .debug
  | documentChanged .. => .debug
  | informed _ => .info
  | warned _ => .warning
  | activated => .info
  | deactivated => .info

/-- The component that speaks. -/
def source : Record → String
  | commandStarted _ => "edlpy.cli"
  | validated .. => "edlpy.pipeline.entrypoints"
  | skipped _ => "edlpy.pipeline.entrypoints"
  | documentChanged .. => "edlpy.workspace.linter"
  | informed _ => "edlpy.workspace.host"
  | warned _ => "edlpy.workspace.host"
  | activated => "edlpy.service"
  | deactivated => "edlpy.service"

/-- What a record says. -/
def text : Record → String
  | commandStarted name => s!"Running command {name}"
  | validated uri lineCount findings =>
      s!"Validated {uri}: {lineCount} lines, {findings} diagnostics"
  | skipped uri => s!"Linting disabled; skipped {uri}"
  | documentChanged uri before after => s!"Document {uri} changed (v{before} -> v{after})"
  | informed text => text
  | warned text => text
  | activated => "EDL language support is now active"
  | deactivated => "EDL language support is now deactivated"

/-- The record on one line. -/
def render (r : Record) : String :=
  r.level.name ++ " " ++ r.source ++ ": " ++ r.text

end Record

end Edl.Log
