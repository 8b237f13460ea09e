/-
The vocabulary of the event description language, and what is said about it.

Keywords, built-in functions and types are listed in the order in which they are offered.  Not
every word has a documentation of its own; the others share one for their kind.  Words and flow
operators that are explained under the cursor have a longer text.

Main definitions:

* `Edl.Vocabulary.keywords`, `Edl.Vocabulary.functions`, `Edl.Vocabulary.types` — the words;
* `Edl.Vocabulary.keywordDocs`, `Edl.Vocabulary.functionDocs`, `Edl.Vocabulary.typeDocs` — their
  short documentation;
* `Edl.Vocabulary.hoverDocs` — the long texts.
-/

set_option relaxedAutoImplicit false
set_option autoImplicit false

namespace Edl.Vocabulary

/-- The keywords. -/
def keywords : List String :=
  ["event", "trigger", "action", "condition", "state", "transition", "handler", "listener",
   "async", "sync", "parallel", "sequential", "priority", "timeout", "if", "else", "while", "for",
   "do", "break", "continue", "return", "switch", "case", "default", "import", "export", "module",
   "namespace", "use", "include"]

/-- The built-in functions. -/
def functions : List String :=
  ["emit", "listen", "schedule", "delay", "cancel", "log", "debug", "error", "warn", "info"]

/-- The types. -/
def types : List String :=
  ["int", "float", "string", "bool", "void", "any", "Event", "State", "Transition", "Handler",
   "Timer", "Queue", "Channel"]

/-- What is said about keywords that have a documentation of their own. -/
def keywordDocs : List (String × String) :=
  [("event", "Defines an event that can be triggered in the system"),
   ("trigger", "Activates an event or condition"),
   ("action", "Defines an action to be executed"),
   ("condition", "Specifies a condition for event handling"),
   ("state", "Defines a state in a state machine"),
   ("transition", "Defines a transition between states"),
   ("handler", "Defines an event handler function"),
   ("listener", "Creates an event listener"),
   ("async", "Marks a function as asynchronous"),
   ("sync", "Marks a function as synchronous"),
   ("parallel", "Executes operations in parallel"),
   ("sequential", "Executes operations sequentially")]

/-- What is said about the built-in functions. -/
def functionDocs : List (String × String) :=
  [("emit", "Emits an event to the system"),
   ("listen", "Listens for specific events"),
   ("schedule", "Schedules an event for future execution"),
   ("delay", "Delays execution for a specified time"),
   ("cancel", "Cancels a scheduled event"),
   ("log", "Logs a message"),
   ("debug", "Logs a debug message"),
   ("error", "Logs an error message"),
   ("warn", "Logs a warning message"),
   ("info", "Logs an info message")]

/-- What is said about types that have a documentation of their own. -/
def typeDocs : List (String × String) :=
  [("Event", "Represents an event object"),
   ("State", "Represents a state in a state machine"),
   ("Transition", "Represents a state transition"),
   ("Handler", "Represents an event handler"),
   ("Timer", "Represents a timer object"),
   ("Queue", "Represents an event queue"),
   ("Channel", "Represents a communication channel")]

/-- What is said about any other keyword. -/
def defaultKeywordDoc : String := "EDL keyword"

/-- What is said about any other function. -/
def defaultFunctionDoc : String := "EDL built-in function"

/-- What is said about any other type. -/
def defaultTypeDoc : String := "EDL type"

/-- The words and operators that are explained under the cursor. -/
def hoverDocs : List (String × String) :=
  [("event",
      "**event** - Defines an event that can be triggered in the system\n\n```edl\n" ++
      "event user_login \x7b\n    user_id: string\n    timestamp: int\n\x7d\n```"),
   ("trigger",
      "**trigger** - Activates an event or condition\n\n```edl\ntrigger user_login_event\n```"),
   ("state",
      "**state** - Defines a state in a state machine\n\n```edl\nstate idle \x7b\n" ++
      "    on_event -> active\n\x7d\n```"),
   ("transition",
      "**transition** - Defines a transition between states\n\n```edl\n" ++
      "transition idle -> active on user_input\n```"),
   ("emit",
      "**emit(event, data?)** - Emits an event to the system\n\n```edl\n" ++
      "emit(user_login, \x7b user_id: \"123\" \x7d)\n```"),
   ("listen",
      "**listen(event, handler)** - Listens for specific events\n\n```edl\n" ++
      "listen(user_login, handle_login)\n```"),
   ("schedule",
      "**schedule(event, delay)** - Schedules an event for future execution\n\n```edl\n" ++
      "schedule(cleanup_event, 3600) // 1 hour delay\n```"),
   ("delay",
      "**delay(milliseconds)** - Delays execution for a specified time\n\n```edl\n" ++
      "delay(1000) // Wait 1 second\n```"),
   ("Event",
      "**Event** - Base type for all events in the system\n\n" ++
      "Contains timestamp, type, and data properties"),
   ("State",
      "**State** - Represents a state in a state machine\n\n" ++
      "Contains name, transitions, and handlers"),
   ("Handler",
      "**Handler** - Function type for event handlers\n\n```edl\n" ++
      "Handler<EventType> = (event: EventType) -> void\n```"),
   ("->", "**->** - Event flow operator\n\nDefines the flow from one event to another"),
   ("=>",
      "**=>** - Function arrow operator\n\nUsed in lambda expressions and function definitions"),
   ("<-", "**<-** - Reverse flow operator\n\nDefines reverse event flow or data binding"),
   ("|>", "**|>** - Pipe operator\n\nPipes data through a series of transformations")]

end Edl.Vocabulary
