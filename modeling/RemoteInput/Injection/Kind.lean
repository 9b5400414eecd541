import RemoteInput.Injection.Backends
import RemoteInput.Text.Ascii

/-!
# Choosing a backend

A setting names the backend that a running host uses.  `auto` leaves the choice
to the machine, and here it means the logging backend.  The native backend of
another machine can be named but not started.
-/

namespace RemoteInput

/-- The backends that a setting can name. -/
inductive BackendKind where
  | auto
  | log
  | macos
  deriving DecidableEq

namespace BackendKind

/-- Every kind, in the order in which they are listed to a user. -/
def all : List BackendKind := [.auto, .log, .macos]

/-- The name of a kind in a setting. -/
def name : BackendKind → String
  | .auto => "auto"
  | .log => "log"
  | .macos => "macos"

/-- The kind with a name. -/
def ofName? (text : String) : Option BackendKind := all.find? fun kind => kind.name == text

/-- The kind with a name whose ASCII letters may be in either case. -/
def ofNameAnyCase? (text : String) : Option BackendKind :=
  all.find? fun kind => asciiUpper kind.name == asciiUpper text

/-- The kind that is meant: `auto` stands for another one. -/
def resolve : BackendKind → BackendKind
  | .auto => .log
  | kind => kind

/-- Starts the backend of a kind. -/
def build (kind : BackendKind) : Except InjectionError (Injection.Backend Unit) :=
  match kind.resolve with
  | .log => .ok Injection.logging
  | .macos | .auto => .error .unavailable

end BackendKind

end RemoteInput
