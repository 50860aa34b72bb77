import Docbase.Log.Level
import Docbase.Log.Template

/-!
# Loggers

Records go to named loggers. The first logger that is made sets up the output, once for all.

* `Setup.ensure`: sets up the output if that was not done yet.
* `Logger.make`: a logger of a name.
* `Logger.record`: the record of a message.
-/

namespace Docbase.Log

/-- The form of a line of output. -/
def lineFormat : String := "%(asctime)s %(levelname)s [%(name)s] %(message)s"

/-- Whether the output is set up. -/
structure Setup where
  done : Bool := false
  deriving DecidableEq, Repr

/-- Sets up the output, unless that was done before; the level is given if it was done now. -/
def Setup.ensure (setup : Setup) (level : Value) : Except Misuse (Option Level × Setup) :=
  if setup.done then .ok (none, setup)
  else (Level.ofValue level).map fun l => (some l, ⟨true⟩)

/-- A named logger. -/
structure Logger where
  name : String
  deriving DecidableEq, Repr, Inhabited

/-- A record of a message. -/
structure Record where
  level : Level
  text : String
  deriving DecidableEq, Repr

namespace Logger

/-- The name of loggers that are given none. -/
def defaultName : String := "pgdocstore"

/-- The logger of what is given as a name. -/
def make (name : Value) : Except Misuse Logger :=
  match name with
  | .str s => .ok ⟨if s.isEmpty then defaultName else s⟩
  | v => if v.truthy then .error .wrongType else .ok ⟨defaultName⟩

/-- The record of a message. -/
def record (level : Level) (template : Value) (values : List Value) : Except Misuse Record :=
  (Template.fill template values).map (⟨level, ·⟩)

/-- The record of a statement that is about to be executed. -/
def statementRecord (statement params : Value) : Except Misuse Record :=
  record .debug (.str "SQL: %s params=%s") [statement, params]

end Logger

end Docbase.Log
