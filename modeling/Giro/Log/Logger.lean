import Giro.Config
import Giro.Log.Filter
import Giro.Log.Line

/-
  Giro.Log.Logger — the one logger of a program: set up once, and from then on it turns the
  events that pass its filter into lines.
-/

namespace Giro

structure Logger where
  filter : Filter
  /-- Lines are objects in JSON. -/
  json : Bool

namespace Logger

/-- The filter of the environment goes before the level of the configuration, unless it
    makes no sense. -/
def ofConfig (c : Config) (env : Option String) : Logger where
  filter := (env.bind Filter.strict?).getD (Filter.lenient c.logLevel)
  json := c.logJson

/-- Sets up the logger of a program that has none; says whether it did. -/
def install (current : Option Logger) (c : Config) (env : Option String) : Bool × Option Logger :=
  match current with
  | none => (true, some (ofConfig c env))
  | some logger => (false, some logger)

/-- The line for an event, if it is logged. -/
def line? (l : Logger) (e : Event) : Option String :=
  if l.filter.admits e then some (if l.json then e.toJson.toText else e.line) else none

end Logger

end Giro
