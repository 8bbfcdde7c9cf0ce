import Giro.Event
import Giro.Text.Alphanumeric
import Giro.Text.Blank
import Giro.Text.Digits

/-
  Giro.Log.Filter — which events are logged.

  A filter is a list of directives: `level` for everything, `target=level` for what comes
  from a part of the program, or `target` for all of that. The directive with the longest
  target that the event's target begins with decides, of two with the same target the
  later one; where none applies nothing is logged.
-/

namespace Giro

/-- The part of the program that a directive speaks of, if not all of it, and the least
    serious level it lets through, if any. -/
structure Directive where
  target : Option String
  threshold : Option Level
  deriving DecidableEq

namespace Directive

/-- The levels with their numbers as thresholds; 0 lets nothing through. -/
def thresholds : List (Nat × String × Option Level) :=
  [(0, "off", none), (1, "error", some .error), (2, "warn", some .warn), (3, "info", some .info),
    (4, "debug", some .debug), (5, "trace", some .trace)]

/-- The threshold that a word in any case or a number names. -/
def threshold? (cs : List Char) : Option (Option Level) :=
  let word := String.ofList (cs.map Char.toLower)
  let number := Text.decimal? (Text.dropPlus cs)
  (thresholds.find? fun t => number == some t.1 || word == t.2.1).map (·.2.2)

/-- A directive begins with a letter, a number, `-`, `:` or `_`. -/
def isOpening (c : Char) : Bool := Text.isAlphanumeric c || c == '-' || c == ':' || c == '_'

/-- The directive that a text writes. Blanks belong to the text: a level with one beside it
    is a target, and in front of `target=level` there is none. -/
def ofChars? (cs : List Char) : Option Directive := do
  let trimmed := Text.trimStart cs
  guard (trimmed.head?.any isOpening && !cs.contains '[')
  match cs.span (· != '=') with
  | (_, []) =>
    match threshold? cs with
    | some threshold => return ⟨none, threshold⟩
    | none => return ⟨some (String.ofList cs), some .trace⟩
  | (target, _ :: level) =>
    guard (cs.length == trimmed.length)
    let threshold ← if level.isEmpty then some (some .trace) else threshold? level
    return ⟨some (String.ofList target), threshold⟩

/-- The directive speaks of events from there. -/
def covers (d : Directive) (target : String) : Bool :=
  match d.target with
  | none => true
  | some part => part.toList.isPrefixOf target.toList

/-- A longer target goes before a shorter one. -/
def weight (d : Directive) : Nat :=
  match d.target with
  | none => 0
  | some part => part.length + 1

def admits (d : Directive) (level : Level) : Bool := d.threshold.any (·.rank ≤ level.rank)

end Directive

/-- Directives in the order they are given. -/
abbrev Filter := List Directive

namespace Filter

/-- The texts between commas that are not empty. -/
def pieces (text : String) : List (List Char) := (text.toList.splitOn ',').filter (! ·.isEmpty)

/-- The filter that a text writes, if each piece is a directive. -/
def strict? (text : String) : Option Filter := (pieces text).mapM Directive.ofChars?

/-- The directives in a text; what is none is left out. Without any, errors are logged. -/
def lenient (text : String) : Filter :=
  match (pieces text).filterMap Directive.ofChars? with
  | [] => [⟨none, some .error⟩]
  | filter => filter

/-- The directive that decides about events from a target. -/
def deciding (f : Filter) (target : String) : Option Directive :=
  (f.filter (·.covers target)).foldl (fun best d =>
    match best with
    | some b => if b.weight ≤ d.weight then some d else some b
    | none => some d) none

def admits (f : Filter) (e : Event) : Bool := (f.deciding e.target).any (·.admits e.level)

end Filter

end Giro
