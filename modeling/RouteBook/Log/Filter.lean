import RouteBook.Log.Event
import RouteBook.Text.Blank
import RouteBook.Text.Search

/-! Which events are let through. A filter is a list of rules; for an event the rule with the longest target
that its own target starts with decides. A rule with a span name lets events inside such spans through
besides. -/

namespace RouteBook.Log

/-- The most verbose level that is let through; none lets nothing through. -/
abbrev Threshold := Option Level

structure Rule where
  target : List Char := []
  span : Option (List Char) := none
  threshold : Threshold := some .trace

abbrev Filter := List Rule

namespace Threshold

/-- A level by its name in any case, or by its number. -/
def parse? (text : List Char) : Option Threshold :=
  match String.ofList (text.map Char.toLower) with
  | "off" | "0" => some none
  | "error" | "1" => some (some .error)
  | "warn" | "2" => some (some .warn)
  | "info" | "3" => some (some .info)
  | "debug" | "4" => some (some .debug)
  | "trace" | "5" => some (some .trace)
  | _ => none

def admits (threshold : Threshold) (level : Level) : Bool :=
  match threshold with
  | some most => level.verbosity ≤ most.verbosity
  | none => false

end Threshold

namespace Rule

/-- Characters that a target may start with. -/
def startsTarget (c : Char) : Bool := c.isAlphanum || c = '-' || c = ':' || c = '_' || 127 < c.toNat

/-- The level after the equals sign; without one everything is let through. -/
def withLevel (rule : Rule) : List Char → Option Rule
  | [] => some rule
  | '=' :: [] => some rule
  | '=' :: level => (Threshold.parse? level).map fun threshold => { rule with threshold := threshold }
  | _ => none

/-- A rule: a level, or a target, a span in brackets or both, with or without a level. -/
def parse? (source : List Char) : Option Rule :=
  let text := Text.trim source
  let name := text.takeWhile fun c => c ≠ '=' && c ≠ '['
  let rest := text.drop name.length
  if text = [] then some {}
  else if name ≠ [] && !(name.head?.any startsTarget) then none
  else
    match rest with
    | [] =>
      match Threshold.parse? name with
      | some threshold => some { threshold := threshold }
      | none => some { target := name }
    | '[' :: inner =>
      let span := inner.takeWhile (· ≠ ']')
      match inner.drop span.length with
      | ']' :: level => withLevel { target := name, span := some (span.takeWhile (· ≠ '{')) } level
      | _ => none
    | level => if name = [] then none else withLevel { target := name } level

end Rule

namespace Filter

/-- The rules of a list joined by commas, if all of them are rules. -/
def parse? (text : String) : Option Filter :=
  ((Text.pieces ',' text.toList).filter (· ≠ [])).mapM Rule.parse?

/-- Events of the service in detail, of everything else only what matters. -/
def standard : Filter := [{ threshold := some .info }, { target := "sampleapi".toList, threshold := some .debug }]

/-- Errors only. -/
def silent : Filter := [{ threshold := some .error }]

/-- The filter that a setting asks for: the standard one without a setting or with one that cannot be read. -/
def ofSetting (setting : Option String) : Filter :=
  match setting.bind parse? with
  | some [] => silent
  | some filter => filter
  | none => standard

/-- The rule that decides about a target: the longest that fits, of equal ones the last. -/
def decisive? (filter : Filter) (target : List Char) : Option Rule :=
  (((filter.filter fun rule => rule.span.isNone && rule.target.isPrefixOf target).mergeSort
    fun a b => a.target.length ≤ b.target.length).getLast?)

/-- An event is let through. -/
def admits (filter : Filter) (event : Event) : Bool :=
  ((decisive? filter event.target.toList).any fun rule => rule.threshold.admits event.level) ||
    filter.any fun rule =>
      (rule.span.any fun name => event.spans.any fun span => span.name.toList = name) &&
        rule.target.isPrefixOf event.target.toList && rule.threshold.admits event.level

end Filter
end RouteBook.Log
