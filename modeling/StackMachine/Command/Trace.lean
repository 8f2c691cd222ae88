import StackMachine.Text.Blank

/-!
# Tracing

A variable of the environment turns tracing on: by a word that leaves the choice of events to
another variable or to the default, or by a filter of its own.
-/

namespace StackMachine.Command

/-- The events that are traced where nobody chooses. -/
def defaultTraceFilter : String := "imp::vm=debug,imp::asm=debug,imp_core=info,imp_cli=info"

/-- The filter that the variable's text selects; `general` is the filter of the other variable, if
it is set. -/
def traceFilter (raw : String) (general : Option String) : Option String :=
  let value := String.ofList (Text.trim raw.toList)
  let word := String.ofList (value.toList.map Char.toLower)
  if ["", "0", "false", "off"].contains word then none
  else if ["1", "true", "on"].contains word then some (general.getD defaultTraceFilter)
  else some value

end StackMachine.Command
