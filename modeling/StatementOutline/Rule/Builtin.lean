import StatementOutline.Language
import StatementOutline.Rule.Table.CFamily
import StatementOutline.Rule.Table.Nominal
import StatementOutline.Rule.Table.Plain
import StatementOutline.Rule.Table.Ruby
import StatementOutline.Rule.Table.Script

/-!
# The table of a language

Every language has a table, so a language that is known at all is supported.
-/

namespace StatementOutline

/-- The rule table of a language. The four spellings of TypeScript and JavaScript share one. -/
def Language.rules : Language → RuleTable
  | .typeScript | .javaScript | .tsx | .jsx => .script
  | .python => .python
  | .go => .go
  | .java => .java
  | .cSharp => .cSharp
  | .cpp => .cpp
  | .c => .c
  | .ruby => .ruby
  | .php => .php

end StatementOutline
