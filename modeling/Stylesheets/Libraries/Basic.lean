import Stylesheets.Ignore.Language
import Stylesheets.Template.Engine

/-!
# What other libraries do

Reading documents of a configuration, matching patterns and rendering templates
are left to others, of whom nothing is known but what they take and give.
-/

namespace Stylesheets

/-- What tells the table that a text stands for, if it stands for one. -/
abbrev Reader := Text → Option Table

structure Libraries where
  reader : Reader
  language : Ignore.Language
  engine : Template.Engine

end Stylesheets
