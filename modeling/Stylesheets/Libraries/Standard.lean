import Stylesheets.Ignore.Spec
import Stylesheets.Libraries.Basic
import Stylesheets.Template.Render
import Stylesheets.Toml.Document

/-!
# The libraries of the program
-/

namespace Stylesheets

def Libraries.standard : Libraries where
  reader := Toml.parse?
  language := Ignore.gitLike
  engine := Template.handlebars

end Stylesheets
