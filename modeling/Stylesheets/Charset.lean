import Stylesheets.Text.Bytes

/-!
# One form of text

A stylesheet is read without the byte order mark at its beginning and with
line feeds for line ends.
-/

namespace Stylesheets.Charset

def dropMark : Text → Text
  | [] => []
  | c :: rest => if c = Text.byteOrderMark then rest else c :: rest

def normalize (text : Text) : Text := Text.unifyLineEnds (dropMark text)

end Stylesheets.Charset
