import Stylesheets.Text.Basic

/-!
# Text as bytes

Files hold bytes; text is written to them in UTF-8.  Decoding refuses every
sequence of bytes that no text encodes to.
-/

namespace Stylesheets.Text

def encode (text : Text) : ByteArray := (String.ofList text).toUTF8

def decode? (bytes : ByteArray) : Option Text :=
  (String.fromUTF8? bytes).map String.toList

def byteLength (text : Text) : Nat := text.encode.size

theorem decode?_encode (text : Text) : decode? (encode text) = some text := by
  rw [decode?, encode, String.fromUTF8?, String.toUTF8_eq_toByteArray,
    dif_pos (String.ofList text).isValidUTF8]
  exact congrArg some String.toList_ofList

@[simp] theorem byteLength_append (first second : Text) :
    byteLength (first ++ second) = byteLength first + byteLength second := by
  simp [byteLength, encode, String.ofList_append]

def byteOrderMark : Char := '\ufeff'

end Stylesheets.Text
