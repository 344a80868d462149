import Stylesheets.Text.Number
import Stylesheets.Text.Printable

/-!
# Quoted text

Two ways to quote.  Messages quote with single quotes, or with double quotes
when the text holds a single quote and no double quote, and escape what cannot
be printed.  Reports quote with double quotes and escape everything beyond
ASCII as UTF-16 units.
-/

namespace Stylesheets.Text

private def escapeForMessage (quote c : Char) : Text :=
  if c = quote ∨ c = '\\' then ['\\', c]
  else if c = '\t' then ['\\', 't']
  else if c = '\n' then ['\\', 'n']
  else if c = '\r' then ['\\', 'r']
  else if isPrintable c then [c]
  else if c.toNat < 0x100 then '\\' :: 'x' :: ofHex 2 c.toNat
  else if c.toNat < 0x10000 then '\\' :: 'u' :: ofHex 4 c.toNat
  else '\\' :: 'U' :: ofHex 8 c.toNat

def quoted (text : Text) : Text :=
  let quote := if text.elem '\'' && !text.elem '"' then '"' else '\''
  quote :: text.flatMap (escapeForMessage quote) ++ [quote]

def bracketed (items : List Text) : Text :=
  '[' :: List.intercalate [',', ' '] items ++ [']']

def escapeUnit (unit : Nat) : Text := '\\' :: 'u' :: ofHex 4 unit

def escapeForReport (c : Char) : Text :=
  if c = '"' ∨ c = '\\' then ['\\', c]
  else if c = '\n' then ['\\', 'n']
  else if c = '\r' then ['\\', 'r']
  else if c = '\t' then ['\\', 't']
  else if c.toNat = 8 then ['\\', 'b']
  else if c.toNat = 12 then ['\\', 'f']
  else if ' ' ≤ c ∧ c ≤ '~' then [c]
  else if c.toNat < 0x10000 then escapeUnit c.toNat
  else
    let beyond := c.toNat - 0x10000
    escapeUnit (0xd800 + beyond / 0x400) ++ escapeUnit (0xdc00 + beyond % 0x400)

def quotedAscii (text : Text) : Text :=
  '"' :: text.flatMap escapeForReport ++ ['"']

end Stylesheets.Text
