import HostCall.Hex
import HostCall.Text.Unprintable

/-!
# Quoted text

A text in double quotes.  The quote and the backslash are written behind a backslash, four controls
have a letter of their own, and whatever has no printed form is written by its code point in braces.
-/

namespace HostCall.Text

def codePointEscape (c : Char) : List Char :=
  ['\\', 'u', '\x7b'] ++ (Hex.minimalText c.toNat).toList ++ ['\x7d']

def escapeChar (c : Char) : List Char :=
  match c with
  | '\x00' => ['\\', '0']
  | '\t' => ['\\', 't']
  | '\n' => ['\\', 'n']
  | '\r' => ['\\', 'r']
  | '"' => ['\\', '"']
  | '\\' => ['\\', '\\']
  | c => if isUnprintable c then codePointEscape c else [c]

def escape (cs : List Char) : List Char := cs.flatMap escapeChar

def quoted (text : String) : String := String.ofList ('"' :: escape text.toList ++ ['"'])

end HostCall.Text
