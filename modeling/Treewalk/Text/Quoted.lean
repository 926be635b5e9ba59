/-
Quoted text, as listings show it. A quoted string stands between double quotes, and every
character in it either stands for itself or is written as an escape, so that the text can be told
apart from its surroundings and every character can be seen.
-/
import Treewalk.Text.Hidden

namespace Treewalk.Text

/-- The escape of a character that has no short one: its code point in braces. -/
def codePoint (character : Char) : List Char :=
  ['\\', 'u', '\x7b'] ++ Nat.toDigits 16 character.toNat ++ ['\x7d']

/-- A character as it is written between quotes. The single quote needs no escape there. -/
def quotedChar (character : Char) : List Char :=
  match character with
  | '\x00' => ['\\', '0']
  | '\t' => ['\\', 't']
  | '\n' => ['\\', 'n']
  | '\r' => ['\\', 'r']
  | '"' => ['\\', '"']
  | '\\' => ['\\', '\\']
  | other => if isHidden other then codePoint other else [other]

/-- Text between double quotes, with escapes. -/
def quoted (text : String) : String :=
  String.ofList ('"' :: (text.toList.flatMap quotedChar ++ ['"']))

example : quoted "a\tb" = "\"a\\tb\"" := by decide +kernel

example : quotedChar '\x01' = "\\u\x7b1\x7d".toList := by decide +kernel

end Treewalk.Text
