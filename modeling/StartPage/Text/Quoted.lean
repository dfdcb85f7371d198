import StartPage.Text.Unseen

/-!
Text between quotes as diagnostics show it. The quote, the backslash and the usual control
characters have short escapes; any other character that leaves no mark of its own on a line is
written as its code point in hexadecimal.
-/
namespace StartPage.Text

def hexDigits (n : Nat) : List Char := Nat.toDigits 16 n

def diagnostic (c : Char) : List Char :=
  match c with
  | '"' => ['\\', '"']
  | '\\' => ['\\', '\\']
  | '\t' => ['\\', 't']
  | '\r' => ['\\', 'r']
  | '\n' => ['\\', 'n']
  | c =>
    if c.toNat = 0 then ['\\', '0']
    else if isUnseen c then ['\\', 'u', '{'] ++ hexDigits c.toNat ++ ['}']
    else [c]

def diagnosticQuoted (text : String) : String :=
  String.ofList ('"' :: text.toList.flatMap diagnostic ++ ['"'])

end StartPage.Text
