import ShaderAssist.Text.Printable

/-!
# Quoted texts

How a text is shown in a message: between quotation marks, with a backslash before quotation marks
and backslashes, with short names for the common controls, and with the code point of every other
character that would not show.
-/

namespace ShaderAssist

/-- A number in hexadecimal digits. -/
def hexDigits (n : Nat) : String :=
  String.ofList (Nat.toDigits 16 n)

/-- A character inside a quoted text. -/
def quoteChar (c : Char) : String :=
  match c with
  | '\x00' => "\\0"
  | '\t' => "\\t"
  | '\r' => "\\r"
  | '\n' => "\\n"
  | '"' => "\\\""
  | '\\' => "\\\\"
  | _ =>
    if isPrintable c then c.toString else s!"\\u\x7b{hexDigits c.toNat}\x7d"

/-- A text between quotation marks. -/
def quote (text : String) : String :=
  "\"" ++ String.join (text.toList.map quoteChar) ++ "\""

/-- An optional text: `None`, or `Some` with the quoted text. -/
def quoteOption : Option String → String
  | none => "None"
  | some text => s!"Some({quote text})"

/-- Texts between brackets, divided by commas. -/
def bracketed (opening closing : String) (texts : List String) : String :=
  opening ++ ", ".intercalate texts ++ closing

/-- A text without the quotation marks around it; a text that does not both start and end with one
is left as it is. -/
def unquote (text : String) : String :=
  match text.toList with
  | '"' :: rest => if rest.getLast? = some '"' then String.ofList rest.dropLast else text
  | _ => text

end ShaderAssist
