/-!
# Structured text

The written form of a value as a named record, a named tuple, a list or a quoted string.  Every
type of the library that has a structured text builds it from these four shapes, so separators and
escapes are fixed here once.
-/

namespace Cancelable
namespace Text

/-! ## Quoted strings -/

/-- A character inside double quotes: the quote, the backslash and the three blank controls are
escaped, every other character stands for itself. -/
def escaped : Char → List Char
  | '"' => ['\\', '"']
  | '\\' => ['\\', '\\']
  | '\n' => ['\\', 'n']
  | '\t' => ['\\', 't']
  | '\r' => ['\\', 'r']
  | c => [c]

def quoted (s : String) : String :=
  String.ofList ('"' :: s.toList.flatMap escaped ++ ['"'])

/-! ## Composite shapes -/

def commaSeparated (parts : List String) : String :=
  ", ".intercalate parts

/-- A name with its parts in parentheses, or the bare name when there are no parts. -/
def tuple (name : String) : List String → String
  | [] => name
  | parts => name ++ "(" ++ commaSeparated parts ++ ")"

/-- A name with its fields in braces, each field as its name, a colon and its value. -/
def record (name : String) (fields : List (String × String)) : String :=
  name ++ " \x7b " ++ commaSeparated (fields.map fun field => field.1 ++ ": " ++ field.2) ++ " \x7d"

def list (parts : List String) : String :=
  "[" ++ commaSeparated parts ++ "]"

end Text
end Cancelable
