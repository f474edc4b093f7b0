/-!
# Quoting by doubling

A quoted token of a query language stands between two quote characters, and a quote character of
the text is written twice.  Identifiers use the double quote and literals the single one.
-/

namespace Cancelable
namespace Text
namespace Doubled

def double (quote : Char) : List Char → List Char
  | [] => []
  | c :: rest => if c = quote then quote :: quote :: double quote rest else c :: double quote rest

def enclose (quote : Char) (text : String) : String :=
  String.ofList (quote :: double quote text.toList ++ [quote])

end Doubled
end Text
end Cancelable
