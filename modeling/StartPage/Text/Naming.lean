/-!
Names in documents, made of the names in declarations. A field is declared in small words with
underscores between them, a variant in words that begin with capitals; documents write both in
words without underscores, of which all but the first begin with a capital.
-/
namespace StartPage.Text

/-- Underscores give way to a capital after them. -/
def joinWords (capital : Bool) : List Char → List Char
  | [] => []
  | c :: rest =>
    if c = '_' then joinWords true rest
    else (if capital then c.toUpper else c) :: joinWords false rest

def smallFirst : List Char → List Char
  | [] => []
  | first :: rest => first.toLower :: rest

def ofField (declared : String) : String := .ofList (smallFirst (joinWords true declared.toList))

def ofVariant (declared : String) : String := .ofList (smallFirst declared.toList)

end StartPage.Text
