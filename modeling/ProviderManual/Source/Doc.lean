import ProviderManual.Text.Pieces

namespace ProviderManual.Source

open ProviderManual.Text

def isToolChar (c : Char) : Bool :=
  ('a' ≤ c && c ≤ 'z') || ('0' ≤ c && c ≤ '9')

def startsWith (start cs : List Char) : Bool :=
  start.isPrefixOf cs

def isDirective (rest : List Char) : Bool :=
  startsWith "line ".toList rest || startsWith "extern ".toList rest
    || startsWith "export ".toList rest
    || match rest.span isToolChar with
       | (tool, ':' :: verb :: _) => !tool.isEmpty && isToolChar verb
       | _ => false

def dropSpace : List Char → List Char
  | ' ' :: cs => cs
  | cs => cs

def dropCloser (body : List Char) : List Char :=
  match body.reverse with
  | '/' :: '*' :: cs => cs.reverse
  | _ => body

def commentLines : List Char → List (List Char)
  | '/' :: '/' :: rest => if isDirective rest then [] else [dropSpace rest]
  | '/' :: '*' :: body => pieces '\n' (dropCloser body)
  | _ => []

def squeeze (afterBlank : Bool) : List (List Char) → List (List Char)
  | [] => []
  | line :: lines =>
      if line.isEmpty && afterBlank then squeeze true lines
      else line :: squeeze line.isEmpty lines

def dropTrailingBlank (lines : List (List Char)) : List (List Char) :=
  (lines.reverse.dropWhile List.isEmpty).reverse

def docLines (comments : List (List Char)) : List (List Char) :=
  dropTrailingBlank (squeeze true ((comments.flatMap commentLines).map trimEnd))

def unlines (lines : List (List Char)) : List Char :=
  lines.flatMap (· ++ ['\n'])

def docText (comments : List String) : String :=
  String.ofList (unlines (docLines (comments.map String.toList)))

def docDescription (doc : String) : String :=
  match doc.toList.dropWhile (· ≠ '\n') with
  | [] => ""
  | _ :: rest => String.ofList (trim rest)

end ProviderManual.Source
