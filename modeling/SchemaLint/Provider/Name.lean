/-!
# Provider names

A provider lives in a directory `terraform-provider-` followed by its name. The
name has lower-case letters, digits, dashes, underscores and points, and starts
and ends with a letter or digit.
-/

namespace SchemaLint

def isNameEnd (c : Char) : Bool := c.isLower || c.isDigit

def isNameChar (c : Char) : Bool :=
  isNameEnd c || c == '-' || c == '_' || c == '.'

def isProviderName (name : List Char) : Bool :=
  name.all isNameChar && name.head?.any isNameEnd && name.getLast?.any isNameEnd

def providerMark : List Char := "terraform-provider-".toList

def segmentProviderName? (segment : List Char) : Option (List Char) :=
  if providerMark.isPrefixOf segment &&
      isProviderName (segment.drop providerMark.length) then
    some (segment.drop providerMark.length)
  else none

def isSeparator (c : Char) : Bool := c == '/' || c == '\\'

def pathSegments : List Char → List (List Char)
  | [] => [[]]
  | c :: rest =>
    if isSeparator c then [] :: pathSegments rest
    else
      match pathSegments rest with
      | [] => [[c]]
      | segment :: segments => (c :: segment) :: segments

def providerName? (path : String) : Option String :=
  ((pathSegments path.toList).reverse.findSome? segmentProviderName?).map
    String.ofList

end SchemaLint
