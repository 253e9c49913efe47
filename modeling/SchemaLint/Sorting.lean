/-!
# Sorting by names

Lists are put in the byte order of their names. Members with the same name
keep their order.
-/

namespace SchemaLint

def insertBy (key : α → String) (a : α) : List α → List α
  | [] => [a]
  | b :: rest =>
    if key a ≤ key b then a :: b :: rest else b :: insertBy key a rest

def sortBy (key : α → String) (list : List α) : List α :=
  list.foldr (insertBy key) []

end SchemaLint
