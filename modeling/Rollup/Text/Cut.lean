namespace Rollup.Text

/-- The pieces between the occurrences of a separator, empty ones included. -/
def pieces (separator : Char) (s : String) : List String :=
  (s.toList.splitOn separator).map String.ofList

def cutFirst? (separator : List Char) : List Char → Option (List Char × List Char)
  | [] => none
  | c :: cs =>
    if separator.isPrefixOf (c :: cs) then some ([], (c :: cs).drop separator.length)
    else (cutFirst? separator cs).map fun (before, after) => (c :: before, after)

def cutLast? (separator : Char) (cs : List Char) : Option (List Char × List Char) :=
  (cutFirst? [separator] cs.reverse).map fun (after, before) => (before.reverse, after.reverse)

def occursIn (needle : List Char) : List Char → Bool
  | [] => needle.isEmpty
  | c :: cs => needle.isPrefixOf (c :: cs) || occursIn needle cs

end Rollup.Text
