namespace RoutineFlow.Text

/-- Line ends as single line feeds: a carriage return, alone or before a line feed, counts as one. -/
def unifyLineEnds : List Char → List Char
  | [] => []
  | '\r' :: '\n' :: cs => '\n' :: unifyLineEnds cs
  | '\r' :: cs => '\n' :: unifyLineEnds cs
  | c :: cs => c :: unifyLineEnds cs

end RoutineFlow.Text
