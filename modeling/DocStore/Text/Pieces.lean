namespace DocStore

/-- The pieces of a text between its separators; one more than there are separators. -/
def piecesBetween (separator : Char) : List Char → List (List Char)
  | [] => [[]]
  | c :: rest =>
    if c = separator then [] :: piecesBetween separator rest
    else
      match piecesBetween separator rest with
      | [] => [[c]]
      | piece :: pieces => (c :: piece) :: pieces

end DocStore
