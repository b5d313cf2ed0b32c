/-!
# Quoted tokens

Two ways to put a text between quotes so that it can be read back: writing each quote inside it
twice, and writing a backslash before each quote inside it.
-/

namespace FrameQuery.Quoted

/-- Every `quote` in the text is written twice. -/
def double (quote : Char) (s : List Char) : List Char :=
  s.flatMap fun c ↦ if c = quote then [quote, quote] else [c]

/-- Every `quote` in the text is written after a backslash. -/
def backslash (quote : Char) (s : List Char) : List Char :=
  s.flatMap fun c ↦ if c = quote then ['\\', quote] else [c]

/-- `s` between quotes, the quotes inside it doubled. -/
def doubled (quote : Char) (s : String) : String :=
  String.ofList (quote :: (double quote s.toList ++ [quote]))

/-- `s` between quotes, the quotes inside it after a backslash. -/
def backslashed (quote : Char) (s : String) : String :=
  String.ofList (quote :: (backslash quote s.toList ++ [quote]))

end FrameQuery.Quoted
