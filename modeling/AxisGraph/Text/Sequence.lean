/-!
Sequences in text: items separated by a comma and a blank, with or without brackets around them.
-/

namespace AxisGraph.Text

def commaSeparated (items : List String) : String :=
  ", ".intercalate items

def bracketed (items : List String) : String :=
  "[" ++ commaSeparated items ++ "]"

end AxisGraph.Text
