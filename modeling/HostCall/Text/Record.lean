/-!
# Descriptions of records and lists

The shape that every description of a composite thing shares: `Name { field: value, field: value }`,
with two dots in place of the fields that are not shown, and `[item, item]` for a list.
-/

namespace HostCall.Text

def commaSeparated (items : List String) : String := ", ".intercalate items

def list (items : List String) : String := "[" ++ commaSeparated items ++ "]"

/-- A record of which every field is shown; there is at least one. -/
def record (name : String) (fields : List (String × String)) : String :=
  name ++ " \x7b " ++ commaSeparated (fields.map fun f => f.1 ++ ": " ++ f.2) ++ " \x7d"

/-- A record of which some fields, or all, are hidden. -/
def openRecord (name : String) (fields : List (String × String)) : String :=
  name ++ " \x7b " ++ commaSeparated (fields.map (fun f => f.1 ++ ": " ++ f.2) ++ [".."]) ++ " \x7d"

end HostCall.Text
