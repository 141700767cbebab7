/-!
# Records as text

A value is shown under its name: alone, with one value in parentheses, or with
named fields in braces.
-/

namespace PooledPackets.Text

/-- A name with its fields, as in `Name { field: 1, other: 2 }`; a name
without fields stands alone. -/
def record (name : String) : List (String × String) → String
  | [] => name
  | fields =>
      let shown := fields.map (fun field => field.1 ++ ": " ++ field.2)
      name ++ " \x7b " ++ ", ".intercalate shown ++ " \x7d"

/-- A name with one value, as in `Name(1)`. -/
def wrapped (name value : String) : String :=
  name ++ "(" ++ value ++ ")"

/-- A value that may be missing: `Some(1)` or `None`. -/
def optional : Option String → String
  | none => "None"
  | some value => wrapped "Some" value

end PooledPackets.Text
