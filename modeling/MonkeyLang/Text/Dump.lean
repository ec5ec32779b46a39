import MonkeyLang.Text.Quoted

/-!
# Dumps

A dump shows how a value is built: named records with their fields, constructors with what
they wrap, lists, and atoms. The same dump has two layouts. The inline one is a single line. The
indented one gives every field and item a line of its own, four columns further in, with a comma
after each; only the empty list stays on its line.
-/

namespace MonkeyLang

/-- The structure of a shown value. -/
inductive Dump
  | atom (text : String)
  | record (name : String) (fields : List (String × Dump))
  | wrapped (name : String) (items : List Dump)
  | list (items : List Dump)

namespace Dump

/-- A natural number, in decimal. -/
def nat (n : Nat) : Dump := .atom n.repr

/-- An integer, in decimal. -/
def int (i : Int) : Dump := .atom i.repr

/-- A truth value, by its word. -/
def bool (b : Bool) : Dump := .atom (if b then "true" else "false")

/-- Text, quoted. -/
def text (s : String) : Dump := .atom (Text.quote s)

/-! ### On one line -/

mutual

/-- A dump on one line. -/
def inline : Dump → String
  | .atom t => t
  | .record name fields => name ++ " \x7b " ++ ", ".intercalate (inlineFields fields) ++ " \x7d"
  | .wrapped name items => name ++ "(" ++ ", ".intercalate (inlineItems items) ++ ")"
  | .list items => "[" ++ ", ".intercalate (inlineItems items) ++ "]"

/-- The fields of a record, each behind its name. -/
def inlineFields : List (String × Dump) → List String
  | [] => []
  | (name, d) :: rest => (name ++ ": " ++ d.inline) :: inlineFields rest

/-- The items of a list or constructor. -/
def inlineItems : List Dump → List String
  | [] => []
  | d :: rest => d.inline :: inlineItems rest

end

/-! ### Over many lines -/

/-- The white space before a line that stands `level` levels in. -/
def indent (level : Nat) : String :=
  String.ofList (List.replicate (4 * level) ' ')

/-- Lines of their own for the parts of a dump that opens and closes at `level`. -/
def block (level : Nat) (parts : List String) : String :=
  "\n" ++ String.join (parts.map fun p ↦ indent (level + 1) ++ p ++ ",\n") ++ indent level

mutual

/-- A dump whose first line stands `level` levels in. -/
def indentedAt (level : Nat) : Dump → String
  | .atom t => t
  | .record name fields => name ++ " \x7b" ++ block level (indentedFields level fields) ++ "\x7d"
  | .wrapped name items => name ++ "(" ++ block level (indentedItems level items) ++ ")"
  | .list [] => "[]"
  | .list (d :: rest) =>
    "[" ++ block level (indentedAt (level + 1) d :: indentedItems level rest) ++ "]"

/-- The fields of a record that stands `level` levels in. -/
def indentedFields (level : Nat) : List (String × Dump) → List String
  | [] => []
  | (name, d) :: rest => (name ++ ": " ++ indentedAt (level + 1) d) :: indentedFields level rest

/-- The items of a list or constructor that stands `level` levels in. -/
def indentedItems (level : Nat) : List Dump → List String
  | [] => []
  | d :: rest => indentedAt (level + 1) d :: indentedItems level rest

end

/-- A dump over many lines. -/
def indented (d : Dump) : String := d.indentedAt 0

end Dump

end MonkeyLang
