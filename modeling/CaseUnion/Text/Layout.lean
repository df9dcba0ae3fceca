/-!
# Layouts

A layout is the shape of a written value: a word, a named field, or a bracketed group of layouts
with an optional name in front.  `inline` writes it on one line.  `indented` gives every member of a
group a line of its own, four columns deeper than the group and closed by a comma.
-/

namespace CaseUnion.Text

/-- What encloses the members of a group. -/
inductive Bracket where
  | round
  | curly
  | square
deriving DecidableEq, Repr

/-- What opens a group.  A curly bracket stands apart from the name before it. -/
def Bracket.opening : Bracket → String
  | .round => "("
  | .curly => " \x7b"
  | .square => "["

/-- What closes a group. -/
def Bracket.closing : Bracket → String
  | .round => ")"
  | .curly => "\x7d"
  | .square => "]"

/-- What stands between a bracket and the members of a group on one line. -/
def Bracket.padding : Bracket → String
  | .curly => " "
  | _ => ""

/-- The shape of a written value. -/
inductive Layout where
  /-- A text as it is. -/
  | word (text : String)
  /-- A value with a name before it. -/
  | field (name : String) (value : Layout)
  /-- Members between brackets, after a name that may be empty. -/
  | group (name : String) (bracket : Bracket) (members : List Layout)
deriving Repr

namespace Layout

/-- A named group of named fields. -/
def record (name : String) (fields : List (String × Layout)) : Layout :=
  group name .curly (fields.map fun entry => field entry.1 entry.2)

/-- A named group of unnamed members. -/
def tuple (name : String) (members : List Layout) : Layout :=
  group name .round members

/-- A group without a name in square brackets. -/
def sequence (members : List Layout) : Layout :=
  group "" .square members

mutual

/-- The layout on one line. -/
def inline : Layout → String
  | word text => text
  | field name value => name ++ ": " ++ inline value
  | group name bracket [] => name ++ bracket.opening ++ bracket.closing
  | group name bracket (first :: rest) =>
      name ++ bracket.opening ++ bracket.padding ++ inline first ++ inlineRest rest
        ++ bracket.padding ++ bracket.closing

/-- The members after the first, each after a comma. -/
def inlineRest : List Layout → String
  | [] => ""
  | member :: rest => ", " ++ inline member ++ inlineRest rest

end

mutual

/-- The layout over several lines, `depth` levels deep. -/
def indented (depth : Nat) : Layout → String
  | word text => text
  | field name value => name ++ ": " ++ indented depth value
  | group name bracket [] => name ++ bracket.opening ++ bracket.closing
  | group name bracket (first :: rest) =>
      name ++ bracket.opening ++ "\n"
        ++ indentedLines (depth + 1) (first :: rest)
        ++ "".pushn ' ' (4 * depth) ++ bracket.closing

/-- The members of a group, a line each. -/
def indentedLines (depth : Nat) : List Layout → String
  | [] => ""
  | member :: rest =>
      "".pushn ' ' (4 * depth) ++ indented depth member ++ ",\n" ++ indentedLines depth rest

end

end Layout

/-- A group within a group, and an empty one. -/
def nestedGroup : Layout := .tuple "Pair" [.record "Left" [("n", .word "1")], .sequence []]

example : nestedGroup.inline = "Pair(Left \x7b n: 1 \x7d, [])" := by decide +kernel

example :
    nestedGroup.indented 0 = "Pair(\n    Left \x7b\n        n: 1,\n    \x7d,\n    [],\n)" := by
  decide +kernel

end CaseUnion.Text
