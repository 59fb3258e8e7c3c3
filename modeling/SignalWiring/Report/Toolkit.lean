/-
The library that prints a report.

It reads markup: a tag such as `[bold]` gives a style to what comes after it, and a text is escaped to keep its tags from
being read. What it makes of a table is its own affair.
-/

namespace SignalWiring.Report

/-- where the text of a column stands -/
inductive Align where
  | left
  | center
  deriving DecidableEq, Repr, Inhabited

structure Column where
  header : List Char
  align : Align := .left
  deriving Repr, Inhabited

/-- a titled table; what is in its rows is marked up -/
structure Grid where
  title : List Char
  columns : List Column
  rows : List (List (List Char))
  deriving Repr, Inhabited

/-- what a library offers that prints on a console of some width -/
structure Toolkit where
  /-- the markup that shows the tags in a text as they stand -/
  escape : List Char → List Char
  /-- prints a marked-up text -/
  print : Nat → List Char → String
  /-- prints a table -/
  draw : Nat → Grid → String

def styled (style text : List Char) : List Char := '[' :: (style ++ ']' :: (text ++ '[' :: '/' :: (style ++ [']'])))

end SignalWiring.Report
