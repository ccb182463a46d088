/-! The tokens of a document. Indentation is told by tokens of its own, so what is
read from them need not look at columns. -/

namespace Unsugar.Document

inductive Token where
  /-- The document names its version. -/
  | version
  /-- The document says what a handle of its tags stands for. -/
  | handle (name meaning : String)
  /-- A document begins here. -/
  | start
  /-- A document ends here. -/
  | stop
  /-- The text ends here. -/
  | finish
  /-- A list of items with dashes begins here. -/
  | indentList
  /-- A table with an entry a line begins here. -/
  | indentTable
  /-- The innermost list or table of these ends here. -/
  | dedent
  | openList
  | closeList
  | openTable
  | closeTable
  /-- The dash of an item. -/
  | dash
  | comma
  /-- The name of an entry follows. -/
  | name
  /-- The value of an entry follows. -/
  | value
  /-- The value with this label is meant. -/
  | reference (label : String)
  /-- The value that follows has this label. -/
  | label (label : String)
  /-- The value that follows has this tag. -/
  | tag (handle suffix : String)
  /-- A single value, which is bare if nothing marks where it begins and ends. -/
  | scalar (bare : Bool) (content : String)
  deriving DecidableEq

end Unsugar.Document
