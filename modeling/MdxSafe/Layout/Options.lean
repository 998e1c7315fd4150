-- SUMMARY: The conventions a document is written with, and why a tree cannot be written.
import MdxSafe.Value.Number

/-!
# Layout conventions

A document is written in one layout, up to three conventions: the characters of code fences, the gap
between a list marker and the item, and the thematic break.
-/

namespace MdxSafe

/-- The characters that code fences are made of. -/
inductive FenceStyle where
  | backticks | tildes
  deriving DecidableEq, Repr, Inhabited

/-- The character of a fence. -/
def FenceStyle.mark : FenceStyle → Char
  | backticks => '`'
  | tildes => '~'

namespace Layout

/-- The conventions of the layout. -/
structure Options where
  fence : FenceStyle := .backticks
  /-- The spaces between a list marker and its item: one to four. -/
  itemIndent : Nat := 1
  thematicBreak : Text := "***"
  deriving Repr, Inhabited, DecidableEq

/-- Why a tree cannot be written. -/
inductive Error where
  /-- A heading level or list number is no integer. -/
  | number (e : ConversionError)
  /-- The alignment of a column is a list or an object. -/
  | alignment (typeName : String)
  deriving DecidableEq, Repr

/-- What to tell about a tree that cannot be written. -/
def Error.message : Error → Text
  | number e => e.message
  | alignment name => "unhashable type: '".toList ++ name.toList ++ ['\'']

end Layout
end MdxSafe
