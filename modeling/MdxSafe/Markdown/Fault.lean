-- SUMMARY: Why a Markdown text cannot be read.
import MdxSafe.Text.Basic

/-!
# Faults of a Markdown text

Nearly every text can be read. One that ends right after the marker of a quote can fail: its last line
has neither content nor a line end, and a block that goes on there asks for a character past the end.
-/

namespace MdxSafe.Markdown

/-- Why a text cannot be read. -/
inductive ReadFault where
  /-- A character past the end of the text is asked for. -/
  | pastEnd
  deriving DecidableEq, Repr

/-- What to tell about a text that cannot be read. -/
def ReadFault.message : ReadFault → Text
  | pastEnd => "string index out of range"

end MdxSafe.Markdown
