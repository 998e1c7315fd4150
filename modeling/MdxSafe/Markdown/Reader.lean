-- SUMMARY: Markdown text read into tokens: line ends made uniform, blocks, running text.
import MdxSafe.Markdown.Block
import MdxSafe.Markdown.Inline

/-!
# Reading Markdown

Line ends are made uniform first. The blocks are read next, with all definitions, and then the running
text in them, which may refer to a definition that comes later.
-/

namespace MdxSafe.Markdown

/-- A text with every line end as a line feed, and a replacement character for every null. -/
def normalize : Text → Text
  | [] => []
  | '\r' :: '\n' :: t => '\n' :: normalize t
  | c :: t =>
    (if c = '\r' then '\n' else if c.toNat = 0 then Char.ofNat 0xFFFD else c) :: normalize t

/-- A token with its running text read. -/
def readRunning (refs : List Reference) (t : Token) : Token :=
  if t.kind = .inline then { t with children := Inline.parse refs t.content } else t

/-- The tokens and the definitions of a Markdown text. -/
def read (t : Text) : Except ReadFault (List Token × List Reference) := do
  let r ← Block.parse (normalize t)
  return (r.1.map (readRunning r.2), r.2)

end MdxSafe.Markdown
