-- SUMMARY: Markdown text read into a document tree.
import MdxSafe.Markdown.Reader
import MdxSafe.Tree.Assembly

/-!
# Reading a document

A byte order mark in front of the text is passed over. The tree holds the blocks of the text in order and
then its reference definitions.
-/

namespace MdxSafe

/-- The node of a reference definition. -/
def Reference.toNode (r : Reference) : Node :=
  { kind := .definition, url := some r.target.href
    title := if r.target.title = [] then none else some r.target.title
    attrs := [("label".toList, .text r.label)] }

/-- The text without a byte order mark in front. -/
def dropMark : Text → Text
  | [] => []
  | c :: t => if c.toNat = 0xFEFF then t else c :: t

namespace Node

/-- A tree without content. -/
def emptyRoot : Node := { kind := .root }

/-- The tree of a Markdown text. Tokens read from a text always assemble; nothing is made of others. -/
def parse (t : Text) : Except Markdown.ReadFault Node := do
  let (tokens, refs) ← Markdown.read (dropMark t)
  let root := (emptyRoot.assemble tokens).toOption.getD emptyRoot
  return { root with children := root.children ++ refs.map Reference.toNode }

end Node
end MdxSafe
