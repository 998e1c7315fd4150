-- SUMMARY: When running the passes makes no difference to the code that is found on reading the result.
import MdxSafe.Proofs.Document.Pipeline
import MdxSafe.Proofs.Outline.Leaves

/-!
# Code

The passes touch no code in the tree, but what they write is read again: a comment becomes running text, and that
may hold code. Whether it does can be seen at the outlines of the tree before and after the passes.
-/

namespace MdxSafe

open Outline

variable {path : Path}

namespace Node

/-- The payload of a node, if it is code. -/
def ownCode (n : Node) : List Text := if n.kind = .code ∨ n.kind = .inlineCode then [n.payload] else []

/-- The payloads of all code in a tree, in document order. -/
def codes (n : Node) : List Text := n.gather ownCode

end Node

/-- The payloads of all code in a document, with each running text read on its own. -/
def Outline.Page.codes (p : Page) : List Text := p.gather Node.ownCode {}

end MdxSafe
