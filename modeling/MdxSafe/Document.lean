-- SUMMARY: A document on its way through the passes: its path, its text as read, its tree and what was found.
import MdxSafe.Layout.Block
import MdxSafe.Path
import MdxSafe.Rewrite.Pass
import MdxSafe.Scan.Basic
import MdxSafe.Tree.Reader

/-!
# Documents

A document keeps the text it was read from, which never changes, beside the tree that the passes rewrite.
It counts as changed if a pass whose result it holds changed the tree; a scan never changes it.
-/

namespace MdxSafe

/-- A document. -/
structure Document where
  path : Path
  text : Text
  tree : Node
  /-- Whether a pass changed the tree. -/
  changed : Bool := false
  results : Rewrite.Results := []
  warnings : List Warning := []

namespace Document

/-- A document read from a text. -/
def read (path : Path) (text : Text) : Except Markdown.ReadFault Document := do
  return { path, text, tree := ← Node.parse text }

/-- Run all passes, and keep their results. -/
def runPasses (s : Settings) (d : Document) : Document × List Log.Entry :=
  let r := Rewrite.run s Pass.all d.tree
  ({ d with tree := r.tree, results := r.results, changed := r.results.changed }, r.log)

/-- Scan the tree with the built-in diagnostic; warnings name the source. -/
def scan (s : Settings) (source : Text) (d : Document) : Document × List Log.Entry :=
  let r := Scan.run s.excerptLength [.curlyBraces] source d.tree
  ({ d with warnings := r.warnings }, r.log)

/-- The text that the tree is written as. -/
def render (s : Settings) (d : Document) : Except Layout.Error Text := Layout.render s.layout d.tree

end Document
end MdxSafe
