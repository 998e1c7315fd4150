-- SUMMARY: When running all passes over a document that they wrote changes nothing any more.
import MdxSafe.Document
import MdxSafe.Proofs.Document.RoundTrip
import MdxSafe.Proofs.Rewrite.Run

/-!
# The pipeline

The pipeline reads a document, runs all passes over its tree and writes the tree. A document that the pipeline
wrote is read again as the outline that was written, so whether it is settled can be seen at that outline: no
pass may find anything to do in it, and its running text and definitions must come back as they are.
-/

namespace MdxSafe

open Outline

variable {s : Settings} {path : Path}

/-- The document that a text is read as, after all passes. -/
def rewritten? (s : Settings) (path : Path) (t : Text) : Option Document :=
  (Document.read path t).toOption.map fun d => (d.runPasses s).1

/-- A text read, rewritten by all passes and written again, if it can be. -/
def transform (s : Settings) (path : Path) (t : Text) : Option Text := do
  let d ← rewritten? s path t
  (d.render s).toOption

end MdxSafe
