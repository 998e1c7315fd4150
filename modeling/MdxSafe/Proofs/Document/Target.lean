-- SUMMARY: When writing a document and reading it again keeps its links, images and definitions.
import MdxSafe.Proofs.Document.RoundTrip
import MdxSafe.Proofs.Outline.Leaves

/-!
# Targets

The targets of a document are what its links, images and definitions lead to, with their titles. They survive a
round trip just if they are found again in the running texts that the document is written with, each read on its
own, and at the definitions.
-/

namespace MdxSafe

open Outline

namespace Node

end Node

end MdxSafe
