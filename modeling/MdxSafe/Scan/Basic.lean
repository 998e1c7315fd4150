-- SUMMARY: Scanning a tree for constructs that no pass can fix.
import MdxSafe.Log
import MdxSafe.Scan.Expression
import MdxSafe.Tree.Walk

/-!
# Scans

A diagnostic looks at the payload of nodes of some kinds and tells the parts of it that need a human.
A scan applies diagnostics to a tree and gives one warning per node with findings, in document order.
-/

namespace MdxSafe

/-- A rule for what to warn about. -/
structure Diagnostic where
  code : Text := "DIAGNOSTIC"
  targets : List Kind := [.text]
  find : Text → List Text

/-- Expressions in curly braces. -/
def Diagnostic.curlyBraces : Diagnostic := { code := "CURLY_BRACE_EXPRESSION", find := Expression.findAll }

/-- A warning about one node of a document. -/
structure Warning where
  /-- The path of the document. -/
  source : Text
  /-- The start of the payload. -/
  excerpt : Text
  findings : List Text
  code : Text
  deriving DecidableEq, Repr

/-- The leading part of a text of a length; a negative length counts from the end. -/
def Text.excerpt (length : Int) (t : Text) : Text :=
  t.take (if length < 0 then t.length - length.natAbs else length.toNat)

namespace Scan

/-- What a scan found. -/
structure Outcome where
  warnings : List Warning
  log : List Log.Entry

/-- The warning about a node, if a diagnostic finds something in it. -/
def warn? (excerptLength : Int) (source : Text) (d : Diagnostic) (n : Node) : Option Warning :=
  match d.find n.payload with
  | [] => none
  | findings => some ⟨source, n.payload.excerpt excerptLength, findings, d.code⟩

/-- What is told about a warning. -/
def account (w : Warning) : Log.Entry :=
  ⟨.debug, "transformer.engine.scanner",
    w.code ++ " in ".toList ++ w.source ++ ": ".toList ++ Text.join ", " w.findings⟩

/-- Scan a tree with diagnostics, one after the other. -/
def run (excerptLength : Int) (diagnostics : List Diagnostic) (source : Text) (tree : Node) : Outcome :=
  let warnings := diagnostics.flatMap fun d =>
    (tree.collect (.kinds d.targets)).filterMap (warn? excerptLength source d)
  ⟨warnings, warnings.map account⟩

end Scan
end MdxSafe
