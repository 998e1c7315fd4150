-- SUMMARY: Documents in the making, whose parts may be replaced by any value.
import MdxSafe.Document
import MdxSafe.Value.Printer

/-!
# Manuscripts

Whoever works on a document step by step may put any value in the place of a part. Only the text that was
read is protected. A value in the wrong place is noticed when a step first needs the part, and the step
fails there; what it did before stays done. A step therefore yields what it gives, or why it failed,
beside the manuscript that it leaves.
-/

namespace MdxSafe

/-- What stands in the place of a part. -/
inductive Slot (α : Type) where
  | part (x : α)
  /-- A value that is no such part. -/
  | other (v : Value)

/-- A document in the making. -/
structure Manuscript where
  path : Slot Path
  text : Text
  tree : Slot Node
  /-- Whether a pass changed the tree, unless another value was put there. -/
  changed : Value := .bool false
  /-- Which passes changed the tree, by name, unless another value was put there. -/
  results : Value := .object []

/-- Why a step on a manuscript fails. -/
inductive ManuscriptError where
  /-- The text that was read never changes. -/
  | frozen
  /-- The name of a document follows from its path. -/
  | derived
  /-- A record has no part of this name. -/
  | unknownPart (record : String) (name : Text)
  /-- A value of this type has no such feature. -/
  | lacks (typeName feature : String)
  /-- A value of this type has no entries to set. -/
  | noEntries (typeName : String)
  /-- The entries of a list have numbers, not names. -/
  | numbered
  | layout (e : Layout.Error)
  | unreadable (e : Markdown.ReadFault)
  deriving DecidableEq, Repr

/-- What to tell about a step that fails. -/
def ManuscriptError.message : ManuscriptError → Text
  | frozen => "raw_text: frozen_field"
  | derived => "property 'name' of 'Document' object has no setter"
  | unknownPart record name =>
    '"' :: record.toList ++ "\" object has no field \"".toList ++ name ++ ['"']
  | lacks typeName feature =>
    '\'' :: typeName.toList ++ "' object has no attribute '".toList ++ feature.toList ++ ['\'']
  | noEntries typeName => '\'' :: typeName.toList ++ "' object does not support item assignment".toList
  | numbered => "list indices must be integers or slices, not str"
  | layout e => e.message
  | unreadable e => e.message

namespace Manuscript

/-- A manuscript of a document. -/
def ofDocument (d : Document) : Manuscript := { path := .part d.path, text := d.text, tree := .part d.tree }

-- ---------------------------------------------------------------------------
-- Parts
-- ---------------------------------------------------------------------------

/-- The tree, for a step that asks it for a feature. -/
def treeWith (d : Manuscript) (feature : String) : Except ManuscriptError Node :=
  match d.tree with
  | .part n => .ok n
  | .other v => .error (.lacks v.typeName feature)

/-- The name of the file that holds the document. -/
def name (d : Manuscript) : Except ManuscriptError Text :=
  match d.path with
  | .part p => .ok p.name
  | .other v => .error (.lacks v.typeName "name")

/-- The name by which warnings tell of the document. -/
def source (d : Manuscript) : Text :=
  match d.path with
  | .part p => p.toText
  | .other v => v.toText

/-- The text that the tree is written as. -/
def render (s : Settings) (d : Manuscript) : Except ManuscriptError Text := do
  (Layout.render s.layout (← d.treeWith "children")).mapError .layout

/-- The manuscript with results, and what follows from them. -/
def withResults (d : Manuscript) (results : Fields) : Manuscript :=
  { d with results := .object results, changed := .bool (results.any fun r => r.2.truthy) }

-- ---------------------------------------------------------------------------
-- Steps
-- ---------------------------------------------------------------------------

/-- What a step gives, or why it failed, and the manuscript that it leaves. -/
abbrev Step (α : Type) := Except ManuscriptError α × Manuscript

/-- Run one pass and keep its result beside those of other passes: whether it changed the tree. -/
def runPass (s : Settings) (p : Pass) (d : Manuscript) : Step Bool :=
  match d.treeWith "type" with
  | .error e => (.error e, d)
  | .ok tree =>
    let r := p.run s tree
    let d := { d with tree := .part r.tree }
    match d.results with
    | .object rs => (.ok r.changed, d.withResults (Fields.set rs p.name.toList (.bool r.changed)))
    | .list _ => (.error .numbered, d)
    | v => (.error (.noEntries v.typeName), d)

/-- Run all passes, and keep their results only. -/
def runPasses (s : Settings) (d : Manuscript) : Step Unit :=
  match d.treeWith "type" with
  | .error e => (.error e, d)
  | .ok tree =>
    let r := Rewrite.run s Pass.all tree
    let results : Fields := r.results.map fun x => (x.1.name.toList, .bool x.2)
    (.ok (), { d with tree := .part r.tree }.withResults results)

/-- The warnings that the built-in diagnostic gives. -/
def warnings (s : Settings) (d : Manuscript) : Except ManuscriptError (List Warning) := do
  return (Scan.run s.excerptLength [.curlyBraces] d.source (← d.treeWith "type")).warnings

/-- Write the tree as a text and read it again. -/
def reparse (s : Settings) (d : Manuscript) : Step Unit :=
  match (do (Node.parse (← d.render s)).mapError ManuscriptError.unreadable) with
  | .ok tree => (.ok (), { d with tree := .part tree })
  | .error e => (.error e, d)

-- ---------------------------------------------------------------------------
-- Assignment
-- ---------------------------------------------------------------------------

/-- The node with a part replaced, if it has one of that name. -/
def assignNode? (field : Text) (v : Value) (n : Node) : Option Node :=
  match String.ofList field with
  | "type" => some { n with kind := (v.text?.bind Kind.ofName?).getD .raw }
  | "value" => some { n with value := v.text? }
  | "url" => some { n with url := v.text? }
  | "title" => some { n with title := v.text? }
  | "markup" => some { n with markup := v.text?.getD [] }
  | "info" => some { n with info := v.text?.getD [] }
  | "attrs" =>
    match v with
    | .object fs => some { n with attrs := fs }
    | _ => some { n with attrs := [] }
  | "children" => some { n with children := [] }
  | _ => none

/-- Whether a name is private: it may be given to anything, and nothing looks at it. -/
def isPrivate (field : Text) : Bool := field.head? = some '_'

/-- Replace a part of every node of a kind. -/
def edit (kind : Kind) (field : Text) (v : Value) (d : Manuscript) : Step Unit :=
  match d.treeWith "type" with
  | .error e => (.error e, d)
  | .ok tree =>
    if (tree.collect (.kind kind)).isEmpty || isPrivate field then (.ok (), d)
    else if (assignNode? field v tree).isNone then (.error (.unknownPart "Node" field), d)
    else
      let revise (n : Node) : Node := (assignNode? field v n).getD n
      (.ok (), { d with tree := .part (tree.walk (fun n => n.kind = kind) revise).2 })

/-- Replace a part of the document. -/
def assign (field : Text) (v : Value) (d : Manuscript) : Step Unit :=
  match String.ofList field with
  | "raw_text" => (.error .frozen, d)
  | "name" => (.error .derived, d)
  | "path" => (.ok (), { d with path := .other v })
  | "tree" => (.ok (), { d with tree := .other v })
  | "changed" => (.ok (), { d with changed := v })
  | "pass_results" => (.ok (), { d with results := v })
  | "warnings" => (.ok (), d)
  | _ => (if isPrivate field then .ok () else .error (.unknownPart "Document" field), d)

end Manuscript
end MdxSafe
