-- SUMMARY: The rewrite passes, what each one does to a payload, and runs of several passes over a tree.
import MdxSafe.Log
import MdxSafe.Rewrite.Comment
import MdxSafe.Rewrite.LinkRoot
import MdxSafe.Rewrite.VoidTag
import MdxSafe.Settings.Basic
import MdxSafe.Text.Quoted
import MdxSafe.Tree.Walk

/-!
# Rewrite passes

There are four passes. Each one rewrites one payload of the nodes of one kind and touches nothing else:
texts, HTML, and the targets of links. Code is of other kinds and never rewritten. A pass tells whether
it changed a payload; passes run one after the other, each on the tree the one before it left.
-/

namespace MdxSafe

/-- A rewrite pass. -/
inductive Pass where
  /-- In texts, `<` becomes a character reference. -/
  | escapeText
  /-- In HTML, comments become expression comments. -/
  | convertComments
  /-- In HTML, tags of void elements are closed in place. -/
  | closeVoidTags
  /-- In the targets of links, the configured root is removed. -/
  | rewriteLinks
  deriving DecidableEq, Repr

namespace Pass

/-- All passes in the order in which they run. -/
def all : List Pass := [escapeText, convertComments, closeVoidTags, rewriteLinks]

/-- The name of a pass. -/
def name : Pass → String
  | escapeText => "escape_text"
  | convertComments => "convert_comments"
  | closeVoidTags => "close_void_tags"
  | rewriteLinks => "rewrite_links"

/-- The pass of a name. -/
def ofName? (t : Text) : Option Pass := all.find? fun p => p.name.toList = t

/-- The place of a pass among rules: lower ones run first. -/
def order : Pass → Int
  | escapeText => 10
  | convertComments => 20
  | closeVoidTags => 30
  | rewriteLinks => 40

/-- The kind of nodes that a pass rewrites. -/
def target : Pass → Kind
  | escapeText => .text
  | convertComments | closeVoidTags => .html
  | rewriteLinks => .link

/-- What a pass makes of a payload. -/
def rewrite (s : Settings) : Pass → Text → Text
  | escapeText, t => Text.replaceChar '<' "&lt;" t
  | convertComments, t => Comment.convert t
  | closeVoidTags, t => if s.voidElements = [] then t else VoidTag.closeAll s.voidElements t
  | rewriteLinks, t => LinkRoot.strip s.linkRoot t

/-- The payload that a pass is about; empty if there is none. -/
def payload : Pass → Node → Text
  | rewriteLinks, n => n.target
  | _, n => n.payload

/-- The node with another payload. -/
def setPayload (p : Pass) (t : Text) (n : Node) : Node :=
  match p with
  | rewriteLinks => { n with url := some t }
  | _ => { n with value := some t }

/-- Whether a pass has anything to do at a node. -/
def changes (s : Settings) (p : Pass) (n : Node) : Bool :=
  n.kind = p.target && p.rewrite s (p.payload n) ≠ p.payload n

/-- The node with its payload rewritten. -/
def reviseNode (s : Settings) (p : Pass) (n : Node) : Node := p.setPayload (p.rewrite s (p.payload n)) n

/-- What is told about a rewritten payload. Only the start of a long one is shown. -/
def account (s : Settings) (p : Pass) (old : Text) : Log.Entry :=
  let shown := Text.quoted (old.take 50)
  ⟨.debug, "transformer.rules.".toList ++ p.name.toList,
    match p with
    | escapeText => "Escaped < in text: ".toList ++ shown
    | convertComments => "Converted HTML comment to JSX: ".toList ++ shown
    | closeVoidTags => "Fixed self-closing tags in HTML node: ".toList ++ shown
    | rewriteLinks =>
      "Fixed relative link: ".toList ++ Text.quoted old ++ " -> ".toList ++ Text.quoted (p.rewrite s old)⟩

/-- What a pass did to a tree. -/
structure Outcome where
  changed : Bool
  tree : Node
  log : List Log.Entry

/-- Run a pass over a tree. -/
def run (s : Settings) (p : Pass) (tree : Node) : Outcome :=
  let (visits, tree) := tree.walk (p.changes s) (p.reviseNode s)
  ⟨!visits.isEmpty, tree, visits.map fun v => p.account s (p.payload v.node)⟩

end Pass

namespace Rewrite

/-- Which passes changed the tree, by their names in order of first run. -/
abbrev Results := List (Pass × Bool)

/-- Results with the one of a pass set: in place if it ran before. -/
def Results.set (rs : Results) (p : Pass) (changed : Bool) : Results :=
  match rs with
  | [] => [(p, changed)]
  | r :: rest => if r.1 = p then (p, changed) :: rest else r :: set rest p changed

/-- Whether any pass changed the tree. -/
def Results.changed (rs : Results) : Bool := rs.any Prod.snd

/-- What a run of several passes did to a tree. -/
structure Outcome where
  results : Results
  tree : Node
  log : List Log.Entry

/-- One more pass. -/
def Outcome.step (s : Settings) (o : Outcome) (p : Pass) : Outcome :=
  let r := p.run s o.tree
  ⟨o.results.set p r.changed, r.tree,
    o.log ++ r.log ++ if r.changed then
      [⟨.debug, "transformer.engine.rewriter", "Pass '".toList ++ p.name.toList ++ "' modified the tree.".toList⟩]
    else []⟩

/-- Run passes over a tree, one after the other. -/
def run (s : Settings) (passes : List Pass) (tree : Node) : Outcome :=
  passes.foldl (Outcome.step s) ⟨[], tree, []⟩

end Rewrite
end MdxSafe
