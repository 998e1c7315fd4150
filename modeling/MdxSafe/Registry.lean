-- SUMMARY: The registry of rules: what rules may declare, and the order in which their passes run.
import MdxSafe.Log
import MdxSafe.Rewrite.Pass
import MdxSafe.Scan.Basic

/-!
# The registry

A rule binds a name to a rewrite pass, to diagnostics, or to both, and has a place in the pipeline. A rule
whose pass declares a kind of node that must never be rewritten is refused. Of several rules with one name
the last one counts. The pipeline is in order of place, then of name.
-/

namespace MdxSafe

/-- A rule as it is declared. -/
structure Rule where
  name : Text
  order : Int
  /-- The kinds of nodes that its pass rewrites; `none` if it has no pass. -/
  rewrites : Option (List Kind) := none
  /-- The codes that each of its diagnostics declares; `none` if a diagnostic declares nothing. -/
  diagnostics : List (Option (List Text)) := []
  deriving DecidableEq, Repr

namespace Rule

/-- The kinds of nodes that the rule rewrites. -/
def targets (r : Rule) : List Kind := r.rewrites.getD []

/-- The codes of all diagnostics, in order and each once. -/
def codes (r : Rule) : List Text :=
  ((r.diagnostics.flatMap fun d => d.getD []).mergeSort Text.le).eraseDups

/-- The rule as it is shown. -/
def shown (r : Rule) : Text :=
  "<RuleDefinition name=".toList ++ r.name ++ " order=".toList ++ Text.ofInt r.order ++ ['>']

/-- Whether a rule comes no later than another: by place, then by name. -/
def le (r s : Rule) : Bool := r.order < s.order || (r.order == s.order && Text.le r.name s.name)

/-- The rule of a built-in pass. -/
def ofPass (p : Pass) : Rule := { name := p.name, order := p.order, rewrites := some [p.target] }

/-- The rule of the built-in diagnostic. -/
def curlyBraces : Rule :=
  { name := "curly_braces", order := 90, diagnostics := [some [Diagnostic.curlyBraces.code]] }

/-- The built-in rules. -/
def builtIn : List Rule := Pass.all.map ofPass ++ [curlyBraces]

end Rule

/-- A registry: rules with pairwise distinct names. -/
structure Registry where
  rules : List Rule
  deriving Repr

namespace Registry

/-- The kinds of nodes that may be rewritten. -/
def mutableKinds : List Kind := [.text, .html, .link]

/-- A refused rule: its name and the kinds it must not declare. -/
structure Refusal where
  name : Text
  kinds : List Kind
  deriving DecidableEq, Repr

/-- What to tell about a refused rule. -/
def Refusal.message (e : Refusal) : Text :=
  let names := ((e.kinds.map fun k => k.name.toList).mergeSort Text.le).eraseDups
  "Rule '".toList ++ e.name ++ "' declares immutable targets: ".toList ++ (Value.list (names.map .text)).literal

/-- The rules with one set: in place of the one of its name, or at the end. -/
def place (r : Rule) : List Rule → List Rule
  | [] => [r]
  | s :: rest => if s.name = r.name then r :: rest else s :: place r rest

/-- Register a rule, unless it declares a kind that must not be rewritten: the registry as it is left, and why the rule
was refused, if it was. -/
def register (g : Registry) (r : Rule) : Registry × Option Refusal :=
  match r.targets.filter fun k => k ∉ mutableKinds with
  | [] => (⟨place r g.rules⟩, none)
  | kinds => (g, some ⟨r.name, kinds⟩)

/-- The rules in pipeline order. -/
def definitions (g : Registry) : List Rule := g.rules.mergeSort Rule.le

/-- The rules with a pass, in pipeline order. -/
def passes (g : Registry) : List Rule := g.definitions.filter fun r => r.rewrites.isSome

/-- The diagnostics of all rules, in pipeline order. -/
def diagnostics (g : Registry) : List (Option (List Text)) := g.definitions.flatMap Rule.diagnostics

/-- The registry of the built-in rules. -/
def builtIn : Registry := ⟨Rule.builtIn⟩

-- ---------------------------------------------------------------------------
-- Discovery
-- ---------------------------------------------------------------------------

/-- What a module of rules holds. -/
inductive Source where
  /-- The module is not there. -/
  | missing
  /-- The module defines no rule. -/
  | noRule
  | rule (r : Rule)

/-- The registry with what a module defines, and what is told if that fails. -/
def load (g : Registry) (name : Text) (source : Source) : Registry × List Log.Entry :=
  let failed (message : Text) : Log.Entry := ⟨.error, "transformer.engine.registry", message⟩
  match source with
  | .missing =>
    (g, [failed ("Error loading rule module ".toList ++ name ++ ": No module named 'transformer.rules.".toList
      ++ name ++ ['\''])])
  | .noRule => (g, [])
  | .rule r =>
    match g.register r with
    | (g, none) => (g, [])
    | (g, some e) => (g, [failed ("Rejected rule module ".toList ++ name ++ ": ".toList ++ e.message)])

/-- The registry with what modules define, one after the other. -/
def discover (g : Registry) (sources : List (Text × Source)) : Registry × List Log.Entry :=
  sources.foldl (fun r s => let q := r.1.load s.1 s.2; (q.1, r.2 ++ q.2)) (g, [])

end Registry
end MdxSafe
