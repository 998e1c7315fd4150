-- SUMMARY: Document trees read from dynamic values.
import MdxSafe.Tree.Node
import MdxSafe.Validation.Basic

/-!
# Reading trees from data

A node is an object with a kind and optional fields; fields that are not known do not count.
-/

namespace MdxSafe

/-- The kind of a node. -/
def Kind.ofValue (v : Value) : Checked Kind :=
  let refuse := Checked.fail (.enum (Kind.all.map Kind.name)) v
  match v with
  | .text t =>
    match Kind.ofName? t with
    | some k => .ok k
    | none => refuse
  | _ => refuse

namespace Node

/-- A node from an object of at most a depth. -/
def ofValueWithin : Nat → Value → Checked Node
  | 0, v => Checked.fail (.model "Node") v
  | depth + 1, v =>
    Checked.record "Node" (fun fs =>
      let optional {α : Type} (read : Value → Checked α) (default : α) (key : String) : Checked α :=
        Checked.optional read default fs key
      Node.mk <$> Checked.required Kind.ofValue fs "type"
        <*> optional Checked.text? none "value" <*> optional Checked.text? none "url"
        <*> optional Checked.text? none "title" <*> optional Checked.text [] "markup"
        <*> optional Checked.text [] "info" <*> optional Checked.fields [] "attrs"
        <*> optional (Checked.list (ofValueWithin depth)) [] "children") v

/-- A node from a value. -/
def ofValue (v : Value) : Checked Node := ofValueWithin (v.depth + 1) v

end Node
end MdxSafe
