-- SUMMARY: Link targets without the root they are given relative to.
import MdxSafe.Text.Basic

/-!
# Link roots

A target that starts with the root, however often, is written without it, so that the result never
starts with the root. An empty root is never removed.
-/

namespace MdxSafe.LinkRoot

/-- The target with the root removed from its start at most `limit` times. -/
def stripUpTo (root : Text) : Nat → Text → Text
  | 0, url => url
  | limit + 1, url =>
    match Text.after? root url with
    | some rest => stripUpTo root limit rest
    | none => url

/-- The target with every leading root removed. -/
def strip (root url : Text) : Text := if root = [] then url else stripUpTo root url.length url

end MdxSafe.LinkRoot
