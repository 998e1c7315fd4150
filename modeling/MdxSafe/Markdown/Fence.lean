-- SUMMARY: Fences of code blocks.
import MdxSafe.Text.Blank

/-!
# Code fences

A fence opens with three or more backticks or tildes and an info text, which may hold no backtick if
the fence is made of them. It closes with a line of at least as many of the same characters.
-/

namespace MdxSafe

/-- The fence that opens a code block. -/
structure Fence where
  mark : Char
  length : Nat
  info : Text
  deriving Repr, DecidableEq

namespace Fence

/-- The fence that the content of a line opens. -/
def open? (t : Text) : Option Fence :=
  match t with
  | [] => none
  | mark :: _ =>
    if mark = '~' ∨ mark = '`' then
      let length := (t.takeWhile (· = mark)).length
      let info := t.drop length
      if length < 3 ∨ (mark = '`' ∧ '`' ∈ info) then none else some { mark, length, info }
    else none

/-- Whether the content of a line closes a fence. -/
def isClosedBy (f : Fence) (t : Text) : Bool :=
  let run := t.takeWhile (· = f.mark)
  f.length ≤ run.length && (t.drop run.length).all isIndent

end Fence
end MdxSafe
