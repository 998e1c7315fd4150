-- SUMMARY: Fenced code is read back from its text, whatever stands in it.
import MdxSafe.Proofs.Markdown.Verbatim
import MdxSafe.Proofs.Outline.Layout

/-!
# Reading fenced code back

`Fence.read?` follows the rule for fences on a text of its own, without the rest of the language: the first line
opens the fence, the first later line that closes it ends the code. The fence that `Layout.fencedCode` chooses is
longer than every run of its character in the code, so no line of the code closes it, and the line that does is
the last one of the text.
-/

namespace MdxSafe

-- ---------------------------------------------------------------------------
-- The rule
-- ---------------------------------------------------------------------------

namespace Fence

/-- Whether a line closes a fence: at most three spaces stand before the characters of the fence. -/
def closes (f : Fence) (l : Text) : Bool :=
  (l.takeWhile (· = ' ')).length ≤ 3 && f.isClosedBy (l.dropWhile (· = ' '))

/-- Fenced code as it is read from a text: its info text, the code, and the lines after the closing one. -/
structure Code where
  info : Text
  payload : Text
  after : List Text
  deriving Repr, DecidableEq

/-- The fenced code that a text starts with; nothing if no fence is opened, or the one that is stays open. -/
def read? (t : Text) : Option Code :=
  match Text.splitOn '\n' t with
  | [] => none
  | opener :: lines => do
    let f ← open? opener
    match lines.dropWhile fun l => !f.closes l with
    | [] => none
    | _ :: after =>
      return { info := f.info, payload := (lines.takeWhile fun l => !f.closes l).flatMap (· ++ ['\n']), after }

variable {c : Char} {n : Nat} {info : Text}

/-- A line of exactly the characters of a fence closes it. -/
theorem closes_replicate (hc : c ≠ ' ') (hn : 0 < n) (info : Text) :
    closes ⟨c, n, info⟩ (List.replicate n c) = true := by
  obtain ⟨m, rfl⟩ : ∃ m, n = m + 1 := ⟨n - 1, by omega⟩
  have hclosed := isClosedBy_replicate c (m + 1) info
  rw [List.replicate_succ] at hclosed ⊢
  simp [closes, hc, hclosed]

/-- A line does not close a fence that is longer than every run of its character in a text around the line. -/
theorem closes_eq_false {l : Text} (before after : Text)
    (hlong : Layout.longestRun c 0 0 (before ++ (l ++ after)) < n) : closes ⟨c, n, info⟩ l = false := by
  have hrun := Layout.run_le_longestRun c (before ++ l.takeWhile (· = ' ')) (l.dropWhile (· = ' ')) after
  have htext : before ++ l.takeWhile (· = ' ') ++ (l.dropWhile (· = ' ') ++ after) = before ++ (l ++ after) := by
    rw [List.append_assoc, ← List.append_assoc (l.takeWhile _), List.takeWhile_append_dropWhile]
  rw [htext] at hrun
  have hopen : isClosedBy ⟨c, n, info⟩ (l.dropWhile (· = ' ')) = false := isClosedBy_eq_false (by omega)
  rw [closes, hopen, Bool.and_false]

/-- The code goes up to the first line that closes the fence. -/
theorem read?_of_splitOn {t opener closer : Text} {lines after : List Text} {f : Fence}
    (ht : Text.splitOn '\n' t = opener :: (lines ++ closer :: after)) (hopen : open? opener = some f)
    (hlines : ∀ l ∈ lines, f.closes l = false) (hcloser : f.closes closer = true) :
    read? t = some { info := f.info, payload := lines.flatMap (· ++ ['\n']), after } := by
  have hgo : ∀ l ∈ lines, (!f.closes l) = true := fun l hl => by rw [hlines l hl]; rfl
  simp [read?, ht, hopen, List.dropWhile_append_of_pos hgo, List.takeWhile_append_of_pos hgo, hcloser]

end Fence

-- ---------------------------------------------------------------------------
-- The layout
-- ---------------------------------------------------------------------------

namespace Outline

variable {opts : Layout.Options} {info payload : Text}

theorem endedPayload_ended (payload : Text) :
    endedPayload payload = [] ∨ (endedPayload payload).getLast? = some '\n' := by
  unfold endedPayload
  split
  · exact .inr (by simp)
  · next h => tauto

/-- Code that ends with a line end, if there is any, is read back, provided its opener can carry the info text. -/
theorem read?_fencedCode (hpayload : payload = [] ∨ payload.getLast? = some '\n') (hinfo : '\n' ∉ info)
    (hhead : info.head? ≠ some (fenceMark opts info)) (htick : fenceMark opts info = '`' → '`' ∉ info) :
    Fence.read? (Layout.fencedCode opts info payload) = some { info, payload, after := [] } := by
  obtain ⟨lines, hlines, htext⟩ := exists_lines_code hinfo hpayload
  obtain ⟨n, hfence, hn⟩ := exists_isFence opts info payload
  replace htext : Text.splitOn '\n' (Layout.fencedCode opts info payload) = _ := htext opts
  rw [hfence] at htext
  generalize fenceMark opts info = mark at htext hn hhead htick
  have hthree := hn.three_le
  have hspace : mark ≠ ' ' := by rcases hn.mark_eq with rfl | rfl <;> decide
  have hopen : Fence.open? (List.replicate n mark ++ info) = some ⟨mark, n, info⟩ :=
    Fence.open?_replicate hn.mark_eq hthree hhead htick
  have hgo : ∀ l ∈ lines, Fence.closes ⟨mark, n, info⟩ l = false := by
    intro l hl
    obtain ⟨before, after, rfl⟩ := List.append_of_mem hl
    refine Fence.closes_eq_false (before.flatMap (· ++ ['\n'])) ('\n' :: after.flatMap (· ++ ['\n'])) ?_
    have hlong := hn.longestRun_lt
    rw [hlines] at hlong
    simpa using hlong
  have hclose := Fence.closes_replicate hspace (by omega : 0 < n) info
  rw [Fence.read?_of_splitOn htext hopen hgo hclose, ← hlines]

end Outline

namespace Layout

open Outline

variable {opts : Options} {n : Node}

/-- The text of a code block, written with the default fence, gives its info text and its code back, and nothing is
left after the line that closes the fence. -/
theorem read?_block_of_code (hfence : opts.fence = .backticks) (hkind : n.kind = .code) (hinfo : '\n' ∉ n.info)
    (hcarries : '`' ∈ n.info → n.info.head? ≠ some '~') :
    ∃ t, block opts n = .ok t
      ∧ Fence.read? t = some { info := n.info, payload := endedPayload n.payload, after := [] } := by
  obtain ⟨kind, value, url, title, markup, info, attrs, children⟩ := n
  cases hkind
  refine ⟨_, rfl, ?_⟩
  rw [← fencedCode_endedPayload]
  refine read?_fencedCode (endedPayload_ended _) hinfo ?_ ?_
  · by_cases htick : '`' ∈ info
    · rw [fenceMark, if_pos ⟨hfence, htick⟩]
      exact hcarries htick
    · -- a backtick fence: the info text holds none
      rw [fenceMark, if_neg fun h => htick h.2, hfence]
      exact fun hhead => htick (List.mem_of_head? hhead)
  · intro hmark htick
    rw [fenceMark, if_pos ⟨hfence, htick⟩] at hmark
    exact absurd hmark (by decide)

/-- Code that holds fences of both kinds, an info text with a backtick, and no line end at the end. -/
theorem read?_block_of_code_sample :
    ∃ t, block {} { kind := .code, info := "a`b".toList, value := some "~~~\n  ```\n~~~~~ \nx".toList } = .ok t
      ∧ Fence.read? t = some { info := "a`b".toList, payload := "~~~\n  ```\n~~~~~ \nx\n".toList, after := [] } :=
  read?_block_of_code rfl rfl (by decide) (by decide)

end Layout
end MdxSafe
