-- SUMMARY: Block structure: lines read into tokens.
import MdxSafe.Markdown.Definition
import MdxSafe.Markdown.Fault
import MdxSafe.Markdown.Fence
import MdxSafe.Markdown.Heading
import MdxSafe.Markdown.HtmlBlock
import MdxSafe.Markdown.Line
import MdxSafe.Markdown.ListMarker
import MdxSafe.Markdown.Table
import MdxSafe.Markdown.Token

/-!
# Block structure

A range of lines is read block by block. What starts a block is decided by the content of its first
line; a paragraph takes what nothing else takes. Quotes and list items are read by moving the left edge
of their lines and reading the range again as a container, to a depth of twenty.

The lines of a paragraph, a definition, a quote, a table or a list end where another block interrupts
them (`Zone.interrupts`); a paragraph goes on inside a quote even over lines without its marker.

Reading fails where a block asks for a character of a line that is cut off (`Line.isCutOff`).
-/

namespace MdxSafe.Block

open Markdown (ReadFault)

/-- At this depth of containers the rest of a range is dropped. -/
def maxDepth : Nat := 20

/-- The lines that a container sees. -/
structure Zone where
  /-- The lines of the text in full, without their ends. -/
  full : Array Text
  lines : Array Line
  /-- The column of the left edge of the container. -/
  edge : Int := 0
  /-- The line before which paragraphs and definitions end at the latest. -/
  bound : Nat
  depth : Nat := 0
  /-- The left edge of the container around the innermost list item. -/
  listEdge : Option Int := none

namespace Zone

/-- The line with a number; an empty one past the end. -/
def line (z : Zone) (i : Nat) : Line := z.lines.getD i {}

/-- What stands on a line after its indentation. -/
def content (z : Zone) (i : Nat) : Text := (z.line i).content

/-- The column of the content of a line. -/
def indent (z : Zone) (i : Nat) : Int := (z.line i).indent

/-- Whether nothing but indentation stands on a line. -/
def isEmpty (z : Zone) (i : Nat) : Bool := (z.line i).isEmpty

/-- Whether a line is indented as code. -/
def isCode (z : Zone) (i : Nat) : Bool := 4 ≤ z.indent i - z.edge

/-- Whether a line stands left of the container. -/
def isOutside (z : Zone) (i : Nat) : Bool := z.indent i < z.edge

/-- The lines from one to before another without an indentation. -/
def text (z : Zone) (width : Int) (keepEnd : Bool) (start stop : Nat) : Text :=
  (List.range' start (stop - start)).flatMap fun i =>
    let l := z.line i
    l.unindent width ++ (if i + 1 < stop || keepEnd then l.ending else [])

/-- The first line from one on that is not empty. -/
def skipEmpty (z : Zone) : Nat → Nat → Nat
  | 0, i => i
  | fuel + 1, i => if i < z.bound && z.isEmpty i then skipEmpty z fuel (i + 1) else i

-- ---------------------------------------------------------------------------
-- What starts a block
-- ---------------------------------------------------------------------------

/-- The fence that a line opens. -/
def fence? (z : Zone) (i : Nat) : Option Fence :=
  if z.isCode i then none else Fence.open? (z.content i)

/-- Whether a line belongs to a quote. -/
def isQuote (z : Zone) (i : Nat) : Bool := !z.isCode i && (z.content i).head? = some '>'

/-- The thematic break on a line. -/
def break? (z : Zone) (i : Nat) : Option (Char × Nat) :=
  if z.isCode i then none else thematicBreak? (z.content i)

/-- The kind of the HTML block that a line starts. -/
def html? (z : Zone) (i : Nat) : Option HtmlBlock.Kind :=
  if z.isCode i then none else HtmlBlock.kind? (z.content i)

/-- The heading on a line. -/
def heading? (z : Zone) (i : Nat) : Option (Nat × Text) :=
  if z.isCode i then none else Heading.read? (z.content i)

/-- The head of a table that a line and the next one make. -/
def tableHead? (z : Zone) (i stop : Nat) : Option (List Text × List Table.Align) :=
  if stop < i + 2 || z.isOutside (i + 1) || z.isCode (i + 1) || z.isCode i then none
  else Table.head? (z.content i) (z.content (i + 1))

/-- The marker of the list item that a line starts. A line left of the container that is indented as
code in the container around the item starts none. -/
def marker? (z : Zone) (i : Nat) : Option ListMarker :=
  let tooFar := match z.listEdge with
    | some e => 4 ≤ z.indent i - e && z.isOutside i
    | none => false
  if z.isCode i || tooFar then none else ListMarker.read? (z.content i)

/-- Whether a line starts a list that may interrupt a paragraph: not empty and, if ordered, from one. -/
def startsFirmList (z : Zone) (i : Nat) : Bool :=
  match z.marker? i with
  | some m =>
    (!m.isOrdered || m.number = 1) && !((z.content i).drop m.width).all isIndent
  | none => false

/-- Blocks that others interrupt. -/
inductive Open where
  | paragraph | definition | quote | table | list
  deriving DecidableEq

/-- Whether a line interrupts a block. -/
def interrupts (z : Zone) (what : Open) (i stop : Nat) : Bool :=
  ((what = .paragraph || what = .definition) && (z.tableHead? i stop).isSome)
    || (z.fence? i).isSome || z.isQuote i || (z.break? i).isSome
    || (what != .list &&
      ((if what = .paragraph && !z.isOutside i then z.startsFirmList i else (z.marker? i).isSome)
        || (z.html? i).any HtmlBlock.Kind.interrupts || (z.heading? i).isSome))

/-- Whether a line goes on with a paragraph whatever stands on it: it is indented as code, or it lacks
the marker of the quote around it. -/
def isLazy (z : Zone) (i : Nat) : Bool := 3 < z.indent i - z.edge || z.indent i < 0

-- ---------------------------------------------------------------------------
-- Where a block ends
-- ---------------------------------------------------------------------------

/-- The end of a paragraph, sought from a line on. -/
def paragraphEnd (z : Zone) : Nat → Nat → Nat
  | 0, i => i
  | fuel + 1, i =>
    if i < z.bound && !z.isEmpty i && (z.isLazy i || !z.interrupts .paragraph i z.bound) then
      paragraphEnd z fuel (i + 1)
    else i

/-- The line that underlines a heading of several lines, with its mark, sought from a line on. -/
def underline? (z : Zone) (stop : Nat) : Nat → Nat → Option (Nat × Char)
  | 0, _ => none
  | fuel + 1, i =>
    if stop ≤ i || z.isEmpty i then none
    else if 3 < z.indent i - z.edge then underline? z stop fuel (i + 1)
    else
      match (if z.isOutside i then none else Heading.underline? (z.content i)) with
      | some mark => some (i, mark)
      | none =>
        if z.indent i < 0 || !z.interrupts .paragraph i stop then underline? z stop fuel (i + 1) else none

/-- The end of indented code, sought from a line on; `last` is the line after the last one of code. -/
def codeEnd (z : Zone) (stop : Nat) : Nat → Nat → Nat → Nat
  | 0, _, last => last
  | fuel + 1, i, last =>
    if stop ≤ i then last
    else if z.isEmpty i then codeEnd z stop fuel (i + 1) last
    else if z.isCode i then codeEnd z stop fuel (i + 1) (i + 1)
    else last

/-- The line after the content of fenced code, and whether it closes the fence. -/
def fenceEnd (z : Zone) (f : Fence) (stop : Nat) : Nat → Nat → Nat × Bool
  | 0, i => (i, false)
  | fuel + 1, i =>
    let l := z.line i
    if stop ≤ i || (!l.isEmpty && z.isOutside i) || (l.isEmpty && !l.ended) then (i, false)
    else if !z.isCode i && f.isClosedBy l.content then (i, true)
    else fenceEnd z f stop fuel (i + 1)

/-- The line after an HTML block, sought from a line on. -/
def htmlEnd (z : Zone) (k : HtmlBlock.Kind) (stop : Nat) : Nat → Nat → Nat
  | 0, i => i
  | fuel + 1, i =>
    if stop ≤ i || (!z.isEmpty i && z.isOutside i) then i
    else if k.endsAt (z.content i) then if z.content i = [] then i else i + 1
    else htmlEnd z k stop fuel (i + 1)

/-- The rows of a table from a line on, and the line after them; `missing` counts the cells that rows
lacked so far. What interrupts a table is looked for before a line is known to hold anything. -/
def tableRows (z : Zone) (columns stop : Nat) : Nat → Nat → Int → Except ReadFault (List (List Text) × Nat)
  | 0, i, _ => .ok ([], i)
  | fuel + 1, i, missing =>
    let row := Text.trimMargin (z.content i)
    if stop ≤ i || z.isOutside i then .ok ([], i)
    else if (z.line i).isCutOff && !z.isCode i then .error .pastEnd
    else if z.interrupts .table i stop || row = [] || z.isCode i then .ok ([], i)
    else
      let cells := Table.cells row
      let missing := missing + (columns - cells.length)
      if Table.maxMissing < missing then .ok ([], i)
      else do
        let r ← tableRows z columns stop fuel (i + 1) missing
        return (cells :: r.1, r.2)

/-- Whether a line without indentation holds three dots and nothing else; that closes front matter. -/
def isDots (z : Zone) (i : Nat) : Bool :=
  (Text.after? "..." (z.line i).raw).any fun rest => rest.all isIndent

/-- Where front matter that `count` hyphens opened ends, sought from a line on, and whether that line
closes it: a line of as many hyphens, or one of dots. It also ends before a line that stands left of the
container, but not with the lines. -/
def frontMatterEnd? (z : Zone) (count stop : Nat) : Nat → Nat → Except ReadFault (Option (Nat × Bool))
  | 0, _ => .ok none
  | fuel + 1, i =>
    let l := z.line i
    if stop ≤ i then .ok none
    else if z.isDots i then .ok (some (i, true))
    else if !l.isEmpty && z.isOutside i then .ok (some (i, false))
    else if l.isCutOff then .error .pastEnd
    else if !z.isCode i && Fence.isClosedBy ⟨'-', count, []⟩ l.content then .ok (some (i, true))
    else frontMatterEnd? z count stop fuel (i + 1)

/-- The line that goes on with a definition, line end included. -/
def definitionLine? (z : Zone) (i : Nat) : Option Text :=
  if z.bound ≤ i || z.isEmpty i || (!z.isLazy i && z.interrupts .definition i z.bound) then none
  else some (z.content i ++ (z.line i).ending)

end Zone

-- ---------------------------------------------------------------------------
-- Containers
-- ---------------------------------------------------------------------------

/-- A line of a quote without its marker and the blank after it. -/
def unquoted (l : Line) : Line :=
  let t := l.content.drop 1
  let start := l.indent.toNat + 1
  let tabAsSpace := (l.base + start) % 4 = 3
  let blank := t.head?.any isIndent
  let tabKept := t.head? = some '\t' ∧ !tabAsSpace
  let passed := if blank ∧ ¬tabKept then 1 else 0
  let raw := t.drop passed
  let blanks := raw.takeWhile isIndent
  let start := start + passed
  { l with
    raw
    shift := blanks.length
    indent := columnAfter (l.base + if tabKept then 1 else 0) start blanks - (start : Int)
    base := l.indent.toNat + 1 + if blank then 1 else 0 }

/-- The lines of a quote from a line on: the lines as the quote sees them, the line after it, and whether
another block ended it. -/
def quoteLines (z : Zone) (stop : Nat) : Nat → Nat → Bool → Array Line → Array Line × Nat × Bool
  | 0, i, _, lines => (lines, i, false)
  | fuel + 1, i, lastEmpty, lines =>
    let l := z.line i
    if stop ≤ i || l.isEmpty then (lines, i, false)
    else if l.content.head? = some '>' && !z.isOutside i then
      let inner := unquoted l
      quoteLines z stop fuel (i + 1) inner.isEmpty (lines.setIfInBounds i inner)
    else if lastEmpty then (lines, i, false)
    else if z.interrupts .quote i stop then (lines, i, true)
    else quoteLines z stop fuel (i + 1) false (lines.setIfInBounds i { l with indent := -1 })

/-- The zone inside a quote, and the line after it. -/
def quoteZone (z : Zone) (i stop : Nat) : Zone × Nat :=
  let r := quoteLines z stop (stop - i + 1) i false z.lines
  let next := r.2.1
  let lines := if r.2.2 && z.edge ≠ 0 then
      r.1.setIfInBounds next { z.line next with indent := z.indent next - z.edge }
    else r.1
  ({ z with lines, edge := 0, bound := if r.2.2 then next else z.bound, depth := z.depth + 1 }, next)

/-- The zone inside a list item, and whether the item has nothing on its first line. -/
def itemZone (z : Zone) (m : ListMarker) (i : Nat) : Zone × Bool :=
  let l := z.line i
  let t := l.content.drop m.width
  let start := l.indent.toNat + m.width
  let blanks := t.takeWhile isIndent
  let column := columnAfter l.base start blanks
  let bare := blanks.length = t.length
  let gap := if bare || 4 < column - start then 1 else column - start
  let inner := { l with shift := l.shift + m.width + blanks.length, indent := column }
  ({ z with
    lines := z.lines.setIfInBounds i inner, edge := start + gap, depth := z.depth + 2
    listEdge := some z.edge }, bare)

/-- The tokens of list items with the paragraphs directly inside them hidden. -/
def hideParagraphs (depth : Nat) : List Token → List Token
  | [] => []
  | t :: ts =>
    match t.nesting with
    | .opens =>
      { t with hidden := t.hidden || (t.kind = .paragraphOpen && depth = 1) }
        :: hideParagraphs (depth + 1) ts
    | .closes =>
      { t with hidden := t.hidden || (t.kind = .paragraphClose && depth = 2) }
        :: hideParagraphs (depth - 1) ts
    | .stands => t :: hideParagraphs depth ts

-- ---------------------------------------------------------------------------
-- Tokens of blocks without blocks inside
-- ---------------------------------------------------------------------------

/-- The tokens of a heading. -/
def headingTokens (level : Nat) (markup content : Text) : List Token :=
  let tag := 'h' :: Text.ofNat level
  [{ Token.opening .headingOpen markup with tag }, .running content,
   { Token.closing .headingClose markup with tag }]

/-- The tokens of a paragraph. -/
def paragraphTokens (content : Text) : List Token :=
  [.opening .paragraphOpen [], .running content, .closing .paragraphClose []]

/-- The tokens of a row with its cells. -/
def rowTokens (openCell closeCell : TokenKind) (aligns : List Table.Align) (cells : List Text) :
    List Token :=
  let cell (i : Nat) (a : Table.Align) : List Token :=
    let attrs : Fields := a.style?.toList.map fun s => ("style".toList, .text s)
    [{ Token.opening openCell [] with attrs }, .running (Text.trimMargin (cells.getD i [])),
     .closing closeCell []]
  .opening .trOpen [] :: (aligns.mapIdx cell).flatten ++ [.closing .trClose []]

/-- The tokens of a table. -/
def tableTokens (aligns : List Table.Align) (head : List Text) (rows : List (List Text)) : List Token :=
  let body := if rows = [] then [] else
    .opening .tbodyOpen [] :: rows.flatMap (rowTokens .tdOpen .tdClose aligns)
      ++ [.closing .tbodyClose []]
  [.opening .tableOpen [], .opening .theadOpen []] ++ rowTokens .thOpen .thClose aligns head
    ++ [.closing .theadClose []] ++ body ++ [.closing .tableClose []]

-- ---------------------------------------------------------------------------
-- Reading
-- ---------------------------------------------------------------------------

/-- What reading a part of a range yields: tokens, the line after the part, the definitions so far, and
whether no empty line separates the blocks of the part. -/
structure Reading where
  tokens : Array Token
  next : Nat
  refs : List Reference
  tight : Bool := true

/-- The front matter that a text starts with. The text starts with a hyphen, and the content of its first
line has at least two more after its first character; in a list item that character is its own. What
is kept are the lines in between, of which a container sees only the first one without its markers. -/
def frontMatterAt? (z : Zone) (i stop : Nat) : Except ReadFault (Option (List Token × Nat)) :=
  let count := ((z.content i).drop 1 |>.takeWhile (· = '-')).length + 1
  if i ≠ 0 || (z.full.getD 0 []).head? ≠ some '-' || count < 3 then .ok none
  else do
    let some (last, closed) ← z.frontMatterEnd? count stop stop 1 | return none
    let inside := (z.full.toList.take last).drop 1
    let content := match inside with
      | [] => []
      | _ :: rest => Text.join ['\n'] ((z.line 1).raw :: rest)
    return some ([{ kind := .frontMatter, content, markup := "---", hidden := true }],
      if closed then last + 1 else last)

/-- The block without blocks inside that a line starts; the kinds are tried in their order of
precedence before quotes and lists. -/
def leafBefore? (z : Zone) (i stop : Nat) : Except ReadFault (Option (List Token × Nat)) := do
  let fuel := stop - i + 1
  if let some r ← frontMatterAt? z i stop then return some r
  match z.tableHead? i stop with
  | some (head, aligns) =>
    let r ← z.tableRows head.length stop fuel (i + 2) 0
    return some (tableTokens aligns head r.1, r.2)
  | none =>
    if z.isCode i then
      let next := z.codeEnd stop fuel (i + 1) (i + 1)
      return some ([{ kind := .codeBlock, content := z.text (4 + z.edge) false i next ++ ['\n'] }], next)
    else
      return (z.fence? i).map fun f =>
        let r := z.fenceEnd f stop fuel (i + 1)
        ([{ kind := .fence, info := f.info, markup := List.replicate f.length f.mark
            content := z.text (z.indent i) true (i + 1) r.1 }],
          if r.2 then r.1 + 1 else r.1)

/-- The thematic break that a line is. -/
def breakAt? (z : Zone) (i : Nat) : Option (List Token × Nat) :=
  (z.break? i).map fun r => ([{ kind := .hr, markup := List.replicate (r.2 + 1) r.1 }], i + 1)

/-- The block without blocks inside that a line starts, with the kinds that come after quotes and lists;
the last of them is the paragraph. HTML keeps the end of its last line, and its indentation is passed over
to the left edge of the container, wherever the line ends. -/
def leafAfter (z : Zone) (i stop : Nat) : Except ReadFault (List Token × Nat) :=
  match z.html? i with
  | some k =>
    let next := if k.endsAt (z.content i) then i + 1 else z.htmlEnd k stop (stop - i + 1) (i + 1)
    let last := z.line (next - 1)
    if last.isCutOff && !last.reaches z.edge then .error .pastEnd
    else .ok ([{ kind := .htmlBlock, content := z.text z.edge true i next }], next)
  | none =>
    match z.heading? i with
    | some (level, content) => .ok (headingTokens level (List.replicate level '#') content, i + 1)
    | none =>
      match (if z.isCode i then none else z.underline? stop (stop - i + 1) (i + 1)) with
      | some (j, mark) =>
        let content := Text.trimMargin (z.text z.edge false i j)
        .ok (headingTokens (Heading.underlineLevel mark) [mark] content, j + 1)
      | none =>
        let next := z.paragraphEnd (z.bound - i + 1) (i + 1)
        .ok (paragraphTokens (Text.trimMargin (z.text z.edge false i next)), next)

/-- The definition that starts on a line, and the line after it. -/
def definition? (z : Zone) (i : Nat) : Option (Reference × Nat) :=
  if z.isCode i then none
  else
    (Definition.read? (fun n => z.definitionLine? (i + 1 + n)) (z.bound - i + 2)
      (z.content i ++ (z.line i).ending)).map fun r => (r.1, i + 1 + r.2)

mutual
/-- Read the blocks of a range; `spaced` says whether an empty line came before, `tight` whether none
separates the blocks read so far. -/
def blocks (fuel : Nat) (z : Zone) (refs : List Reference) (i stop : Nat) (spaced tight : Bool)
    (done : Array Token) : Except ReadFault Reading :=
  match fuel with
  | 0 => .ok ⟨done, i, refs, tight⟩
  | fuel + 1 =>
    if stop ≤ i then .ok ⟨done, i, refs, tight⟩
    else
      let i := z.skipEmpty (z.bound - i) i
      if stop ≤ i || z.isOutside i then .ok ⟨done, i, refs, tight⟩
      else if maxDepth ≤ z.depth then .ok ⟨done, stop, refs, tight⟩
      else do
        let r ← block fuel z refs i stop
        let next := r.next
        let done := done ++ r.tokens
        let spacedNow := spaced || (next - 1 < stop && z.isEmpty (next - 1))
        if next < stop && z.isEmpty next then
          blocks fuel z r.refs (next + 1) stop true (!spaced) done
        else blocks fuel z r.refs next stop spacedNow (!spaced) done

/-- Read the block that starts on a line. -/
def block (fuel : Nat) (z : Zone) (refs : List Reference) (i stop : Nat) : Except ReadFault Reading :=
  match fuel with
  | 0 => .ok ⟨#[], i + 1, refs, true⟩
  | fuel + 1 => do
    let leaf (r : List Token × Nat) : Reading := ⟨r.1.toArray, r.2, refs, true⟩
    match ← leafBefore? z i stop with
    | some r => return leaf r
    | none =>
      if z.isQuote i then
        let (inner, next) := quoteZone z i stop
        let r ← blocks fuel inner refs i next false true #[]
        return ⟨#[.opening .blockquoteOpen ['>']] ++ r.tokens ++ #[.closing .blockquoteClose ['>']],
          r.next, r.refs, true⟩
      else
        match breakAt? z i with
        | some r => return leaf r
        | none =>
          match z.marker? i with
          | some m =>
            let r ← items fuel z refs m i stop true false #[]
            let inside := r.tokens.toList
            let inside := if r.tight then hideParagraphs 0 inside else inside
            let markup := [m.mark]
            let attrs : Fields :=
              if m.isOrdered && m.number ≠ 1 then [("start".toList, .int m.number)] else []
            let kinds : TokenKind × TokenKind :=
              if m.isOrdered then (.orderedListOpen, .orderedListClose)
              else (.bulletListOpen, .bulletListClose)
            return ⟨#[{ Token.opening kinds.1 markup with attrs }] ++ inside.toArray
                ++ #[.closing kinds.2 markup], r.next, r.refs, true⟩
          | none =>
            match definition? z i with
            | some (d, next) => return ⟨#[], next, Reference.add refs d, true⟩
            | none => return leaf (← leafAfter z i stop)

/-- Read the items of a list from a line on. The list is tight as long as no item has blocks separated
by empty lines, and no item but the last ends with one (`endsEmpty`). -/
def items (fuel : Nat) (z : Zone) (refs : List Reference) (m : ListMarker) (i stop : Nat)
    (tight endsEmpty : Bool) (done : Array Token) : Except ReadFault Reading :=
  match fuel with
  | 0 => .ok ⟨done, i, refs, tight⟩
  | fuel + 1 => do
    let (inner, bare) := itemZone z m i
    let r ← if bare && z.isEmpty (i + 1) then .ok ⟨#[], min (i + 2) stop, refs, true⟩
      else blocks fuel inner refs i stop false true #[]
    let tight := tight && r.tight && !endsEmpty
    let next := r.next
    let endsEmpty := 1 < next - i && inner.isEmpty (next - 1)
    let markup := [m.mark]
    let done := done.push { Token.opening .listItemOpen markup with info := m.digits }
    let done := (done ++ r.tokens).push (.closing .listItemClose markup)
    let result : Reading := ⟨done, next, r.refs, tight⟩
    if stop ≤ next || z.isOutside next || z.isCode next || z.interrupts .list next stop then return result
    else
      match z.marker? next with
      | some n =>
        if m.continues n then items fuel z r.refs n next stop tight endsEmpty done else return result
      | none => return result
end

-- ---------------------------------------------------------------------------
-- Documents
-- ---------------------------------------------------------------------------

/-- The tokens and the definitions of the blocks of a document. -/
def parse (t : Text) : Except ReadFault (List Token × List Reference) := do
  let lines := linesOf t
  let z : Zone := { full := lines.map Line.raw, lines, bound := lines.size }
  let r ← blocks (4 * (lines.size + 32)) z [] 0 lines.size false true #[]
  return (r.tokens.toList, r.refs)

end MdxSafe.Block
