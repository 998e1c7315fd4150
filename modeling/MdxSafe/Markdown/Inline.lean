-- SUMMARY: Running text read into tokens.
import MdxSafe.Markdown.Autolink
import MdxSafe.Markdown.Delimiter
import MdxSafe.Markdown.Link
import MdxSafe.Markdown.Tag
import MdxSafe.Markdown.Token

/-!
# Running text

Running text is read from left to right. `Piece` is what may stand at a position: literal characters, a
line end, a complete token, a link or an image. Delimiters of emphasis are kept aside and paired when
the text around them is complete; the text of a link is a text of its own in this respect.

Finding the end of a link text means looking ahead over the pieces inside it. Where each of them ends is
remembered for the whole text (`Memo`).
-/

namespace MdxSafe.Inline

/-- At this depth of links, and of link texts looked ahead into, everything is literal. -/
def maxDepth : Nat := 20

-- ---------------------------------------------------------------------------
-- Source and memory
-- ---------------------------------------------------------------------------

/-- A text with all its suffixes: entry `i` is the text from position `i` on. -/
structure Source where
  suffixes : Array Text

/-- All suffixes of a text, the longest first. -/
def suffixesOf : Text → List Text
  | [] => [[]]
  | c :: t => (c :: t) :: suffixesOf t

namespace Source

/-- The source of a text. -/
def ofText (t : Text) : Source := ⟨(suffixesOf t).toArray⟩

/-- The count of characters. -/
def size (s : Source) : Nat := s.suffixes.size - 1

/-- The text from a position on. -/
def from_ (s : Source) (i : Nat) : Text := s.suffixes.getD i []

/-- The character at a position. -/
def at? (s : Source) (i : Nat) : Option Char := (s.from_ i).head?

/-- The text between two positions. -/
def slice (s : Source) (i j : Nat) : Text := (s.from_ i).take (j - i)

end Source

/-- What is remembered while a text is read. -/
structure Memo where
  /-- Where the piece at a position ends; zero if that is not known. -/
  ends : Array Nat

/-- The memory before anything is read. -/
def Memo.empty (s : Source) : Memo := { ends := Array.replicate (s.size + 1) 0 }

/-- What stays fixed while a range of a text is read. -/
structure Scope where
  source : Source
  refs : List Reference
  /-- The end of the range. -/
  stop : Nat
  /-- The depth of links and look-ahead. -/
  depth : Nat

/-- The character at a position of the range. -/
def Scope.at? (s : Scope) (i : Nat) : Option Char := if i < s.stop then s.source.at? i else none

/-- The text from a position to the end of the range. -/
def Scope.rest (s : Scope) (i : Nat) : Text := s.source.slice i s.stop

/-- The characters of a class from a position on, up to the end of the range. -/
def Scope.takeWhile (s : Scope) (p : Char → Bool) (i : Nat) : Text :=
  Text.takeWhileUpTo p (s.stop - i) (s.source.from_ i)

-- ---------------------------------------------------------------------------
-- Pieces without links
-- ---------------------------------------------------------------------------

/-- What may stand at a position. -/
inductive Piece where
  /-- Literal characters. -/
  | chars (t : Text)
  | lineEnd
  | tokens (ts : List Token)
  /-- A link whose text stands between two positions. -/
  | link (target : LinkTarget) (start stop : Nat)
  /-- An image whose description stands between two positions. -/
  | image (target : LinkTarget) (start stop : Nat)

/-- A character that may start something other than literal text. -/
def isSpecial (c : Char) : Bool := decide (c ∈ "\n!#$%&*+-:<=>@[\\]^_`\x7b\x7d~".toList)

/-- The position after the indentation that starts a line. -/
def skipIndent (s : Scope) (i : Nat) : Nat := i + (s.takeWhile isIndent i).length

/-- A backslash escape, or a line end after a backslash. -/
def escapeAt? (s : Scope) (i : Nat) : Option (Piece × Nat) :=
  match s.at? (i + 1) with
  | none => none
  | some '\n' => some (.tokens [{ kind := .hardBreak }], skipIndent s (i + 2))
  | some c =>
    let markup := ['\\', c]
    let content := if isAsciiSymbol c then [c] else markup
    some (.tokens [{ kind := .textSpecial, content, markup, info := "escape" }], i + 2)

/-- A character reference. -/
def entityAt? (s : Scope) (i : Nat) : Option (Piece × Nat) :=
  if i + 1 < s.stop then
    match Entity.take? 7 6 (s.source.slice (i + 1) (i + 40)) with
    | some (body, r) =>
      let markup := '&' :: body ++ [';']
      some (.tokens [{ kind := .textSpecial, content := r.text, markup, info := "entity" }],
        i + markup.length)
    | none => none
  else none

/-- An autolink or a piece of HTML. -/
def angleAt? (s : Scope) (i : Nat) : Option (Piece × Nat) :=
  let body := s.takeWhile (fun c => c != '<' && c != '>') (i + 1)
  let auto := if s.at? (i + 1 + body.length) = some '>' then Autolink.ofBody? body else none
  match auto with
  | some (href, text) =>
    let mark (t : Token) : Token := { t with markup := "autolink", info := "auto" }
    let opening := { mark (.opening .linkOpen []) with attrs := [("href".toList, .text href)] }
    some (.tokens [opening, .literal text, mark (.closing .linkClose [])], i + body.length + 2)
  | none =>
    if i + 2 < s.stop then
      let t := s.source.from_ (i + 1)
      match Tag.after? t with
      | some rest =>
        let n := t.length - rest.length + 1
        some (.tokens [{ kind := .htmlInline, content := s.source.slice i (i + n) }], i + n)
      | none => none
    else none

/-- The length of the run of a character from a position on, up to a bound. -/
def runLength (s : Source) (c : Char) (bound i : Nat) : Nat :=
  (Text.takeWhileUpTo (· = c) bound (s.from_ i)).length

/-- The content of a code span: line ends as spaces, and one space less at both ends if both have one
and there is anything else. -/
def codeContent (t : Text) : Text :=
  let t := t.map fun c => if c = '\n' then ' ' else c
  if t.head? = some ' ' ∧ t.getLast? = some ' ' ∧ t.any (· ≠ ' ') then (t.drop 1).dropLast else t

/-- The place of the first run of exactly `n` backticks from a position on. -/
def closingRun? (s : Source) (n : Nat) : Nat → Nat → Option Nat
  | 0, _ => none
  | fuel + 1, i =>
    let start := i + ((s.from_ i).takeWhile (· ≠ '`')).length
    let length := runLength s '`' (s.size - start) start
    if length = 0 then none
    else if length = n then some start
    else closingRun? s n fuel (start + length)

/-- A code span up to the next run of as many backticks, or the run of backticks as it stands. -/
def codeAt (s : Scope) (i : Nat) : Piece × Nat :=
  let markup := List.replicate (runLength s.source '`' (s.stop - i) i) '`'
  let start := i + markup.length
  match closingRun? s.source markup.length (s.source.size + 1) start with
  | some j =>
    let content := codeContent (s.source.slice start j)
    (.tokens [{ kind := .codeInline, content, markup }], j + markup.length)
  | none => (.chars markup, start)

-- ---------------------------------------------------------------------------
-- Look-ahead
-- ---------------------------------------------------------------------------

mutual
/-- The piece at a position and the position after it; `fuel` bounds the depth of the search. Runs of
delimiters are no pieces. -/
def pieceAt (fuel : Nat) (s : Scope) (memo : Memo) (i : Nat) : Memo × Option (Piece × Nat) :=
  match fuel with
  | 0 => (memo, none)
  | fuel + 1 =>
    match s.source.at? i with
    | none => (memo, none)
    | some c =>
      if !isSpecial c then
        let t := s.takeWhile (fun c => !isSpecial c) i
        (memo, some (.chars t, i + t.length))
      else match c with
        | '\n' => (memo, some (.lineEnd, skipIndent s (i + 1)))
        | '\\' => (memo, escapeAt? s i)
        | '`' => (memo, some (codeAt s i))
        | '[' => linkAt fuel s memo i
        | '!' => imageAt fuel s memo i
        | '<' => (memo, angleAt? s i)
        | '&' => (memo, entityAt? s i)
        | _ => (memo, none)

/-- The position after the piece at a position; a character that starts no piece stands alone, and at
the greatest depth everything is passed over. -/
def skip (fuel : Nat) (s : Scope) (memo : Memo) (i : Nat) : Memo × Nat :=
  match fuel with
  | 0 => (memo, i + 1)
  | fuel + 1 =>
    let known := memo.ends.getD i 0
    if known ≠ 0 then (memo, known)
    else
      let r :=
        if s.depth < maxDepth then
          let r := pieceAt fuel { s with depth := s.depth + 1 } memo i
          (r.1, match r.2 with
            | some (_, j) => j
            | none => i + 1)
        else (memo, s.stop + 1)
      ({ r.1 with ends := r.1.ends.setIfInBounds i r.2 }, r.2)

/-- The position of the bracket that closes a text, sought from a position on with `open` brackets to
close. A text that may hold no link of its own is refused if it does. -/
def closingBracket (fuel : Nat) (s : Scope) (memo : Memo) (noLinks : Bool) (level i : Nat) :
    Memo × Option Nat :=
  match fuel with
  | 0 => (memo, none)
  | fuel + 1 =>
    match s.at? i with
    | none => (memo, none)
    | some c =>
      if c = ']' ∧ level = 1 then (memo, some i)
      else
        let level := if c = ']' then level - 1 else level
        let r := skip fuel s memo i
        if c = '[' then
          if r.2 = i + 1 then closingBracket fuel s r.1 noLinks (level + 1) r.2
          else if noLinks then (r.1, none)
          else closingBracket fuel s r.1 noLinks level r.2
        else closingBracket fuel s r.1 noLinks level r.2

/-- The target of a reference whose text stands between two positions, and the position after it. A
label may follow at `i`; without one, or with an empty one, the text is the label. -/
def referenceAt (fuel : Nat) (s : Scope) (memo : Memo) (start stop i : Nat) :
    Memo × Option (LinkTarget × Nat) :=
  match fuel with
  | 0 => (memo, none)
  | fuel + 1 =>
    if s.refs.isEmpty then (memo, none)
    else
      let r : Memo × Option Nat :=
        if s.at? i = some '[' then closingBracket fuel s memo false 1 (i + 1) else (memo, none)
      let label := match r.2 with
        | some j => s.source.slice (i + 1) j
        | none => []
      let after := match r.2 with
        | some j => j + 1
        | none => stop + 1
      let label := if label = [] then s.source.slice start stop else label
      (r.1, (Reference.find? s.refs (Reference.normalizeLabel label)).map fun d => (d.target, after))

/-- A link. A target in parentheses that is not well formed leaves the text, with a label found where
that target broke off, to be a reference. -/
def linkAt (fuel : Nat) (s : Scope) (memo : Memo) (i : Nat) : Memo × Option (Piece × Nat) :=
  match fuel with
  | 0 => (memo, none)
  | fuel + 1 =>
    match closingBracket fuel s memo true 1 (i + 1) with
    | (memo, none) => (memo, none)
    | (memo, some stop) =>
      let piece (r : LinkTarget × Nat) : Piece × Nat := (.link r.1 (i + 1) stop, r.2)
      let reference (j : Nat) : Memo × Option (Piece × Nat) :=
        let r := referenceAt fuel s memo (i + 1) stop j
        (r.1, r.2.map piece)
      if s.at? (stop + 1) = some '(' then
        match Link.takeInlineTarget? (s.rest (stop + 2)) with
        | none => (memo, none)
        | some (target, rest) =>
          let j := s.stop - rest.length
          if rest.head? = some ')' then (memo, some (piece (target, j + 1))) else reference (j + 1)
      else reference (stop + 1)

/-- An image. -/
def imageAt (fuel : Nat) (s : Scope) (memo : Memo) (i : Nat) : Memo × Option (Piece × Nat) :=
  match fuel with
  | 0 => (memo, none)
  | fuel + 1 =>
    if s.at? (i + 1) ≠ some '[' then (memo, none)
    else
      match closingBracket fuel s memo false 1 (i + 2) with
      | (memo, none) => (memo, none)
      | (memo, some stop) =>
        let piece (r : LinkTarget × Nat) : Piece × Nat := (.image r.1 (i + 2) stop, r.2)
        if s.at? (stop + 1) = some '(' then
          match Link.takeInlineTarget? (s.rest (stop + 2)) with
          | none => (memo, none)
          | some (target, rest) =>
            if rest.head? = some ')' then
              (memo, some (piece (target, s.stop - rest.length + 1)))
            else (memo, none)
        else
          let r := referenceAt fuel s memo (i + 2) stop (stop + 1)
          (r.1, r.2.map piece)
end

-- ---------------------------------------------------------------------------
-- Tokens
-- ---------------------------------------------------------------------------

/-- The tokens read so far. -/
structure Draft where
  tokens : Array Token := #[]
  delimiters : Array Delimiter := #[]
  /-- Literal characters that are in no token yet, in reverse. -/
  pending : Text := []

namespace Draft

/-- The draft with its literal characters in a token. -/
def flush (d : Draft) : Draft :=
  if d.pending = [] then d
  else { d with tokens := d.tokens.push (.literal d.pending.reverse), pending := [] }

/-- The draft with a token at its end. -/
def push (d : Draft) (t : Token) : Draft :=
  let d := d.flush
  { d with tokens := d.tokens.push t }

/-- The draft with literal characters at its end. -/
def addChars (d : Draft) (t : Text) : Draft := { d with pending := t.reverseAux d.pending }

/-- A line end: a hard break after two spaces, which go with it, else a soft one. -/
def addLineEnd (d : Draft) : Draft :=
  match d.pending with
  | ' ' :: ' ' :: rest => { d with pending := rest.dropWhile (· = ' ') }.push { kind := .hardBreak }
  | ' ' :: rest => { d with pending := rest }.push { kind := .softBreak }
  | _ => d.push { kind := .softBreak }

/-- A delimiter with the token that holds its characters. -/
def addDelimiter (d : Draft) (marker : Char) (chars : Text) (length : Nat) (flanks : Bool × Bool) :
    Draft :=
  let d := d.push (.literal chars)
  { d with
    delimiters := d.delimiters.push
      { marker, length, token := d.tokens.size - 1, opens := flanks.1, closes := flanks.2 } }

/-- The tokens, with every pair of delimiters turned into an element. -/
def finish (d : Draft) : List Token :=
  let d := d.flush
  Delimiter.apply d.delimiters d.tokens

end Draft

/-- Repeat a step. -/
def times (step : Draft → Draft) : Nat → Draft → Draft
  | 0, d => d
  | n + 1, d => times step n (step d)

/-- A run of delimiters at a position, if one stands there: the draft with it, and the position after.
Of an odd run of tildes the first one is literal, and a single tilde is no delimiter. -/
def addRun? (s : Scope) (d : Draft) (i : Nat) (c : Char) : Option (Draft × Nat) :=
  if c = '*' || c = '_' || c = '~' then
    let n := runLength s.source c (s.stop - i) i
    let before := if i = 0 then ' ' else (s.source.at? (i - 1)).getD ' '
    let after := (s.at? (i + n)).getD ' '
    let flanks := Delimiter.flanking (c != '_') before after
    if c = '~' then
      if n < 2 then none
      else
        let d := if n % 2 = 1 then d.push (.literal ['~']) else d
        some (times (fun d => d.addDelimiter c [c, c] 0 flanks) (n / 2) d, i + n)
    else some (times (fun d => d.addDelimiter c [c] n flanks) n d, i + n)
  else none

/-- The tokens of a link around the tokens of its text. -/
def linkTokens (target : LinkTarget) (inner : List Token) : List Token :=
  let title : Fields := if target.title = [] then [] else [("title".toList, .text target.title)]
  let opening := { Token.opening .linkOpen [] with attrs := ("href".toList, .text target.href) :: title }
  opening :: inner ++ [.closing .linkClose []]

/-- The token of an image with the tokens of its description. -/
def imageToken (target : LinkTarget) (content : Text) (children : List Token) : Token :=
  let title : Fields := if target.title = [] then [] else [("title".toList, .text target.title)]
  { kind := .image, content, children
    attrs := ("src".toList, .text target.href) :: ("alt".toList, .text []) :: title }

/-- Read the range from a position on; `fuel` bounds the count of steps and the depth. -/
def run (fuel : Nat) (s : Scope) (memo : Memo) (d : Draft) (i : Nat) : Memo × Draft :=
  match fuel with
  | 0 => (memo, d)
  | fuel + 1 =>
    match s.at? i with
    | none => (memo, d)
    | some c =>
      if maxDepth ≤ s.depth then run fuel s memo (d.addChars [c]) (i + 1)
      else
        match addRun? s d i c with
        | some (d, j) => run fuel s memo d j
        | none =>
          match pieceAt (fuel + 1) s memo i with
          | (memo, none) => run fuel s memo (d.addChars [c]) (i + 1)
          | (memo, some (piece, j)) =>
            match piece with
            | .chars t => run fuel s memo (d.addChars t) j
            | .lineEnd => run fuel s memo d.addLineEnd j
            | .tokens ts => run fuel s memo (ts.foldl Draft.push d) j
            | .link target start stop =>
              let inner := run fuel { s with stop, depth := s.depth + 1 } memo {} start
              run fuel s inner.1 ((linkTokens target inner.2.finish).foldl Draft.push d) j
            | .image target start stop =>
              let content := s.source.slice start stop
              let source := Source.ofText content
              let inner := run fuel { s with source, stop := source.size, depth := 0 } (.empty source) {} 0
              run fuel s memo (d.push (imageToken target content inner.2.finish)) j

/-- The tokens of running text. -/
def parse (refs : List Reference) (t : Text) : List Token :=
  let source := Source.ofText t
  let fuel := 8 * (source.size + 8)
  (run fuel { source, refs, stop := source.size, depth := 0 } (.empty source) {} 0).2.finish

end MdxSafe.Inline
