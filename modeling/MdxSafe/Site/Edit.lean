-- SUMMARY: Edits that enter a repository into the files of a site.
import MdxSafe.Site.Snippet
import MdxSafe.Text.Splice

/-!
# Edits

An edit finds its anchors in the text of a file and inserts snippets there; where an anchor is missing it
fails and inserts nothing. A repository that is entered already is skipped. The anchors of the workflow are
the entries of the template repository, next to which those of the new one are inserted.
-/

namespace MdxSafe

/-- What came of an edit of a text. -/
inductive Edit where
  | applied (text : Text) (message : Text)
  | skipped (message : Text)
  | failed (message : Text)
  deriving DecidableEq, Repr

namespace Edit

/-- An anchor that is missing from a workflow. -/
inductive Anchor where
  | checkoutStep | afterCheckout | syncSection | syncEnd | cleanupLine
  deriving DecidableEq, Repr

/-- What to tell about a missing anchor. -/
def Anchor.message (template : Text) : Anchor → Text
  | checkoutStep => "Could not find ".toList ++ template ++ " checkout step".toList
  | afterCheckout => "Could not find insertion point after ".toList ++ template
  | syncSection => "Could not find ".toList ++ template ++ " sync section".toList
  | syncEnd => "Could not find end of ".toList ++ template ++ " sync section".toList
  | cleanupLine => "Could not find ".toList ++ template ++ " cleanup line".toList

-- ---------------------------------------------------------------------------
-- The workflow
-- ---------------------------------------------------------------------------

/-- How a step of the workflow that fetches a repository starts. -/
def checkoutTitle (repo : Text) : Text := "- name: Checkout ".toList ++ repo

/-- How the next step of the workflow starts. -/
def nextStep : Text := "\n      - name:"

/-- How the last line of a section of the workflow starts, with the line end before it. -/
def blockEnd : Text := "\n          fi"

/-- What follows a line end, whether or not a return stands before it. -/
def afterLineEnd? : Text → Option Text
  | '\n' :: t => some t
  | '\r' :: '\n' :: t => some t
  | _ => none

/-- The length of the blanks of a text up to its last line end among them. -/
def blankLines? (t : Text) : Option Nat :=
  let blanks := t.takeWhile isBlank
  let after := blanks.reverse.takeWhile (· ≠ '\n')
  if after.length = blanks.length then none else some (blanks.length - after.length)

/-- The length of the end of a section at the start of a text: the last line and the empty lines after it. -/
def blockEndLength? (t : Text) : Option Nat :=
  ((Text.after? blockEnd t).bind afterLineEnd?).bind fun rest =>
    (blankLines? rest).map fun n => t.length - rest.length + n

/-- The position after the first end of a section in a text. -/
def afterBlock? : Text → Option Nat
  | [] => none
  | c :: t =>
    match blockEndLength? (c :: t) with
    | some n => some n
    | none => (afterBlock? t).map (· + 1)

/-- The workflow with the step that fetches the repository. -/
def insertCheckout (s : SiteSettings) (repo t : Text) : Except Anchor Text :=
  match Text.find? (checkoutTitle s.templateRepo) t with
  | none => .error .checkoutStep
  | some at_ =>
    match Text.findFrom? nextStep (at_ + 1) t with
    | none => .error .afterCheckout
    | some i => .ok (t.insertAt i (Snippet.checkout s repo))

/-- The workflow with the section that copies the documents of the repository. -/
def insertSync (s : SiteSettings) (repo t : Text) : Except Anchor Text :=
  let marker := Snippet.syncMarker s.templateRepo
  match Text.find? marker t with
  | none => .error .syncSection
  | some at_ =>
    let start := at_ + marker.length
    match afterBlock? (t.drop start) with
    | none => .error .syncEnd
    | some n => .ok (t.insertAt (start + n) (Snippet.sync repo))

/-- The workflow with the line that removes the fetched repository. -/
def insertCleanup (s : SiteSettings) (repo t : Text) : Except Anchor Text :=
  match Text.find? (Snippet.removal s.templateRepo) t with
  | none => .error .cleanupLine
  | some at_ =>
    let i := (Text.findFrom? ['\n'] at_ t).getD t.length
    .ok (t.insertAt i ('\n' :: Snippet.cleanup repo))

/-- The workflow with everything inserted for a repository. -/
def spliceWorkflow (s : SiteSettings) (repo t : Text) : Except Anchor Text := do
  insertCleanup s repo (← insertSync s repo (← insertCheckout s repo t))

/-- Whether only blanks stand between the start of a text and the end of one of its lines. -/
def endsLine (t : Text) : Bool := t.dropWhile isBlank = [] || '\n' ∈ t.takeWhile isBlank

/-- Whether a text has a line that ends with `pat`, blanks apart. -/
def hasLineEndingWith (pat : Text) : Text → Bool
  | [] => pat = []
  | c :: t => (Text.after? pat (c :: t)).any endsLine || hasLineEndingWith pat t

/-- Enter a repository into the workflow. -/
def workflow (s : SiteSettings) (repo t : Text) : Edit :=
  if hasLineEndingWith (checkoutTitle repo) t then
    .skipped ("Repository \"".toList ++ repo ++ "\" already exists in workflow".toList)
  else
    match spliceWorkflow s repo t with
    | .error anchor => .failed (anchor.message s.templateRepo)
    | .ok t => .applied t ("Updated ".toList ++ s.workflowPath)

-- ---------------------------------------------------------------------------
-- Sidebars and navigation bar
-- ---------------------------------------------------------------------------

/-- What stands after the sidebars. -/
def sidebarsExport : Text := "export default sidebars;"

/-- Enter a repository into the sidebars. -/
def sidebars (s : SiteSettings) (repo t : Text) : Edit :=
  let name := Snippet.sidebarName repo
  if t.contains name then .skipped ("Sidebar \"".toList ++ name ++ "\" already exists".toList)
  else
    match Text.find? sidebarsExport t with
    | none => .failed ("Could not find export statement in ".toList ++ s.sidebarsPath)
    | some stop =>
      match Text.findLast? "\x7d;" stop t with
      | none => .failed ("Could not find closing brace in ".toList ++ s.sidebarsPath)
      | some i =>
        .applied (t.insertAt i (Snippet.sidebar repo ++ ['\n']))
          ("Added ".toList ++ name ++ " to ".toList ++ s.sidebarsPath)

/-- Whether a line starts with an item that leads to the pages of repositories. -/
def startsRepositoryItem (t : Text) : Bool :=
  match t.dropWhile fun c => c = ' ' || c = '\t' with
  | '\x7b' :: t =>
    match Text.after? "href:" (t.dropWhile isBlank) with
    | some t =>
      match t.dropWhile isBlank with
      | c :: t => (c = '\'' || c = '"') && Text.startsWith t "https://github.com"
      | [] => false
    | none => false
  | _ => false

/-- The position of the first line that starts with an item leading to the pages of repositories. -/
def repositoryItem? (lineStart : Bool) : Text → Option Nat
  | [] => none
  | c :: t =>
    if lineStart && startsRepositoryItem (c :: t) then some 0
    else (repositoryItem? (c = '\n') t).map (· + 1)

/-- Enter a repository into the navigation bar. -/
def navbar (s : SiteSettings) (repo t : Text) : Edit :=
  let name := Snippet.sidebarName repo
  if t.contains ("sidebarId: '".toList ++ name ++ ['\'']) || t.contains ("sidebarId: \"".toList ++ name ++ ['"']) then
    .skipped ("Navbar item for \"".toList ++ repo ++ "\" already exists".toList)
  else
    match repositoryItem? true t with
    | none => .failed "Could not find GitHub link in navbar"
    | some i =>
      .applied (t.insertAt i (Snippet.navbar repo))
        ("Added navbar entry \"".toList ++ RepoName.title repo ++ "\" to ".toList ++ s.configPath)

end Edit
end MdxSafe
