-- SUMMARY: Repository names taken from URLs, and shown as titles.
import MdxSafe.Text.Blank
import MdxSafe.Text.Case

/-!
# Repository names

A repository is given by its name or by the URL of its page. The name is what follows host and owner, up to
a slash or blank, and without the ending of a clone URL.
-/

namespace MdxSafe.RepoName

/-- The host of repository pages. -/
def host : Text := "github.com/"

/-- What ends a clone URL. -/
def cloneEnding : Text := ".git"

/-- The name in what follows the host: an owner that is not empty, a slash, and the name. -/
def afterHost? (t : Text) : Option Text :=
  match t.takeWhile (· ≠ '/'), t.dropWhile (· ≠ '/') with
  | _ :: _, '/' :: rest =>
    match rest.takeWhile fun c => c ≠ '/' && !isBlank c with
    | [] => none
    | name => some name
  | _, _ => none

/-- The name after the first host that has one. -/
def inUrl? : Text → Option Text
  | [] => none
  | c :: t =>
    match (Text.after? host (c :: t)).bind afterHost? with
    | some name => some name
    | none => inUrl? t

/-- A name without the ending of a clone URL. -/
def dropEnding (name : Text) : Text :=
  if name.endsWith cloneEnding then name.take (name.length - cloneEnding.length) else name

/-- The repository name of a name or URL. -/
def ofText (t : Text) : Text :=
  match inUrl? t with
  | some name => dropEnding name
  | none => t.trimBlank

-- ---------------------------------------------------------------------------
-- Titles
-- ---------------------------------------------------------------------------

/-- The text with a space between a small and a capital letter of ASCII. -/
def splitCamel : Text → Text
  | a :: b :: t => if a.isLower && b.isUpper then a :: ' ' :: splitCamel (b :: t) else a :: splitCamel (b :: t)
  | t => t

/-- A word with only its first letter in upper case. -/
def capitalize (word : Text) : Text := Text.upper (word.take 1) ++ Text.lower (word.drop 1)

/-- A name as a title: its words, however they were set apart, capitalized. -/
def title (name : Text) : Text :=
  let spaced := (splitCamel name).map fun c => if c = '-' || c = '_' then ' ' else c
  Text.join [' '] ((Text.splitOn ' ' spaced).map capitalize)

end MdxSafe.RepoName
