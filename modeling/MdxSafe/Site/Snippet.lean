-- SUMMARY: What is inserted into the files of a site for a repository.
import MdxSafe.Settings.Basic
import MdxSafe.Site.RepoName

/-!
# Snippets

A repository is entered into the workflow that fetches its documents in three places, and into the
sidebars and the navigation bar in one each.
-/

namespace MdxSafe.Snippet

/-- The step of the workflow that fetches the repository. -/
def checkout (s : SiteSettings) (repo : Text) : Text :=
  "\n      - name: Checkout ".toList ++ repo
    ++ "\n        uses: actions/checkout@v4\n        with:\n          repository: ".toList
    ++ s.owner ++ '/' :: repo
    ++ "\n          ref: main\n          path: _source_".toList ++ repo
    ++ "\n          token: $\x7b\x7b secrets.DOCS_REPO_TOKEN \x7d\x7d".toList

/-- What marks the section of the workflow that copies the documents of a repository. -/
def syncMarker (repo : Text) : Text := "# Sync ".toList ++ repo ++ " docs".toList

/-- The section of the workflow that copies the documents of the repository. -/
def sync (repo : Text) : Text :=
  "\n          ".toList ++ syncMarker repo
    ++ "\n          if [ -d \"_source_".toList ++ repo ++ "/docs\" ]; then\n            rm -rf docs/".toList ++ repo
    ++ "\n            mkdir -p docs/".toList ++ repo
    ++ "\n            rsync -a --delete _source_".toList ++ repo ++ "/docs/ docs/".toList ++ repo
    ++ "/\n          fi\n".toList

/-- What removes the fetched repository. -/
def removal (repo : Text) : Text := "rm -rf _source_".toList ++ repo

/-- The line of the workflow that removes the fetched repository. -/
def cleanup (repo : Text) : Text := "          ".toList ++ removal repo

/-- The name of the sidebar of a repository. -/
def sidebarName (repo : Text) : Text := repo ++ "Sidebar".toList

/-- Whether a character may stand in a key that is not quoted. -/
def isKeyChar (c : Char) : Bool := c.isAlphanum || c = '_' || c = '$'

/-- The key of the sidebar of a repository, in quotes if it needs them. -/
def sidebarKey (repo : Text) : Text :=
  let key := sidebarName repo
  if key.all isKeyChar then key else '\'' :: key ++ ['\'']

/-- The entry of the sidebars. -/
def sidebar (repo : Text) : Text :=
  "  // ".toList ++ repo ++ " sidebar\n  ".toList ++ sidebarKey repo
    ++ ": [\n    \x7b\n      type: 'autogenerated',\n      dirName: '".toList ++ repo
    ++ "',\n    \x7d,\n  ],".toList

/-- The entry of the navigation bar. -/
def navbar (repo : Text) : Text :=
  "        \x7b\n          type: 'docSidebar',\n          sidebarId: '".toList ++ sidebarName repo
    ++ "',\n          position: 'left',\n          label: '".toList ++ RepoName.title repo
    ++ "',\n        \x7d,\n".toList

end MdxSafe.Snippet
