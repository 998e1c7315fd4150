-- SUMMARY: The name under which a repository is entered: the one in its URL, the same however often it is taken.
import Mathlib.Logic.Function.Iterate
import MdxSafe.Command.AddRepository
import MdxSafe.Proofs.Site.RepoName

/-!
# The name of a repository that is entered

The command takes the name of a repository from its argument in order to show it, and hands on the argument, from which
the name is taken once more to enter the repository. A name is its own name, so that it makes no difference where and how
often it is taken (`enter_iterate`): the folder that is made, and that the workflow wipes later on, bears the name shown.
-/

namespace MdxSafe

namespace Site

theorem onboard_ofText (s : Site) (value : Text) : s.onboard (RepoName.ofText value) = s.onboard value := by
  rw [onboard, onboard, RepoName.ofText_ofText]

end Site

namespace Command.AddRepository

variable (site : Site) (value : Text)

/-- The command shows the name first. -/
theorem heading_prefix_enter : heading site.settings.owner (RepoName.ofText value) <+: (enter site value).output := by
  rw [enter]
  dsimp only
  split
  · exact List.prefix_append _ _
  · split
    · exact List.prefix_append _ _
    · exact List.prefix_append _ _

theorem enter_ofText : enter site (RepoName.ofText value) = enter site value := by
  rw [enter, enter, RepoName.ofText_ofText, Site.onboard_ofText]

theorem enter_iterate (n : Nat) : enter site (RepoName.ofText^[n] value) = enter site value := by
  induction n with
  | zero => rfl
  | succ n ih => rw [Function.iterate_succ_apply', enter_ofText, ih]

theorem onboard_iterate (n : Nat) : site.onboard (RepoName.ofText^[n] value) = site.onboard value := by
  induction n with
  | zero => rfl
  | succ n ih => rw [Function.iterate_succ_apply', Site.onboard_ofText, ih]

end Command.AddRepository

open Command.AddRepository

/-- The name of a repository is the one in the first URL of a page, with or without the ending of a clone URL, whoever owns
the repository and whatever follows. A name is its own name. So a repository is entered under the name that is shown, and
entering it by that name, however often it was taken, is the same as entering it by what it was taken from.

The host ends with its only slash, so that none can start in the text before the URL and end in the URL. -/
theorem repository_name_settled :
    (∀ front owner name ending rest : Text, ¬ RepoName.host <:+: front → owner ≠ [] → '/' ∉ owner →
        name ≠ [] → (∀ c ∈ name, c ≠ '/' ∧ isBlank c = false) → ¬ RepoName.cloneEnding <:+ name →
        ending = [] ∨ ending = RepoName.cloneEnding → (∀ c ∈ rest.head?, c = '/' ∨ isBlank c = true) →
        RepoName.ofText (front ++ (RepoName.host ++ (owner ++ '/' :: (name ++ ending ++ rest)))) = name)
      ∧ (∀ t, RepoName.ofText (RepoName.ofText t) = RepoName.ofText t)
      ∧ ∀ (site : Site) (value : Text) (n : Nat),
        heading site.settings.owner (RepoName.ofText value) <+: (enter site value).output
          ∧ enter site (RepoName.ofText^[n] value) = enter site value
          ∧ site.onboard (RepoName.ofText^[n] value) = site.onboard value := by
  refine ⟨?_, RepoName.ofText_ofText, fun site value n => ?_⟩
  · intro front owner name ending rest hfront howner hslash hname hchars hclone hending hrest
    refine RepoName.ofText_url hfront howner hslash hname ?_ hclone hending ?_
    · exact fun c hc => RepoName.isNameEnd_eq_false_iff.2 (hchars c hc)
    · exact fun c hc => RepoName.isNameEnd_eq_true_iff.2 (hrest c hc)
  · exact ⟨heading_prefix_enter site value, enter_iterate site value n, onboard_iterate site value n⟩

/-- An owner with a blank and a dot, and a name that looks like the host, in a clone URL with more of it on both sides. -/
theorem repository_name_settled_clone :
    RepoName.ofText "git clone https://github.com/my team.git/github.com.git/tree main".toList = "github.com".toList :=
  repository_name_settled.1 "git clone https://".toList "my team.git".toList "github.com".toList ".git".toList
    "/tree main".toList (by decide +kernel) (by decide) (by decide) (by decide)
    (fun c hc => RepoName.isNameEnd_eq_false_iff.1 (RepoName.isNameEnd_eq_false_of_all (by decide +kernel) c hc))
    (by decide +kernel) (.inr (by decide +kernel)) (fun _ hc => .inl (Option.some_inj.1 hc).symm)

end MdxSafe
