/-
Repository rows and watch lists (`GitHubHelpers.js`), and the feed that they
are merged into.
-/
import CybexOS.GitHub.Snapshot
import Mathlib.Data.List.Sort

namespace CybexOS

namespace GitHub

open Json (JsValue)

/-- `MAX_WATCH` -/
def MAX_WATCH : ℕ := 20

/-- `slug.toLowerCase()`, slugs being ASCII. -/
def lowered (slug : Text) : Text := slug.map lowerUnit

def normalizeWatch (list : JsValue) : List Text :=
  match list with
  | .arr items => items.foldl (fun out item =>
      let slug := repoSlug (some item)
      if MAX_WATCH ≤ out.length ∨ slug = [] ∨ lowered slug ∈ out.map lowered then out
      else out ++ [slug]) []
  | _ => []

/-- A row as `repoRow` makes it, before it is merged. -/
structure Repo where
  slug : Text
  owner : Text
  name : Text
  pushedAt : Text
  isPrivate : Bool
  archived : Bool
  branch : Text
deriving DecidableEq

/-- A row of the feed. -/
structure Listed extends Repo where
  watched : Bool
  account : Bool
deriving DecidableEq

variable (localeCompare : Text → Text → Ordering)

def repoOrder (a b : Listed) : Ordering :=
  if a.pushedAt ≠ b.pushedAt then (if a.pushedAt < b.pushedAt then .gt else .lt)
  else localeCompare a.slug b.slug

def sortRepos (rows : List Listed) : List Listed :=
  rows.insertionSort fun a b => (repoOrder localeCompare a b).isLE

/-- `take`: the first row of a repository is kept. -/
def takeRepo (watched : List Text) (account : Bool) (out : List Listed) (row : Repo) :
    List Listed :=
  if lowered row.slug ∈ out.map (lowered ·.slug) then out
  else out ++ [{ row with watched := lowered row.slug ∈ watched, account := account }]

def mergeRepos (own extra : List Repo) (watch : List Text) : List Listed :=
  let watched := (normalizeWatch (.arr (watch.map .str))).map lowered
  sortRepos localeCompare
    (extra.foldl (takeRepo watched false) (own.foldl (takeRepo watched true) []))

/-- The watches of a setting are distinct in any case. -/
theorem normalizeWatch_nodup (list : JsValue) : ((normalizeWatch list).map lowered).Nodup := by
  cases list with
  | arr items =>
      refine List.foldlRecOn (motive := fun out : List Text => (out.map lowered).Nodup) items _
        List.nodup_nil fun out hout item _ => ?_
      simp only
      split_ifs with hskip
      · exact hout
      · rw [not_or, not_or] at hskip
        rw [List.map_append, List.map_singleton, List.nodup_append]
        refine ⟨hout, List.nodup_singleton _, fun seen hseen slug hslug heq => ?_⟩
        rw [List.mem_singleton] at hslug
        exact hskip.2.2 (hslug ▸ heq ▸ hseen)
  | _ => exact List.nodup_nil

end GitHub

end CybexOS
