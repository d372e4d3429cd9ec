/-
The files that a repository tracks, in the course of a run.
-/
import CopyrightNotice.Repository.Index
import CopyrightNotice.Run.Session

namespace CopyrightNotice.Repository

/-- Where a repository keeps its index. -/
def indexPath (r : Repository) : Path :=
  Location.path (r.data ++ [name "index"])

/-- What the index of a repository holds. A repository in which nothing
was ever staged has no index. -/
def staged (t : Tree) (r : Repository) : Option (List Staged) :=
  match t.read r.indexPath with
  | .ok content => Index.read? content
  | .error .notFound => some []
  | .error _ => none

/-- The tracked files at or below a directory. -/
def trackedFiles (root dir : Path) : Job (List Path) := do
  let t ← Job.tree
  let repository ← Job.orFail (.repository root) (openAt t root)
  let some entries := repository.staged t | throw .index
  Job.log .debug .listing
    ("Listing tracked files under '" ++ (Staged.plainDirectory dir).display
    ++ "'")
  (Staged.unreadable entries).forM fun path =>
    Job.detail ("Skipping non UTF-8 path in index: " ++ path.display)
  let files := Staged.listing entries dir
  Job.detail s!"Found {files.length} tracked files under '{dir.display}'"
  return files

end CopyrightNotice.Repository
