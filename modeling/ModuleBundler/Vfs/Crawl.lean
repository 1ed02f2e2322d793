import ModuleBundler.Vfs.Tree

/-!
# Crawling the roots

The files of every root with a tracked extension, skipping ignored paths: a file is skipped when
it, or a directory between it and its root, is ignored. A file reached through two overlapping
roots counts once. The result is sorted.
-/

namespace ModuleBundler

namespace Vfs

/-- The files below one root, each with a tracked extension and no ignored step on its way. -/
def crawlRoot (disk : Disk) (root : Path) (exts : List String) (ignore : IgnoreRules) :
    Except VfsError (List Path) :=
  let root := root.normalize
  if !disk.isDir root then .error (.rootMissing root)
  else
    .ok (disk.filesUnder root |>.filter fun f =>
      let steps := (Disk.ancestors f ++ [f]).filter fun a => a.components.length > root.components.length
      (match f.extension? with
       | some e => exts.contains e
       | none => false) && !steps.any ignore.isIgnored)

/-- The files of every root, each once, sorted. -/
def crawl (disk : Disk) (roots : List Path) (exts : List String) (ignore : IgnoreRules) :
    Except VfsError (List Path) := do
  let perRoot ← roots.mapM fun r => crawlRoot disk r exts ignore
  let files := perRoot.flatten.map Path.normalize
  let unique := files.foldl (fun acc f => if acc.contains f then acc else acc ++ [f]) []
  return sortPaths unique

end Vfs

end ModuleBundler
