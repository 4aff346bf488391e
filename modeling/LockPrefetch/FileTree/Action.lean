import LockPrefetch.FileTree.Basic

/-! # Changing file trees

A request may change the tree and may be refused; what was changed before a refusal stays
changed. Requests are joined one after another, up to the first refusal (`run_bind_ok`,
`run_bind_error`). The requests here make directories, write files and remove them. -/

set_option autoImplicit false

namespace LockPrefetch.FileTree

/-- A request that may change the tree and may be refused. -/
structure Action (ε α : Type) where
  /-- What the request yields, and the tree that it leaves. -/
  run : FileTree → Except ε α × FileTree

namespace Action

variable {ε φ α β : Type}

instance : Monad (Action ε) where
  pure a := ⟨fun tree => (.ok a, tree)⟩
  bind action next := ⟨fun tree =>
    match action.run tree with
    | (.ok a, after) => (next a).run after
    | (.error e, after) => (.error e, after)⟩

@[simp] theorem run_pure (a : α) (tree : FileTree) :
    (pure a : Action ε α).run tree = (.ok a, tree) := rfl

/-- After a request that was met, the next one starts from the tree that it left. -/
theorem run_bind_ok {action : Action ε α} {tree after : FileTree} {a : α}
    (h : action.run tree = (.ok a, after)) (next : α → Action ε β) :
    (action >>= next).run tree = (next a).run after := by
  simp only [bind, h]

/-- After a request that was refused, nothing more happens. -/
theorem run_bind_error {action : Action ε α} {tree after : FileTree} {e : ε}
    (h : action.run tree = (.error e, after)) (next : α → Action ε β) :
    (action >>= next).run tree = (.error e, after) := by
  simp only [bind, h]

/-- Looks at the tree without changing it. -/
def inspect (look : FileTree → Except ε α) : Action ε α := ⟨fun tree => (look tree, tree)⟩

/-- Restates the refusals of a request. -/
def restating (restate : ε → φ) (action : Action ε α) : Action φ α :=
  ⟨fun tree =>
    match action.run tree with
    | (result, after) => (result.mapError restate, after)⟩

@[simp] theorem run_inspect (look : FileTree → Except ε α) (tree : FileTree) :
    (inspect look).run tree = (look tree, tree) := rfl

@[simp] theorem run_restating (restate : ε → φ) (action : Action ε α) (tree : FileTree) :
    (restating restate action).run tree =
      ((action.run tree).1.mapError restate, (action.run tree).2) := rfl

end Action

/-! ## Directories -/

/-- Makes a single directory. -/
def makeDirectory (path : Path) : Action Fault Unit :=
  ⟨fun tree =>
    match tree.locate path with
    | .error refusal => (.error (about path refusal), tree)
    | .ok place =>
      match tree.get? place with
      | some _ => (.error (about path .fileExists), tree)
      | none => (.ok (), tree.set place .directory)⟩

/-- Makes a directory unless it is there: a refusal for any reason but a missing entry is
passed over if the path leads to a directory. -/
def ensureDirectory (path : Path) : Action Fault Unit :=
  ⟨fun tree =>
    match (makeDirectory path).run tree with
    | (.error fault, after) =>
      if fault.refusal = .noEntry ∨ fault.refusal = .nulCharacter then (.error fault, after)
      else
        match after.isDirectory path with
        | .ok true => (.ok (), after)
        | .ok false => (.error fault, after)
        | .error worse => (.error worse, after)
    | done => done⟩

/-- Makes a directory and those above it that are missing. The names come last one first. -/
def ensureChain (anchor : Path.Anchor) : List String → Action Fault Unit
  | [] => ensureDirectory ⟨anchor, []⟩
  | name :: above =>
    let path : Path := ⟨anchor, (name :: above).reverse⟩
    ⟨fun tree =>
      match (ensureDirectory path).run tree with
      | (.error fault, after) =>
        if fault.refusal = .noEntry then
          (do ensureChain anchor above; ensureDirectory path).run after
        else (.error fault, after)
      | done => done⟩

/-- Makes a directory and those above it that are missing. -/
def ensureDirectories (path : Path) : Action Fault Unit :=
  ensureChain path.anchor path.names.reverse

/-! ## Files -/

/-- Changes the content of a file, which is made if it is not there. -/
def changeFile (path : Path) (change : Bytes → Bytes) : Action Fault Unit :=
  ⟨fun tree =>
    match tree.locate path with
    | .error refusal => (.error (about path refusal), tree)
    | .ok place =>
      match tree.get? place with
      | some .directory => (.error (about path .isADirectory), tree)
      | some (.file content) => (.ok (), tree.set place (.file (change content)))
      | none => (.ok (), tree.set place (.file (change [])))⟩

/-- Gives a file new content. -/
def writeFile (path : Path) (content : Bytes) : Action Fault Unit :=
  changeFile path fun _ => content

/-- Adds to the end of a file. -/
def appendFile (path : Path) (content : Bytes) : Action Fault Unit :=
  changeFile path (· ++ content)

/-- Removes a file. -/
def removeFile (path : Path) : Action Fault Unit :=
  ⟨fun tree =>
    match tree.locate path with
    | .error refusal => (.error (about path refusal), tree)
    | .ok place =>
      match tree.get? place with
      | some .directory => (.error (about path .isADirectory), tree)
      | some (.file _) =>
        (.ok (), { tree with nodes := tree.nodes.filter fun node => node.1 != place })
      | none => (.error (about path .noEntry), tree)⟩

end LockPrefetch.FileTree
