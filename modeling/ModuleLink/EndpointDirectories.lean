import ModuleLink.EndpointFiles

/-! # Directories for endpoints

Whoever publishes an endpoint makes the directory for it, and every one above that is missing. What
was made stays when a later one cannot be made. -/
namespace ModuleLink

namespace FileSystem

/-- Permissions that the process never gives to what it makes. -/
def withheld : Nat := 0o022

/-- What the directories in a directory take over from it. -/
def inherited : FileNode → Nat
  | .directory mode => mode &&& 0o2000
  | _ => 0

/-- Makes the directory that steps lead to. -/
def makeDirectory (s : FileSystem) (steps : List PathStep) (mode : Nat) :
    Except SystemError FileSystem := do
  let place ← s.reach steps
  s.checkFree steps place
  s.checkChange place
  let granted := mode &&& 0o1777
  let own := granted - (granted &&& withheld)
  return (s.addName place (.directory (own ||| (s.node? place.dropLast).elim 0 inherited))).2

/-- A directory that was there before is as good as one that was made. -/
def settle (s : FileSystem) (steps : List PathStep) (e : SystemError) : Except SystemError Unit :=
  let place? := (s.reach steps).toOption
  if e = alreadyExists ∧ (place?.bind s.node?).any (·.isDirectory) then .ok () else .error e

/-- Makes the first of these directories, each of which lies in the next one, and those of the
others that it takes. -/
def makeChain (mode : Nat) : List (List PathStep) → FileSystem → Except SystemError Unit × FileSystem
  | [], s => (.ok (), s)
  | steps :: above, s =>
    match s.makeDirectory steps mode with
    | .ok made => (.ok (), made)
    | .error e =>
      if e.kind ≠ .notFound then (s.settle steps e, s)
      else
        match makeChain mode above s with
        | (.error e, s) => (.error e, s)
        | (.ok (), s) =>
          match s.makeDirectory steps mode with
          | .ok made => (.ok (), made)
          | .error e => (s.settle steps e, s)

/-- A path and the directories above it, the nearest first; nobody needs to make the root. -/
def chain (path : Path) : List (List PathStep) :=
  let above := (List.range path.steps.length).reverse.map (path.steps.take ·)
  path.walk :: above.filter fun steps => steps ≠ [] ∧ steps ≠ [.root]

/-- Makes the directories of a path that are missing; permissions are narrowed as for any file. -/
def makeDirectories (s : FileSystem) (path : Path) (mode : Nat) :
    Except SystemError Unit × FileSystem :=
  match checkText path with
  | .error e => (.error e, s)
  | .ok () => makeChain mode (chain path) s

/-- Makes an endpoint directory with exactly this mode unless it exists. That it cannot be made
shows when something is to be made in it. -/
def ensureDirectory (s : FileSystem) (path : Path) (mode : Nat) : FileSystem :=
  if s.holdsDirectory path then s
  else
    match s.makeDirectories path mode with
    | (.error _, s) => s
    | (.ok (), s) =>
      match s.find path with
      | .ok (n, node) => s.setNode n (node.withMode mode)
      | .error _ => s

end FileSystem

end ModuleLink
