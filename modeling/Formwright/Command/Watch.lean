import Formwright.Command.Conversion

/-!
The command that converts a project again whenever its manifest or one of its inputs changes.
-/

namespace Formwright.Command

variable {m : Type → Type} [Monad m] [Host m]

structure Watch where
  root : Path
  manifest : Manifest
  seen : List (Path × ByteArray)

def convertQuietly (root : Path) (manifest : Manifest) : Task m Unit := do
  let report ← Workspace.convertProject root manifest true
  showWarnings report.outcome
  reportErrors report.outcome

def manifestPath (root : Path) : Path := root.join ⟨manifestName⟩

def watchedPaths (root : Path) (manifest : Manifest) : m (List Path) := do
  match ← (Inputs.find root manifest.input).run with
  | .ok inputs =>
    return manifestPath root :: (inputs.markup ++ inputs.scripts).map InputFile.path
  | .error _ => return [manifestPath root]

def contents : List Path → m (List (Path × ByteArray))
  | [] => return []
  | path :: later => do
    match ← Host.read path with
    | .ok bytes => return (path, bytes) :: (← contents later)
    | .error _ => contents later

def lookAt (root : Path) (manifest : Manifest) : m (List (Path × ByteArray)) := do
  contents (← watchedPaths root manifest)

def changedFile (before after : List (Path × ByteArray)) : Option Path :=
  let missingFrom (others : List (Path × ByteArray)) (entry : Path × ByteArray) : Bool :=
    !others.any fun other => other.1 == entry.1 && other.2 == entry.2
  ((after.find? (missingFrom before)).or (before.find? (missingFrom after))).map Prod.fst

def firstConversion (root : Path) (manifest : Manifest) : Task m Unit :=
  tryCatch
    (do
      convertQuietly root manifest
      Host.print "   Watching for changes...\n")
    fun cause => do
      Host.printError s!"error: initial conversion failed: {cause.message}\n"
      Host.printError "Watching anyway (will retry on file changes)...\n"

def startWatch (root : Path) : Task m Watch := do
  let manifest ← Workspace.loadManifest root
  firstConversion root manifest
  return ⟨root, manifest, ← lookAt root manifest⟩

def watch (target : String) : Task m Watch := do
  match ← Workspace.Subject.detect target with
  | .project root => startWatch root
  | .file file => throw (.noProject file)

def reconvert (root : Path) (manifest : Manifest) : m Unit := do
  match ← (convertQuietly root manifest).run with
  | .ok () => Host.print "   Finished\n"
  | .error cause => Host.printError s!"error: conversion failed: {cause.message}\n"

/-- Looks again, and converts if anything has changed. A manifest that has become unusable is
reported, and the last usable one stays. -/
def Watch.again (watch : Watch) : m Watch := do
  let seen ← lookAt watch.root watch.manifest
  match changedFile watch.seen seen with
  | none => return watch
  | some path =>
    Host.print s!"Change detected in {Workspace.displayName path}\n"
    match ← (Workspace.loadManifest watch.root).run with
    | .ok manifest =>
      reconvert watch.root manifest
      return ⟨watch.root, manifest, ← lookAt watch.root manifest⟩
    | .error cause =>
      Host.printError s!"error: {cause.message}\n"
      return { watch with seen }

end Formwright.Command
