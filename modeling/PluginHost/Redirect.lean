import PluginHost.Failure
import PluginHost.Text.Split

/-!
# Redirection of modules

While a redirect is active, a request for a module of a shared package leads into the
installation of the host, so that host and plugins use the same one.  `resolve?` gives the path
that such a request leads to.  `locate?` finds the file for any request of a plugin: redirected
if it names a shared package, else seen from the root of the plugin; the file may be named with
or without the suffix `.js`.
-/

namespace PluginHost

/-- Where the host is, and the shared packages while a redirect is active. -/
structure Redirect where
  hostPackage : String
  hostRoot : Path
  shared : Option (List String)
  deriving DecidableEq, Repr

namespace Redirect

/-- A redirect that is not active. -/
def inactive (hostPackage : String) (hostRoot : Path) : Redirect := ⟨hostPackage, hostRoot, none⟩

/-- Whether requests are redirected. -/
def isActive (r : Redirect) : Bool := r.shared.isSome

/-- The redirect made active for the given packages. -/
def activate (r : Redirect) (packages : List String) : Except Failure Redirect :=
  if r.isActive then .error .alreadyRedirecting else .ok { r with shared := some packages }

/-- The redirect made inactive. -/
def deactivate (r : Redirect) : Except Failure Redirect :=
  if r.isActive then .ok { r with shared := none } else .error .notRedirecting

/-- The part of a request after the name of a package, if the request is for that package or
for something inside it. -/
def partOf? (package request : List Char) : Option (List Char) :=
  (Text.dropStart package request).filter fun rest => rest.head?.all (· == '/')

/-- The directory of a shared package in the installation of the host. -/
def directoryOf (r : Redirect) (package : String) : Path :=
  if package = r.hostPackage then r.hostRoot
  else (⟨package⟩ : Path).pieces.foldl Path.below (r.hostRoot.below "node_modules")

/-- The path in the installation of the host that a request leads to, if it names a shared
package.  The first package that it names counts. -/
def resolve? (r : Redirect) (request : String) : Option Path :=
  (r.shared.getD []).findSome? fun package =>
    (partOf? package.toList request.toList).map fun rest =>
      let inside := String.ofList (rest.dropWhile (· == '/'))
      if inside = "" then r.directoryOf package else (r.directoryOf package).below inside

/-- The path that a request of a plugin leads to. -/
def target (r : Redirect) (root : Path) (request : String) : Path :=
  match r.resolve? request with
  | some path => path
  | none =>
    match Text.dropStart ['.', '/'] request.toList with
    | some rest => root.below (String.ofList rest)
    | none => root.below request

/-- The existing file for a request of a plugin, named with or without its suffix. -/
def locate? (r : Redirect) (files : Files) (root : Path) (request : String) : Option Path :=
  let path := r.target root request
  let withSuffix : Path := ⟨path.text ++ ".js"⟩
  if files.isFile path then some path
  else if files.isFile withSuffix then some withSuffix
  else none

/-! ### Located files -/

section

variable {r : Redirect} {files : Files} {root path : Path} {request : String}

/-- Packages of an absolute installation of the host are in absolute directories. -/
theorem isAbsolute_directoryOf (hhost : r.hostRoot.isAbsolute = true) (package : String) :
  (r.directoryOf package).isAbsolute = true
  := by
  unfold directoryOf
  split
  · apply hhost
  · apply Path.isAbsolute_foldl_below (Path.isAbsolute_below hhost _)

theorem isAbsolute_of_resolve? (hhost : r.hostRoot.isAbsolute = true)
    (h : r.resolve? request = some path) :
  path.isAbsolute = true
  := by
  obtain ⟨package, -, hpackage⟩ := List.exists_of_findSome?_eq_some h
  obtain ⟨rest, -, rfl⟩ := Option.map_eq_some_iff.1 hpackage
  dsimp only
  split
  · apply isAbsolute_directoryOf hhost
  · apply Path.isAbsolute_below (isAbsolute_directoryOf hhost _)

/-- A request leads to an absolute path, if the host and the plugin are at absolute ones. -/
theorem isAbsolute_target (hhost : r.hostRoot.isAbsolute = true) (hroot : root.isAbsolute = true)
    (request : String) :
  (r.target root request).isAbsolute = true
  := by
  unfold target
  split
  · next path hpath => apply isAbsolute_of_resolve? hhost hpath
  · split
    · apply Path.isAbsolute_below hroot
    · apply Path.isAbsolute_below hroot

/-- What is located is a file. -/
theorem isFile_of_locate? (h : r.locate? files root request = some path) :
  files.isFile path = true
  := by
  dsimp only [locate?] at h
  split at h
  · cases h
    assumption
  · split at h
    · cases h
      assumption
    · cases h

/-- What is located is at an absolute path, if the host and the plugin are. -/
theorem isAbsolute_of_locate? (hhost : r.hostRoot.isAbsolute = true)
    (hroot : root.isAbsolute = true) (h : r.locate? files root request = some path) :
  path.isAbsolute = true
  := by
  have htarget := isAbsolute_target hhost hroot request
  dsimp only [locate?] at h
  split at h
  · cases h
    apply htarget
  · split at h
    · cases h
      apply Path.isAbsolute_append htarget
    · cases h

end

end Redirect

end PluginHost
