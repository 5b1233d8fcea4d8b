import Mathlib.Data.Option.Basic
import PluginHost.Proofs.Locating

/-!
# Where requests for shared packages lead

While plugins are loaded, the requests for packages that the host shares lead into its installation
(`Host.redirect`).  A request for the package of the host leads to the root of the host and the
segments behind the name of the package; a request for any other shared package leads to the
directory of modules and all segments of the request.  So it makes no difference which of the
packages that a request is for comes first in the list
(`Host.shared_requests_lead_into_host`).
-/

namespace PluginHost

namespace Text

/-- No piece between separators contains the separator. -/
theorem not_mem_of_mem_splitOn {sep : Char} {cs piece : List Char} (h : piece ∈ splitOn sep cs) :
  sep ∉ piece
  := by
  induction cs generalizing piece with
  | nil =>
    rw [splitOn, List.mem_singleton] at h
    simp [h]
  | cons c cs ih =>
    rw [splitOn] at h
    split at h
    · rcases List.mem_cons.1 h with rfl | h
      · apply List.not_mem_nil
      · apply ih h
    · next hc =>
      cases hpieces : splitOn sep cs with
      | nil => cases splitOn_ne_nil sep cs hpieces
      | cons first pieces =>
        rw [hpieces] at h ih
        rcases List.mem_cons.1 h with rfl | h
        · rw [List.mem_cons, not_or]
          use Ne.symm hc
          apply ih List.mem_cons_self
        · apply ih (List.mem_cons_of_mem first h)

end Text

namespace Path

/-- Whether two paths are compared as equal: both are absolute or neither is, and they have the same
names. -/
structure SameAs (p q : Path) : Prop where
  isAbsolute : p.isAbsolute = q.isAbsolute
  names : p.names = q.names

/-! ### Segments -/

/-- The segments of a text between separators that name something below a directory.  The empty ones
and single dots do not. -/
def segments (text : String) : List String :=
  (pieces ⟨text⟩).filter fun piece => piece != "" && piece != "."

/-- Pieces behind the first one are names if they are segments. -/
theorem filter_isName (ps : List String) (n : Nat) :
  ((ps.zipIdx (n + 1)).filter fun (piece, i) => isName i piece).map (·.1)
    = ps.filter fun piece => piece != "" && piece != "."
  := by
  induction ps generalizing n with
  | nil => rfl
  | cons piece ps ih =>
    have hname : isName (n + 1) piece = (piece != "" && piece != ".") := by
      simp [isName]
    rw [List.zipIdx_cons, List.filter_cons, List.filter_cons]
    simp only [hname]
    split
    · rw [List.map_cons, ih]
    · apply ih

/-- The names of a path are followed by the segments behind a separator. -/
theorem names_append (front back : List Char) :
  names ⟨String.ofList (front ++ '/' :: back)⟩
    = names ⟨String.ofList front⟩ ++ segments (String.ofList back)
  := by
  have hne : pieces ⟨String.ofList front⟩ ≠ [] := by
    simp [pieces, Text.splitOn_ne_nil]
  obtain ⟨n, hn⟩ := Nat.exists_eq_succ_of_ne_zero (mt List.length_eq_zero_iff.1 hne)
  rw [names, names, pieces_append, List.zipIdx_append, List.filter_append, List.map_append,
    Nat.zero_add, hn, filter_isName]
  rfl

theorem segments_append (front back : List Char) :
  segments (String.ofList (front ++ '/' :: back))
    = segments (String.ofList front) ++ segments (String.ofList back)
  := by
  rw [segments, pieces_append, List.filter_append]
  rfl

/-- A separator in front of a text makes no difference to its segments. -/
theorem segments_slash (back : List Char) :
  segments (String.ofList ('/' :: back)) = segments (String.ofList back)
  := segments_append [] back

theorem segments_dropWhile (cs : List Char) :
  segments (String.ofList (cs.dropWhile (· == '/'))) = segments (String.ofList cs)
  := by
  induction cs with
  | nil => rfl
  | cons c cs ih =>
    by_cases hc : c = '/'
    · subst hc
      rw [List.dropWhile_cons_of_pos (by rfl), ih, segments_slash]
    · rw [List.dropWhile_cons_of_neg (by simpa using hc)]

/-- The segments of the pieces of a text are its segments. -/
theorem flatMap_segments (p : Path) :
  p.pieces.flatMap segments = segments p.text
  := by
  have hpiece : ∀ piece ∈ p.pieces,
      segments piece = [piece].filter fun piece => piece != "" && piece != "." := by
    intro piece h
    obtain ⟨cs, hcs, rfl⟩ := List.mem_map.1 h
    rw [segments, pieces, String.toList_ofList,
      Text.splitOn_of_not_mem (Text.not_mem_of_mem_splitOn hcs)]
    rfl
  rw [List.flatMap_def, List.map_congr_left hpiece, ← List.flatMap_def, ← List.filter_flatMap]
  simp [segments]

/-! ### Names below a path -/

variable {root : Path}

/-- Below an absolute path are its names and the segments of what is relative. -/
theorem names_join {q : Path} (hroot : root.isAbsolute = true) (hq : q.isAbsolute = false) :
  (root.join q).names = root.names ++ segments q.text
  := by
  obtain ⟨front, hnames, htext⟩ := exists_front_of_join hroot hq
  have hwhole : root.join q = ⟨String.ofList (front ++ '/' :: q.text.toList)⟩ := by
    rw [← htext, String.ofList_toList]
  rw [hwhole, names_append, hnames, String.ofList_toList]

/-- No piece of a path is an absolute path. -/
theorem isAbsolute_of_mem_pieces {p : Path} {piece : String} (h : piece ∈ p.pieces) :
  isAbsolute ⟨piece⟩ = false
  := by
  obtain ⟨cs, hcs, rfl⟩ := List.mem_map.1 h
  rw [isAbsolute, String.toList_ofList, beq_eq_false_iff_ne]
  intro hhead
  apply Text.not_mem_of_mem_splitOn hcs (List.mem_of_mem_head? hhead)

/-- Below an absolute path are its names and the segments of the entries, one after the other. -/
theorem names_foldl_below (hroot : root.isAbsolute = true) {entries : List String}
    (h : ∀ name ∈ entries, isAbsolute ⟨name⟩ = false) :
  (entries.foldl below root).names = root.names ++ entries.flatMap segments
  := by
  induction entries generalizing root with
  | nil => simp
  | cons name entries ih =>
    rw [List.foldl_cons, ih (isAbsolute_below hroot name) fun n hn =>
        h n (List.mem_cons_of_mem name hn),
      below, names_join hroot (h name List.mem_cons_self), List.append_assoc, List.flatMap_cons]

end Path

/-! ### Shared packages -/

namespace Host

variable {h : Host}

/-- The redirect of the host while plugins are loaded: it is active for the shared packages. -/
def redirect (h : Host) : Redirect := ⟨h.package, h.root, some h.sharedPackages⟩

/-- Whether a host shares a package with plugins: its own one, that of the framework, or one of its
shared modules. -/
def Shares (h : Host) (package : String) : Prop :=
  package = h.package ∨ package = h.framework ∨ package ∈ h.sharedModules

/-- A list of packages with one more, if that is not in it. -/
def adding (shared : List String) (package : String) : List String :=
  if shared.contains package then shared else shared ++ [package]

theorem sharedPackages_eq (h : Host) :
  h.sharedPackages = h.sharedModules.foldl adding [h.package, h.framework]
  := rfl

theorem mem_adding {shared : List String} {m package : String} :
  package ∈ adding shared m ↔ package ∈ shared ∨ package = m
  := by
  rw [adding]
  split
  · next hm =>
    constructor
    · apply Or.inl
    · rintro (h | rfl)
      · apply h
      · apply List.contains_iff_mem.1 hm
  · simp

theorem mem_foldl_adding {modules shared : List String} {package : String} :
  package ∈ modules.foldl adding shared ↔ package ∈ shared ∨ package ∈ modules
  := by
  induction modules generalizing shared with
  | nil => simp
  | cons m modules ih => rw [List.foldl_cons, ih, mem_adding, List.mem_cons, or_assoc]

/-- What is in front of the list stays there. -/
theorem prefix_foldl_adding (modules shared : List String) :
  shared <+: modules.foldl adding shared
  := by
  induction modules generalizing shared with
  | nil => apply List.prefix_rfl
  | cons m modules ih =>
    have hstep : shared <+: adding shared m := by
      rw [adding]
      split
      · apply List.prefix_rfl
      · apply List.prefix_append
    apply hstep.trans (ih _)

theorem mem_sharedPackages {package : String} :
  package ∈ h.sharedPackages ↔ h.Shares package
  := by
  rw [sharedPackages_eq, mem_foldl_adding, Shares]
  simp [or_assoc]

/-- The package of the host is the first of the shared ones. -/
theorem exists_sharedPackages (h : Host) :
  ∃ others, h.sharedPackages = h.package :: others
  := by
  obtain ⟨others, hothers⟩ := prefix_foldl_adding h.sharedModules [h.package, h.framework]
  exact ⟨_, hothers.symm⟩

end Host

namespace Redirect

variable {r : Redirect} {package request : String} {path : Path}

/-- Whether a request is for a package: for the package itself, or for something inside it, which
stands behind a separator. -/
def IsFor (package request : String) : Prop :=
  request = package ∨ ∃ inside, request = package ++ "/" ++ inside

/-- The part of a request after the name of a package is empty or begins with a separator. -/
theorem partOf?_eq_some_iff {name cs rest : List Char} :
  partOf? name cs = some rest ↔ cs = name ++ rest ∧ (rest = [] ∨ ∃ inside, rest = '/' :: inside)
  := by
  rw [partOf?, Option.filter_eq_some_iff, Text.dropStart_eq_some_iff]
  cases rest with
  | nil => simp
  | cons c rest => simp

/-- A request has such a part if it is for the package. -/
theorem isFor_iff :
  IsFor package request ↔ ∃ rest, partOf? package.toList request.toList = some rest
  := by
  simp only [partOf?_eq_some_iff]
  constructor
  · rintro (rfl | ⟨inside, rfl⟩)
    · use []
      simp
    · use '/' :: inside.toList
      simp
  · rintro ⟨rest, hrequest, rfl | ⟨inside, rfl⟩⟩
    · left
      apply String.toList_inj.1
      simpa using hrequest
    · right
      use String.ofList inside
      apply String.toList_inj.1
      simpa using hrequest

theorem partOf?_eq_none_iff :
  partOf? package.toList request.toList = none ↔ ¬ IsFor package request
  := by
  rw [isFor_iff, not_exists, Option.eq_none_iff_forall_ne_some]

/-- The directory of the package of the host is its root, and any other shared package is in the
directory of modules. -/
theorem names_directoryOf (hroot : r.hostRoot.isAbsolute = true) (package : String) :
  (r.directoryOf package).names
    = if package = r.hostPackage then r.hostRoot.names
      else r.hostRoot.names ++ "node_modules" :: Path.segments package
  := by
  rw [directoryOf]
  split
  · rfl
  · have hmodules : Path.segments "node_modules" = ["node_modules"] := by decide +kernel
    rw [Path.names_foldl_below (Path.isAbsolute_below hroot _)
        fun _ => Path.isAbsolute_of_mem_pieces,
      Path.flatMap_segments, Path.below, Path.names_join hroot (by decide +kernel), hmodules,
      List.append_assoc, List.singleton_append]

/-- The path that a request leads to inside a package, with the part of the request behind the name of
the package. -/
def inPackage (r : Redirect) (package : String) (rest : List Char) : Path :=
  let inside := String.ofList (rest.dropWhile (· == '/'))
  if inside = "" then r.directoryOf package else (r.directoryOf package).below inside

theorem resolve?_eq (r : Redirect) (request : String) :
  r.resolve? request = (r.shared.getD []).findSome? fun package =>
    (partOf? package.toList request.toList).map (r.inPackage package)
  := rfl

/-- Inside a package are the names of its directory and the segments behind the name of the
package. -/
theorem names_inPackage (hroot : r.hostRoot.isAbsolute = true) (package : String)
    (rest : List Char) :
  (r.inPackage package rest).names
    = (r.directoryOf package).names ++ Path.segments (String.ofList rest)
  := by
  rw [inPackage, ← Path.segments_dropWhile]
  split
  · next hempty =>
    have hnone : Path.segments "" = [] := by decide +kernel
    rw [hempty, hnone, List.append_nil]
  · apply Path.names_join (isAbsolute_directoryOf hroot package)
    rw [Path.isAbsolute, String.toList_ofList, beq_eq_false_iff_ne]
    intro hhead
    have hslash := List.head?_dropWhile_not (· == '/') rest
    rw [hhead] at hslash
    cases hslash

/-- A request leads nowhere if it is for no shared package. -/
theorem resolve?_eq_none_iff :
  r.resolve? request = none ↔ ∀ package ∈ r.shared.getD [], ¬ IsFor package request
  := by
  rw [resolve?_eq, List.findSome?_eq_none_iff]
  simp only [Option.map_eq_none_iff, partOf?_eq_none_iff]

end Redirect

namespace Host

variable {h : Host} {request : String} {path : Path}

/-- A request that leads somewhere leads into the package of the host if it is for that, and else
into another shared package that it is for. -/
theorem exists_of_resolve? (hpath : h.redirect.resolve? request = some path) :
  ∃ package rest, Redirect.partOf? package.toList request.toList = some rest
    ∧ path = h.redirect.inPackage package rest
    ∧ (Redirect.IsFor h.package request → package = h.package)
  := by
  obtain ⟨others, hothers⟩ := h.exists_sharedPackages
  have hlist : h.redirect.shared.getD [] = h.package :: others := hothers
  rw [Redirect.resolve?_eq, hlist, List.findSome?_cons] at hpath
  cases hown : Redirect.partOf? h.package.toList request.toList with
  | some rest =>
    rw [hown] at hpath
    use h.package, rest, hown, (Option.some.inj hpath).symm
    intro _
    rfl
  | none =>
    rw [hown] at hpath
    obtain ⟨package, -, hpackage⟩ := List.exists_of_findSome?_eq_some hpath
    obtain ⟨rest, hrest, rfl⟩ := Option.map_eq_some_iff.1 hpackage
    use package, rest, hrest, rfl
    intro hfor
    obtain ⟨rest, hrest⟩ := Redirect.isFor_iff.1 hfor
    rw [hown] at hrest
    cases hrest

/-- Behind the root of the host are the segments behind the name of its package, if a request is for
that, and else the directory of modules and all segments of the request. -/
theorem names_of_resolve? (hroot : h.root.isAbsolute = true)
    (hpath : h.redirect.resolve? request = some path) :
  (∀ rest, Redirect.partOf? h.package.toList request.toList = some rest →
      path.names = h.root.names ++ Path.segments (String.ofList rest))
    ∧ (¬ Redirect.IsFor h.package request →
      path.names = h.root.names ++ "node_modules" :: Path.segments request)
  := by
  obtain ⟨package, rest, hrest, rfl, hown⟩ := exists_of_resolve? hpath
  have hdirectory := h.redirect.names_directoryOf hroot package
  have hinside := h.redirect.names_inPackage hroot package rest
  rw [hinside, hdirectory]
  constructor
  · intro part hpart
    obtain rfl := hown (Redirect.isFor_iff.2 ⟨part, hpart⟩)
    rw [hrest] at hpart
    cases hpart
    have hsame : h.package = h.redirect.hostPackage := rfl
    rw [if_pos hsame]
    rfl
  · intro hother
    have hne : package ≠ h.redirect.hostPackage := by
      rintro rfl
      apply hother (Redirect.isFor_iff.2 ⟨rest, hrest⟩)
    obtain ⟨hrequest, hpart⟩ := Redirect.partOf?_eq_some_iff.1 hrest
    have hsegments : Path.segments request
        = Path.segments package ++ Path.segments (String.ofList rest) := by
      rw [← String.ofList_toList (s := request), hrequest]
      obtain rfl | ⟨inside, rfl⟩ := hpart
      · have hnone : Path.segments "" = [] := by decide +kernel
        rw [List.append_nil, String.ofList_toList, String.ofList_nil, hnone, List.append_nil]
      · rw [Path.segments_append, Path.segments_slash, String.ofList_toList]
    rw [if_neg hne, hsegments, List.append_assoc, List.cons_append]
    rfl

/-- A request that leads to a path leads to one that starts with the root of the host. -/
theorem startsWith_of_resolve? (hroot : h.root.isAbsolute = true)
    (hpath : h.redirect.resolve? request = some path) :
  path.StartsWith h.root
  := by
  obtain ⟨hown, hother⟩ := names_of_resolve? hroot hpath
  constructor
  · rw [hroot]
    apply Redirect.isAbsolute_of_resolve? (r := h.redirect) hroot hpath
  · by_cases hfor : Redirect.IsFor h.package request
    · obtain ⟨rest, hrest⟩ := Redirect.isFor_iff.1 hfor
      rw [hown rest hrest]
      apply List.prefix_append
    · rw [hother hfor]
      apply List.prefix_append

/-- Whatever modules a host shares, a request leads to the same path if it leads to one. -/
theorem sameAs_of_resolve? {modules : List String} {other : Path} (hroot : h.root.isAbsolute = true)
    (hpath : h.redirect.resolve? request = some path)
    (hpath' : { h with sharedModules := modules }.redirect.resolve? request = some other) :
  other.SameAs path
  := by
  obtain ⟨hown, hother⟩ := names_of_resolve? hroot hpath
  obtain ⟨hown', hother'⟩ := names_of_resolve? (h := { h with sharedModules := modules }) hroot hpath'
  constructor
  · rw [(startsWith_of_resolve? (h := { h with sharedModules := modules }) hroot hpath').isAbsolute,
      (startsWith_of_resolve? hroot hpath).isAbsolute]
  · by_cases hfor : Redirect.IsFor h.package request
    · obtain ⟨rest, hrest⟩ := Redirect.isFor_iff.1 hfor
      rw [hown rest hrest, hown' rest hrest]
    · rw [hother hfor, hother' hfor]

/-- A request leads somewhere exactly if it is for a shared package. -/
theorem resolve?_redirect_eq_none_iff :
  h.redirect.resolve? request = none ↔
    ∀ package, h.Shares package → ¬ Redirect.IsFor package request
  := by
  simp only [Redirect.resolve?_eq_none_iff, ← mem_sharedPackages]
  rfl

/-- While plugins are loaded, requests lead into the installation of the host as follows, if that is
at an absolute path.  A request leads somewhere if and only if it is for a shared package.  If it is
for the package of the host then it leads to the segments behind the name of that below the root of
the host, and else to all its segments below the directory of modules there.  So it always leads to a
path that starts with the root, and to the same one whichever order the shared modules have, and
however often they are repeated. -/
theorem shared_requests_lead_into_host (h : Host) (hroot : h.root.isAbsolute = true)
    (request : String) :
  (h.redirect.resolve? request = none ↔
      ∀ package, h.Shares package → ¬ Redirect.IsFor package request)
    ∧ (∀ path, h.redirect.resolve? request = some path →
      path.StartsWith h.root
        ∧ (request = h.package → path.names = h.root.names)
        ∧ (∀ inside, request = h.package ++ "/" ++ inside →
          path.names = h.root.names ++ Path.segments inside)
        ∧ (¬ Redirect.IsFor h.package request →
          path.names = h.root.names ++ "node_modules" :: Path.segments request))
    ∧ ∀ modules : List String, (∀ m, m ∈ modules ↔ m ∈ h.sharedModules) →
      Option.Rel Path.SameAs ({ h with sharedModules := modules }.redirect.resolve? request)
        (h.redirect.resolve? request)
  := by
  use resolve?_redirect_eq_none_iff
  constructor
  · intro path hpath
    obtain ⟨hown, hother⟩ := names_of_resolve? hroot hpath
    refine ⟨startsWith_of_resolve? hroot hpath, ?_, ?_, hother⟩
    · rintro rfl
      have hnames := hown [] (Redirect.partOf?_eq_some_iff.2 (by simp))
      have hempty : Path.segments "" = [] := by decide +kernel
      rw [hnames, String.ofList_nil, hempty, List.append_nil]
    · rintro inside rfl
      have hnames := hown ('/' :: inside.toList) (Redirect.partOf?_eq_some_iff.2 (by simp))
      rw [hnames, Path.segments_slash, String.ofList_toList]
  · intro modules hmodules
    have hshares : ∀ package, { h with sharedModules := modules }.Shares package
        ↔ h.Shares package := by
      intro package
      simp only [Shares, hmodules]
    have hnone : { h with sharedModules := modules }.redirect.resolve? request = none
        ↔ h.redirect.resolve? request = none := by
      simp only [resolve?_redirect_eq_none_iff, hshares]
    cases hpath : h.redirect.resolve? request with
    | none =>
      rw [hnone.2 hpath]
      apply Option.Rel.none
    | some path =>
      obtain ⟨other, hother⟩ : ∃ other,
          { h with sharedModules := modules }.redirect.resolve? request = some other := by
        rw [← Option.ne_none_iff_exists', Ne, hnone, hpath]
        simp
      rw [hother]
      apply Option.Rel.some
      apply sameAs_of_resolve? hroot hpath hother

/-- A host that shares a package, once with a separator behind its name. -/
def overlappingSample : Host :=
  { builtin ⟨"/host"⟩ with sharedModules := ["lib", "lib/"] }

/-- For the sample host a request leads into the shared package whichever of its names comes first,
and a request for the package of the host leads below its root. -/
theorem shared_requests_lead_into_host_of_overlapping :
  overlappingSample.root.isAbsolute = true
    ∧ (∃ path, overlappingSample.redirect.resolve? "lib/" = some path
      ∧ path.names = ["host", "node_modules", "lib"])
    ∧ (∃ path, overlappingSample.redirect.resolve? "plugdeck//run" = some path
      ∧ path.names = ["host", "run"])
    ∧ Option.Rel Path.SameAs
      ({ overlappingSample with sharedModules := ["lib/", "lib", "lib/"] }.redirect.resolve? "lib/")
      (overlappingSample.redirect.resolve? "lib/")
  := by
  have hroot : overlappingSample.root.isAbsolute = true := by decide +kernel
  obtain ⟨-, hshared, hmodules⟩ := shared_requests_lead_into_host _ hroot "lib/"
  obtain ⟨-, hown, -⟩ := shared_requests_lead_into_host _ hroot "plugdeck//run"
  have hlib : overlappingSample.redirect.resolve? "lib/" = some ⟨"/host/node_modules/lib"⟩ := by
    decide +kernel
  have hrun : overlappingSample.redirect.resolve? "plugdeck//run" = some ⟨"/host/run"⟩ := by
    decide +kernel
  have hother : ¬ Redirect.IsFor overlappingSample.package "lib/" := by
    rw [← Redirect.partOf?_eq_none_iff]
    decide +kernel
  refine ⟨hroot, ⟨_, hlib, ?_⟩, ⟨_, hrun, ?_⟩, ?_⟩
  · rw [(hshared _ hlib).2.2.2 hother]
    decide +kernel
  · rw [(hown _ hrun).2.2.1 "/run" (by decide +kernel)]
    decide +kernel
  · apply hmodules
    simp [overlappingSample]

end Host

end PluginHost
