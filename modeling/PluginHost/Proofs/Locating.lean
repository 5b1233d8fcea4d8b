import PluginHost.Proofs.Pass

/-!
# Where files are located

A request of a plugin that is not redirected is seen from the root of the plugin, so that what is
located starts with the root, name by name (`Path.StartsWith`).  The mark `./` is taken off the
request before that.  If another separator follows the mark then what is left is an absolute path,
which is not seen from anywhere: the root is replaced, and the file is outside
(`Redirect.located_inside_unless_replaced`).
-/

namespace PluginHost

namespace Path

/-- Whether a path starts with another one: both are absolute or neither is, and its names begin
with those of the other. -/
structure StartsWith (p root : Path) : Prop where
  isAbsolute : p.isAbsolute = root.isAbsolute
  names : root.names <+: p.names

/-! ### Names -/

/-- More pieces give more names behind those that were there. -/
theorem exists_names_append {p q : Path} {more : List String} (h : q.pieces = p.pieces ++ more) :
  ∃ rest, q.names = p.names ++ rest
  := by
  rw [names, names, h, List.zipIdx_append, List.filter_append, List.map_append]
  exact ⟨_, rfl⟩

theorem pieces_append (front back : List Char) :
  pieces ⟨String.ofList (front ++ '/' :: back)⟩
    = pieces ⟨String.ofList front⟩ ++ pieces ⟨String.ofList back⟩
  := by
  simp only [pieces, String.toList_ofList, Text.splitOn_append, List.map_append]

/-- What stands behind a separator leaves the names before it. -/
theorem names_prefix_append (front back : List Char) :
  names ⟨String.ofList front⟩ <+: names ⟨String.ofList (front ++ '/' :: back)⟩
  := by
  obtain ⟨rest, hrest⟩ := exists_names_append (pieces_append front back)
  use rest
  rw [hrest]

/-- A separator at the end is no name. -/
theorem names_slash (front : List Char) :
  names ⟨String.ofList (front ++ ['/'])⟩ = names ⟨String.ofList front⟩
  := by
  have hempty : pieces ⟨String.ofList []⟩ = [""] := rfl
  rw [names, names, pieces_append, hempty, List.zipIdx_append, List.filter_append,
    List.map_append]
  simp [isName]

/-! ### Paths below a root -/

variable {root q : Path}

/-- A relative path seen from an absolute one is written behind a separator, and what stands before
that separator has the names of the absolute path. -/
theorem exists_front_of_join (hroot : root.isAbsolute = true) (hq : q.isAbsolute = false) :
  ∃ front, names ⟨String.ofList front⟩ = root.names
    ∧ (root.join q).text.toList = front ++ '/' :: q.text.toList
  := by
  rw [join, if_neg (by simp [hq])]
  split
  · next hlast =>
    cases hend : root.text.toList.getLast? with
    | none =>
      rw [isAbsolute, List.getLast?_eq_none_iff.1 hend] at hroot
      cases hroot
    | some c =>
      rw [hend] at hlast
      obtain rfl : c = '/' := eq_of_beq hlast
      obtain ⟨front, hfront⟩ := List.getLast?_eq_some_iff.1 hend
      use front
      rw [← names_slash, ← hfront, String.ofList_toList, String.toList_append, hfront]
      simp
  · use root.text.toList
    rw [String.ofList_toList]
    simp

/-- A relative path seen from an absolute one starts with it, whatever is written behind. -/
theorem startsWith_join (hroot : root.isAbsolute = true) (hq : q.isAbsolute = false)
    (suffix : String) :
  StartsWith ⟨(root.join q).text ++ suffix⟩ root
  := by
  obtain ⟨front, hnames, htext⟩ := exists_front_of_join hroot hq
  constructor
  · rw [hroot]
    apply isAbsolute_append (isAbsolute_join hroot q)
  · have hwhole : (root.join q).text ++ suffix
        = String.ofList (front ++ '/' :: (q.text.toList ++ suffix.toList)) := by
      rw [← String.ofList_toList (s := (root.join q).text ++ suffix), String.toList_append, htext]
      simp
    rw [hwhole, ← hnames]
    apply names_prefix_append

end Path

namespace Redirect

variable {r : Redirect} {files : Files} {root path : Path} {request : String}

/-- What is located is what the request leads to, with or without the suffix. -/
theorem eq_of_locate? (h : r.locate? files root request = some path) :
  ∃ suffix ∈ ["", ".js"], path = ⟨(r.target root request).text ++ suffix⟩
  := by
  dsimp only [locate?] at h
  split at h
  · cases h
    use "", List.mem_cons_self
    rw [String.append_empty]
  · split at h
    · cases h
      use ".js", List.mem_cons_of_mem _ List.mem_cons_self
    · cases h

/-- The path that a request spells once the mark at its front is taken off. -/
def unmarked (request : String) : Path :=
  ⟨String.ofList ((Text.dropStart ['.', '/'] request.toList).getD request.toList)⟩

/-- Whether the mark at the front of a request is followed by one more separator. -/
def Replaces (request : String) : Prop := ['.', '/', '/'] <+: request.toList

instance (request : String) : Decidable (Replaces request) :=
  inferInstanceAs (Decidable (_ <+: request.toList))

/-- A request that is not redirected leads to what is seen from the root, without the mark. -/
theorem target_of_unredirected (hresolve : r.resolve? request = none) (root : Path) :
  r.target root request = root.join (unmarked request)
  := by
  rw [target, hresolve, unmarked]
  dsimp only
  split
  · next rest hrest =>
    rw [hrest]
    rfl
  · next hrest =>
    rw [hrest, Option.getD_none, String.ofList_toList]
    rfl

/-- A relative request stays relative without the mark, unless another separator follows that. -/
theorem isAbsolute_unmarked (hrequest : Path.isAbsolute ⟨request⟩ = false)
    (hmark : ¬ Replaces request) :
  (unmarked request).isAbsolute = false
  := by
  cases hrest : Text.dropStart ['.', '/'] request.toList with
  | none =>
    rw [unmarked, hrest, Option.getD_none, String.ofList_toList]
    apply hrequest
  | some rest =>
    rw [unmarked, hrest, Option.getD_some, Path.isAbsolute, String.toList_ofList,
      beq_eq_false_iff_ne]
    intro hhead
    obtain ⟨back, rfl⟩ := List.head?_eq_some_iff.1 hhead
    apply hmark
    use back
    rw [Text.dropStart_eq_some_iff.1 hrest]
    rfl

/-- A request that is not redirected and does not begin with a separator is located inside the
plugin: what is located starts with the root.  The exception are requests whose mark `./` is
followed by another separator.  What is located for them is the path that begins with that
separator, wherever the plugin is. -/
theorem located_inside_unless_replaced (r : Redirect) (files : Files) {root path : Path}
    {request : String} (hroot : root.isAbsolute = true) (hresolve : r.resolve? request = none)
    (hrequest : Path.isAbsolute ⟨request⟩ = false)
    (h : r.locate? files root request = some path) :
  (¬ Replaces request → path.StartsWith root)
    ∧ ∀ rest, request = ".//" ++ rest → path = ⟨"/" ++ rest⟩ ∨ path = ⟨"/" ++ rest ++ ".js"⟩
  := by
  obtain ⟨suffix, hsuffix, rfl⟩ := eq_of_locate? h
  rw [target_of_unredirected hresolve]
  constructor
  · intro hmark
    apply Path.startsWith_join hroot (isAbsolute_unmarked hrequest hmark)
  · rintro rest rfl
    have hpath : unmarked (".//" ++ rest) = ⟨"/" ++ rest⟩ := by
      rw [unmarked, String.toList_append]
      simp [Text.dropStart]
    have habsolute : Path.isAbsolute ⟨"/" ++ rest⟩ = true := by
      simp [Path.isAbsolute]
    rw [hpath, Path.join, if_pos habsolute]
    simpa using hsuffix

/-- The handler of a sample plugin is located in its directory, and behind two separators that of
another one is. -/
theorem located_inside_unless_replaced_of_sample :
  (∃ path, Loader.sample.redirect.locate? Files.sample ⟨"/m/data"⟩ "./f" = some path
      ∧ path.StartsWith ⟨"/m/data"⟩)
    ∧ ∃ path, Loader.sample.redirect.locate? Files.sample ⟨"/m/data"⟩ ".//m/log/f" = some path
      ∧ (path = ⟨"/m/log/f"⟩ ∨ path = ⟨"/m/log/f.js"⟩)
  := by
  have hroot : Path.isAbsolute ⟨"/m/data"⟩ = true := by decide +kernel
  have hinside : Loader.sample.redirect.locate? Files.sample ⟨"/m/data"⟩ "./f"
      = some ⟨"/m/data/f"⟩ := by decide +kernel
  have houtside : Loader.sample.redirect.locate? Files.sample ⟨"/m/data"⟩ ".//m/log/f"
      = some ⟨"/m/log/f"⟩ := by decide +kernel
  constructor
  · use ⟨"/m/data/f"⟩, hinside
    apply (located_inside_unless_replaced _ _ hroot (by decide +kernel) (by decide +kernel)
      hinside).1
    decide
  · use ⟨"/m/log/f"⟩, houtside
    apply (located_inside_unless_replaced _ _ hroot (by decide +kernel) (by decide +kernel)
      houtside).2 "m/log/f" rfl

/-- A request that is not redirected and does not begin with a separator is located outside the
plugin. -/
theorem located_outside_the_plugin :
  Loader.sample.redirect.resolve? ".//m/log/f" = none
    ∧ Path.isAbsolute ⟨".//m/log/f"⟩ = false
    ∧ Loader.sample.redirect.locate? Files.sample ⟨"/m/data"⟩ ".//m/log/f" = some ⟨"/m/log/f"⟩
    ∧ ¬ Path.StartsWith ⟨"/m/log/f"⟩ ⟨"/m/data"⟩
  := by
  refine ⟨by decide +kernel, by decide +kernel, by decide +kernel, ?_⟩
  intro h
  have hnames : ¬ Path.names ⟨"/m/data"⟩ <+: Path.names ⟨"/m/log/f"⟩ := by decide +kernel
  apply hnames h.names

end Redirect

end PluginHost
