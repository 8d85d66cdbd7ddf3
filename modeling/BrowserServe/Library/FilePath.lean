import BrowserServe.Library.Framing
import BrowserServe.Library.Text

namespace BrowserServe.Library
set_option autoImplicit true

/-- A part of a path, as `Path::components` gives it. -/
inductive Component where
  | rootDir
  | curDir
  | parentDir
  | normal (name : String)
  deriving DecidableEq

/-- A part between two slashes; one that is empty or a dot says nothing. -/
def Component.ofPart (part : Text) : Option Component :=
  if part = [] ∨ part = text "." then none
  else if part = text ".." then some .parentDir
  else some (.normal (String.ofList part))

def components (path : Text) : List Component :=
  let parts := path.splitOn '/'
  let rest := parts.filterMap Component.ofPart
  if path.head? = some '/' then .rootDir :: rest
  else if parts.head? = some (text ".") then .curDir :: rest
  else rest

/-- A name that an entry of a directory can have. -/
structure ValidName (name : String) : Prop where
  nonempty : name.toList ≠ []
  notDot : name.toList ≠ text "."
  notDots : name.toList ≠ text ".."
  noSlash : '/' ∉ name.toList

variable {path : List String}

def joinPath (path : List String) : Text := ['/'].intercalate (path.map String.toList)

theorem joinPath_cons (hpath : path ≠ []) (name : String) :
    joinPath (name :: path) = name.toList ++ '/' :: joinPath path := by
  have hne : path.map String.toList ≠ [] := by simpa using hpath
  simp [joinPath, List.intercalate_cons_of_ne_nil hne]

theorem joinPath_concat (hpath : path ≠ []) (name : String) :
    joinPath (path ++ [name]) = joinPath path ++ '/' :: name.toList := by
  induction path with
  | nil => exact absurd rfl hpath
  | cons first path ih =>
    by_cases hnil : path = []
    · subst hnil
      rw [List.singleton_append, joinPath_cons (by nofun)]
      simp [joinPath]
    · have hne : path ++ [name] ≠ [] := by simp
      rw [List.cons_append, joinPath_cons hne, joinPath_cons hnil, ih hnil]
      simp

theorem ValidName.ofPart (h : ValidName name) :
    Component.ofPart name.toList = some (.normal name) := by
  rw [Component.ofPart, if_neg (not_or_intro h.nonempty h.notDot), if_neg h.notDots,
    String.ofList_toList]

theorem joinPath_head (hpath : path ≠ []) (h : ∀ name ∈ path, ValidName name) :
    (joinPath path).head? ≠ some '/' := by
  obtain ⟨first, path, rfl⟩ := List.exists_cons_of_ne_nil hpath
  have hfirst := h first List.mem_cons_self
  obtain ⟨c, rest, hc⟩ := List.exists_cons_of_ne_nil hfirst.nonempty
  have hhead : (joinPath (first :: path)).head? = some c := by
    by_cases hnil : path = []
    · simp [hnil, joinPath, hc]
    · simp [joinPath_cons hnil, hc]
  rw [hhead]
  intro heq
  apply hfirst.noSlash
  rw [hc, Option.some.inj heq]
  exact List.mem_cons_self

theorem filterMap_ofPart (h : ∀ name ∈ path, ValidName name) :
    (path.map String.toList).filterMap Component.ofPart = path.map .normal := by
  induction path with
  | nil => rfl
  | cons name path ih =>
    have hname := (h name List.mem_cons_self).ofPart
    have htail := ih fun other hother => h other (List.mem_cons_of_mem _ hother)
    rw [List.map_cons, List.filterMap_cons_some hname, htail, List.map_cons]

/-- The components of a path of names are the names. -/
theorem components_joinPath (hpath : path ≠ []) (h : ∀ name ∈ path, ValidName name) :
    components (joinPath path) = path.map .normal := by
  have hparts : (joinPath path).splitOn '/' = path.map String.toList := by
    apply List.splitOn_intercalate
    · intro part hpart
      obtain ⟨name, hname, rfl⟩ := List.mem_map.1 hpart
      exact (h name hname).noSlash
    · simpa using hpath
  have hdot : (path.map String.toList).head? ≠ some (text ".") := by
    obtain ⟨first, path, rfl⟩ := List.exists_cons_of_ne_nil hpath
    intro heq
    exact (h first List.mem_cons_self).notDot (Option.some.inj heq)
  simp only [components, hparts, filterMap_ofPart h, if_neg (joinPath_head hpath h), if_neg hdot]

end BrowserServe.Library
