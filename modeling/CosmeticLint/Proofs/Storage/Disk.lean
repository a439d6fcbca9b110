import CosmeticLint.Storage.Disk
import Mathlib.Data.List.DropRight

/-! Writing a file to a disk. A tree is looked at place by place: what names lead to, a file with
its content, a directory or nothing. A file that is put into a directory changes this at its own
place and nowhere else, so every path leads where it led before, and the path that the file was
written to leads to it. -/

namespace CosmeticLint.Storage

namespace Tree

/-! ### Places -/

variable {t u : Tree} {here names : List String} {entries : List (String × Tree)}
  {name part : String}

@[simp] theorem get?_nil (t : Tree) : t.get? [] = some t := by
  cases t <;> rfl

theorem get?_directory_cons (entries : List (String × Tree)) (name : String)
    (names : List String) :
    (directory entries).get? (name :: names) = (entries.lookup name).bind (·.get? names) := rfl

theorem get?_append (t : Tree) (a b : List String) :
    t.get? (a ++ b) = (t.get? a).bind (·.get? b) := by
  induction a generalizing t with
  | nil => simp
  | cons name a ih =>
    cases t with
    | file content => rfl
    | directory entries =>
      rw [List.cons_append, get?_directory_cons, get?_directory_cons, Option.bind_assoc]
      simp only [ih]

/-- The entries of a directory are what lies one name further. -/
theorem get?_concat (h : t.get? here = some (directory entries)) :
    t.get? (here ++ [part]) = entries.lookup part := by
  rw [get?_append, h, Option.bind_some, get?_directory_cons]
  simp

/-! ### Putting a file into a directory -/

theorem lookup_cons_eq_ite (key other : String) (t : Tree) (entries : List (String × Tree)) :
    ((key, t) :: entries).lookup other =
      if other = key then some t else entries.lookup other := by
  rw [List.lookup_cons]
  by_cases h : other = key
  · simp [h]
  · simp [h, beq_false_of_ne h]

theorem lookup_replaceEntry (name other : String) (t : Tree) (entries : List (String × Tree)) :
    (replaceEntry name t entries).lookup other =
      if other = name then some t else entries.lookup other := by
  induction entries with
  | nil => rw [replaceEntry, lookup_cons_eq_ite]
  | cons e entries ih =>
    obtain ⟨key, u⟩ := e
    rw [replaceEntry]
    split
    · rename_i hkey
      subst hkey
      rw [lookup_cons_eq_ite, lookup_cons_eq_ite]
      split <;> rfl
    · rename_i hkey
      rw [lookup_cons_eq_ite, lookup_cons_eq_ite, ih]
      split
      · rename_i hother
        rw [if_neg (hother ▸ hkey)]
      · rfl

/-- The content of a file; a directory has none. -/
def content? : Tree → Option ByteArray
  | file content => some content
  | directory _ => none

/-- What is to be seen at a place: a file's content, a directory or nothing. -/
def at? (t : Tree) (names : List String) : Option (Option ByteArray) := (t.get? names).map content?

theorem at?_file_cons (content : ByteArray) (name : String) (names : List String) :
    (file content).at? (name :: names) = none := rfl

theorem at?_directory_cons (entries : List (String × Tree)) (name : String) (names : List String) :
    (directory entries).at? (name :: names) = (entries.lookup name).bind (·.at? names) := by
  rw [at?, get?_directory_cons, Option.map_bind]
  rfl

theorem at?_replaceEntry_cons (u : Tree) (other : String) :
    (directory (replaceEntry name u entries)).at? (other :: names) =
      if other = name then u.at? names else (directory entries).at? (other :: names) := by
  rw [at?_directory_cons, lookup_replaceEntry, at?_directory_cons]
  split <;> rfl

/-- Nothing lies below a name that a directory has for no directory. -/
theorem at?_below (hname : ∀ es, entries.lookup name ≠ some (directory es)) (next : String) :
    (directory entries).at? (name :: next :: names) = none := by
  rw [at?_directory_cons]
  cases hlookup : entries.lookup name with
  | none => rfl
  | some u =>
    cases u with
    | file content => rfl
    | directory es => exact absurd hlookup (hname es)

/-- A file that is put into a directory is seen at its own place, and nothing else changes. -/
theorem at?_put {parent : List String} (hparent : t.get? parent = some (directory entries))
    (hname : ∀ es, entries.lookup name ≠ some (directory es)) (content : ByteArray)
    (names : List String) : (put (file content) t (parent ++ [name])).at? names =
      if names = parent ++ [name] then some (some content) else t.at? names := by
  induction parent generalizing t names with
  | nil =>
    rw [get?_nil, Option.some.injEq] at hparent
    subst hparent
    rw [List.nil_append, put, put]
    cases names with
    | nil => simp [at?, content?]
    | cons other names =>
      rw [at?_replaceEntry_cons]
      by_cases hother : other = name
      · subst hother
        cases names with
        | nil => simp [at?, content?]
        | cons next names => simp [at?_below hname, at?_file_cons]
      · simp [hother]
  | cons first parent ih =>
    cases t with
    | file old => cases hparent
    | directory es =>
      rw [get?_directory_cons] at hparent
      obtain ⟨u, hu, hbelow⟩ := Option.bind_eq_some_iff.1 hparent
      rw [List.cons_append, put, hu, Option.getD_some]
      cases names with
      | nil => simp [at?, content?]
      | cons other names =>
        rw [at?_replaceEntry_cons]
        by_cases hother : other = first
        · subst hother
          simpa [at?_directory_cons, hu] using ih hbelow names
        · simp [hother]

/-! ### Following a path -/

theorem at?_eq_some_none_iff :
    t.at? names = some none ↔ ∃ es, t.get? names = some (directory es) := by
  rw [at?, Option.map_eq_some_iff]
  constructor
  · rintro ⟨u, hu, hcontent⟩
    cases u with
    | file content => cases hcontent
    | directory es => exact ⟨es, hu⟩
  · rintro ⟨es, hes⟩
    exact ⟨_, hes, rfl⟩

theorem at?_eq_some_some_iff {content : ByteArray} :
    t.at? names = some (some content) ↔ t.get? names = some (file content) := by
  rw [at?, Option.map_eq_some_iff]
  constructor
  · rintro ⟨u, hu, hcontent⟩
    cases u with
    | file old =>
      cases hcontent
      exact hu
    | directory es => cases hcontent
  · intro h
    exact ⟨_, h, rfl⟩

theorem isSome_at?_concat (h : t.get? here = some (directory entries)) :
    (t.at? (here ++ [part])).isSome = (entries.lookup part).isSome := by
  rw [at?, Option.isSome_map, get?_concat h]

/-- What is there in one tree is there in the other, and directories are directories. -/
structure Extends (t u : Tree) : Prop where
  directory {names : List String} : t.at? names = some none → u.at? names = some none
  isSome {names : List String} : (t.at? names).isSome → (u.at? names).isSome

theorem resolve_nil (t : Tree) (here : List String) : t.resolve here [] = .ok here := rfl

/-- Only a directory lets a path go on. -/
theorem exists_of_resolve_cons {parts : List String}
    (h : t.resolve here (part :: parts) = .ok names) :
    ∃ es, t.get? here = some (directory es) := by
  rw [resolve] at h
  split at h
  · rename_i es hes
    exact ⟨es, hes⟩
  · cases h
  · cases h

theorem resolve_cons (h : t.get? here = some (directory entries)) (parts : List String) :
    t.resolve here (part :: parts) =
      if part = "" || part = "." then t.resolve here parts
      else if part = ".." then t.resolve here.dropLast parts
      else if (entries.lookup part).isSome then t.resolve (here ++ [part]) parts
      else .error .notFound := by
  rw [resolve, h]

/-- A path leads to the same names in a tree where nothing is missing. -/
theorem Extends.resolve_eq (h : t.Extends u) {parts : List String}
    (hres : t.resolve here parts = .ok names) : u.resolve here parts = .ok names := by
  induction parts generalizing here with
  | nil => exact hres
  | cons part parts ih =>
    obtain ⟨es, hes⟩ := exists_of_resolve_cons hres
    obtain ⟨es', hes'⟩ := at?_eq_some_none_iff.1 (h.directory (at?_eq_some_none_iff.2 ⟨es, hes⟩))
    rw [resolve_cons hes] at hres
    rw [resolve_cons hes']
    split at hres
    · rename_i hstay
      rw [if_pos hstay]
      exact ih hres
    · rename_i hstay
      rw [if_neg hstay]
      split at hres
      · rename_i hup
        rw [if_pos hup]
        exact ih hres
      · rename_i hup
        rw [if_neg hup]
        split at hres
        · rename_i hthere
          rw [← isSome_at?_concat hes] at hthere
          rw [if_pos (isSome_at?_concat hes' ▸ h.isSome hthere)]
          exact ih hres
        · cases hres

theorem resolve_append (t : Tree) (here a b : List String) :
    t.resolve here (a ++ b) = (t.resolve here a).bind (t.resolve · b) := by
  induction a generalizing here with
  | nil => rfl
  | cons part a ih =>
    rw [List.cons_append, resolve, resolve]
    split
    · simp only [ih]
      split
      · rfl
      · split
        · rfl
        · split <;> rfl
    · rfl
    · rfl

section Put

variable {parent : List String} (hparent : t.get? parent = some (directory entries))
  (hname : ∀ es, entries.lookup name ≠ some (directory es)) (content : ByteArray)

include hparent hname

theorem extends_put : t.Extends (put (file content) t (parent ++ [name])) := by
  have hplace : t.at? (parent ++ [name]) ≠ some none := by
    rw [ne_eq, at?_eq_some_none_iff, get?_concat hparent]
    exact not_exists.2 hname
  constructor
  · intro names hnames
    rw [at?_put hparent hname, if_neg]
    · exact hnames
    · rintro rfl
      exact hplace hnames
  · intro names hnames
    rw [at?_put hparent hname]
    split
    · rfl
    · exact hnames

/-- The path to a file's directory and then its name lead to the file. -/
theorem resolve_put {parts : List String} (hparts : t.resolve here parts = .ok parent)
    (hordinary : name ≠ "" ∧ name ≠ "." ∧ name ≠ "..") :
    (put (file content) t (parent ++ [name])).resolve here (parts ++ [name]) =
      .ok (parent ++ [name]) := by
  obtain ⟨hblank, hdot, hdots⟩ := hordinary
  have hext := extends_put hparent hname content
  obtain ⟨es, hes⟩ := at?_eq_some_none_iff.1
    (hext.directory (at?_eq_some_none_iff.2 ⟨entries, hparent⟩))
  have hthere : (es.lookup name).isSome := by
    rw [← isSome_at?_concat hes, at?_put hparent hname, if_pos rfl]
    rfl
  rw [resolve_append, hext.resolve_eq hparts]
  simp [Except.bind, resolve_cons hes, hblank, hdot, hdots, hthere, resolve_nil]

end Put

end Tree

/-! ### Writing a file -/

namespace Disk

variable {d d' : Disk} {path : String} {place : List String} {content : ByteArray}

/-- A file goes to a name that a directory has for no directory, behind the path to it. -/
theorem exists_of_target (h : d.target path = .ok place) : path.isEmpty = false ∧
    ∃ parts name parent entries, pathParts path = parts ++ [name] ∧
      (name ≠ "" ∧ name ≠ "." ∧ name ≠ "..") ∧
      d.root.resolve (d.base path) parts = .ok parent ∧
      d.root.get? parent = some (.directory entries) ∧
      (∀ es, entries.lookup name ≠ some (.directory es)) ∧ place = parent ++ [name] := by
  have hinit : ((pathParts path).reverse.dropWhile (· == "")).reverse <+: pathParts path :=
    List.rdropWhile_prefix _ _
  unfold target at h
  dsimp only [bind, Except.bind] at h
  generalize ((pathParts path).reverse.dropWhile (· == "")).reverse = trimmed at h hinit
  split at h
  · cases h
  rename_i hempty
  split at h
  · cases h
  rename_i parent hparent
  split at h
  · rename_i entries hentries
    split at h
    · cases h
    rename_i hname
    simp only [Bool.or_eq_true, decide_eq_true_eq, not_or, Nat.not_lt] at hname
    obtain ⟨⟨⟨hlength, hblank⟩, hdot⟩, hdots⟩ := hname
    split at h
    · cases h
    · rename_i hlookup
      cases h
      -- Nothing was trimmed, and there is a last part.
      have hparts := hinit.eq_of_length (Nat.le_antisymm hinit.length_le hlength)
      have hne : trimmed ≠ [] := by
        rintro rfl
        exact hblank rfl
      have hlast : trimmed.getLastD "" = trimmed.getLast hne := by
        rw [List.getLastD_eq_getLast?, List.getLast?_eq_some_getLast hne, Option.getD_some]
      refine ⟨by simpa using hempty, trimmed.dropLast, trimmed.getLastD "", parent, entries, ?_,
        ⟨hblank, hdot, hdots⟩, hparent, hentries, hlookup, rfl⟩
      rw [← hparts, hlast, List.dropLast_concat_getLast]
  · cases h
  · cases h

theorem exists_of_write (h : d.write path content = .ok d') : ∃ place,
    d.target path = .ok place ∧ d' = { d with root := .put (.file content) d.root place } := by
  unfold write at h
  cases htarget : d.target path with
  | error fault => simp [htarget, bind, Except.bind] at h
  | ok place =>
    refine ⟨place, rfl, ?_⟩
    simpa [htarget, bind, Except.bind, pure, Except.pure, eq_comm] using h

/-- What writing does: the path leads to the content, and every other place holds a file with the
content that it held before. -/
structure Replaces (d : Disk) (path : String) (content : ByteArray) (d' : Disk) : Prop where
  read : d'.read path = .ok content
  others : ∀ names, d'.locate path ≠ .ok names →
    ∀ old, d'.root.get? names = some (.file old) ↔ d.root.get? names = some (.file old)

theorem replaces_of_write (h : d.write path content = .ok d') : d.Replaces path content d' := by
  obtain ⟨place, htarget, rfl⟩ := exists_of_write h
  obtain ⟨hempty, parts, name, parent, entries, hparts, hordinary, hparent, hentries, hlookup,
    rfl⟩ := exists_of_target htarget
  have hput := Tree.at?_put hentries hlookup content
  have hlocate : Disk.locate { d with root := .put (.file content) d.root (parent ++ [name]) }
      path = .ok (parent ++ [name]) := by
    rw [locate, hempty, if_neg (by decide), hparts]
    exact Tree.resolve_put hentries hlookup content hparent hordinary
  constructor
  · have hfile := hput (parent ++ [name])
    rw [if_pos rfl, Tree.at?_eq_some_some_iff] at hfile
    rw [read, hlocate]
    simp only [bind, Except.bind, hfile]
    rfl
  · intro names hnames old
    have hother : names ≠ parent ++ [name] := by
      rintro rfl
      exact hnames hlocate
    rw [← Tree.at?_eq_some_some_iff, ← Tree.at?_eq_some_some_iff, hput, if_neg hother]

end Disk

end CosmeticLint.Storage
