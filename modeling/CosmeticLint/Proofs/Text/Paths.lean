import CosmeticLint.Proofs.Text.Split
import CosmeticLint.Storage.Files
import Mathlib.Data.List.Basic
import Mathlib.Data.List.TakeWhile

/-! Paths seen from a directory. The names of the path are those of the directory followed by those
that are left, and a file listed below a directory is seen from it under the name it is listed
with. -/

namespace CosmeticLint.Path

open Storage

/-! ### Pieces -/

theorem pieces_eq_splitOn (path : String) : pieces path = path.toList.splitOn '/' :=
  splitAtChar_eq_splitOn _ _

theorem pieces_ne_nil (path : String) : pieces path ≠ [] := by
  rw [pieces_eq_splitOn]
  exact List.splitOn_ne_nil _ _

theorem pieces_slash (first second : String) :
    pieces (first ++ "/" ++ second) = pieces first ++ pieces second := by
  have htext : (first ++ "/" ++ second).toList = first.toList ++ '/' :: second.toList := by simp
  rw [pieces_eq_splitOn, htext, List.splitOn_append_cons_self, ← pieces_eq_splitOn,
    ← pieces_eq_splitOn]

theorem slash_notMem_of_mem_pieces {path : String} {piece : List Char} (h : piece ∈ pieces path) :
    '/' ∉ piece := by
  rw [pieces_eq_splitOn] at h
  exact notMem_of_mem_splitOn h

theorem isAbsolute_append {first : String} (h : first ≠ "") (second : String) :
    isAbsolute (first ++ second) = isAbsolute first := by
  have hne : first.toList ≠ [] := by simpa using h
  rw [isAbsolute, isAbsolute, String.toList_append, List.head?_append_of_ne_nil _ hne]

theorem head_eq_of_head? {first second : String} (habsolute : isAbsolute first = isAbsolute second)
    (hpieces : (pieces first).head? = (pieces second).head?) : head first = head second := by
  rw [head, head, habsolute, hpieces]

/-! ### Names -/

/-- The names come first, with nameless pieces between them. -/
theorem filter_of_dropNames {names ps rest : List (List Char)}
    (h : dropNames names ps = some rest) : ps.filter isName = names ++ rest.filter isName := by
  fun_induction dropNames names ps with
  | case1 ps =>
    cases h
    rfl
  | case2 => cases h
  | case3 name names piece ps hidle ih =>
    rw [List.filter_cons_of_neg (by simpa using hidle), ih h]
  | case4 names piece ps hname ih =>
    rw [List.filter_cons_of_pos (by simpa using hname), ih h, List.cons_append]
  | case5 => cases h

theorem dropNames_isSome {names ps : List (List Char)} (h : names <+: ps.filter isName) :
    (dropNames names ps).isSome := by
  fun_induction dropNames names ps with
  | case1 => rfl
  | case2 => simp at h
  | case3 name names piece ps hidle ih =>
    rw [List.filter_cons_of_neg (by simpa using hidle)] at h
    exact ih h
  | case4 names piece ps hname ih =>
    rw [List.filter_cons_of_pos (by simpa using hname)] at h
    exact ih (List.cons_prefix_cons.1 h).2
  | case5 name names piece ps hname hne =>
    rw [List.filter_cons_of_pos (by simpa using hname)] at h
    exact absurd (List.cons_prefix_cons.1 h).1.symm hne

theorem suffix_of_dropNames {names ps rest : List (List Char)}
    (h : dropNames names ps = some rest) : rest <:+ ps := by
  fun_induction dropNames names ps with
  | case1 ps =>
    cases h
    exact List.suffix_rfl
  | case2 => cases h
  | case3 _ _ piece ps _ ih => exact (ih h).trans (List.suffix_cons piece ps)
  | case4 _ piece ps _ ih => exact (ih h).trans (List.suffix_cons piece ps)
  | case5 => cases h

/-- Behind the names of some pieces, only nameless ones of them are left. -/
theorem dropNames_append (ps rest : List (List Char)) :
    ∃ idle, (∀ piece ∈ idle, isName piece = false) ∧
      dropNames (ps.filter isName) (ps ++ rest) = some (idle ++ rest) := by
  induction ps with
  | nil => exact ⟨[], by simp, by rw [List.filter_nil, dropNames]⟩
  | cons p ps ih =>
    obtain ⟨idle, hidle, hdrop⟩ := ih
    cases hp : isName p with
    | true =>
      refine ⟨idle, hidle, ?_⟩
      rw [List.filter_cons_of_pos hp, List.cons_append, dropNames, if_neg (by simp [hp]),
        if_pos rfl, hdrop]
    | false =>
      rw [List.filter_cons_of_neg (by simp [hp])]
      cases hnames : ps.filter isName with
      | nil =>
        -- nothing is dropped, not even the nameless pieces
        have hps := List.filter_eq_nil_iff.1 hnames
        exact ⟨p :: ps, by simpa [hp] using hps, by rw [dropNames]⟩
      | cons name names =>
        rw [hnames] at hdrop
        exact ⟨idle, hidle, by rw [List.cons_append, dropNames, if_pos (by simp [hp]), hdrop]⟩

/-! ### Paths of pieces -/

theorem dropWhile_append_idle {idle : List (List Char)} (h : ∀ piece ∈ idle, isName piece = false)
    (ps : List (List Char)) : (idle ++ ps).dropWhile (!isName ·) = ps.dropWhile (!isName ·) := by
  rw [List.dropWhile_append, if_pos]
  rw [List.isEmpty_iff, List.dropWhile_eq_nil_iff]
  simpa using h

theorem filter_dropWhile_idle (ps : List (List Char)) :
    (ps.dropWhile (!isName ·)).filter isName = ps.filter isName := by
  induction ps with
  | nil => rfl
  | cons p ps ih => cases hp : isName p <;> simp [hp, ih]

/-- Cutting nameless pieces off at both ends changes no name. -/
theorem parts_ofPieces {ps : List (List Char)} (h : ∀ piece ∈ ps, '/' ∉ piece) :
    parts (ofPieces ps) = (ps.filter isName).map String.ofList := by
  have hkept : (((ps.dropWhile (!isName ·)).reverse.dropWhile (!isName ·)).reverse).filter isName =
      ps.filter isName := by
    rw [List.filter_reverse, filter_dropWhile_idle, ← List.filter_reverse, List.reverse_reverse,
      filter_dropWhile_idle]
  rw [parts, ofPieces, pieces_eq_splitOn, String.toList_ofList]
  cases hne : ((ps.dropWhile (!isName ·)).reverse.dropWhile (!isName ·)).reverse with
  | nil =>
    rw [hne] at hkept
    rw [← hkept]
    rfl
  | cons p qs =>
    have hsub : ∀ piece ∈ p :: qs, '/' ∉ piece := by
      intro piece hpiece
      rw [← hne, List.mem_reverse] at hpiece
      have hmem := List.mem_reverse.1 ((List.dropWhile_sublist _).subset hpiece)
      exact h piece ((List.dropWhile_sublist _).subset hmem)
    rw [List.splitOn_intercalate '/' hsub (by simp), ← hne, hkept]

theorem ofPieces_append_pieces {idle : List (List Char)}
    (hidle : ∀ piece ∈ idle, isName piece = false) {path : String}
    (hpath : ∀ piece ∈ pieces path, isName piece = true) :
    ofPieces (idle ++ pieces path) = path := by
  have hall {ps : List (List Char)} (h : ∀ piece ∈ ps, isName piece = true) :
      ps.dropWhile (!isName ·) = ps := by
    rw [List.dropWhile_eq_self_iff]
    intro hne
    simp [h _ (List.getElem_mem hne)]
  rw [ofPieces, dropWhile_append_idle hidle, hall hpath, hall (by simpa using hpath),
    List.reverse_reverse, pieces_eq_splitOn, List.intercalate_splitOn, String.ofList_toList]

/-! ### Seen from a directory -/

/-- The directory starts where the path starts, and its names are the first ones of the path. -/
def IsBelow (directory path : String) : Prop :=
  head directory = head path ∧ parts directory <+: parts path

theorem isBelow_iff {directory path : String} : IsBelow directory path ↔
    head directory = head path ∧
      (pieces directory).filter isName <+: (pieces path).filter isName := by
  have hinjective : Function.Injective String.ofList := fun a b h => by
    simpa using congrArg String.toList h
  rw [IsBelow, parts, parts, List.prefix_map_iff_of_injective hinjective]

theorem parts_seenFrom {directory path : String} (h : IsBelow directory path) :
    parts path = parts directory ++ parts (seenFrom directory path) := by
  obtain ⟨hhead, hnames⟩ := isBelow_iff.1 h
  obtain ⟨rest, hrest⟩ := Option.isSome_iff_exists.1 (dropNames_isSome hnames)
  have hpieces : ∀ piece ∈ rest, '/' ∉ piece := fun piece hpiece =>
    slash_notMem_of_mem_pieces ((suffix_of_dropNames hrest).subset hpiece)
  rw [seenFrom, below?, if_pos hhead, hrest, Option.map_some, Option.getD_some,
    parts_ofPieces hpieces, parts, parts, filter_of_dropNames hrest, List.map_append]

theorem seenFrom_of_not_isBelow {directory path : String} (h : ¬ IsBelow directory path) :
    seenFrom directory path = path := by
  rw [isBelow_iff] at h
  rw [seenFrom, below?]
  split
  · rename_i hhead
    cases hdrop : dropNames ((pieces directory).filter isName) (pieces path) with
    | none => rfl
    | some rest =>
      exact absurd ⟨hhead, by rw [filter_of_dropNames hdrop]; exact List.prefix_append _ _⟩ h
  · rfl

/-! ### Listed files -/

/-- A name that a file below a directory is listed with: it consists of names, or is empty if the
directory is the file itself. -/
def IsListed (name : String) : Prop := name = "" ∨ ∀ piece ∈ pieces name, isName piece = true

theorem head_of_names {name : String} (h : ∀ piece ∈ pieces name, isName piece = true) :
    head name = [] ∧ isAbsolute name = false := by
  obtain ⟨first, rest, hpieces⟩ := List.exists_cons_of_ne_nil (pieces_ne_nil name)
  have hfirst : isName first = true := h first (by simp [hpieces])
  have habsolute : isAbsolute name = false := by
    rw [isAbsolute, decide_eq_false_iff_not]
    intro hhead
    obtain ⟨tail, htail⟩ : ∃ tail, name.toList = '/' :: tail := List.head?_eq_some_iff.1 hhead
    rw [pieces, htail, splitAtChar, if_pos rfl, List.cons.injEq] at hpieces
    rw [← hpieces.1] at hfirst
    cases hfirst
  refine ⟨?_, habsolute⟩
  have hdot : (pieces name).head? ≠ some ['.'] := by
    rw [hpieces, List.head?_cons]
    intro hdot
    rw [Option.some.inj hdot] at hfirst
    cases hfirst
  rw [head, habsolute, if_neg (by simp), if_neg hdot]

/-- A directory and a name in it share the pieces of the directory, less the empty one behind a
slash at its end. -/
theorem exists_stem {directory name : String} (hdirectory : directory ≠ "")
    (hname : isAbsolute name = false) :
    ∃ (stem : String) (idle : List (List Char)), pieces directory = pieces stem ++ idle ∧
      (∀ piece ∈ idle, isName piece = false) ∧
      pieces (join directory name) = pieces stem ++ pieces name := by
  have hempty : directory.isEmpty = false := by simpa using hdirectory
  rw [join, hname, hempty, Bool.or_self, if_neg (by simp)]
  split
  · rename_i hlast
    obtain ⟨stem, hstem⟩ := List.getLast?_eq_some_iff.1 hlast
    have hdirectory : directory = String.ofList stem ++ "/" ++ "" := by
      apply String.toList_injective
      simp [hstem]
    have hjoined : directory ++ name = String.ofList stem ++ "/" ++ name := by
      apply String.toList_injective
      simp [hstem]
    refine ⟨String.ofList stem, [[]], ?_, by decide, ?_⟩
    · rw [hdirectory, pieces_slash]
      rfl
    · rw [hjoined, pieces_slash]
  · exact ⟨directory, [], by simp, by simp, pieces_slash directory name⟩

theorem head_join {directory name : String} (hdirectory : directory ≠ "")
    (hname : isAbsolute name = false) : head (join directory name) = head directory := by
  obtain ⟨stem, idle, hstem, -, hjoin⟩ := exists_stem hdirectory hname
  refine head_eq_of_head? ?_ ?_
  · rw [join, hname, Bool.false_or, if_neg (by simpa using hdirectory)]
    split
    · exact isAbsolute_append hdirectory name
    · rw [String.append_assoc]
      exact isAbsolute_append hdirectory _
  · rw [hstem, hjoin, List.head?_append_of_ne_nil _ (pieces_ne_nil stem),
      List.head?_append_of_ne_nil _ (pieces_ne_nil stem)]

theorem seenFrom_self (path : String) : seenFrom path path = "" := by
  obtain ⟨idle, hidle, hdrop⟩ := dropNames_append (pieces path) []
  have hnone : idle.dropWhile (!isName ·) = [] :=
    List.dropWhile_eq_nil_iff.2 (by simpa using hidle)
  rw [List.append_nil, List.append_nil] at hdrop
  rw [seenFrom, below?, if_pos rfl, hdrop, Option.map_some, Option.getD_some, ofPieces, hnone]
  rfl

theorem seenFrom_join (directory : String) {name : String}
    (hname : ∀ piece ∈ pieces name, isName piece = true) :
    seenFrom directory (join directory name) = name := by
  obtain ⟨hhead, habsolute⟩ := head_of_names hname
  by_cases hdirectory : directory = ""
  · subst hdirectory
    have hjoin : join "" name = name := by rw [join, if_pos (by simp)]
    have hpieces : (pieces "").filter isName = [] := rfl
    rw [hjoin, seenFrom, below?, if_pos (by rw [hhead]; rfl), hpieces, dropNames]
    exact ofPieces_append_pieces (List.forall_mem_nil _) hname
  · obtain ⟨stem, idle, hstem, hidle, hjoin⟩ := exists_stem hdirectory habsolute
    obtain ⟨left, hleft, hdrop⟩ := dropNames_append (pieces stem) (pieces name)
    have hnone : idle.filter isName = [] := List.filter_eq_nil_iff.2 (by simpa using hidle)
    rw [seenFrom, below?, if_pos (head_join hdirectory habsolute).symm, hstem,
      List.filter_append, hnone, List.append_nil, hjoin, hdrop, Option.map_some,
      Option.getD_some, ofPieces_append_pieces hleft hname]

/-- A file listed below a directory is seen from it under the name it is listed with. -/
theorem seenFrom_pathBelow (directory : String) {name : String} (h : IsListed name) :
    seenFrom directory (pathBelow directory name) = name := by
  rw [pathBelow]
  split
  · rename_i hempty
    rw [seenFrom_self, String.isEmpty_iff.1 hempty]
  · rename_i hempty
    exact seenFrom_join directory (h.resolve_left fun hname => hempty (by rw [hname]; rfl))

/-- Paths as they are shown to someone in a directory: without the names of the directory where
they begin with them, and unchanged otherwise. A listed file goes by the name it is listed with. -/
structure RelativeTo (directory : String) (shown : String → String) : Prop where
  below : ∀ path, IsBelow directory path → parts path = parts directory ++ parts (shown path)
  elsewhere : ∀ path, ¬ IsBelow directory path → shown path = path
  listed : ∀ name, IsListed name → shown (pathBelow directory name) = name

theorem relativeTo_seenFrom (directory : String) : RelativeTo directory (seenFrom directory) :=
  ⟨fun _ => parts_seenFrom, fun _ => seenFrom_of_not_isBelow, fun _ => seenFrom_pathBelow directory⟩

example : seenFrom "./a//b/." "./a/b//c.d/e.vue" = "c.d/e.vue" := by decide

end CosmeticLint.Path
