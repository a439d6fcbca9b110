import CosmeticLint.Text.Split

/-! Texts cut at a character: the parts are those of the library's `List.splitOn`, and none
of them holds the character. -/

namespace CosmeticLint

theorem splitAtChar_eq_splitOn (x : Char) (text : List Char) :
    splitAtChar x text = text.splitOn x := by
  induction text with
  | nil => rfl
  | cons c cs ih =>
    rw [splitAtChar, List.splitOn_cons_eq_if_modifyHead, ih]
    simp only [beq_iff_eq]

theorem notMem_of_mem_splitOn {x : Char} {text part : List Char} (h : part ∈ text.splitOn x) :
    x ∉ part := by
  induction text generalizing part with
  | nil =>
    rw [List.splitOn_nil, List.mem_singleton] at h
    simp [h]
  | cons c cs ih =>
    rw [List.splitOn_cons_eq_if_modifyHead] at h
    split at h
    · rcases List.mem_cons.1 h with rfl | h
      · simp
      · exact ih h
    · rename_i hc
      -- Only the first part grows, by a character other than `x`.
      obtain ⟨first, rest, heq⟩ := List.exists_cons_of_ne_nil (List.splitOn_ne_nil x cs)
      rw [heq, List.modifyHead_cons] at h
      rcases List.mem_cons.1 h with rfl | h
      · have hfirst : x ∉ first := ih (by simp [heq])
        have hne : x ≠ c := by
          rintro rfl
          exact hc (beq_self_eq_true x)
        simp [hfirst, hne]
      · exact ih (by simp [heq, h])

end CosmeticLint
