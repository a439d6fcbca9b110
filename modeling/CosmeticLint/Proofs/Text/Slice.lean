import CosmeticLint.Text.Span

/-! Slices and spans of a text. A span is good for a text when it slices it at all, and
then what it slices to says where in the text it lies. -/

namespace CosmeticLint

theorem byteLength_pos {text : List Char} (h : text ≠ []) : 0 < byteLength text := by
  obtain ⟨c, cs, rfl⟩ := List.exists_cons_of_ne_nil h
  have := c.utf8Size_pos
  rw [byteLength_cons]
  omega

theorem length_le_byteLength (text : List Char) : text.length ≤ byteLength text := by
  induction text with
  | nil => exact Nat.le_refl 0
  | cons c cs ih =>
    have := c.utf8Size_pos
    rw [List.length_cons, byteLength_cons]
    omega

theorem splitAtByte?_append (before after : List Char) :
    splitAtByte? (before ++ after) (byteLength before) = some (before, after) := by
  induction before with
  | nil => cases after <;> rfl
  | cons c cs ih =>
    obtain ⟨k, hk⟩ : ∃ k, c.utf8Size + byteLength cs = k + 1 :=
      ⟨c.utf8Size + byteLength cs - 1, by have := c.utf8Size_pos; omega⟩
    have hle : c.utf8Size ≤ k + 1 := by omega
    have hsub : k + 1 - c.utf8Size = byteLength cs := by omega
    rw [byteLength_cons, hk, List.cons_append, splitAtByte?, if_pos hle, hsub, ih]
    rfl

theorem eq_append_of_splitAtByte? {text before after : List Char} {n : Nat}
    (h : splitAtByte? text n = some (before, after)) :
    text = before ++ after ∧ byteLength before = n := by
  induction text generalizing n before with
  | nil =>
    cases n with
    | zero => cases h; exact ⟨rfl, rfl⟩
    | succ n => cases h
  | cons c cs ih =>
    cases n with
    | zero => cases h; exact ⟨rfl, rfl⟩
    | succ n =>
      rw [splitAtByte?] at h
      split at h
      · obtain ⟨⟨b, a⟩, hs, heq⟩ := Option.map_eq_some_iff.1 h
        cases heq
        obtain ⟨rfl, hn⟩ := ih hs
        refine ⟨rfl, ?_⟩
        rw [byteLength_cons]
        omega
      · cases h

namespace Span

/-- A span slices a text to `w` exactly when `w` stands in the text behind as many bytes
as the span says. -/
theorem slice?_eq_some_iff {s : Span} {text w : List Char} :
    s.slice? text = some w ↔ ∃ before after, text = before ++ (w ++ after) ∧
      s.start = byteLength before ∧ s.stop = byteLength before + byteLength w := by
  constructor
  · intro h
    rw [slice?] at h
    split at h
    · rename_i hle
      obtain ⟨⟨before, rest⟩, hb, h⟩ := Option.bind_eq_some_iff.1 h
      obtain ⟨⟨inside, after⟩, hi, heq⟩ := Option.map_eq_some_iff.1 h
      cases heq
      obtain ⟨rfl, hstart⟩ := eq_append_of_splitAtByte? hb
      obtain ⟨rfl, hlen⟩ := eq_append_of_splitAtByte? hi
      exact ⟨before, after, rfl, hstart.symm, by rw [hlen]; omega⟩
    · cases h
  · rintro ⟨before, after, rfl, hstart, hstop⟩
    have hle : s.start ≤ s.stop := by omega
    have hsub : s.stop - s.start = byteLength w := by omega
    rw [slice?, if_pos hle, hsub, hstart, splitAtByte?_append]
    simp only [Option.bind_some, splitAtByte?_append, Option.map_some]

/-- A slice of a slice is a slice of the whole text, as far behind as the outer one starts. -/
theorem slice?_shift {s t : Span} {text inner w : List Char} (hs : s.slice? text = some inner)
    (ht : t.slice? inner = some w) : (t.shift s.start).slice? text = some w := by
  obtain ⟨before, after, rfl, hstart, -⟩ := slice?_eq_some_iff.1 hs
  obtain ⟨before', after', rfl, hstart', hstop'⟩ := slice?_eq_some_iff.1 ht
  refine slice?_eq_some_iff.2 ⟨before ++ before', after' ++ after, ?_, ?_, ?_⟩
  · simp only [List.append_assoc]
  · simp only [shift, byteLength_append]
    omega
  · simp only [shift, byteLength_append]
    omega

/-- The offset stands between two characters of the text, or at one of its ends. -/
def Boundary (text : List Char) (offset : Nat) : Prop :=
  ∃ before after, text = before ++ after ∧ byteLength before = offset

/-- The span is not reversed, ends within the text and cuts no character. -/
structure Proper (text : List Char) (s : Span) : Prop where
  ordered : s.start ≤ s.stop
  inside : s.stop ≤ byteLength text
  startBoundary : Boundary text s.start
  stopBoundary : Boundary text s.stop

theorem Proper.of_slice? {s : Span} {text w : List Char} (h : s.slice? text = some w) :
    s.Proper text := by
  obtain ⟨before, after, rfl, hstart, hstop⟩ := slice?_eq_some_iff.1 h
  refine ⟨by omega, ?_, ⟨before, w ++ after, rfl, hstart.symm⟩, ⟨before ++ w, after, ?_, ?_⟩⟩
  · simp only [byteLength_append]
    omega
  · rw [List.append_assoc]
  · rw [byteLength_append, hstop]

/-- Spans that follow each other between two offsets. -/
def InOrder (lo hi : Nat) : List Span → Prop
  | [] => lo ≤ hi
  | s :: ss => lo ≤ s.start ∧ s.start ≤ s.stop ∧ InOrder s.stop hi ss

namespace InOrder

variable {lo lo' hi hi' : Nat} {ss : List Span}

theorem le (h : InOrder lo hi ss) : lo ≤ hi := by
  induction ss generalizing lo with
  | nil => exact h
  | cons s ss ih =>
    obtain ⟨hlo, hs, hrest⟩ := h
    exact Nat.le_trans hlo (Nat.le_trans hs (ih hrest))

theorem weaken (h : InOrder lo hi ss) (hlo : lo' ≤ lo) : InOrder lo' hi ss := by
  cases ss with
  | nil => exact Nat.le_trans hlo h
  | cons s ss => exact ⟨Nat.le_trans hlo h.1, h.2⟩

theorem bounds (h : InOrder lo hi ss) : ∀ s ∈ ss, lo ≤ s.start ∧ s.stop ≤ hi := by
  induction ss generalizing lo with
  | nil => simp
  | cons s ss ih =>
    obtain ⟨hlo, hs, hrest⟩ := h
    intro t ht
    rcases List.mem_cons.1 ht with rfl | ht
    · exact ⟨hlo, hrest.le⟩
    · have := ih hrest t ht
      omega

theorem pairwise (h : InOrder lo hi ss) : ss.Pairwise fun s t => s.stop ≤ t.start := by
  induction ss generalizing lo with
  | nil => exact .nil
  | cons s ss ih =>
    obtain ⟨-, -, hrest⟩ := h
    exact .cons (fun t ht => (hrest.bounds t ht).1) (ih hrest)

end InOrder

/-- What lies in front of each span, from `lo` or from the end of the span before it. -/
def gaps (lo : Nat) : List Span → List Span
  | [] => []
  | s :: ss => ⟨lo, s.start⟩ :: gaps s.stop ss

/-- Spans that are not empty and cover the range from `lo` to `hi` without gap or overlap. -/
def Tiles (lo hi : Nat) : List Span → Prop
  | [] => lo = hi
  | s :: ss => s.start = lo ∧ s.start < s.stop ∧ Tiles s.stop hi ss

end Span

end CosmeticLint
