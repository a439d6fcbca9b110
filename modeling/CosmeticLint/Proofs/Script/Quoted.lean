import CosmeticLint.Proofs.Script.Places
import CosmeticLint.Proofs.Text.Place
import CosmeticLint.Script.Token

/-! Quoted text of a script. What is read of a literal is the text up to the delimiter that
closes it, and nothing before that delimiter, outside of an escape, could have closed it. -/

namespace CosmeticLint.Script

open Markup.Reference (digit?)

/-! ### Escapes -/

/-- Characters that close no literal and start no escape. -/
def isInner (x : Char) : Bool := !(['\\', '"', '\'', '\x60', '$'].contains x)

theorem isInner_of_digit {base : Nat} {x : Char} (h : (digit? base x).isSome = true) :
    isInner x = true := by
  by_contra hx
  simp only [isInner, List.contains_cons, List.contains_nil, Bool.or_false, Bool.not_eq_true',
    Bool.not_eq_false, Bool.or_eq_true, beq_iff_eq] at hx
  rcases hx with rfl | rfl | rfl | rfl | rfl <;> simp [digit?, Char.isDigit] at h

namespace Escape

/-- What an escape takes after its backslash: any character, and then only such as have no
meaning of their own. -/
def IsPiece (w : List Char) : Prop := ∃ x tail, w = x :: tail ∧ ∀ y ∈ tail, isInner y = true

theorem isPiece_take {x : Char} {text tail : List Char} (h : tail <+: text)
    (htail : ∀ y ∈ tail, isInner y = true) : IsPiece ((x :: text).take (1 + tail.length)) := by
  refine ⟨x, tail, ?_, htail⟩
  rw [Nat.add_comm, List.take_succ_cons, ← List.prefix_iff_eq_take.1 h]

theorem isPrefix_hexDigits (limit : Nat) (text : List Char) : hexDigits limit text <+: text :=
  (List.takeWhile_prefix _).trans (List.take_prefix _ _)

theorem isInner_of_mem_hexDigits {limit : Nat} {text : List Char} {y : Char}
    (hy : y ∈ hexDigits limit text) : isInner y = true :=
  isInner_of_digit (List.mem_takeWhile_imp (p := fun c => (digit? 16 c).isSome) hy)

/-- How many characters after its backslash an escape takes, with or without a meaning. -/
def taken : Except (Cause × Nat) Escape → Nat
  | .ok e => e.length
  | .error (_, n) => n

theorem isPiece_fixed (letter : Char) (count : Nat) (text : List Char) :
    IsPiece ((letter :: text).take (taken (Escape.fixed count text))) := by
  have htaken : taken (Escape.fixed count text) = 1 + (hexDigits count text).length := by
    simp only [Escape.fixed]
    split
    · rename_i hcount
      rw [taken, hcount]
    · rfl
  rw [htaken]
  exact isPiece_take (isPrefix_hexDigits count text) fun y => isInner_of_mem_hexDigits

theorem isPiece_octal {c : Char} {rest : List Char} (hc : (digit? 8 c).isSome = true) :
    IsPiece ((c :: rest).take (Escape.octal (c :: rest)).length) := by
  -- One digit is `c`, and at most two more follow it.
  obtain ⟨more, hmore, hdigits⟩ : ∃ more,
      more <+: (rest.take 2).takeWhile (fun x => (digit? 8 x).isSome) ∧
      (Escape.octal (c :: rest)).length = 1 + more.length := by
    simp only [Escape.octal, List.take_succ_cons, List.takeWhile_cons, hc, if_true]
    split
    · exact ⟨_, List.prefix_rfl, Nat.add_comm _ _⟩
    · exact ⟨_, List.take_prefix 1 _, Nat.add_comm _ _⟩
  rw [hdigits]
  refine isPiece_take (hmore.trans ((List.takeWhile_prefix _).trans (List.take_prefix 2 rest))) ?_
  intro y hy
  exact isInner_of_digit
    (List.mem_takeWhile_imp (p := fun x => (digit? 8 x).isSome) (hmore.subset hy))

theorem isPiece_braced {digits text : List Char} (hpre : digits <+: text)
    (hdigits : ∀ y ∈ digits, isInner y = true)
    (hclose : (text.drop digits.length).head? = some '\x7d') :
    IsPiece (('u' :: '\x7b' :: text).take (3 + digits.length)) := by
  obtain ⟨after, rfl⟩ := hpre
  rw [List.drop_left] at hclose
  obtain ⟨rest, rfl⟩ := List.head?_eq_some_iff.1 hclose
  have hbraces : '\x7b' :: (digits ++ ['\x7d']) <+: '\x7b' :: (digits ++ '\x7d' :: rest) :=
    ⟨rest, by simp⟩
  have hlength : 3 + digits.length = 1 + ('\x7b' :: (digits ++ ['\x7d'])).length := by
    simp only [List.length_cons, List.length_append, List.length_nil]
    omega
  rw [hlength]
  refine isPiece_take hbraces fun y hy => ?_
  simp only [List.mem_cons, List.mem_append, List.not_mem_nil, or_false] at hy
  rcases hy with rfl | hy | rfl
  · rfl
  · exact hdigits y hy
  · rfl

/-- At the end of the text there is nothing to take. -/
theorem isPiece_read (text : List Char) :
    text = [] ∨ IsPiece (text.take (taken (Escape.read text))) := by
  have hone (x : Char) (rest : List Char) : IsPiece ((x :: rest).take 1) :=
    isPiece_take List.nil_prefix (by simp)
  unfold Escape.read
  split
  · exact Or.inl rfl
  iterate 6 exact Or.inr (hone _ _)
  · exact Or.inr ⟨'\r', ['\n'], rfl, List.forall_mem_singleton.2 rfl⟩
  · exact Or.inr (isPiece_fixed _ _ _)
  · rename_i rest
    have hdigits : ∀ y ∈ hexDigits rest.length rest, isInner y = true :=
      fun y => isInner_of_mem_hexDigits
    have hpre := isPrefix_hexDigits rest.length rest
    dsimp only
    split
    · have hopen : '\x7b' :: hexDigits rest.length rest <+: '\x7b' :: rest :=
        List.cons_prefix_cons.2 ⟨rfl, hpre⟩
      have hpiece := isPiece_take (x := 'u') hopen (List.forall_mem_cons.2 ⟨rfl, hdigits⟩)
      rw [List.length_cons, Nat.add_comm, Nat.add_assoc, Nat.add_comm] at hpiece
      exact Or.inr hpiece
    · rename_i hbraced
      simp only [Bool.or_eq_true, decide_eq_true_eq, not_or, not_not] at hbraced
      exact Or.inr (isPiece_braced hpre hdigits hbraced.1.2)
  · exact Or.inr (isPiece_fixed _ _ _)
  · rename_i c rest _ _ _ _ _ _ _ _ _ _
    split
    · exact Or.inr (hone _ _)
    · split
      · rename_i hc
        exact Or.inr (isPiece_octal hc)
      · exact Or.inr (hone _ _)

end Escape

/-! ### Runs up to a delimiter -/

theorem Unclosed.inner {closes : List Char → Bool} {rest tail body : List Char}
    (h : Unclosed closes rest body)
    (hinner : ∀ y text, isInner y = true → closes (y :: text) = false)
    (htail : ∀ y ∈ tail, isInner y = true) : Unclosed closes rest (tail ++ body) := by
  induction tail with
  | nil => exact h
  | cons y tail ih =>
    have hy := htail y (by simp)
    refine .plain ?_ (hinner y _ hy) (ih fun z hz => htail z (by simp [hz]))
    rintro rfl
    cases hy

namespace Quoted

/-- What is read of a literal from `c` on: the text up to the place where it ends, and there
one of the delimiters, if the literal is closed at all. -/
structure Runs (closes : List Char → Bool) (delimiters : List (List Char)) (c inside : Cursor)
    (after : Option Cursor) : Prop where
  body : ∃ body, c.Reads body inside ∧ Unclosed closes inside.rest body
  closed : ∀ d, after = some d → ∃ w ∈ delimiters, inside.Reads w d

namespace Runs

variable {closes : List Char → Bool} {delimiters : List (List Char)} {c inside : Cursor}
  {after : Option Cursor} {rest : List Char}

theorem ended_none (c : Cursor) : Runs closes delimiters c c none :=
  ⟨⟨[], .refl c, .nil⟩, by rintro _ ⟨⟩⟩

theorem ended_some {w : List Char} (hrest : c.rest = w ++ rest) (hw : w ∈ delimiters) :
    Runs closes delimiters c c (some (c.skip w.length)) := by
  refine ⟨⟨[], .refl c, .nil⟩, ?_⟩
  rintro _ ⟨⟩
  have hread := c.reads_skip w.length
  rw [hrest, List.take_left] at hread
  exact ⟨w, hw, hread⟩

theorem plain {x : Char} (hrest : c.rest = x :: rest) (hx : x ≠ '\\')
    (hopen : closes c.rest = false) (h : Runs closes delimiters (c.skip 1) inside after) :
    Runs closes delimiters c inside after := by
  obtain ⟨⟨body, hbody, hun⟩, hclosed⟩ := h
  have hc := (Cursor.reads_head hrest).trans hbody
  refine ⟨⟨x :: body, hc, .plain hx ?_ hun⟩, hclosed⟩
  rwa [← List.cons_append, ← List.singleton_append, ← hc.1]

theorem inner (hinner : ∀ y text, isInner y = true → closes (y :: text) = false) {n : Nat}
    (hn : ∀ y ∈ c.rest.take n, isInner y = true)
    (h : Runs closes delimiters (c.skip n) inside after) :
    Runs closes delimiters c inside after := by
  obtain ⟨⟨body, hbody, hun⟩, hclosed⟩ := h
  exact ⟨⟨_, (c.reads_skip n).trans hbody, hun.inner hinner hn⟩, hclosed⟩

theorem escape (hinner : ∀ y text, isInner y = true → closes (y :: text) = false) {n : Nat}
    (hrest : c.rest = '\\' :: rest) (hn : Escape.taken (Escape.read rest) = n)
    (h : Runs closes delimiters (c.skip (1 + n)) inside after) :
    Runs closes delimiters c inside after := by
  obtain ⟨⟨body, hbody, hun⟩, hclosed⟩ := h
  refine ⟨?_, hclosed⟩
  have hc := (c.reads_skip (1 + n)).trans hbody
  rw [hrest, Nat.add_comm, List.take_succ_cons] at hc
  rcases Escape.isPiece_read rest with rfl | ⟨x, tail, htake, htail⟩
  · have hend : [] = body ++ inside.rest := by
      have := hc.1
      rw [hrest] at this
      simpa using this
    obtain ⟨rfl, hd⟩ := List.append_eq_nil_iff.1 hend.symm
    exact ⟨['\\'], by simpa using hc, .cutOff hd⟩
  · rw [← hn, htake] at hc
    exact ⟨_, hc, .escape (hun.inner hinner htail)⟩

theorem reads_after (h : Runs closes delimiters c inside after) :
    ∃ w, c.Reads w (after.getD inside) := by
  obtain ⟨⟨body, hbody, -⟩, hclosed⟩ := h
  cases after with
  | none => exact ⟨body, hbody⟩
  | some d =>
    obtain ⟨w, -, hw⟩ := hclosed d rfl
    exact ⟨body ++ w, hbody.trans hw⟩

end Runs

end Quoted

/-! ### The three kinds of literals -/

theorem closesString_of_isInner {quote y : Char} (hquote : quote = '"' ∨ quote = '\'')
    (text : List Char) (hy : isInner y = true) : closesString quote (y :: text) = false := by
  rw [closesString, List.head?_cons, beq_eq_false_iff_ne]
  rintro ⟨⟩
  rcases hquote with rfl | rfl <;> cases hy

theorem closesTemplate_of_isInner {y : Char} (text : List Char) (hy : isInner y = true) :
    closesTemplate (y :: text) = false := by
  have hback : y ≠ '\x60' := by
    rintro rfl
    cases hy
  have hdollar : '$' ≠ y := by
    rintro rfl
    cases hy
  simp [closesTemplate, List.isPrefixOf, hback, hdollar]

theorem isInner_of_named? {name : List Char} {x : Char}
    (h : Markup.Reference.named? name = some x) : ∀ y ∈ name, isInner y = true := by
  unfold Markup.Reference.named? at h
  split at h
  iterate 6
    rename_i hname
    rw [← String.toList_ofList (l := name), hname]
    exact List.all_eq_true.1 (by decide)
  cases h

theorem isInner_of_referenceMeaning? {body : List Char} {x : Char}
    (h : referenceMeaning? body = some x) : ∀ y ∈ body, isInner y = true := by
  have hdigits {base : Nat} {digits : List Char}
      (hall : ¬(digits.isEmpty || digits.any fun c => (digit? base c).isNone) = true) :
      ∀ y ∈ digits, isInner y = true := by
    intro y hy
    have hy' : (digit? base y).isSome = true := by
      by_contra hnone
      refine hall (Bool.or_eq_true_iff.2 (Or.inr (List.any_eq_true.2 ⟨y, hy, ?_⟩)))
      simpa using hnone
    exact isInner_of_digit hy'
  simp only [referenceMeaning?] at h
  split at h
  · split at h
    · cases h
    · exact List.forall_mem_cons.2 ⟨rfl, List.forall_mem_cons.2 ⟨rfl, hdigits ‹_›⟩⟩
  · split at h
    · cases h
    · exact List.forall_mem_cons.2 ⟨rfl, hdigits ‹_›⟩
  · exact isInner_of_named? h

/-- The characters of a reference, from behind its ampersand to its semicolon. -/
theorem isInner_of_readReference? {text : List Char} {d : Char} {n : Nat}
    (h : readReference? text = some (d, n)) : ∀ y ∈ text.take n, isInner y = true := by
  simp only [readReference?] at h
  split at h
  · rename_i hend
    obtain ⟨x, hx, heq⟩ := Option.map_eq_some_iff.1 h
    cases heq
    have hpre : (text.take 10).takeWhile (· ≠ ';') <+: text :=
      (List.takeWhile_prefix _).trans (List.take_prefix 10 text)
    rw [Bool.and_eq_true, decide_eq_true_eq, decide_eq_true_eq] at hend
    rw [List.take_add_one, hend.2, ← List.prefix_iff_eq_take.1 hpre, Option.toList_some]
    intro y hy
    rcases List.mem_append.1 hy with hy | hy
    · exact isInner_of_referenceMeaning? hx y hy
    · cases List.mem_singleton.1 hy
      rfl
  · cases h

namespace Quoted

variable {quote : Char}

theorem runs_ofString (hquote : quote = '"' ∨ quote = '\'') (c : Cursor) :
    Runs (closesString quote) [[quote]] c (ofString quote c).inside (ofString quote c).after := by
  have hinner := fun y text => closesString_of_isInner (y := y) hquote text
  fun_induction ofString quote c with
  | case1 c => exact .ended_none c
  | case2 c rest hrest => exact .ended_some (w := [quote]) hrest (by simp)
  | case3 c => exact .ended_none c
  | case4 c rest e he hrest _ _ _ _ ih => exact .escape hinner hrest (congrArg Escape.taken he) ih
  | case5 c rest cause n he hrest _ _ _ _ ih =>
    exact .escape hinner hrest (congrArg Escape.taken he) ih
  | case6 c x rest hrest _ hne _ hx _ ih =>
    refine .plain hrest hx ?_ ih
    simpa [closesString, hrest] using hne

theorem runs_ofTemplate (c : Cursor) :
    Runs closesTemplate [['\x60'], ['$', '\x7b']] c (ofTemplate c).inside (ofTemplate c).after := by
  have hinner := fun y text => closesTemplate_of_isInner (y := y) text
  fun_induction ofTemplate c with
  | case1 c => exact .ended_none c
  | case2 c rest hrest => exact .ended_some (w := ['$', '\x7b']) hrest (by simp)
  | case3 c rest _ hrest => exact .ended_some (w := ['\x60']) hrest (by simp)
  | case4 c rest e he _ _ _ hrest _ _ _ ih =>
    exact .escape hinner hrest (congrArg Escape.taken he) ih
  | case5 c rest e he _ _ _ hrest _ _ _ ih =>
    exact .escape hinner hrest (congrArg Escape.taken he) ih
  | case6 c rest cause n he _ hrest _ _ _ ih =>
    exact .escape hinner hrest (congrArg Escape.taken he) ih
  | case7 c rest n _ hrest _ _ _ _ ih =>
    refine .inner hinner (fun y hy => ?_) ih
    have hline : y = '\r' ∨ y = '\n' := by
      rw [hrest] at hy
      simp only [n] at hy
      split at hy
      · rename_i hnext
        obtain ⟨more, rfl⟩ := List.head?_eq_some_iff.1 hnext
        simpa using hy
      · exact Or.inl (by simpa using hy)
    rcases hline with rfl | rfl <;> rfl
  | case8 c x rest hsub hrest _ hback hx _ _ ih =>
    refine .plain hrest hx ?_ ih
    rw [closesTemplate, hrest, Bool.or_eq_false_iff]
    refine ⟨by simpa using hback, ?_⟩
    rw [Bool.eq_false_iff, ne_eq, List.isPrefixOf_iff_prefix]
    rintro ⟨more, hmore⟩
    cases hmore
    exact hsub more rfl rfl

/-- A string that is not closed ends with its line. -/
theorem stops_ofString {c : Cursor} (h : (ofString quote c).after = none) :
    ∀ x, (ofString quote c).inside.rest.head? = some x → x = '\n' ∨ x = '\r' := by
  fun_induction ofString quote c with
  | case1 c hrest => simp [ended, hrest]
  | case2 => cases h
  | case3 c x rest hrest _ _ hline =>
    rw [Bool.or_eq_true, decide_eq_true_eq, decide_eq_true_eq] at hline
    simpa [ended, hrest] using hline
  | case4 c rest e he hrest _ _ _ _ ih => exact ih h
  | case5 c rest cause n he hrest _ _ _ _ ih => exact ih h
  | case6 c x rest hrest _ hne _ hx _ ih => exact ih h

/-- Reading an attribute's value stops at the first quote: no reference holds one. -/
theorem reads_ofAttribute (hquote : quote = '"' ∨ quote = '\'') (c : Cursor) :
    (∃ body, c.Reads body (ofAttribute quote c).inside ∧ quote ∉ body) ∧
      ∀ d, (ofAttribute quote c).after = some d → (ofAttribute quote c).inside.Reads [quote] d := by
  fun_induction ofAttribute quote c with
  | case1 c => exact ⟨⟨[], .refl c, by simp⟩, by rintro _ ⟨⟩⟩
  | case2 c rest hrest =>
    refine ⟨⟨[], .refl c, by simp⟩, ?_⟩
    rintro _ ⟨⟩
    exact Cursor.reads_head hrest
  | case3 c x rest hrest _ hx d n href _ ih =>
    obtain ⟨⟨body, hbody, hquoteFree⟩, hclosed⟩ := ih
    refine ⟨⟨_, (c.reads_skip (1 + n)).trans hbody, ?_⟩, hclosed⟩
    split at href
    · have hinner := isInner_of_readReference? href
      have hn : quote ∉ rest.take n := by
        intro hmem
        have := hinner quote hmem
        rcases hquote with rfl | rfl <;> cases this
      rw [hrest, Nat.add_comm, List.take_succ_cons]
      simp [hquoteFree, Ne.symm hx, hn]
    · cases href
  | case4 c x rest hrest _ hx _ _ ih =>
    obtain ⟨⟨body, hbody, hquoteFree⟩, hclosed⟩ := ih
    refine ⟨⟨_, (c.reads_skip 1).trans hbody, ?_⟩, hclosed⟩
    rw [hrest]
    simp [hquoteFree, Ne.symm hx]

end Quoted

end CosmeticLint.Script
