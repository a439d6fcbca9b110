import CosmeticLint.Json.Pretty
import CosmeticLint.Proofs.Json.ReadBack
import Mathlib.Data.List.Forall2

/-! JSON as values. The reader takes any layout, and what is written for people reads back as the
value it was written for: naturals and texts first, then lists and objects around values that
read back. -/

namespace CosmeticLint.Json

/-- The values that reports are made of. -/
inductive Value
  | natural (n : Nat)
  | text (s : String)
  | list (items : List Value)
  /-- Members with their keys, as they follow each other. -/
  | object (members : List (String × Value))

namespace Decoder

/-- A number in decimal digits, without a zero in front of others. -/
def natural : Decoder Nat := do
  let ds ← digits
  if ds = [] ∨ (ds.head? = some '0' ∧ ds ≠ ['0']) then failNext .invalidNumber
  else return Nat.ofDigitChars 10 ds 0

/-- Items with a comma before each, up to and including the closing mark. -/
def following {α : Type} (closing : Char) (item : Decoder α) : Nat → Decoder (List α)
  | 0 => failNext .endInList
  | fuel + 1 => do
    let mark ← valueStart
    skip
    if mark = closing then return []
    else if mark = ',' then
      let a ← item
      return a :: (← following closing item fuel)
    else fail .expectedCommaOrBracket

/-- Items with commas between them, up to and including the closing mark. -/
def separated {α : Type} (closing : Char) (item : Decoder α) : Decoder (List α) := do
  if (← valueStart) = closing then
    skip
    return []
  else
    let a ← item
    return a :: (← following closing item (← get).rest.length)

def member {α : Type} (value : Decoder α) : Decoder (String × α) := do
  let key ← string "a string"
  colon
  return (key, ← value)

/-- A value that is nested at most so deep. -/
def value : Nat → Decoder Value
  | 0 => failNext .endInValue
  | depth + 1 => do
    let first ← valueStart
    if first = '"' then
      skip
      return .text (← stringBody)
    else if first = '[' then
      skip
      return .list (← separated ']' (value depth))
    else if first = '{' then
      skip
      return .object (← separated '}' (member (value depth)))
    else return .natural (← natural)

end Decoder

/-- The value that a text spells; nesting is limited. -/
def Value.ofText (text : String) : Except Failure Value := Decoder.run (Decoder.value 128) text

namespace Decoder

variable {α : Type} {c d e : Cursor} {x : Char} {blanks w : List Char}

/-! ### Blanks -/

theorem blank_line (depth : Nat) : Blank ('\n' :: Pretty.indent depth) := by
  intro x hx
  rcases List.mem_cons.1 hx with rfl | hx
  · rfl
  · rw [List.eq_of_mem_replicate hx]
    rfl

theorem yields_valueStart_behind (hb : Blank blanks) (h : c.Reads blanks d)
    (hd : d.rest.head? = some x) (hx : isBlank x = false) : Yields valueStart c x d := by
  have hpeek := yields_peekValue_behind hb h (by
    intro y hy
    rw [hd] at hy
    cases hy
    exact hx)
  rw [hd] at hpeek
  exact hpeek.bind (.pure x d)

/-- Nothing behind the place continues a number. -/
def NoDigit (w : List Char) : Prop := ∀ x, w.head? = some x → x.isDigit = false

theorem noDigit_cons (hx : x.isDigit = false) : NoDigit (x :: w) := by
  rintro y hy
  cases hy
  exact hx

theorem isDigit_of_isBlank (hx : isBlank x = true) : x.isDigit = false := by
  simp only [isBlank, Bool.or_eq_true, beq_iff_eq] at hx
  rcases hx with ((rfl | rfl) | rfl) | rfl <;> rfl

theorem noDigit_blank_append {rest : List Char} (hb : Blank blanks) (hr : NoDigit rest) :
    NoDigit (blanks ++ rest) := by
  cases blanks with
  | nil => exact hr
  | cons x xs => exact noDigit_cons (isDigit_of_isBlank (hb x List.mem_cons_self))

/-! ### Items -/

/-- The decoder reads the text as the value, whatever blanks are in front of it, if it is not
followed by a digit. -/
structure ReadsAs (item : Decoder α) (w : List Char) (a : α) : Prop where
  begins : ∃ x, w.head? = some x ∧ isBlank x = false ∧ x ≠ ']' ∧ x ≠ '}'
  yields : ∀ blanks c d, Blank blanks → Cursor.Reads c (blanks ++ w) d → NoDigit d.rest →
    Yields item c a d

section Items

variable {item : Decoder α} {closing : Char} {lead tail : List Char} {texts : List (List Char)}
  {values : List α} {a : α}

def IsClosing (x : Char) : Prop := x = ']' ∨ x = '}'

theorem IsClosing.not_blank (h : IsClosing x) : isBlank x = false := by
  rcases h with rfl | rfl <;> rfl

theorem IsClosing.not_digit (h : IsClosing x) : x.isDigit = false := by
  rcases h with rfl | rfl <;> rfl

/-- What follows an item goes on with a comma, with blanks or with the closing mark. -/
theorem noDigit_following (hclosing : IsClosing closing) (htail : Blank tail) (rest : List Char) :
    NoDigit (texts.flatMap (fun w => ',' :: (lead ++ w)) ++ (tail ++ [closing]) ++ rest) := by
  cases texts with
  | nil =>
    rw [List.flatMap_nil, List.nil_append, List.append_assoc]
    exact noDigit_blank_append htail (noDigit_cons hclosing.not_digit)
  | cons w texts => exact noDigit_cons rfl

theorem yields_following (hclosing : IsClosing closing) (hlead : Blank lead) (htail : Blank tail)
    (hitems : List.Forall₂ (ReadsAs item) texts values) {fuel : Nat}
    (hfuel : texts.length < fuel)
    (h : c.Reads (texts.flatMap (fun w => ',' :: (lead ++ w)) ++ (tail ++ [closing])) d) :
    Yields (following closing item fuel) c values d := by
  -- on the items; the place moves on and a turn is used with each of them
  induction hitems generalizing c fuel with
  | nil =>
    obtain ⟨fuel, rfl⟩ : ∃ n, fuel = n + 1 := ⟨fuel - 1, by omega⟩
    obtain ⟨b, hblank, hclose⟩ := h.split (v := tail)
    have hhead : b.rest.head? = some closing := by rw [hclose.1]; rfl
    refine (yields_valueStart_behind htail hblank hhead hclosing.not_blank).bind ?_
    refine (yields_skip hclose).bind ?_
    rw [if_pos rfl]
    exact .pure [] d
  | @cons w a texts values hitem _ ih =>
    obtain ⟨fuel, rfl⟩ : ∃ n, fuel = n + 1 := ⟨fuel - 1, by omega⟩
    have hfuel' : texts.length < fuel := by
      rw [List.length_cons] at hfuel
      omega
    rw [List.flatMap_cons, List.cons_append, List.cons_append, List.append_assoc] at h
    obtain ⟨b, hcomma, hrest⟩ := h.split (v := [','])
    obtain ⟨e, hw, hmore⟩ := hrest.split (v := lead ++ w)
    have hhead : c.rest.head? = some ',' := by rw [hcomma.1]; rfl
    have hne : ',' ≠ closing := by rcases hclosing with rfl | rfl <;> decide
    have hdigit : NoDigit e.rest := by
      rw [hmore.1]
      exact noDigit_following hclosing htail d.rest
    refine (yields_valueStart hhead rfl).bind ((yields_skip hcomma).bind ?_)
    rw [if_neg hne, if_pos rfl]
    exact (hitem.yields lead b e hlead hw hdigit).bind ((ih hfuel' hmore).bind (.pure _ d))

theorem yields_separated_nil (hclosing : IsClosing closing) (h : c.Reads [closing] d) :
    Yields (separated closing item) c [] d := by
  have hhead : c.rest.head? = some closing := by rw [h.1]; rfl
  refine (yields_valueStart hhead hclosing.not_blank).bind ?_
  rw [if_pos rfl]
  exact (yields_skip h).bind (.pure [] d)

theorem length_le_flatMap_lead (lead : List Char) (texts : List (List Char)) :
    texts.length ≤ (texts.flatMap fun w => ',' :: (lead ++ w)).length := by
  induction texts with
  | nil => exact Nat.le_refl _
  | cons w texts ih =>
    simp only [List.flatMap_cons, List.length_append, List.length_cons]
    omega

theorem yields_separated_cons (hclosing : IsClosing closing) (hlead : Blank lead)
    (htail : Blank tail) (hitem : ReadsAs item w a)
    (hitems : List.Forall₂ (ReadsAs item) texts values)
    (h : c.Reads (lead ++ (w ++ (texts.flatMap (fun w => ',' :: (lead ++ w)) ++
      (tail ++ [closing])))) d) :
    Yields (separated closing item) c (a :: values) d := by
  obtain ⟨b, hblank, hrest⟩ := h.split
  obtain ⟨e, hw, hmore⟩ := hrest.split
  obtain ⟨x, hx, hxblank, hxlist, hxobject⟩ := hitem.begins
  have hhead : b.rest.head? = some x := by
    rw [hw.1, List.head?_append, hx]
    rfl
  have hne : x ≠ closing := by rcases hclosing with rfl | rfl <;> assumption
  have hdigit : NoDigit e.rest := by
    rw [hmore.1]
    exact noDigit_following hclosing htail d.rest
  have hfuel : texts.length < e.rest.length := by
    have hle := length_le_flatMap_lead lead texts
    rw [hmore.1]
    simp only [List.length_append, List.length_cons]
    omega
  refine (yields_valueStart_behind hlead hblank hhead hxblank).bind ?_
  rw [if_neg hne]
  refine (hitem.yields [] b e blank_nil hw hdigit).bind ((Yields.get e).bind ?_)
  exact (yields_following hclosing hlead htail hitems hfuel hmore).bind (.pure _ d)

end Items

/-! ### Numbers -/

theorem digitChar_ne_zero : ∀ n < 10, n ≠ 0 → Nat.digitChar n ≠ '0' := by decide

theorem head?_toDigits {n : Nat} (hn : n ≠ 0) : (Nat.toDigits 10 n).head? ≠ some '0' := by
  -- the first digit is that of the number without its last digit, down to a single digit
  induction n using Nat.strongRecOn with
  | ind n ih =>
    rw [Nat.toDigits_eq_if (by decide)]
    split
    · rename_i hlt
      rw [List.head?_singleton]
      exact fun h => digitChar_ne_zero n hlt hn (Option.some.inj h)
    · have hhead := ih (n / 10) (by omega) (by omega)
      rw [List.head?_append]
      cases hdigits : Nat.toDigits 10 (n / 10) with
      | nil => exact absurd hdigits Nat.toDigits_ne_nil
      | cons y ys =>
        rw [hdigits] at hhead
        exact hhead

theorem yields_natural {n : Nat} (h : c.Reads (toString n).toList d) (hd : NoDigit d.rest) :
    Yields natural c n d := by
  rw [Nat.toString_eq_repr, Nat.toList_repr] at h
  have hall : ∀ x ∈ Nat.toDigits 10 n, x.isDigit = true := fun x hx =>
    Nat.isDigit_of_mem_toDigits (by decide) (by decide) hx
  have htake : c.rest.takeWhile Char.isDigit = Nat.toDigits 10 n := by
    rw [h.1]
    exact takeWhile_append_stop hall hd
  have hdigits : Yields digits c (Nat.toDigits 10 n) d := by
    refine (Yields.get c).bind ?_
    rw [htake]
    have hmove : Yields (modify (·.skip (Nat.toDigits 10 n).length)) c () d :=
      congrArg (fun e => Except.ok ((), e)) h.skip_eq
    exact hmove.bind (.pure _ d)
  have hzero : ¬ (Nat.toDigits 10 n = [] ∨
      ((Nat.toDigits 10 n).head? = some '0' ∧ Nat.toDigits 10 n ≠ ['0'])) := by
    rintro (hnil | ⟨hhead, hne⟩)
    · exact Nat.toDigits_ne_nil hnil
    · rcases Nat.eq_zero_or_pos n with rfl | hpos
      · exact hne rfl
      · exact head?_toDigits (by omega) hhead
  refine hdigits.bind ?_
  rw [if_neg hzero, Nat.ofDigitChars_toDigits (by decide) (by decide)]
  exact .pure n d

/-! ### Members -/

theorem yields_string_behind {key : String} (expected : String) (hb : Blank blanks)
    (h : c.Reads (blanks ++ Json.string key) d) : Yields (string expected) c key d := by
  obtain ⟨b, hblank, hkey⟩ := h.split
  obtain ⟨e, hquote, hbody⟩ := hkey.split (v := ['"'])
  have hhead : b.rest.head? = some '"' := by rw [hkey.1]; rfl
  refine (yields_valueStart_behind hb hblank hhead rfl).bind ?_
  rw [if_pos rfl]
  exact (yields_skip hquote).bind (yields_stringBody hbody)

theorem ReadsAs.member {item : Decoder α} {a : α} (h : ReadsAs item w a) (key : String) :
    ReadsAs (member item) (Json.string key ++ [':', ' '] ++ w) (key, a) where
  begins := ⟨'"', rfl, rfl, by decide, by decide⟩
  yields blanks c d hb hr hd := by
    rw [List.append_assoc, ← List.append_assoc] at hr
    obtain ⟨b, hkey, hrest⟩ := hr.split
    obtain ⟨e, hcolon, hvalue⟩ := hrest.split (v := [':']) (w := ' ' :: w)
    have hhead : b.rest.head? = some ':' := by rw [hcolon.1]; rfl
    have hcolonValue : Yields colon b () e := (yields_peekValue hhead rfl).bind (yields_skip hcolon)
    have hspace : Blank [' '] := by simp [Blank, isBlank]
    refine (yields_string_behind "a string" hb hkey).bind (hcolonValue.bind ?_)
    exact (h.yields [' '] e d hspace hvalue hd).bind (.pure (key, a) d)

end Decoder

/-! ### What is written for people -/

namespace Pretty

open Decoder

/-- What is written reads back as the value, which is nested at most so deep. -/
def Spells (height : Nat) (p : Pretty) (v : Value) : Prop :=
  ∀ depth limit, height ≤ limit → ReadsAs (value limit) (p depth) v

variable {height : Nat} {c d : Cursor} {v : Value}

theorem Spells.mono {height' : Nat} {p : Pretty} (h : Spells height p v) (hle : height ≤ height') :
    Spells height' p v :=
  fun depth limit hlimit => h depth limit (Nat.le_trans hle hlimit)

theorem spells_text (s : String) : Spells 1 (text s) (.text s) := by
  intro depth limit hlimit
  obtain ⟨limit, rfl⟩ : ∃ n, limit = n + 1 := ⟨limit - 1, by omega⟩
  refine ⟨⟨'"', rfl, rfl, by decide, by decide⟩, fun blanks c d hb hr _ => ?_⟩
  obtain ⟨b, hblank, hstring⟩ := hr.split
  obtain ⟨e, hquote, hbody⟩ := hstring.split (v := ['"'])
  have hhead : b.rest.head? = some '"' := by rw [hstring.1]; rfl
  refine (yields_valueStart_behind hb hblank hhead rfl).bind ?_
  rw [if_pos rfl]
  exact (yields_skip hquote).bind ((yields_stringBody hbody).bind (.pure _ d))

theorem spells_nat (n : Nat) : Spells 1 (nat n) (.natural n) := by
  intro depth limit hlimit
  obtain ⟨limit, rfl⟩ : ∃ n, limit = n + 1 := ⟨limit - 1, by omega⟩
  obtain ⟨x, xs, hdigits⟩ : ∃ x xs, (toString n).toList = x :: xs := by
    rw [Nat.toString_eq_repr, Nat.toList_repr]
    exact List.exists_cons_of_ne_nil Nat.toDigits_ne_nil
  have hx : x.isDigit = true := by
    have hmem : x ∈ (toString n).toList := by rw [hdigits]; exact List.mem_cons_self
    rw [Nat.toString_eq_repr, Nat.toList_repr] at hmem
    exact Nat.isDigit_of_mem_toDigits (by decide) (by decide) hmem
  -- a digit is none of the marks that the other kinds of values begin with
  have hne : ∀ y : Char, y.isDigit = false → x ≠ y := by
    rintro y hy rfl
    rw [hx] at hy
    cases hy
  have hblank : isBlank x = false := by
    cases hxblank : isBlank x
    · rfl
    · exact absurd (isDigit_of_isBlank hxblank) (by simp [hx])
  refine ⟨⟨x, ?_, hblank, hne _ rfl, hne _ rfl⟩, fun blanks c d hb hr hd => ?_⟩
  · rw [nat, hdigits]
    rfl
  obtain ⟨b, hblanks, hnumber⟩ := hr.split
  have hhead : b.rest.head? = some x := by
    rw [hnumber.1, nat, hdigits]
    rfl
  refine (yields_valueStart_behind hb hblanks hhead hblank).bind ?_
  rw [if_neg (hne _ rfl), if_neg (hne _ rfl), if_neg (hne _ rfl)]
  exact (yields_natural hnumber hd).bind (.pure _ d)

theorem itemLines_cons (depth : Nat) (item : Pretty) (items : List Pretty) :
    itemLines depth (item :: items) = indent depth ++ (item depth ++
      ((items.map (· depth)).flatMap (fun w => ',' :: (('\n' :: indent depth) ++ w)) ++ ['\n'])) := by
  induction items generalizing item with
  | nil => simp [itemLines]
  | cons next items ih =>
    rw [itemLines, ih]
    · simp
    · simp

theorem head?_block (opening closing : Char) (items : List Pretty) (depth : Nat) :
    (block opening closing items depth).head? = some opening := by
  rw [block]
  split <;> rfl

/-- A block is its opening mark and then items with commas between them. -/
theorem yields_block {α : Type} {item : Decoder α} {opening closing : Char} {items : List Pretty}
    {values : List α} {depth : Nat} (hclosing : IsClosing closing)
    (hitems : List.Forall₂ (ReadsAs item) (items.map (· (depth + 1))) values)
    (h : c.Reads (block opening closing items depth) d) :
    ∃ b, c.Reads [opening] b ∧ Yields (separated closing item) b values d := by
  cases items with
  | nil =>
    cases hitems
    obtain ⟨b, hopen, hclose⟩ := h.split (v := [opening]) (w := [closing])
    exact ⟨b, hopen, yields_separated_nil hclosing hclose⟩
  | cons p items =>
    cases hitems with
    | cons hitem hitems =>
      rw [block, if_neg (by simp), itemLines_cons] at h
      obtain ⟨b, hopen, hrest⟩ := h.split (v := [opening])
      refine ⟨b, hopen, ?_⟩
      refine yields_separated_cons hclosing (blank_line (depth + 1)) (blank_line depth) hitem hitems ?_
      simpa using hrest

theorem spells_list {items : List Pretty} {values : List Value}
    (h : List.Forall₂ (Spells height) items values) :
    Spells (height + 1) (list items) (.list values) := by
  intro depth limit hlimit
  obtain ⟨limit, rfl⟩ : ∃ n, limit = n + 1 := ⟨limit - 1, by omega⟩
  have hitems : List.Forall₂ (ReadsAs (value limit)) (items.map (· (depth + 1))) values := by
    rw [List.forall₂_map_left_iff]
    exact h.imp fun p v hp => hp (depth + 1) limit (by omega)
  refine ⟨⟨'[', ?_, rfl, by decide, by decide⟩, fun blanks c d hb hr _ => ?_⟩
  · exact head?_block '[' ']' items depth
  obtain ⟨b, hblank, hblock⟩ := hr.split
  obtain ⟨e, hopen, hyields⟩ := yields_block (.inl rfl) hitems hblock
  have hhead : b.rest.head? = some '[' := by rw [hopen.1]; rfl
  refine (yields_valueStart_behind hb hblank hhead rfl).bind ?_
  rw [if_neg (by decide), if_pos rfl]
  exact (yields_skip hopen).bind (hyields.bind (.pure _ d))

/-- Members spell the values under the same keys. -/
theorem spells_object {members : List (String × Pretty)} {values : List (String × Value)}
    (h : List.Forall₂ (fun m v => m.1 = v.1 ∧ Spells height m.2 v.2) members values) :
    Spells (height + 1) (object members) (.object values) := by
  intro depth limit hlimit
  obtain ⟨limit, rfl⟩ : ∃ n, limit = n + 1 := ⟨limit - 1, by omega⟩
  have hitems : List.Forall₂ (ReadsAs (member (value limit)))
      ((members.map fun m depth => string m.1 ++ [':', ' '] ++ m.2 depth).map (· (depth + 1)))
      values := by
    rw [List.forall₂_map_left_iff, List.forall₂_map_left_iff]
    refine h.imp ?_
    rintro ⟨key, p⟩ ⟨_, v⟩ ⟨rfl, hp⟩
    exact (hp (depth + 1) limit (by omega)).member key
  refine ⟨⟨'{', ?_, rfl, by decide, by decide⟩, fun blanks c d hb hr _ => ?_⟩
  · exact head?_block '{' '}' _ depth
  obtain ⟨b, hblank, hblock⟩ := hr.split
  obtain ⟨e, hopen, hyields⟩ := yields_block (.inr rfl) hitems hblock
  have hhead : b.rest.head? = some '{' := by rw [hopen.1]; rfl
  refine (yields_valueStart_behind hb hblank hhead rfl).bind ?_
  rw [if_neg (by decide), if_neg (by decide), if_pos rfl]
  exact (yields_skip hopen).bind (hyields.bind (.pure _ d))

/-- A written value is read back from a text of its own line. -/
theorem Spells.ofText_render {p : Pretty} (h : Spells height p v) (hheight : height ≤ 128) :
    Value.ofText (render p ++ "\n") = .ok v := by
  have hreads : (Cursor.ofText (render p ++ "\n")).Reads (p 0) ⟨byteLength (p 0), ['\n']⟩ := by
    refine ⟨?_, (Nat.zero_add _).symm⟩
    simp [Cursor.ofText, render]
  have hvalue := (h 0 128 hheight).yields [] _ _ blank_nil hreads (noDigit_cons rfl)
  exact run_eq_ok hvalue (blank_line 0)

end Pretty

end CosmeticLint.Json
