import CosmeticLint.Markup.Reference
import CosmeticLint.Proofs.Text.LetterCase

/-! Character references, told by how they are written: `&`, then a name or the digits of a code
point, then `;`. A text falls into references, characters other than `&`, and ampersands at which no
reference begins. Decoding replaces exactly the references, whatever lies between an ampersand and
the next semicolon. -/

namespace CosmeticLint.Markup.Reference

/-! ### Numbers -/

/-- The digits write a number in a base, behind any number of zeros and with letters of either
case. -/
def Writes (base : Nat) (digits : List Char) (n : Nat) : Prop :=
  ∃ zeros, digits.map Char.toLower = List.replicate zeros '0' ++ Nat.toDigits base n

theorem toNat_digitChar {v : Nat} (h : v < 16) :
    v.digitChar.toNat = if v < 10 then 48 + v else 87 + v := by
  have hall : ∀ v < 16, v.digitChar.toNat = if v < 10 then 48 + v else 87 + v := by decide
  exact hall v h

section Digits

variable {base v n : Nat} {x : Char} {digits : List Char}

/-- A digit is the character of its value, a letter among them in either case. -/
theorem digit?_eq_some_iff (hle : base ≤ 16) :
    digit? base x = some v ↔ v < base ∧ x.toLower = v.digitChar := by
  have hdigit : x.isDigit = true ↔ 48 ≤ x.toNat ∧ x.toNat ≤ 57 := Char.isDigit_iff_toNat
  have hsmall : ('a' ≤ x ∧ x ≤ 'f') ↔ 97 ≤ x.toNat ∧ x.toNat ≤ 102 :=
    and_congr UInt32.le_iff_toNat_le UInt32.le_iff_toNat_le
  have hcapital : ('A' ≤ x ∧ x ≤ 'F') ↔ 65 ≤ x.toNat ∧ x.toNat ≤ 70 :=
    and_congr UInt32.le_iff_toNat_le UInt32.le_iff_toNat_le
  have hfirst : '0'.toNat = 48 ∧ 'a'.toNat = 97 ∧ 'A'.toNat = 65 := ⟨rfl, rfl, rfl⟩
  rw [← Char.toNat_inj, toNat_toLower]
  constructor
  · intro h
    have hv : v < base := by grind [digit?]
    refine ⟨hv, ?_⟩
    rw [toNat_digitChar (Nat.lt_of_lt_of_le hv hle)]
    grind [digit?]
  · rintro ⟨hv, h⟩
    rw [toNat_digitChar (Nat.lt_of_lt_of_le hv hle)] at h
    grind [digit?]

theorem digits?_cons (hle : base ≤ 16) (hv : v < base) (hx : x.toLower = v.digitChar) (m : Nat) :
    digits? base m (x :: digits) = digits? base (m * base + v) digits := by
  rw [digits?, (digit?_eq_some_iff hle).2 ⟨hv, hx⟩, Option.bind_some]

theorem digits?_map_toLower (hle : base ≤ 16) (m : Nat) :
    digits? base m (digits.map Char.toLower) = digits? base m digits := by
  have hdigit (x : Char) : digit? base x.toLower = digit? base x := by
    refine Option.ext fun v => ?_
    rw [digit?_eq_some_iff hle, digit?_eq_some_iff hle, Char.toLower_toLower_eq_toLower]
  induction digits generalizing m with
  | nil => rfl
  | cons x digits ih => simp only [List.map_cons, digits?, hdigit, ih]

theorem digits?_append (m : Nat) (a b : List Char) :
    digits? base m (a ++ b) = (digits? base m a).bind fun n => digits? base n b := by
  induction a generalizing m with
  | nil => rfl
  | cons x a ih =>
    rw [List.cons_append, digits?, digits?, Option.bind_assoc]
    simp only [ih]

theorem digits?_zeros (hbase : 0 < base) (hle : base ≤ 16) (zeros : Nat) :
    digits? base 0 (List.replicate zeros '0') = some 0 := by
  induction zeros with
  | zero => rfl
  | succ zeros ih =>
    rw [List.replicate_succ, digits?_cons hle hbase rfl, Nat.zero_mul]
    exact ih

/-- The digits of a number read back as the number. -/
theorem digits?_toDigits (hbase : 1 < base) (hle : base ≤ 16) (n : Nat) :
    digits? base 0 (Nat.toDigits base n) = some n := by
  have hlower : ∀ v < 16, v.digitChar.toLower = v.digitChar := by decide
  have hlast {m v : Nat} (hv : v < base) : digits? base m [v.digitChar] = some (m * base + v) := by
    rw [digits?_cons hle hv (hlower v (Nat.lt_of_lt_of_le hv hle)), digits?]
  induction n using Nat.strong_induction_on with
  | h n ih =>
    by_cases hn : n < base
    · rw [Nat.toDigits_of_lt_base hn, hlast hn, Nat.zero_mul, Nat.zero_add]
    · have hbelow : n / base < n := Nat.div_lt_self (by omega) hbase
      rw [Nat.toDigits_of_base_le hbase (Nat.not_lt.1 hn), digits?_append, ih _ hbelow,
        Option.bind_some, hlast (Nat.mod_lt n (by omega)), Nat.div_add_mod']

/-- Digits that continue a number other than zero are the last digits of what they make of it. -/
theorem toDigits_of_digits? (hbase : 1 < base) (hle : base ≤ 16) {m : Nat} (hm : 0 < m)
    (h : digits? base m digits = some n) :
    Nat.toDigits base m ++ digits.map Char.toLower = Nat.toDigits base n := by
  induction digits generalizing m with
  | nil =>
    cases h
    exact List.append_nil _
  | cons x digits ih =>
    obtain ⟨v, hx, -⟩ := Option.bind_eq_some_iff.1 h
    obtain ⟨hv, hx⟩ := (digit?_eq_some_iff hle).1 hx
    rw [digits?_cons hle hv hx] at h
    have hpos : 0 < m * base := Nat.mul_pos hm (by omega)
    rw [← ih (by omega) h, List.map_cons, hx, Nat.mul_comm m base,
      ← Nat.toDigits_append_toDigits hbase hm hv, Nat.toDigits_of_lt_base hv, List.append_assoc,
      List.singleton_append]

theorem writes_of_digits? (hbase : 1 < base) (hle : base ≤ 16) (hne : digits ≠ [])
    (h : digits? base 0 digits = some n) : Writes base digits n := by
  induction digits with
  | nil => exact absurd rfl hne
  | cons x digits ih =>
    obtain ⟨v, hx, -⟩ := Option.bind_eq_some_iff.1 h
    obtain ⟨hv, hx⟩ := (digit?_eq_some_iff hle).1 hx
    rw [digits?_cons hle hv hx, Nat.zero_mul, Nat.zero_add] at h
    rcases Nat.eq_zero_or_pos v with rfl | hpos
    · -- A zero in front: the rest writes the number, or the number is zero.
      by_cases hdigits : digits = []
      · subst hdigits
        cases h
        exact ⟨0, by rw [List.map_cons, hx, Nat.toDigits_zero]; rfl⟩
      · obtain ⟨zeros, hzeros⟩ := ih hdigits h
        exact ⟨zeros + 1, by rw [List.map_cons, hx, hzeros]; rfl⟩
    · refine ⟨0, ?_⟩
      rw [← toDigits_of_digits? hbase hle hpos h, Nat.toDigits_of_lt_base hv, List.map_cons, hx]
      rfl

theorem Writes.ne_nil (h : Writes base digits n) : digits ≠ [] := by
  obtain ⟨zeros, h⟩ := h
  rintro rfl
  exact Nat.toDigits_ne_nil (List.append_eq_nil_iff.1 h.symm).2

/-- Digits are read as the number that they write. -/
theorem digits?_eq_some_iff (hbase : 1 < base) (hle : base ≤ 16) :
    digits ≠ [] ∧ digits? base 0 digits = some n ↔ Writes base digits n := by
  constructor
  · rintro ⟨hne, h⟩
    exact writes_of_digits? hbase hle hne h
  · intro h
    refine ⟨h.ne_nil, ?_⟩
    obtain ⟨zeros, h⟩ := h
    rw [← digits?_map_toLower hle, h, digits?_append, digits?_zeros (by omega) hle,
      Option.bind_some, digits?_toDigits hbase hle]

/-- What writes a number holds digits only. -/
theorem Writes.notMem (h : Writes base digits n) (hbase : 1 < base) (hle : base ≤ 16)
    (hx : ∀ v < 16, x.toLower ≠ v.digitChar) : x ∉ digits := by
  have hread (m : Nat) (hr : digits? base m digits = some n) : x ∉ digits := by
    clear h
    induction digits generalizing m with
    | nil => exact List.not_mem_nil
    | cons y digits ih =>
      obtain ⟨v, hy, hrest⟩ := Option.bind_eq_some_iff.1 hr
      obtain ⟨hv, hy⟩ := (digit?_eq_some_iff hle).1 hy
      have hne : x ≠ y := by
        rintro rfl
        exact hx v (Nat.lt_of_lt_of_le hv hle) hy
      exact List.not_mem_cons_of_ne_of_not_mem hne (ih _ hrest)
  exact hread 0 ((digits?_eq_some_iff hbase hle).2 h).2

end Digits

/-- A number, and a plus sign that may stand in front of it. -/
inductive WritesSigned (base : Nat) : List Char → Nat → Prop
  | plain {digits n} (writes : Writes base digits n) : WritesSigned base digits n
  | plus {digits n} (writes : Writes base digits n) : WritesSigned base ('+' :: digits) n

section Numbers

variable {base n : Nat} {x : Char} {text : List Char}

theorem number?_eq_some_iff (hbase : 1 < base) (hle : base ≤ 16) :
    number? base text = some n ↔ WritesSigned base text n ∧ n < Nat.pow 2 32 := by
  have hunsigned (digits : List Char) :
      (if digits.isEmpty then none else (digits? base 0 digits).filter (· < Nat.pow 2 32)) = some n ↔
        Writes base digits n ∧ n < Nat.pow 2 32 := by
    rw [← digits?_eq_some_iff hbase hle]
    cases digits with
    | nil => simp
    | cons y digits => simp [Option.filter_eq_some_iff]
  rw [number?]
  constructor
  · intro h
    split at h
    · rename_i hplus
      obtain ⟨digits, rfl⟩ := List.head?_eq_some_iff.1 hplus
      obtain ⟨hw, hn⟩ := (hunsigned digits).1 h
      exact ⟨.plus hw, hn⟩
    · obtain ⟨hw, hn⟩ := (hunsigned text).1 h
      exact ⟨.plain hw, hn⟩
  · rintro ⟨hw | hw, hn⟩
    · have hplus : text.head? ≠ some '+' := by
        intro hhead
        exact hw.notMem hbase hle (by decide) (List.mem_of_mem_head? hhead)
      rw [if_neg hplus]
      exact (hunsigned text).2 ⟨hw, hn⟩
    · exact (hunsigned _).2 ⟨hw, hn⟩

theorem WritesSigned.notMem (h : WritesSigned base text n) (hbase : 1 < base) (hle : base ≤ 16)
    (hplus : x ≠ '+') (hx : ∀ v < 16, x.toLower ≠ v.digitChar) : x ∉ text := by
  cases h with
  | plain hw => exact hw.notMem hbase hle hx
  | plus hw => exact List.not_mem_cons_of_ne_of_not_mem hplus (hw.notMem hbase hle hx)

theorem scalar?_eq_some_iff {c : Char} : scalar? n = some c ↔ n = c.toNat ∧ c ≠ '\x00' := by
  rw [scalar?]
  constructor
  · intro h
    split at h
    · rename_i hn
      cases h
      have hval : (Char.ofNat n).toNat = n := by
        rw [Char.ofNat, dif_pos hn.2]
        rfl
      refine ⟨hval.symm, ?_⟩
      intro hnul
      rw [hnul] at hval
      exact hn.1 hval.symm
    · cases h
  · rintro ⟨rfl, hc⟩
    have hpos : c.toNat ≠ 0 := fun h => hc (Char.toNat_inj.1 h)
    rw [if_pos ⟨hpos, c.valid⟩, Char.ofNat_toNat]

end Numbers

/-! ### References -/

/-- The characters that have a name. -/
def names : List (String × Char) :=
  [("amp", '&'), ("lt", '<'), ("gt", '>'), ("quot", '"'), ("apos", '\''), ("nbsp", '\u00a0')]

/-- The text between `&` and `;` refers to the character, by its name or by the number of its code
point. -/
inductive Means : List Char → Char → Prop
  | named {name c} (mem : (name, c) ∈ names) : Means name.toList c
  | decimal {number : List Char} {c : Char} (writes : WritesSigned 10 number c.toNat)
      (notNul : c ≠ '\x00') : Means ('#' :: number) c
  | hexadecimal {x : Char} {number : List Char} {c : Char} (mark : x = 'x' ∨ x = 'X')
      (writes : WritesSigned 16 number c.toNat) (notNul : c ≠ '\x00') :
      Means ('#' :: x :: number) c

section Bodies

variable {name number body : List Char} {c : Char}

theorem mem_names_of_named? (h : named? name = some c) : (String.ofList name, c) ∈ names := by
  unfold named? at h
  split at h <;> cases h <;> simp [names, *]

theorem bind_scalar?_eq_some_iff {base : Nat} (hbase : 1 < base) (hle : base ≤ 16) :
    (number? base number).bind scalar? = some c ↔
      WritesSigned base number c.toNat ∧ c ≠ '\x00' := by
  rw [Option.bind_eq_some_iff]
  constructor
  · rintro ⟨n, hn, hc⟩
    obtain ⟨rfl, hnul⟩ := scalar?_eq_some_iff.1 hc
    exact ⟨((number?_eq_some_iff hbase hle).1 hn).1, hnul⟩
  · rintro ⟨hw, hc⟩
    have hlt : c.toNat < Nat.pow 2 32 := c.val.toNat_lt
    exact ⟨_, (number?_eq_some_iff hbase hle).2 ⟨hw, hlt⟩, scalar?_eq_some_iff.2 ⟨rfl, hc⟩⟩

theorem meaning?_number (hx : 'x' ∉ number) (hX : 'X' ∉ number) :
    meaning? ('#' :: number) = (number? 10 number).bind scalar? := by
  refine meaning?.eq_3 number ?_ ?_
  · rintro digits rfl
    exact hx List.mem_cons_self
  · rintro digits rfl
    exact hX List.mem_cons_self

theorem meaning?_eq_some_iff : meaning? body = some c ↔ Means body c := by
  constructor
  · intro h
    unfold meaning? at h
    split at h
    · obtain ⟨hw, hc⟩ := (bind_scalar?_eq_some_iff (by decide) (by decide)).1 h
      exact .hexadecimal (.inl rfl) hw hc
    · obtain ⟨hw, hc⟩ := (bind_scalar?_eq_some_iff (by decide) (by decide)).1 h
      exact .hexadecimal (.inr rfl) hw hc
    · obtain ⟨hw, hc⟩ := (bind_scalar?_eq_some_iff (by decide) (by decide)).1 h
      exact .decimal hw hc
    · have hname := Means.named (mem_names_of_named? h)
      rwa [String.toList_ofList] at hname
  · intro h
    cases h with
    | named mem =>
      simp only [names, List.mem_cons, Prod.mk.injEq, List.not_mem_nil, or_false] at mem
      rcases mem with ⟨rfl, rfl⟩ | ⟨rfl, rfl⟩ | ⟨rfl, rfl⟩ | ⟨rfl, rfl⟩ | ⟨rfl, rfl⟩ | ⟨rfl, rfl⟩ <;>
        decide
    | decimal writes notNul =>
      have hnot (x : Char) (hplus : x ≠ '+') (hx : ∀ v < 16, x.toLower ≠ v.digitChar) :=
        writes.notMem (by decide) (by decide) hplus hx
      rw [meaning?_number (hnot 'x' (by decide) (by decide)) (hnot 'X' (by decide) (by decide))]
      exact (bind_scalar?_eq_some_iff (by decide) (by decide)).2 ⟨writes, notNul⟩
    | hexadecimal mark writes notNul =>
      have h := (bind_scalar?_eq_some_iff (by decide) (by decide)).2 ⟨writes, notNul⟩
      rcases mark with rfl | rfl
      · exact h
      · exact h

/-- No body holds what ends a reference, begins another or stands between words. -/
theorem Means.notMem {y : Char} (h : Means body c) (hy : y = ';' ∨ y = '&' ∨ y = ' ') :
    y ∉ body := by
  have hplain : y ≠ '#' ∧ y ≠ 'x' ∧ y ≠ 'X' ∧ y ≠ '+' ∧ ∀ v < 16, y.toLower ≠ v.digitChar := by
    rcases hy with rfl | rfl | rfl <;> decide
  obtain ⟨hhash, hx, hX, hplus, hdigit⟩ := hplain
  cases h with
  | named mem =>
    have hnames : names.all fun entry => !(entry.1.toList.any ([';', '&', ' '].contains ·)) := by
      decide
    have hname := List.all_eq_true.1 hnames _ mem
    intro hmem
    rw [Bool.not_eq_true', List.any_eq_false] at hname
    exact hname y hmem (by rcases hy with rfl | rfl | rfl <;> decide)
  | decimal writes _ =>
    exact List.not_mem_cons_of_ne_of_not_mem hhash
      (writes.notMem (by decide) (by decide) hplus hdigit)
  | hexadecimal mark writes _ =>
    have hmark : y ≠ _ := fun h => mark.elim (fun hm => hx (h.trans hm)) fun hm => hX (h.trans hm)
    exact List.not_mem_cons_of_ne_of_not_mem hhash (List.not_mem_cons_of_ne_of_not_mem hmark
      (writes.notMem (by decide) (by decide) hplus hdigit))

theorem Means.two_le_length (h : Means body c) : 2 ≤ body.length := by
  cases h with
  | named mem =>
    have hnames : names.all fun entry => 2 ≤ entry.1.toList.length := by decide
    exact of_decide_eq_true (List.all_eq_true.1 hnames _ mem)
  | decimal writes _ =>
    cases writes with
    | plain hw =>
      have := List.length_pos_iff.2 hw.ne_nil
      rw [List.length_cons]
      omega
    | plus hw => simp
  | hexadecimal _ _ _ => simp

end Bodies

/-- A valid reference to the character. -/
def Refers (text : List Char) (c : Char) : Prop :=
  ∃ body, text = '&' :: (body ++ [';']) ∧ Means body c

/-- A valid reference stands at the head of the text. -/
def Begins (text : List Char) : Prop := ∃ ref c, Refers ref c ∧ ref <+: text

section Reading

variable {rest body after : List Char} {c : Char} {n : Nat}

/-- A reference is read up to its own semicolon, which is the next one. -/
theorem read?_eq_some_iff : read? rest = some (c, n) ↔
    ∃ body after, rest = body ++ ';' :: after ∧ n = body.length + 1 ∧ Means body c := by
  rw [read?]
  constructor
  · intro h
    split at h
    · rename_i hlt
      obtain ⟨d, hd, heq⟩ := Option.map_eq_some_iff.1 h
      cases heq
      have hmem : ';' ∈ rest := by
        by_contra hnot
        rw [takeWhile_ne_eq_self hnot] at hlt
        exact Nat.lt_irrefl _ hlt
      obtain ⟨body, after, rfl, hbody⟩ := List.eq_append_cons_of_mem hmem
      rw [takeWhile_ne_append hbody] at hd ⊢
      exact ⟨body, after, rfl, rfl, meaning?_eq_some_iff.1 hd⟩
    · cases h
  · rintro ⟨body, after, rfl, rfl, hm⟩
    rw [takeWhile_ne_append (hm.notMem (.inl rfl)), if_pos (by simp), meaning?_eq_some_iff.2 hm]
    rfl

theorem read?_eq_none_iff : read? rest = none ↔ ¬ Begins ('&' :: rest) := by
  rw [Option.eq_none_iff_forall_ne_some, ← not_exists, not_iff_not]
  constructor
  · rintro ⟨⟨c, n⟩, h⟩
    obtain ⟨body, after, rfl, -, hm⟩ := read?_eq_some_iff.1 h
    exact ⟨_, c, ⟨body, rfl, hm⟩, after, by simp⟩
  · rintro ⟨ref, c, ⟨body, rfl, hm⟩, after, heq⟩
    refine ⟨(c, body.length + 1), read?_eq_some_iff.2 ⟨body, after, ?_, rfl, hm⟩⟩
    simpa using heq.symm

theorem decodeChars_literal (hc : c ≠ '&') : decodeChars (c :: rest) = c :: decodeChars rest := by
  rw [decodeChars, if_neg hc]

theorem decodeChars_reference (hm : Means body c) :
    decodeChars ('&' :: (body ++ ';' :: after)) = c :: decodeChars after := by
  have hread := read?_eq_some_iff.2 ⟨body, after, rfl, rfl, hm⟩
  rw [decodeChars, if_pos rfl, hread]
  simp

theorem decodeChars_ampersand (h : ¬ Begins ('&' :: rest)) :
    decodeChars ('&' :: rest) = '&' :: decodeChars rest := by
  rw [decodeChars, if_pos rfl, read?_eq_none_iff.2 h]

end Reading

/-! ### Pieces of a text -/

/-- What a text is made of. -/
inductive Piece
  | literal (c : Char) (notAmp : c ≠ '&')
  | reference (text : List Char) (c : Char) (refers : Refers text c)
  | ampersand

def Piece.written : Piece → List Char
  | literal c _ => [c]
  | reference text _ _ => text
  | ampersand => ['&']

def Piece.meant : Piece → Char
  | literal c _ => c
  | reference _ c _ => c
  | ampersand => '&'

def written (pieces : List Piece) : List Char := pieces.flatMap Piece.written

def meant (pieces : List Piece) : List Char := pieces.map Piece.meant

/-- At a bare ampersand no reference begins. -/
def Apt : List Piece → Prop
  | [] => True
  | .ampersand :: pieces => ¬ Begins ('&' :: written pieces) ∧ Apt pieces
  | .literal _ _ :: pieces | .reference _ _ _ :: pieces => Apt pieces

section Pieces

variable {pieces : List Piece}

theorem decodeChars_written (h : Apt pieces) : decodeChars (written pieces) = meant pieces := by
  induction pieces with
  | nil => exact decodeChars.eq_1
  | cons piece pieces ih =>
    cases piece with
    | literal c hc =>
      show decodeChars (c :: written pieces) = c :: meant pieces
      rw [decodeChars_literal hc, ih h]
    | reference text c refers =>
      obtain ⟨body, rfl, hm⟩ := refers
      show decodeChars ('&' :: (body ++ [';']) ++ written pieces) = c :: meant pieces
      rw [List.cons_append, List.append_assoc, List.singleton_append, decodeChars_reference hm,
        ih h]
    | ampersand =>
      show decodeChars ('&' :: written pieces) = '&' :: meant pieces
      rw [decodeChars_ampersand h.1, ih h.2]

theorem exists_pieces (text : List Char) : ∃ pieces, Apt pieces ∧ written pieces = text := by
  fun_induction decodeChars text with
  | case1 => exact ⟨[], trivial, rfl⟩
  | case2 rest c n hread ih =>
    obtain ⟨body, after, rfl, rfl, hm⟩ := read?_eq_some_iff.1 hread
    obtain ⟨pieces, hapt, hwritten⟩ := ih
    refine ⟨.reference ('&' :: (body ++ [';'])) c ⟨body, rfl, hm⟩ :: pieces, hapt, ?_⟩
    show '&' :: (body ++ [';']) ++ written pieces = _
    rw [hwritten]
    simp
  | case3 rest hread ih =>
    obtain ⟨pieces, hapt, rfl⟩ := ih
    exact ⟨.ampersand :: pieces, ⟨read?_eq_none_iff.1 hread, hapt⟩, rfl⟩
  | case4 c rest hc ih =>
    obtain ⟨pieces, hapt, rfl⟩ := ih
    exact ⟨.literal c hc :: pieces, hapt, rfl⟩

/-- The pieces of a text tell its decoding, and every text has pieces. -/
theorem decodeChars_eq_iff {text out : List Char} : decodeChars text = out ↔
    ∃ pieces, Apt pieces ∧ written pieces = text ∧ meant pieces = out := by
  constructor
  · rintro rfl
    obtain ⟨pieces, hapt, rfl⟩ := exists_pieces text
    exact ⟨pieces, hapt, rfl, (decodeChars_written hapt).symm⟩
  · rintro ⟨pieces, hapt, rfl, rfl⟩
    exact decodeChars_written hapt

theorem length_le_written (pieces : List Piece) : pieces.length ≤ (written pieces).length := by
  induction pieces with
  | nil => exact Nat.le_refl 0
  | cons piece pieces ih =>
    have hpiece : 1 ≤ piece.written.length := by
      cases piece with
      | literal c _ => exact Nat.le_refl 1
      | reference text c refers =>
        obtain ⟨body, rfl, -⟩ := refers
        exact Nat.le_add_left 1 _
      | ampersand => exact Nat.le_refl 1
    have hwritten : written (piece :: pieces) = piece.written ++ written pieces := rfl
    rw [hwritten, List.length_append, List.length_cons]
    omega

/-- Pieces that mean what is written hold no reference, not even one across pieces. -/
theorem not_infix_of_meant_eq_written (h : Apt pieces) (heq : meant pieces = written pieces)
    {ref : List Char} {c : Char} (href : Refers ref c) : ¬ ref <:+: written pieces := by
  obtain ⟨body, rfl, hm⟩ := href
  induction pieces with
  | nil => simp [written]
  | cons piece pieces ih =>
    cases piece with
    | literal d hd =>
      have htail : meant pieces = written pieces := (List.cons.inj heq).2
      show ¬ _ <:+: d :: written pieces
      rw [List.infix_cons_iff, List.cons_prefix_cons]
      rintro (⟨rfl, -⟩ | hinfix)
      · exact hd rfl
      · exact ih h htail hinfix
    | reference text d refers =>
      -- A reference is longer than the character it stands for.
      have hlen : pieces.length + 1 = text.length + (written pieces).length := by
        simpa [meant, written, Piece.written] using congrArg List.length heq
      have hrest := length_le_written pieces
      obtain ⟨_, htext, -⟩ := refers
      have htwo : 2 ≤ text.length := by simp [htext]
      omega
    | ampersand =>
      have htail : meant pieces = written pieces := (List.cons.inj heq).2
      show ¬ _ <:+: '&' :: written pieces
      rw [List.infix_cons_iff]
      rintro (hhead | hinfix)
      · exact h.1 ⟨_, c, ⟨body, rfl, hm⟩, hhead⟩
      · exact ih h.2 htail hinfix

theorem meant_eq_written (h : ∀ ref c, Refers ref c → ¬ ref <:+: written pieces) :
    meant pieces = written pieces := by
  induction pieces with
  | nil => rfl
  | cons piece pieces ih =>
    have hwritten : written (piece :: pieces) = piece.written ++ written pieces := rfl
    have htail := ih fun ref c href hinfix =>
      h ref c href (hwritten ▸ hinfix.trans (List.suffix_append _ _).isInfix)
    rw [hwritten, ← htail]
    cases piece with
    | literal d hd => rfl
    | reference text d refers =>
      exact absurd (hwritten ▸ (List.prefix_append _ _).isInfix) (h text d refers)
    | ampersand => rfl

theorem byteLength_meant_le (pieces : List Piece) :
    byteLength (meant pieces) ≤ byteLength (written pieces) := by
  induction pieces with
  | nil => exact Nat.le_refl 0
  | cons piece pieces ih =>
    have hpiece : piece.meant.utf8Size ≤ byteLength piece.written := by
      cases piece with
      | literal c _ => exact Nat.le_refl _
      | reference text c refers =>
        obtain ⟨body, rfl, hm⟩ := refers
        have hbody := hm.two_le_length
        have hbytes := length_le_byteLength ('&' :: (body ++ [';']))
        simp only [List.length_cons, List.length_append, List.length_nil] at hbytes
        calc c.utf8Size ≤ 4 := c.utf8Size_le_four
          _ ≤ byteLength ('&' :: (body ++ [';'])) := by omega
      | ampersand => exact Nat.le_refl _
    have hwritten : written (piece :: pieces) = piece.written ++ written pieces := rfl
    rw [hwritten, byteLength_append]
    exact Nat.add_le_add hpiece ih

end Pieces

/-! ### Decoding -/

/-- Every ampersand replaced by a reference to it. -/
def escape (text : List Char) : List Char :=
  text.flatMap fun c => if c = '&' then "&amp;".toList else [c]

theorem decodeChars_escape (text : List Char) : decodeChars (escape text) = text := by
  induction text with
  | nil => exact decodeChars.eq_1
  | cons c text ih =>
    have hcons : escape (c :: text) =
        (if c = '&' then "&amp;".toList else [c]) ++ escape text := rfl
    rw [hcons]
    split
    · rename_i hc
      subst hc
      have hamp : Means "amp".toList '&' := .named (by decide)
      have hreference : "&amp;".toList ++ escape text =
          '&' :: ("amp".toList ++ ';' :: escape text) := rfl
      rw [hreference, decodeChars_reference hamp, ih]
    · rename_i hc
      rw [List.singleton_append, decodeChars_literal hc, ih]

theorem decodeChars_eq_self_iff {text : List Char} :
    decodeChars text = text ↔ ∀ ref c, Refers ref c → ¬ ref <:+: text := by
  obtain ⟨pieces, hapt, rfl⟩ := exists_pieces text
  rw [decodeChars_written hapt]
  constructor
  · intro heq ref c href
    exact not_infix_of_meant_eq_written hapt heq href
  · exact meant_eq_written

/-- No reference reaches across a space. -/
theorem Begins.of_append_space {a b : List Char} (h : Begins ('&' :: (a ++ ' ' :: b))) :
    Begins ('&' :: a) := by
  obtain ⟨ref, c, ⟨body, rfl, hm⟩, t, heq⟩ := h
  refine ⟨_, c, ⟨body, rfl, hm⟩, List.cons_prefix_cons.2 ⟨rfl, ?_⟩⟩
  have hspace : ' ' ∉ body ++ [';'] := by simp [hm.notMem (.inr (.inr rfl))]
  rw [List.cons_append, List.cons.injEq] at heq
  rcases List.append_eq_append_iff.1 heq.2 with ⟨more, rfl, -⟩ | ⟨more, hbody, hmore⟩
  · exact List.prefix_append _ _
  · cases more with
    | nil =>
      rw [List.append_nil] at hbody
      rw [hbody]
    | cons x more =>
      cases hmore
      exact absurd (by rw [hbody]; simp) hspace

def Piece.space : Piece := .literal ' ' (by decide)

theorem written_append_space (first second : List Piece) :
    written (first ++ .space :: second) = written first ++ ' ' :: written second :=
  List.flatMap_append

theorem apt_append_space {first second : List Piece} (hfirst : Apt first) (hsecond : Apt second) :
    Apt (first ++ .space :: second) := by
  induction first with
  | nil => exact hsecond
  | cons piece first ih =>
    cases piece with
    | literal c hc => exact ih hfirst
    | reference text c refers => exact ih hfirst
    | ampersand =>
      have hbegins : ¬ Begins ('&' :: written (first ++ .space :: second)) := by
        rw [written_append_space]
        exact fun h => hfirst.1 h.of_append_space
      exact ⟨hbegins, ih hfirst.2⟩

/-- A text is decoded on both sides of a space on its own. -/
theorem decodeChars_append_space (a b : List Char) :
    decodeChars (a ++ ' ' :: b) = decodeChars a ++ ' ' :: decodeChars b := by
  obtain ⟨first, hfirst, rfl⟩ := exists_pieces a
  obtain ⟨second, hsecond, rfl⟩ := exists_pieces b
  rw [← written_append_space, decodeChars_written (apt_append_space hfirst hsecond),
    decodeChars_written hfirst, decodeChars_written hsecond]
  exact List.map_append

theorem decodeChars_intercalate (words : List (List Char)) :
    decodeChars ([' '].intercalate words) = [' '].intercalate (words.map decodeChars) := by
  have hjoin (word next : List Char) (words : List (List Char)) :
      [' '].intercalate (word :: next :: words) =
        word ++ ' ' :: [' '].intercalate (next :: words) := by
    rw [List.intercalate_cons_cons, List.append_assoc, List.singleton_append]
  induction words with
  | nil => exact decodeChars.eq_1
  | cons word words ih =>
    cases words with
    | nil => simp
    | cons next words =>
      rw [hjoin, decodeChars_append_space, ih, List.map_cons, List.map_cons, List.map_cons, hjoin]

/-- Decoding is told by the pieces of a text. So what a reference stands for is not decoded again,
a text is its own decoding exactly if it holds no reference, and no decoding has more bytes. -/
theorem decode_exact (text : String) :
    (∀ out : String, decode text = out ↔ ∃ pieces, Apt pieces ∧
        written pieces = text.toList ∧ meant pieces = out.toList) ∧
      decode (String.ofList (escape text.toList)) = text ∧
      (decode text = text ↔ ∀ ref c, Refers ref c → ¬ ref <:+: text.toList) ∧
      byteLength (decode text).toList ≤ byteLength text.toList := by
  refine ⟨fun out => ?_, ?_, ?_, ?_⟩
  · rw [← String.toList_inj, decode, String.toList_ofList, decodeChars_eq_iff]
  · rw [decode, String.toList_ofList, decodeChars_escape, String.ofList_toList]
  · rw [← String.toList_inj, decode, String.toList_ofList, decodeChars_eq_self_iff]
  · obtain ⟨pieces, hapt, hwritten⟩ := exists_pieces text.toList
    rw [decode, String.toList_ofList, ← hwritten, decodeChars_written hapt]
    exact byteLength_meant_le pieces

/-- Ampersands in front of a reference, a plus sign and zeros in a number, a semicolon on its own,
and a reference to an ampersand that only then would read as one. -/
theorem decode_exact_mixed : ∃ pieces, Apt pieces ∧
    written pieces = "&&foo&#x+0026;;&amp;lt;&#45".toList ∧
      meant pieces = "&&foo&;&lt;&#45".toList :=
  ((decode_exact "&&foo&#x+0026;;&amp;lt;&#45").1 "&&foo&;&lt;&#45").1 (by decide +kernel)

end CosmeticLint.Markup.Reference
