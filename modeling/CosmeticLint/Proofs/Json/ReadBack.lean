import CosmeticLint.Json.Decoder
import CosmeticLint.Json.Text
import CosmeticLint.Proofs.Text.Place

/-! JSON that was written reads back. A decoder's success is followed from place to place: it
passes exactly the characters that the writer put there and gives what was written. -/

namespace CosmeticLint.Json.Decoder

/-- The decoder goes from `c` to `d` and gives `a`. -/
def Yields {α : Type} (r : Decoder α) (c : Cursor) (a : α) (d : Cursor) : Prop :=
  StateT.run r c = .ok (a, d)

variable {α β : Type} {c d e : Cursor} {x y : Char} {s : String}

theorem Yields.pure (a : α) (c : Cursor) : Yields (Pure.pure a) c a c := rfl

theorem Yields.bind {r : Decoder α} {f : α → Decoder β} {a : α} {b : β} (h : Yields r c a d)
    (h' : Yields (f a) d b e) : Yields (r >>= f) c b e := by
  rw [Yields, StateT.run_bind, h]
  exact h'

theorem Yields.get (c : Cursor) : Yields MonadState.get c c c := rfl

/-! ### Characters -/

theorem yields_peek (c : Cursor) : Yields peek c c.rest.head? c := rfl

theorem yields_skip (h : c.Reads [x] d) : Yields skip c () d := by
  have hskip : c.skip 1 = d := h.skip_eq
  subst hskip
  rfl

def Blank (w : List Char) : Prop := ∀ x ∈ w, isBlank x = true

theorem blank_nil : Blank [] := by simp [Blank]

/-- What stands behind blanks is the next to look at. -/
theorem yields_peekValue_behind {w : List Char} (hw : Blank w) (h : c.Reads w d)
    (hd : ∀ x, d.rest.head? = some x → isBlank x = false) : Yields peekValue c d.rest.head? d := by
  have hskip : c.skipWhile isBlank = d := h.skipWhile_eq hw hd
  have hmove : Yields (modify (·.skipWhile isBlank)) c () d :=
    congrArg (fun e => Except.ok ((), e)) hskip
  exact hmove.bind (yields_peek d)

/-- A character that is not blank is the next one to look at. -/
theorem yields_peekValue (h : c.rest.head? = some x) (hx : isBlank x = false) :
    Yields peekValue c (some x) c := by
  have hpeek := yields_peekValue_behind blank_nil (.refl c) fun y hy => by
    rw [h] at hy
    cases hy
    exact hx
  rwa [h] at hpeek

theorem yields_peekInString (h : c.rest.head? = some x) : Yields peekInString c x c := by
  refine (yields_peek c).bind ?_
  rw [h]
  exact .pure x c

theorem yields_nextInString (h : c.Reads [x] d) : Yields nextInString c x d :=
  (yields_peekInString (by rw [h.1]; rfl)).bind ((yields_skip h).bind (.pure x d))

/-! ### Strings -/

theorem yields_escape_simple (h : c.Reads [x] d) (hx : simpleEscape? x = some y) :
    Yields escape c y d := by
  have hu : x ≠ 'u' := by
    rintro rfl
    cases hx
  refine (yields_peekInString (x := x) (by rw [h.1]; rfl)).bind ?_
  rw [if_neg hu, hx]
  exact (yields_skip h).bind (.pure y d)

/-- The two digits of a control character are read as its number. -/
theorem hexValue?_control : ∀ n < 32,
    hexValue? ['0', '0', hexDigit (n / 16), hexDigit (n % 16)] = some n := by decide

theorem yields_escape_control {n : Nat} (hn : n < 32)
    (h : c.Reads ['u', '0', '0', hexDigit (n / 16), hexDigit (n % 16)] d) :
    Yields escape c (Char.ofNat n) d := by
  obtain ⟨e, hu, hdigits⟩ := h.split (v := ['u'])
  have htake : e.rest.take 4 = ['0', '0', hexDigit (n / 16), hexDigit (n % 16)] := by
    rw [hdigits.1]
    rfl
  have hbytes : ¬ byteLength (e.rest.take 4) < 4 := by
    have h₁ := (hexDigit (n / 16)).utf8Size_pos
    have h₂ := (hexDigit (n % 16)).utf8Size_pos
    have hzero : '0'.utf8Size = 1 := rfl
    rw [htake]
    simp only [byteLength_cons, byteLength_nil, hzero]
    omega
  have hskip : e.skip 4 = d := hdigits.skip_eq
  have hhex : Yields hexEscape e n d := by
    refine (Yields.get e).bind ?_
    rw [if_neg hbytes, htake, hexValue?_control n hn]
    have hset : Yields (set (e.skip 4)) e PUnit.unit d := by
      rw [hskip]
      rfl
    exact hset.bind (.pure n d)
  refine (yields_peekInString (x := 'u') (by rw [h.1]; rfl)).bind ?_
  rw [if_pos rfl]
  refine (yields_skip hu).bind (hhex.bind ?_)
  have hlow : ¬ (decide (0xdc00 ≤ n) && decide (n ≤ 0xdfff)) = true := by
    simp only [Bool.and_eq_true, decide_eq_true_eq]
    omega
  have hhigh : ¬ (decide (0xd800 ≤ n) && decide (n ≤ 0xdbff)) = true := by
    simp only [Bool.and_eq_true, decide_eq_true_eq]
    omega
  rw [if_neg hlow, if_neg hhigh]
  exact .pure _ d

/-- A character is written as itself, or as a backslash and what reads back as the character. -/
theorem escaped_cases (x : Char) :
    (escaped x = [x] ∧ x ≠ '"' ∧ x ≠ '\\' ∧ isControl x = false) ∨
      ∃ w, escaped x = '\\' :: w ∧ ∀ c d : Cursor, c.Reads w d → Yields escape c x d := by
  unfold escaped
  split
  · exact .inr ⟨['"'], rfl, fun c d h => yields_escape_simple h (by subst_vars; rfl)⟩
  split
  · exact .inr ⟨['\\'], rfl, fun c d h => yields_escape_simple h (by subst_vars; rfl)⟩
  split
  · exact .inr ⟨['b'], rfl, fun c d h => yields_escape_simple h (by subst_vars; rfl)⟩
  split
  · exact .inr ⟨['f'], rfl, fun c d h => yields_escape_simple h (by subst_vars; rfl)⟩
  split
  · exact .inr ⟨['n'], rfl, fun c d h => yields_escape_simple h (by subst_vars; rfl)⟩
  split
  · exact .inr ⟨['r'], rfl, fun c d h => yields_escape_simple h (by subst_vars; rfl)⟩
  split
  · exact .inr ⟨['t'], rfl, fun c d h => yields_escape_simple h (by subst_vars; rfl)⟩
  split
  · rename_i hcontrol
    refine .inr ⟨_, rfl, fun c d h => ?_⟩
    have hchar := yields_escape_control hcontrol h
    rwa [Char.ofNat_toNat] at hchar
  · rename_i hquote hbackslash _ _ _ _ _ hcontrol
    exact .inl ⟨rfl, hquote, hbackslash, decide_eq_false hcontrol⟩

/-- The characters of a string are read up to its closing quote, given a turn for each. -/
theorem yields_stringChars {chars : List Char} {fuel : Nat} (hfuel : chars.length < fuel)
    (h : c.Reads (chars.flatMap escaped ++ ['"']) d) : Yields (stringChars fuel) c chars d := by
  induction chars generalizing c fuel with
  | nil =>
    obtain ⟨fuel, rfl⟩ : ∃ n, fuel = n + 1 := ⟨fuel - 1, by omega⟩
    exact (yields_nextInString h).bind (.pure [] d)
  | cons x chars ih =>
    obtain ⟨fuel, rfl⟩ : ∃ n, fuel = n + 1 := ⟨fuel - 1, by omega⟩
    have hfuel' : chars.length < fuel := by
      rw [List.length_cons] at hfuel
      omega
    rw [List.flatMap_cons, List.append_assoc] at h
    obtain ⟨e, hx, hmore⟩ := h.split
    have hrest := ih hfuel' hmore
    rcases escaped_cases x with ⟨heq, hquote, hbackslash, hcontrol⟩ | ⟨w, heq, hescape⟩
    · rw [heq] at hx
      refine (yields_nextInString hx).bind ?_
      rw [if_neg hquote, if_neg hbackslash, hcontrol]
      exact hrest.bind (.pure (x :: chars) d)
    · rw [heq] at hx
      obtain ⟨b, hbackslash, hw⟩ := hx.split (v := ['\\'])
      refine (yields_nextInString hbackslash).bind ?_
      rw [if_neg (by decide), if_pos rfl]
      exact (hescape b e hw).bind (hrest.bind (.pure (x :: chars) d))

theorem length_le_flatMap_escaped (chars : List Char) :
    chars.length ≤ (chars.flatMap escaped).length := by
  induction chars with
  | nil => exact Nat.le_refl _
  | cons x chars ih =>
    have hx : 1 ≤ (escaped x).length := by
      rcases escaped_cases x with ⟨heq, -⟩ | ⟨w, heq, -⟩ <;> simp [heq]
    simp only [List.flatMap_cons, List.length_append, List.length_cons]
    omega

/-- A string is read back after its opening quote. -/
theorem yields_stringBody (h : c.Reads (s.toList.flatMap escaped ++ ['"']) d) :
    Yields stringBody c s d := by
  have hfuel : s.toList.length < c.rest.length + 1 := by
    have hle := length_le_flatMap_escaped s.toList
    rw [h.1]
    simp only [List.length_append, List.length_cons]
    omega
  refine (Yields.get c).bind ((yields_stringChars hfuel h).bind ?_)
  rw [String.ofList_toList]
  exact .pure s d

theorem yields_valueStart (h : c.rest.head? = some x) (hx : isBlank x = false) :
    Yields valueStart c x c :=
  (yields_peekValue h hx).bind (.pure x c)

theorem yields_string (expected : String) (h : c.Reads (Json.string s) d) :
    Yields (string expected) c s d := by
  obtain ⟨e, hquote, hbody⟩ := h.split (v := ['"'])
  refine (yields_valueStart (x := '"') (by rw [h.1]; rfl) rfl).bind ?_
  rw [if_pos rfl]
  exact (yields_skip hquote).bind (yields_stringBody hbody)

/-! ### Lists -/

theorem yields_hasElement_end (first : Bool) (h : c.rest.head? = some ']') :
    Yields (hasElement first) c false c :=
  (yields_peekValue h rfl).bind (.pure false c)

/-- What an element may begin with, so that it is not taken for the end of its list. -/
def BeginsElement (x : Char) : Prop := isBlank x = false ∧ x ≠ ']'

theorem yields_hasElement_first (h : c.rest.head? = some x) (hx : BeginsElement x) :
    Yields (hasElement true) c true c := by
  refine (yields_peekValue h hx.1).bind ?_
  split
  · contradiction
  · rename_i heq
    exact absurd (Option.some.inj heq) hx.2
  · exact .pure true c

theorem yields_hasElement_next (h : c.Reads [','] d) (hd : d.rest.head? = some x)
    (hx : BeginsElement x) : Yields (hasElement false) c true d := by
  refine (yields_peekValue (x := ',') (by rw [h.1]; rfl) rfl).bind ?_
  refine (yields_skip h).bind ((yields_peekValue hd hx.1).bind ?_)
  split
  · rename_i heq
    exact absurd (Option.some.inj heq) hx.2
  · exact .pure true d
  · contradiction

theorem commaSeparated_cons (item : List Char) (items : List (List Char)) :
    commaSeparated (item :: items) = item ++ items.flatMap (',' :: ·) := by
  induction items generalizing item with
  | nil => simp [commaSeparated]
  | cons next items ih =>
    rw [commaSeparated, ih, List.flatMap_cons]
    · rw [List.cons_append]
    · simp

section Items

variable {item : Decoder α} {write : α → List Char}

/-- A decoder that reads back what is written, each text beginning as an element may. -/
structure ReadsBack (item : Decoder α) (write : α → List Char) : Prop where
  yields : ∀ a c d, Cursor.Reads c (write a) d → Yields item c a d
  begins : ∀ a, ∃ x, (write a).head? = some x ∧ BeginsElement x

theorem ReadsBack.head? (hitem : ReadsBack item write) {a : α} {w : List Char}
    (h : c.Reads (write a ++ w) d) : ∃ x, c.rest.head? = some x ∧ BeginsElement x := by
  obtain ⟨x, hx, hbegins⟩ := hitem.begins a
  refine ⟨x, ?_, hbegins⟩
  rw [h.1]
  simp [List.head?_append, hx]

theorem yields_elements_next (hitem : ReadsBack item write) {items : List α} {fuel : Nat}
    (hfuel : items.length < fuel) (h : c.Reads (items.flatMap fun a => ',' :: write a) d)
    (hd : d.rest.head? = some ']') : Yields (elements item fuel false) c items d := by
  induction items generalizing c fuel with
  | nil =>
    obtain ⟨fuel, rfl⟩ : ∃ n, fuel = n + 1 := ⟨fuel - 1, by omega⟩
    have hc : c.rest.head? = some ']' := by rw [h.1]; exact hd
    obtain rfl := h.unique (.refl c)
    exact (yields_hasElement_end false hc).bind (.pure [] d)
  | cons a items ih =>
    obtain ⟨fuel, rfl⟩ : ∃ n, fuel = n + 1 := ⟨fuel - 1, by omega⟩
    have hfuel' : items.length < fuel := by
      rw [List.length_cons] at hfuel
      omega
    obtain ⟨b, hcomma, hrest⟩ := h.split (v := [',']) (w := write a ++ _)
    obtain ⟨x, hx, hbegins⟩ := hitem.head? hrest
    obtain ⟨e, ha, hmore⟩ := hrest.split
    refine (yields_hasElement_next hcomma hx hbegins).bind ?_
    exact (hitem.yields a b e ha).bind ((ih hfuel' hmore).bind (.pure (a :: items) d))

theorem yields_elements (hitem : ReadsBack item write) {items : List α} {fuel : Nat}
    (hfuel : items.length < fuel) (h : c.Reads (commaSeparated (items.map write)) d)
    (hd : d.rest.head? = some ']') : Yields (elements item fuel true) c items d := by
  obtain ⟨fuel, rfl⟩ : ∃ n, fuel = n + 1 := ⟨fuel - 1, by omega⟩
  cases items with
  | nil =>
    have hc : c.rest.head? = some ']' := by rw [h.1]; exact hd
    obtain rfl := h.unique (.refl c)
    exact (yields_hasElement_end true hc).bind (.pure [] d)
  | cons a items =>
    have hfuel' : items.length < fuel := by
      rw [List.length_cons] at hfuel
      omega
    rw [List.map_cons, commaSeparated_cons, List.flatMap_map] at h
    obtain ⟨x, hx, hbegins⟩ := hitem.head? h
    obtain ⟨e, ha, hmore⟩ := h.split
    refine (yields_hasElement_first hx hbegins).bind ?_
    exact (hitem.yields a c e ha).bind
      ((yields_elements_next hitem hfuel' hmore hd).bind (.pure (a :: items) d))

theorem ReadsBack.length_le (hitem : ReadsBack item write) (items : List α) :
    items.length ≤ (commaSeparated (items.map write)).length := by
  cases items with
  | nil => exact Nat.zero_le _
  | cons a items =>
    obtain ⟨x, hx, -⟩ := hitem.begins a
    have ha : 0 < (write a).length := List.length_pos_iff.2 (by rintro h; simp [h] at hx)
    have hmore : items.length ≤ ((items.map write).flatMap (',' :: ·)).length := by
      induction items with
      | nil => exact Nat.zero_le _
      | cons b items ih =>
        simp only [List.map_cons, List.flatMap_cons, List.length_append, List.length_cons] at ih ⊢
        omega
    rw [List.map_cons, commaSeparated_cons, List.length_append, List.length_cons]
    omega

theorem yields_list (hitem : ReadsBack item write) {items : List α}
    (h : c.Reads ('[' :: commaSeparated (items.map write) ++ [']']) d) :
    Yields (list item) c items d := by
  obtain ⟨b, hopen, hrest⟩ := h.split (v := ['[']) (w := _ ++ [']'])
  obtain ⟨e, hitems, hclose⟩ := hrest.split
  have hend : e.rest.head? = some ']' := by rw [hclose.1]; rfl
  have hfuel : items.length < b.rest.length + 1 := by
    have hle := hitem.length_le items
    rw [hrest.1]
    simp only [List.length_append]
    omega
  refine (yields_valueStart (x := '[') (by rw [h.1]; rfl) rfl).bind ?_
  rw [if_pos rfl]
  refine (yields_skip hopen).bind ((Yields.get b).bind ?_)
  refine (yields_elements hitem hfuel hitems hend).bind ?_
  exact ((yields_peekValue hend rfl).bind (yields_skip hclose)).bind (.pure items d)

theorem readsBack_string (expected : String) : ReadsBack (string expected) Json.string :=
  ⟨fun _ _ _ h => yields_string expected h, fun _ => ⟨'"', rfl, rfl, by decide⟩⟩

end Items

/-! ### Records -/

section Records

variable {σ : Type} {fields : List (Field σ)} {field : Field σ} {fuel : Nat} {first : Bool}
  {seen : List String} {key : String} {before after result : σ}

theorem yields_hasKey_first (h : c.rest.head? = some '"') : Yields (hasKey true) c true c :=
  (yields_peekValue h rfl).bind (.pure true c)

theorem yields_hasKey_next (h : c.Reads [','] d) (hd : d.rest.head? = some '"') :
    Yields (hasKey false) c true d :=
  (yields_peekValue (x := ',') (by rw [h.1]; rfl) rfl).bind
    ((yields_skip h).bind ((yields_peekValue hd rfl).bind (.pure true d)))

theorem yields_members_end (h : c.rest.head? = some '}') :
    Yields (members fields (fuel + 1) first seen before) c before c := by
  have hkey : Yields (hasKey first) c false c := (yields_peekValue h rfl).bind (.pure false c)
  exact hkey.bind (.pure before c)

/-- One member of an object, and those behind it. -/
theorem yields_members {k v : Cursor} (hfield : fields.find? (·.key == key) = some field)
    (hseen : seen.contains key = false) (hkey : Yields (hasKey first) c true k)
    (hname : k.Reads (Json.string key ++ [':']) v) (hread : Yields (field.read before) v after d)
    (hmore : Yields (members fields fuel false (key :: seen) after) d result e) :
    Yields (members fields (fuel + 1) first seen before) c result e := by
  obtain ⟨q, hquote, hrest⟩ := hname.split (v := ['"']) (w := _ ++ [':'])
  obtain ⟨b, hbody, hcolon⟩ := hrest.split
  have hcolonValue : Yields colon b () v :=
    (yields_peekValue (x := ':') (by rw [hcolon.1]; rfl) rfl).bind (yields_skip hcolon)
  refine hkey.bind ((yields_skip hquote).bind ((yields_stringBody hbody).bind ?_))
  rw [hfield, hseen]
  exact hcolonValue.bind (hread.bind hmore)

end Records

/-- A text that is read up to blanks is accepted. -/
theorem run_eq_ok {r : Decoder α} {a : α} {text : String} (h : Yields r (.ofText text) a d)
    (hd : Blank d.rest) : run r text = .ok a := by
  have hend : Yields peekValue d none ⟨d.offset + byteLength d.rest, []⟩ :=
    yields_peekValue_behind hd d.reads_rest (by simp)
  have hwhole := h.bind (f := fun a => do
    if (← peekValue).isSome then failNext .trailingCharacters else return a) (hend.bind (.pure a _))
  rw [Yields] at hwhole
  simp only [run, hwhole]
  rfl

end CosmeticLint.Json.Decoder
