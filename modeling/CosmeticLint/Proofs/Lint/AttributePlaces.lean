import CosmeticLint.Proofs.Lint.Report
import CosmeticLint.Proofs.Markup.Nesting
import CosmeticLint.Proofs.Markup.References

/-! Where the findings of a template's attributes point. An `id` is reported at its value as
written, quotes and all; a class is reported at the one word of the value that names it. The
words that are looked at make up the whole value. -/

namespace CosmeticLint.Lint

open FilterList Markup

/-! ### The words of a value -/

/-- A word holds no space and stands between spaces or the ends of the text. -/
structure IsWord (before word after : List Char) : Prop where
  noSpace : ' ' ∉ word
  opens : before = [] ∨ before.getLast? = some ' '
  closes : after = [] ∨ after.head? = some ' '

/-- Of words with one space between them, each stands where its place says. -/
theorem exists_isWord {start : Nat} {words : List (List Char)} {token : String × Span}
    (hwords : ∀ w ∈ words, ' ' ∉ w) (h : token ∈ classTokensFrom start words) :
    ∃ before word after, [' '].intercalate words = before ++ (word ++ after) ∧
      IsWord before word after ∧
      token = (String.ofList word, (Span.mk (byteLength before)
        (byteLength before + byteLength word)).shift start) := by
  induction words generalizing start with
  | nil => cases h
  | cons w words ih =>
    obtain ⟨hw, hwords⟩ := List.forall_mem_cons.1 hwords
    rcases List.mem_cons.1 h with rfl | h
    · refine ⟨[], w, [' '].intercalate (w :: words) |>.drop w.length, ?_, ⟨hw, .inl rfl, ?_⟩, ?_⟩
      · cases words with
        | nil => simp
        | cons w' words => simp [List.intercalate_cons_cons]
      · cases words with
        | nil => simp
        | cons w' words => simp [List.intercalate_cons_cons]
      · simp [Span.shift, Nat.add_comm]
    · cases words with
      | nil => cases h
      | cons w' words =>
        obtain ⟨before, word, after, htext, hword, rfl⟩ := ih hwords h
        refine ⟨w ++ ' ' :: before, word, after, ?_, ⟨hword.noSpace, .inr ?_, hword.closes⟩, ?_⟩
        · rw [List.intercalate_cons_cons, htext]
          simp
        · rcases hword.opens with rfl | hlast
          · simp
          · simp [List.getLast?_cons, hlast]
        · have hspace : ' '.utf8Size = 1 := rfl
          simp only [Span.shift, byteLength_append, byteLength_cons, hspace, Prod.mk.injEq,
            Span.mk.injEq, true_and]
          omega

theorem map_fst_classTokensFrom (start : Nat) (words : List (List Char)) :
    (classTokensFrom start words).map (·.1) = words.map String.ofList := by
  induction words generalizing start with
  | nil => rfl
  | cons w words ih => rw [classTokensFrom, List.map_cons, ih, List.map_cons]

/-- The words of a value, with a space between each and the next, are the value. -/
theorem intercalate_classTokens (v : AttributeValue) :
    " ".intercalate ((classTokens v).map (·.1)) = v.text := by
  rw [← String.toList_inj, String.toList_intercalate, classTokens, map_fst_classTokensFrom,
    List.map_map, splitAtChar_eq_splitOn]
  have hparts : (String.toList ∘ String.ofList) = id := funext fun w => String.toList_ofList
  rw [hparts, List.map_id]
  exact List.intercalate_splitOn ' '

/-- What is read word by word from a class and what is read from an id as a whole are the same:
decoding commutes with a space, so the decoded words make up the decoded value. -/
theorem decode_wordwise :
    (∀ a b : String, Reference.decode (a ++ " " ++ b) =
      Reference.decode a ++ " " ++ Reference.decode b) ∧
      ∀ v : AttributeValue,
        " ".intercalate ((classTokens v).map fun token => Reference.decode token.1) = v.decoded := by
  constructor
  · intro a b
    have hspace : (a ++ " " ++ b).toList = a.toList ++ ' ' :: b.toList := by simp
    rw [← String.toList_inj, Reference.decode, String.toList_ofList, hspace,
      Reference.decodeChars_append_space]
    simp [Reference.decode]
  · intro v
    obtain ⟨words, hwords⟩ : ∃ words, (classTokens v).map (fun token => token.1.toList) = words :=
      ⟨_, rfl⟩
    have hspace : " ".toList = [' '] := rfl
    have htext : v.text.toList = [' '].intercalate words := by
      rw [← intercalate_classTokens v, String.toList_intercalate, hspace, ← hwords]
      simp [Function.comp_def]
    have hdecoded : ((classTokens v).map fun token => Reference.decode token.1).map String.toList =
        words.map Reference.decodeChars := by
      simp [← hwords, Reference.decode, Function.comp_def]
    rw [← String.toList_inj, String.toList_intercalate, hspace, hdecoded, AttributeValue.decoded,
      Reference.decode, String.toList_ofList, htext, Reference.decodeChars_intercalate]

/-! ### Places of values -/

section Places

variable {text : List Char} {v : AttributeValue}

/-- Where the text of a value stops, before its quote if it has one. -/
def textStop (v : AttributeValue) : Nat := v.span.stop - v.quote.elim 0 (·.char.utf8Size)

/-- Between the quotes of a value stands its text. -/
theorem slice?_text (h : v.span.slice? text = some v.written) :
    (Span.mk (textStart v) (textStop v)).slice? text = some v.text.toList := by
  obtain ⟨quoteBytes, hquote⟩ : ∃ n, v.quote.elim 0 (·.char.utf8Size) = n := ⟨_, rfl⟩
  have hinner : (Span.mk quoteBytes (quoteBytes + byteLength v.text.toList)).slice? v.written =
      some v.text.toList ∧
      byteLength v.written = quoteBytes + byteLength v.text.toList + quoteBytes := by
    subst hquote
    cases hq : v.quote with
    | none =>
      have hwritten : v.written = [] ++ (v.text.toList ++ []) := by
        simp [AttributeValue.written, hq]
      exact ⟨Span.slice?_eq_some_iff.2 ⟨[], [], hwritten, rfl, rfl⟩, by simp [hwritten]⟩
    | some q =>
      have hwritten : v.written = [q.char] ++ (v.text.toList ++ [q.char]) := by
        simp [AttributeValue.written, hq]
      refine ⟨Span.slice?_eq_some_iff.2 ⟨[q.char], [q.char], hwritten, ?_, ?_⟩, ?_⟩
      · simp
      · simp
      · simp [hwritten, Nat.add_assoc]
  obtain ⟨before, after, -, hstart, hstop⟩ := Span.slice?_eq_some_iff.1 h
  have hplace : Span.mk (textStart v) (textStop v) =
      (Span.mk quoteBytes (quoteBytes + byteLength v.text.toList)).shift v.span.start := by
    have hbytes := hinner.2
    simp only [Span.shift, textStart, textStop, hquote, Span.mk.injEq]
    omega
  rw [hplace]
  exact Span.slice?_shift h hinner.1

/-- The diagnostic points at a value as written, with its quotes if it has some. What the
value decodes to without them is the name, and a forbidden id. -/
structure PointsAtValue (text : List Char) (ids : List String) (v : AttributeValue)
    (d : Diagnostic) : Prop where
  code : d.code = .forbiddenId
  written : d.span.slice? text = some v.written
  name : d.name = some (Reference.decode v.text)
  forbidden : Reference.decode v.text ∈ ids

/-- The diagnostic points at a word of a value, inside its quotes. What the word decodes to is
the name, and a forbidden class. -/
structure PointsAtWord (text : List Char) (classes : List String) (v : AttributeValue)
    (d : Diagnostic) : Prop where
  code : d.code = .forbiddenClass
  proper : d.span.Proper text
  inside : textStart v ≤ d.span.start ∧ d.span.stop ≤ textStop v
  word : ∃ before word after, v.text.toList = before ++ (word ++ after) ∧ IsWord before word after ∧
    d.span.start = textStart v + byteLength before ∧ d.span.slice? text = some word ∧
    d.name = some (Reference.decode (String.ofList word)) ∧
    Reference.decode (String.ofList word) ∈ classes

theorem pointsAtValue_of_mem {forbidden : Artifact} {d : Diagnostic}
    (h : v.span.slice? text = some v.written) (hd : d ∈ checkId forbidden v) :
    PointsAtValue text forbidden.ids v d := by
  rw [checkId_eq, finding] at hd
  split at hd
  · rename_i hname
    cases List.mem_singleton.1 hd
    exact ⟨rfl, h, rfl, hname⟩
  · cases hd

theorem pointsAtWord_of_mem {forbidden : Artifact} {d : Diagnostic}
    (h : v.span.slice? text = some v.written)
    (hd : d ∈ (classTokens v).flatMap (checkClassToken forbidden)) :
    PointsAtWord text forbidden.classes v d := by
  obtain ⟨token, htoken, hd⟩ := List.mem_flatMap.1 hd
  have htokens : classTokens v = classTokensFrom (textStart v) (v.text.toList.splitOn ' ') := by
    rw [← splitAtChar_eq_splitOn, classTokens, textStart]
    rcases v.quote with _ | _ | _ <;> rfl
  rw [htokens] at htoken
  obtain ⟨before, word, after, htext, hword, rfl⟩ :=
    exists_isWord (fun w hw => notMem_of_mem_splitOn hw) htoken
  rw [List.intercalate_splitOn] at htext
  have hvalue := slice?_text h
  have hslice : ((Span.mk (byteLength before) (byteLength before + byteLength word)).shift
      (textStart v)).slice? text = some word :=
    Span.slice?_shift hvalue (Span.slice?_eq_some_iff.2 ⟨before, after, htext, rfl, rfl⟩)
  obtain ⟨_, _, -, hstart, hstop⟩ := Span.slice?_eq_some_iff.1 hvalue
  have hbytes := congrArg byteLength htext
  simp only [byteLength_append] at hbytes
  rw [checkClassToken_eq, finding] at hd
  split at hd
  · rename_i hname
    cases List.mem_singleton.1 hd
    refine ⟨rfl, .of_slice? hslice, ?_, before, word, after, htext, hword, ?_, hslice, rfl, hname⟩
    · simp only [Span.shift] at hstart hstop ⊢
      omega
    · simp only [Span.shift]
      omega
  · cases hd

end Places

/-! ### The attributes of a component -/

/-- The attributes that are checked: those of the template's own tag, then those of the elements
inside it. A template that is not markup has none. -/
def templateAttributes (c : Component) : List Attribute :=
  c.template?.elim [] fun t =>
    if t.isHtml then t.attributes ++ t.elements.flatMap (·.attributes) else []

theorem attribute_faithful (source : String) :
    ∀ a ∈ templateAttributes (Component.ofText source), a.Faithful source.toList := by
  intro a ha
  rw [templateAttributes] at ha
  cases htemplate : (Component.ofText source).template? with
  | none => simp [htemplate] at ha
  | some t =>
    rw [htemplate, Option.elim_some] at ha
    split at ha
    · exact (Component.attribute_in_template htemplate a ha).faithful
    · cases ha

/-- The findings of a template are those of its attributes. -/
theorem checkTemplate_eq_flatMap (forbidden : Artifact) (c : Component) :
    (c.template?.map (checkTemplate forbidden)).getD [] =
      (templateAttributes c).flatMap (checkAttribute forbidden) := by
  cases h : c.template? with
  | none => simp [templateAttributes, h]
  | some t =>
    simp only [templateAttributes, h, Option.map_some, Option.getD_some, Option.elim_some,
      checkTemplate]
    split
    · simp [List.flatMap_append, List.flatMap_assoc]
    · rfl

/-- The check of a component reports what its scripts and its template's attributes give. Each
diagnostic of an attribute points at its value if that is an `id`, and at one word of the value
if that is a `class`; the words of a value, joined by spaces, are the value. -/
theorem checkWith_attribute_places (read : ScriptReader) (forbidden : Artifact)
    {filename : String} (h : Path.extension? filename = some "vue") (source : String) :
    (checkWith read forbidden .full filename source).Perm
        (((Component.ofText source).scripts.flatMap fun b =>
            checkScript read forbidden b.content b.dialect b.contentSpan.start) ++
          (templateAttributes (Component.ofText source)).flatMap (checkAttribute forbidden)) ∧
      ∀ a ∈ templateAttributes (Component.ofText source),
        (∀ d ∈ checkAttribute forbidden a, ∃ v, a.value = some v ∧
          (a.name = "id" ∧ PointsAtValue source.toList forbidden.ids v d ∨
            a.name = "class" ∧ PointsAtWord source.toList forbidden.classes v d)) ∧
        ∀ v, a.value = some v → " ".intercalate ((classTokens v).map (·.1)) = v.text := by
  constructor
  · have hkind : FileKind.ofPath? filename = some .component := by
      rw [FileKind.ofPath?, h]
      rfl
    rw [checkWith_eq, hkind, ← checkTemplate_eq_flatMap]
    simp only [sortByStart_eq_mergeSort]
    exact List.mergeSort_perm _ _
  · intro a ha
    refine ⟨fun d hd => ?_, fun v _ => intercalate_classTokens v⟩
    rw [checkAttribute] at hd
    cases hvalue : a.value with
    | none => simp [hvalue] at hd
    | some v =>
      have hslice := ((attribute_faithful source a ha).value v hvalue).2.1
      simp only [hvalue] at hd
      refine ⟨v, rfl, ?_⟩
      split at hd
      · exact .inl ⟨‹_›, pointsAtValue_of_mem hslice hd⟩
      · split at hd
        · exact .inr ⟨‹_›, pointsAtWord_of_mem hslice hd⟩
        · cases hd

/-- Values with references, a letter of two bytes and an empty word between two spaces. -/
theorem checkWith_attribute_places_encoded :
    ∃ source : String, Path.extension? "a.vue" = some "vue" ∧
      (checkWith (fun _ _ => .ok ⟨[], []⟩) ⟨["a-b"], ["é", "", "x&"]⟩ .full "a.vue" source).map
          (fun d => (d.code, d.span, d.name)) =
        [(.forbiddenId, ⟨16, 25⟩, some "a-b"), (.forbiddenClass, ⟨33, 35⟩, some "é"),
          (.forbiddenClass, ⟨36, 36⟩, some ""), (.forbiddenClass, ⟨37, 43⟩, some "x&")] ∧
      ∀ a ∈ templateAttributes (Component.ofText source),
        ∀ d ∈ checkAttribute ⟨["a-b"], ["é", "", "x&"]⟩ a, ∃ v, a.value = some v ∧
          (a.name = "id" ∧ PointsAtValue source.toList ["a-b"] v d ∨
            a.name = "class" ∧ PointsAtWord source.toList ["é", "", "x&"] v d) :=
  ⟨"<template><p ID=\"a&#45;b\" class='é  x&amp; y'></p></template>", by decide,
    by decide +kernel, fun a ha =>
      have hvue : Path.extension? "a.vue" = some "vue" := by decide
      ((checkWith_attribute_places (fun _ _ => .ok ⟨[], []⟩) _ hvue _).2 a ha).1⟩

end CosmeticLint.Lint
