import CosmeticLint.Markup.StartTag
import CosmeticLint.Proofs.Markup.Tokens

/-! Attributes and the tokens that spell them. Each token of a tag plays one part: it is
passed over, reported, or belongs to an attribute. An attribute is then what the text says
at its span, and attributes follow each other where their tokens do. -/

namespace CosmeticLint.Markup

/-! ### Attributes -/

/-- The value as it stands in the text, with the quotes that it has there. -/
def AttributeValue.written (v : AttributeValue) : List Char :=
  match v.quote with
  | none => v.text.toList
  | some q => q.char :: (v.text.toList ++ [q.char])

namespace Attribute

/-- Where the name of the attribute ends. -/
def nameStop (a : Attribute) : Nat := a.span.start + byteLength a.rawName.toList

/-- The attribute is what the text says at its span: its name stands at the start and, if it
has a value, the value stands at the end. -/
structure Faithful (text : List Char) (a : Attribute) : Prop where
  proper : a.span.Proper text
  nonempty : a.span.start < a.span.stop
  rawName : (Span.mk a.span.start a.nameStop).slice? text = some a.rawName.toList
  name : a.name.toList = a.rawName.toList.map Char.toLower
  noValue : a.value = none → a.span.stop = a.nameStop
  value : ∀ v, a.value = some v → v.span.Proper text ∧ v.span.slice? text = some v.written ∧
    a.nameStop ≤ v.span.start ∧ a.span.stop = v.span.stop

theorem toList_name (a : Attribute) : a.name.toList = a.rawName.toList.map Char.toLower := by
  have hname : a.name = a.rawName.map Char.toLower := rfl
  rw [hname, String.toList_map]

end Attribute

namespace Token

variable {text : List Char} {t v : Token}

theorem Stands.stop_eq (h : t.Stands text) :
    t.span.stop = t.span.start + byteLength t.text.toList := by
  obtain ⟨before, after, -, hstart, hstop⟩ := Span.slice?_eq_some_iff.1 h.slice
  omega

theorem Stands.start_lt_stop (h : t.Stands text) (hk : t.kind = .name) :
    t.span.start < t.span.stop := by
  obtain ⟨rest, hs⟩ := h.spells
  rw [hk] at hs
  obtain ⟨x, xs, hx⟩ := List.exists_cons_of_ne_nil hs.1
  have := x.utf8Size_pos
  rw [h.stop_eq, hx, byteLength_cons]
  omega

theorem Stands.bare_faithful (h : t.Stands text) (hk : t.kind = .name) :
    (Attribute.bare t).Faithful text where
  proper := .of_slice? h.slice
  nonempty := h.start_lt_stop hk
  rawName := by
    have hs := h.slice
    rwa [show t.span = ⟨t.span.start, t.span.stop⟩ from rfl, h.stop_eq] at hs
  name := Attribute.toList_name _
  noValue _ := h.stop_eq
  value _ hv := by cases hv

/-- A quoted value is written with its quotes, a name as it is. -/
theorem written_ofToken? (h : ∃ rest, v.kind.Spells v.text.toList rest) {value : AttributeValue}
    (hv : AttributeValue.ofToken? v = some value) :
    value.span = v.span ∧ value.written = v.text.toList := by
  obtain ⟨rest, hs⟩ := h
  unfold AttributeValue.ofToken? at hv
  split at hv
  · rename_i hk
    cases hv
    rw [hk] at hs
    obtain ⟨body, -, hw⟩ := hs
    exact ⟨rfl, by simp [AttributeValue.written, withoutQuotes, Quote.char, hw]⟩
  · rename_i hk
    cases hv
    rw [hk] at hs
    obtain ⟨body, -, hw⟩ := hs
    exact ⟨rfl, by simp [AttributeValue.written, withoutQuotes, Quote.char, hw]⟩
  · cases hv
    exact ⟨rfl, rfl⟩
  · cases hv

theorem Stands.written_ofToken? (h : v.Stands text) {value : AttributeValue}
    (hv : AttributeValue.ofToken? v = some value) :
    value.span = v.span ∧ value.written = v.text.toList :=
  Token.written_ofToken? h.spells hv

theorem Stands.withValue_faithful (ht : t.Stands text) (hk : t.kind = .name) (hv : v.Stands text)
    (hle : t.span.stop ≤ v.span.start) {value : AttributeValue}
    (hvalue : AttributeValue.ofToken? v = some value) :
    (Attribute.withValue t value).Faithful text := by
  obtain ⟨hspan, hwritten⟩ := hv.written_ofToken? hvalue
  have hslice : value.span.slice? text = some value.written := by
    rw [hspan, hwritten]
    exact hv.slice
  have hproper : value.span.Proper text := .of_slice? hslice
  have hname := ht.bare_faithful hk
  have hlt := ht.start_lt_stop hk
  have hvle := hproper.ordered
  rw [hspan] at hvle
  refine ⟨⟨?_, hproper.inside, hname.proper.startBoundary, hproper.stopBoundary⟩, ?_, hname.rawName,
    Attribute.toList_name _, ?_, ?_⟩
  · simp only [Attribute.withValue, hspan]
    omega
  · simp only [Attribute.withValue, hspan]
    omega
  · intro h
    cases h
  · intro w hw
    cases hw
    refine ⟨hproper, hslice, ?_, rfl⟩
    have hstop := ht.stop_eq
    simp only [Attribute.nameStop, Attribute.withValue, hspan]
    omega

end Token

namespace StartTag

/-! ### The parts that tokens play -/

/-- Tokens that have no place in a tag unless they follow an attribute's name. -/
def Misplaced (kind : Token.Kind) : Prop :=
  kind = .equals ∨ kind = .doubleQuoted ∨ kind = .singleQuoted ∨ kind = .invalid

/-- Which attributes and problems the tokens of a tag stand for: the first token is passed
over, reported, or begins an attribute that takes up to two more. -/
inductive Roles (unclosed : Problem) : List Token → List Attribute → List Problem → Prop
  | done : Roles unclosed [] [] []
  | close {t ts} (kind : t.kind = .close ∨ t.kind = .selfClose) : Roles unclosed (t :: ts) [] []
  | cutOff {t ts} (kind : t.kind = .endOfSource) : Roles unclosed (t :: ts) [] [unclosed]
  | slash {t ts as ps} (kind : t.kind = .slash) (rest : Roles unclosed ts as ps) :
      Roles unclosed (t :: ts) as ps
  | misplaced {t ts as ps} (kind : Misplaced t.kind) (rest : Roles unclosed ts as ps) :
      Roles unclosed (t :: ts) as (unexpected t :: ps)
  | bare {t ts as ps} (kind : t.kind = .name)
      (next : ∀ e, ts.head? = some e → e.kind ≠ .equals) (rest : Roles unclosed ts as ps) :
      Roles unclosed (t :: ts) (.bare t :: as) ps
  | loneEquals {t e} (kind : t.kind = .name) (equals : e.kind = .equals) :
      Roles unclosed [t, e] [.bare t] []
  | value {t e v ts value as ps} (kind : t.kind = .name) (equals : e.kind = .equals)
      (gives : AttributeValue.ofToken? v = some value) (rest : Roles unclosed ts as ps) :
      Roles unclosed (t :: e :: v :: ts) (.withValue t value :: as) ps
  | noValue {t e v ts as ps} (kind : t.kind = .name) (equals : e.kind = .equals)
      (gives : AttributeValue.ofToken? v = none) (rest : Roles unclosed (v :: ts) as ps) :
      Roles unclosed (t :: e :: v :: ts) (.bare t :: as) (missingValue t v :: ps)

/-- The parts that tokens play are those that the reading gives them. -/
theorem readTokens_roles (unclosed : Problem) (ts : List Token) :
    Roles unclosed ts (readTokens unclosed ts).1 (readTokens unclosed ts).2 := by
  fun_induction readTokens unclosed ts with
  | case1 => exact .done
  | case2 t ts hk => exact .close (.inl hk)
  | case3 t ts hk => exact .close (.inr hk)
  | case4 t ts hk => exact .cutOff hk
  | case5 t ts hk ih => exact .slash hk ih
  | case6 t ts hk as ps hrest ih => rw [hrest] at ih; exact .misplaced (.inl hk) ih
  | case7 t ts hk as ps hrest ih => rw [hrest] at ih; exact .misplaced (.inr (.inl hk)) ih
  | case8 t ts hk as ps hrest ih => rw [hrest] at ih; exact .misplaced (.inr (.inr (.inl hk))) ih
  | case9 t ts hk as ps hrest ih => rw [hrest] at ih; exact .misplaced (.inr (.inr (.inr hk))) ih
  | case10 t hk => exact .bare hk (by simp) .done
  | case11 t hk e he => exact .loneEquals hk he
  | case12 t hk e he v ts value hv as ps hrest ih => rw [hrest] at ih; exact .value hk he hv ih
  | case13 t hk e he v ts hv as ps hrest ih => rw [hrest] at ih; exact .noValue hk he hv ih
  | case14 t hk e ts he as ps hrest ih =>
    rw [hrest] at ih
    refine .bare hk ?_ ih
    intro d hd
    cases hd
    exact he

theorem Roles.readTokens_eq {unclosed : Problem} {ts : List Token} {as : List Attribute}
    {ps : List Problem} (h : Roles unclosed ts as ps) : readTokens unclosed ts = (as, ps) := by
  induction h with
  | done => rfl
  | close kind =>
    unfold readTokens
    rcases kind with hk | hk <;> rw [hk]
  | cutOff kind =>
    unfold readTokens
    rw [kind]
  | slash kind _ ih =>
    unfold readTokens
    simp only [kind, ih]
  | misplaced kind _ ih =>
    unfold readTokens
    rcases kind with hk | hk | hk | hk <;> simp only [hk, ih]
  | @bare t ts as ps kind next _ ih =>
    unfold readTokens
    cases ts with
    | nil =>
      cases ih
      rw [kind]
    | cons e ts =>
      have he := next e rfl
      simp only [kind, if_neg he, ih]
  | loneEquals kind equals =>
    unfold readTokens
    simp only [kind, if_pos equals]
  | value kind equals gives _ ih =>
    unfold readTokens
    simp only [kind, if_pos equals, gives, ih]
  | noValue kind equals gives _ ih =>
    unfold readTokens
    simp only [kind, if_pos equals, gives, ih]

section InText

variable {text : List Char} {unclosed : Problem} {ts : List Token} {as : List Attribute}
  {ps : List Problem} {lo hi : Nat}

/-- Attributes are what the text says, and follow each other where their tokens do. -/
theorem Roles.faithful (h : Roles unclosed ts as ps) (hs : ∀ t ∈ ts, t.Stands text)
    (ho : Span.InOrder lo hi (ts.map (·.span))) :
    (∀ a ∈ as, a.Faithful text) ∧ Span.InOrder lo hi (as.map (·.span)) := by
  induction h generalizing lo with
  | done => exact ⟨by simp, ho⟩
  | close _ => exact ⟨by simp, ho.le⟩
  | cutOff _ => exact ⟨by simp, ho.le⟩
  | slash _ _ ih =>
    obtain ⟨hlo, hle, hrest⟩ := ho
    exact ih (fun t ht => hs t (by simp [ht])) (hrest.weaken (Nat.le_trans hlo hle))
  | misplaced _ _ ih =>
    obtain ⟨hlo, hle, hrest⟩ := ho
    exact ih (fun t ht => hs t (by simp [ht])) (hrest.weaken (Nat.le_trans hlo hle))
  | @bare t ts as ps kind _ _ ih =>
    obtain ⟨hlo, hle, hrest⟩ := ho
    obtain ⟨hf, hin⟩ := ih (fun t ht => hs t (by simp [ht])) hrest
    exact ⟨List.forall_mem_cons.2 ⟨(hs t (by simp)).bare_faithful kind, hf⟩, hlo, hle, hin⟩
  | @loneEquals t e kind _ =>
    obtain ⟨hlo, hle, hrest⟩ := ho
    exact ⟨by simpa using (hs t (by simp)).bare_faithful kind, hlo, hle, hrest.le⟩
  | @value t e v ts value as ps kind _ gives _ ih =>
    obtain ⟨hlo, hle, htv, hev, hvlo, hvle, hrest⟩ := ho
    have htf := (hs t (by simp)).withValue_faithful kind (hs v (by simp))
      (Nat.le_trans htv (Nat.le_trans hev hvlo)) gives
    have hspan := ((hs v (by simp)).written_ofToken? gives).1
    obtain ⟨hf, hin⟩ := ih (fun t ht => hs t (by simp [ht])) hrest
    refine ⟨List.forall_mem_cons.2 ⟨htf, hf⟩, hlo, htf.proper.ordered, ?_⟩
    simpa only [Attribute.withValue, hspan] using hin
  | @noValue t e v ts as ps kind _ _ _ ih =>
    obtain ⟨hlo, hle, hte, hee, hrest⟩ := ho
    obtain ⟨hf, hin⟩ := ih (fun t ht => hs t (.tail _ (.tail _ ht)))
      (hrest.weaken (Nat.le_trans hte hee))
    exact ⟨List.forall_mem_cons.2 ⟨(hs t (by simp)).bare_faithful kind, hf⟩, hlo, hle, hin⟩

/-- The problems of a tag: tokens that are out of place, and last, if the source ends inside
the tag, the tag itself. -/
def Reported (unclosed : Problem) (ts : List Token) (ps : List Problem) : Prop :=
  ∃ invalid : List Problem,
    (∀ p ∈ invalid, ∃ t ∈ ts, ∃ reason, p = ⟨.invalidAttribute reason, t.span⟩) ∧
      (ps = invalid ∨ ps = invalid ++ [unclosed] ∧ ∃ t ∈ ts, t.kind = .endOfSource)

theorem Reported.mono {us : List Token} (h : Reported unclosed ts ps) (hsub : ts ⊆ us) :
    Reported unclosed us ps := by
  obtain ⟨invalid, hinvalid, hps⟩ := h
  refine ⟨invalid, fun p hp => ?_, hps.imp_right ?_⟩
  · obtain ⟨t, ht, hreason⟩ := hinvalid p hp
    exact ⟨t, hsub ht, hreason⟩
  · rintro ⟨rfl, t, ht, hkind⟩
    exact ⟨rfl, t, hsub ht, hkind⟩

theorem Reported.cons {t : Token} (h : Reported unclosed ts ps) (ht : t ∈ ts) (reason : String) :
    Reported unclosed ts (⟨.invalidAttribute reason, t.span⟩ :: ps) := by
  obtain ⟨invalid, hinvalid, hps⟩ := h
  refine ⟨_ :: invalid, List.forall_mem_cons.2 ⟨⟨t, ht, reason, rfl⟩, hinvalid⟩, ?_⟩
  rcases hps with rfl | ⟨rfl, hend⟩
  · exact .inl rfl
  · exact .inr ⟨rfl, hend⟩

theorem Roles.reported (h : Roles unclosed ts as ps) : Reported unclosed ts ps := by
  induction h with
  | done => exact ⟨[], by simp, .inl rfl⟩
  | close _ => exact ⟨[], by simp, .inl rfl⟩
  | @cutOff t ts kind => exact ⟨[], by simp, .inr ⟨rfl, t, by simp, kind⟩⟩
  | slash _ _ ih => exact ih.mono (List.subset_cons_self _ _)
  | misplaced _ _ ih => exact (ih.mono (List.subset_cons_self _ _)).cons (by simp) _
  | bare _ _ _ ih => exact ih.mono (List.subset_cons_self _ _)
  | loneEquals _ _ => exact ⟨[], by simp, .inl rfl⟩
  | value _ _ _ _ ih => exact ih.mono fun t ht => by simp [ht]
  | @noValue t e v ts as ps _ _ _ _ ih =>
    exact (ih.mono fun _ ht => .tail _ (.tail _ ht)).cons (t := v) (by simp) _

end InText

end StartTag

end CosmeticLint.Markup
