import CosmeticLint.Proofs.Script.Quoted

/-! Literals as they stand in a script, and the tokens they are read from. -/

namespace CosmeticLint

/-- The character right before the place is `x`. -/
def Cursor.Behind (text : List Char) (x : Char) (c : Cursor) : Prop :=
  ∃ b : Cursor, b.LiesIn text ∧ b.Reads [x] c

theorem Cursor.Behind.liesIn {text : List Char} {x : Char} {c : Cursor} (h : c.Behind text x) :
    c.LiesIn text := by
  obtain ⟨b, hb, hread⟩ := h
  exact hb.reads hread

namespace Script

variable {script : List Char} {c d : Cursor}

/-- A string is written alike wherever it stands. -/
theorem standsIn_of_string {value : Option String} {written : List Char} (hc : c.LiesIn script)
    (hread : c.Reads written d) (hwritten : ∀ before, WrittenAs before d.rest .string written) :
    Node.StandsIn 0 script ⟨.string, value, c.spanTo d⟩ := by
  obtain ⟨before, hbefore⟩ := hc
  refine ⟨before, written, d.rest, by rw [← hread.1]; exact hbefore.1, hwritten before, ?_⟩
  rw [Cursor.spanTo, hread.2, hbefore.2]

theorem exists_written_string {quote : Char} {rest : List Char} (hrest : c.rest = quote :: rest)
    (hquote : quote = '"' ∨ quote = '\'') {q : Quoted} (hq : Quoted.ofString quote (c.skip 1) = q) :
    ∃ written, c.Reads written (q.after.getD q.inside) ∧
      ∀ before, WrittenAs before (q.after.getD q.inside).rest .string written := by
  have hopen := Cursor.reads_head hrest
  subst hq
  obtain ⟨⟨body, hbody, hun⟩, hclosed⟩ := Quoted.runs_ofString hquote (c.skip 1)
  cases hafter : (Quoted.ofString quote (c.skip 1)).after with
  | some d =>
    obtain ⟨w, hw, hclose⟩ := hclosed d hafter
    cases List.mem_singleton.1 hw
    rw [hclose.1] at hun
    exact ⟨_, hopen.trans (hbody.trans hclose), fun _ => .string hquote hun⟩
  | none =>
    exact ⟨_, hopen.trans hbody, fun _ => .unterminated hquote hun (Quoted.stops_ofString hafter)⟩

theorem exists_written_attributeValue {quote : Char} {rest : List Char}
    (hrest : c.rest = quote :: rest) (hquote : quote = '"' ∨ quote = '\'')
    (hafter : (Quoted.ofAttribute quote (c.skip 1)).after = some d) :
    ∃ written, c.Reads written d ∧ ∀ before, WrittenAs before d.rest .string written := by
  have hopen := Cursor.reads_head hrest
  obtain ⟨⟨body, hbody, hfree⟩, hclosed⟩ := Quoted.reads_ofAttribute hquote (c.skip 1)
  exact ⟨_, hopen.trans (hbody.trans (hclosed d hafter)), fun _ => .attributeValue hquote hfree⟩

/-- Behind a delimiter a part of a template stands up to the next delimiter. -/
theorem standsIn_of_part {value : Option String}
    (hbefore : c.Behind script '\x60' ∨ c.Behind script '\x7d')
    (hafter : (Quoted.ofTemplate c).after = some d) :
    Node.StandsIn 0 script ⟨.quasi, value, c.spanTo (Quoted.ofTemplate c).inside⟩ := by
  obtain ⟨⟨body, hbody, hun⟩, hclosed⟩ := Quoted.runs_ofTemplate c
  obtain ⟨w, hw, hclose⟩ := hclosed d hafter
  have hcloses : closesTemplate (Quoted.ofTemplate c).inside.rest = true := by
    rw [hclose.1]
    simp only [List.mem_cons, List.not_mem_nil, or_false] at hw
    rcases hw with rfl | rfl <;> simp [closesTemplate, List.isPrefixOf]
  obtain ⟨before, hread, hlast⟩ : ∃ before, (Cursor.mk 0 script).Reads before c ∧
      (before.getLast? = some '\x60' ∨ before.getLast? = some '\x7d') := by
    rcases hbefore with ⟨b, ⟨before, hb⟩, hx⟩ | ⟨b, ⟨before, hb⟩, hx⟩
    · exact ⟨_, hb.trans hx, .inl List.getLast?_concat⟩
    · exact ⟨_, hb.trans hx, .inr List.getLast?_concat⟩
  refine ⟨before, body, _, by rw [← hbody.1]; exact hread.1, .part hlast hun hcloses, ?_⟩
  rw [Cursor.spanTo, hbody.2, hread.2]

/-! ### Faults -/

/-- Both ends of what the fault is about lie in the script. -/
def Fault.LiesIn (script : List Char) (f : Fault) : Prop :=
  f.span.start ≤ byteLength script ∧ f.span.stop ≤ byteLength script

theorem Fault.liesIn_spanTo {cause : Cause} (hc : c.LiesIn script) (hd : d.LiesIn script) :
    Fault.LiesIn script (.of cause (c.spanTo d)) := ⟨hc.offset_le, hd.offset_le⟩

theorem Quoted.liesIn_bad_ofString {quote : Char} {f : Fault} (hc : c.LiesIn script)
    (h : (ofString quote c).bad = some f) : f.LiesIn script := by
  fun_induction ofString quote c with
  | case1 | case2 | case3 => cases h
  | case4 c rest e he hrest _ _ _ _ ih => exact ih (hc.skip _) h
  | case5 c rest cause n he hrest _ _ _ _ ih =>
    cases h
    exact Fault.liesIn_spanTo hc (hc.skip _)
  | case6 c x rest hrest _ hne _ hx _ ih => exact ih (hc.skip _) h

theorem Quoted.liesIn_bad_ofTemplate {f : Fault} (hc : c.LiesIn script)
    (h : (ofTemplate c).bad = some f) : f.LiesIn script := by
  fun_induction ofTemplate c with
  | case1 | case2 | case3 => cases h
  | case4 c rest e he _ _ _ hrest _ _ _ ih =>
    cases h
    exact Fault.liesIn_spanTo hc (hc.skip _)
  | case5 c rest e he _ _ _ hrest _ _ _ ih => exact ih (hc.skip _) h
  | case6 c rest cause n he _ hrest _ _ _ ih =>
    cases h
    exact Fault.liesIn_spanTo hc (hc.skip _)
  | case7 c rest n _ hrest _ _ _ _ ih => exact ih (hc.skip _) h
  | case8 c x rest hsub hrest _ hback hx _ _ ih => exact ih (hc.skip _) h

/-! ### Tokens -/

theorem reads_skipTrivia (c : Cursor) : ∃ w, c.Reads w (skipTrivia c).1 := by
  fun_induction skipTrivia c with
  | case1 c => exact ⟨[], .refl c⟩
  | case2 c n _ _ _ _ ih =>
    obtain ⟨w, hw⟩ := ih
    exact ⟨_, (c.reads_skip (n + 1)).trans hw⟩

namespace Token

/-- A token that was read at `c`, as far as literals and delimiters depend on it. -/
structure Fits (c : Cursor) (t : Token) : Prop where
  start : t.start = c
  reads : ∃ w, c.Reads w t.after
  string : ∀ value, t.kind = .string value → ∃ written, c.Reads written t.after ∧
    ∀ before, WrittenAs before t.after.rest .string written
  punctuator : ∀ p, t.kind = .punctuator p → p.toList <+: c.rest

theorem fits_skip {kind : Kind} {newline : Bool} {recovered : List Fault} (c : Cursor) (n : Nat)
    (hstring : ∀ value, kind ≠ .string value) (hmark : ∀ p, kind ≠ .punctuator p) :
    Fits c ⟨kind, c, c.skip n, newline, recovered⟩ :=
  ⟨rfl, ⟨_, c.reads_skip n⟩, fun v hv => absurd hv (hstring v), fun p hp => absurd hp (hmark p)⟩

theorem prefix_of_punctuator? {text : List Char} {p : String} (h : punctuator? text = some p) :
    p.toList <+: text := by
  have hfits := List.find?_some h
  rw [Bool.and_eq_true, List.isPrefixOf_iff_prefix] at hfits
  exact hfits.1

theorem fits_readAt (newline : Bool) (c : Cursor) : (readAt newline c).Fits c := by
  unfold readAt
  dsimp only
  split
  · exact ⟨rfl, ⟨[], .refl c⟩, by simp, by simp⟩
  · rename_i x rest hrest
    split
    · rename_i hquote
      rw [Bool.or_eq_true, decide_eq_true_eq, decide_eq_true_eq] at hquote
      obtain ⟨w, hw⟩ := (Quoted.runs_ofString hquote (c.skip 1)).reads_after
      have hreads := (Cursor.reads_head hrest).trans hw
      split
      · exact ⟨rfl, ⟨_, hreads⟩, by simp, by simp⟩
      · exact ⟨rfl, ⟨_, hreads⟩, fun _ _ => exists_written_string hrest hquote rfl, by simp⟩
    · split
      · exact fits_skip c _ (by simp) (by simp)
      · split
        · exact fits_skip c _ (by simp) (by simp)
        · split
          · exact fits_skip c _ (by simp) (by simp)
          · split
            · exact fits_skip c _ (by simp) (by simp)
            · split
              · rename_i p hp
                refine ⟨rfl, ⟨_, c.reads_skip _⟩, by simp, ?_⟩
                rintro _ ⟨⟩
                exact prefix_of_punctuator? hp
              · exact fits_skip c _ (by simp) (by simp)

/-- What is wrong with a token is about a part of it. -/
theorem liesIn_of_faulty {newline : Bool} {f : Fault} (hc : c.LiesIn script)
    (h : (readAt newline c).kind = .faulty f) : f.LiesIn script := by
  unfold readAt at h
  dsimp only at h
  split at h
  · cases h
  · split at h
    · split at h
      · rename_i hbad
        cases h
        exact Quoted.liesIn_bad_ofString (hc.skip 1) hbad
      · cases h
    · split at h
      · cases h
      · split at h
        · cases h
        · split at h
          · cases h
          · split at h
            · cases h
              exact Fault.liesIn_spanTo hc (hc.skip _)
            · split at h
              · cases h
              · cases h
                exact Fault.liesIn_spanTo hc (hc.skip _)

end Token

end Script

end CosmeticLint
