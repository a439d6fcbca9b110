import CosmeticLint.Proofs.Script.Literals
import CosmeticLint.Script.Reader
import Mathlib

/-! What every reading keeps: the place lies in the script, the current token is the one read
there, and the literals met so far stand in the script. A reading that fails is about a place
in the script. -/

open Std.Do

set_option mvcgen.warning false

namespace CosmeticLint.Script

/-! ### States -/

structure State.Sound (script : List Char) (s : State) : Prop where
  place : s.place.LiesIn script
  token : s.token = .read s.place
  nodes : ∀ n ∈ s.nodes, n.StandsIn 0 script

namespace State.Sound

variable {script : List Char} {s : State} {c : Cursor}

theorem seek (h : s.Sound script) (hc : c.LiesIn script) :
    State.Sound script { s with token := .read c, place := c } :=
  ⟨hc, rfl, h.nodes⟩

theorem recover (h : s.Sound script) (faults : List Fault) :
    State.Sound script { s with recovered := s.recovered ++ faults } :=
  ⟨h.place, h.token, h.nodes⟩

theorem record (h : s.Sound script) {n : Node} (hn : n.StandsIn 0 script) :
    State.Sound script { s with nodes := n :: s.nodes } :=
  ⟨h.place, h.token, List.forall_mem_cons.2 ⟨hn, h.nodes⟩⟩

theorem liesIn_start (h : s.Sound script) : s.token.start.LiesIn script := by
  obtain ⟨w, hw⟩ := reads_skipTrivia s.place
  have hstart := (Token.fits_readAt (skipTrivia s.place).2 (skipTrivia s.place).1).start
  rw [h.token, Token.read, hstart]
  exact h.place.reads hw

theorem fits (h : s.Sound script) : s.token.Fits s.token.start := by
  have hfits := Token.fits_readAt (skipTrivia s.place).2 (skipTrivia s.place).1
  rw [h.token, Token.read, hfits.start]
  exact hfits

theorem liesIn_after (h : s.Sound script) : s.token.after.LiesIn script := by
  obtain ⟨w, hw⟩ := h.fits.reads
  exact h.liesIn_start.reads hw

theorem liesIn_faulty (h : s.Sound script) {f : Fault} (hkind : s.token.kind = .faulty f) :
    f.LiesIn script := by
  rw [h.token, Token.read] at hkind
  obtain ⟨w, hw⟩ := reads_skipTrivia s.place
  exact Token.liesIn_of_faulty (h.place.reads hw) hkind

theorem stands_string (h : s.Sound script) {value : Option String}
    (hkind : s.token.kind = .string value) :
    Node.StandsIn 0 script ⟨.string, value, s.token.span⟩ := by
  obtain ⟨written, hread, hwritten⟩ := h.fits.string value hkind
  rw [Token.span]
  exact standsIn_of_string h.liesIn_start hread hwritten

end State.Sound

/-- What a failure at the current token says; a faulty token says it itself. -/
def State.faultHere (cause : Cause) (s : State) : Fault :=
  match s.token.kind with
  | .faulty f => f
  | _ => .of cause s.token.span

theorem State.Sound.liesIn_faultHere {script : List Char} {s : State} (h : s.Sound script)
    (cause : Cause) : (s.faultHere cause).LiesIn script := by
  unfold State.faultHere
  split
  · exact h.liesIn_faulty ‹_›
  · exact Fault.liesIn_spanTo h.liesIn_start h.liesIn_after

/-! ### Readings -/

/-- A reading that keeps states sound, or fails at a place in the script. -/
abbrev Keeps (script : List Char) {α : Type} (r : Reader α) : Prop :=
  ⦃fun _ s => ⌜s.Sound script⌝⦄ r ⦃post⟨fun _ _ s => ⌜s.Sound script⌝, fun f => ⌜f.LiesIn script⌝⟩⦄

namespace Reader

variable {script : List Char} {α : Type} {c : Cursor}

theorem keeps_iff {r : Reader α} : Keeps script r ↔
    ∀ ctx s, s.Sound script → (∀ a s', r ctx s = .ok (a, s') → s'.Sound script) ∧
      ∀ f, r ctx s = .error f → f.LiesIn script := by
  have hwp (ctx : Context) (s : State) :
      (wp⟦r⟧ (fun _ _ s => ⌜s.Sound script⌝, fun f => ⌜f.LiesIn script⌝, ()) ctx s).down ↔
        (∀ a s', r ctx s = .ok (a, s') → s'.Sound script) ∧
          ∀ f, r ctx s = .error f → f.LiesIn script := by
    change ((wp (r ctx s)).apply
      (fun p => ⌜p.2.Sound script⌝, fun f => ⌜f.LiesIn script⌝, ())).down ↔ _
    cases r ctx s with
    | error f =>
      change f.LiesIn script ↔ _
      simp
    | ok p =>
      change p.2.Sound script ↔ _
      refine ⟨fun h => ⟨?_, by simp⟩, fun h => h.1 p.1 p.2 rfl⟩
      rintro a s' ⟨⟩
      exact h
  exact ⟨fun h ctx s hs => (hwp ctx s).1 (h ctx s hs), fun h ctx s hs => (hwp ctx s).2 (h ctx s hs)⟩

@[spec]
theorem keeps_attempt {r : Reader α} (h : Keeps script r) : Keeps script (attempt r) := by
  rw [keeps_iff] at h ⊢
  intro ctx s hs
  unfold attempt
  split
  · rename_i a s' hr
    refine ⟨?_, by simp⟩
    rintro _ _ ⟨⟩
    exact (h ctx s hs).1 a s' hr
  · refine ⟨?_, by simp⟩
    rintro _ _ ⟨⟩
    exact hs

@[spec]
theorem discard_eq (r : Reader α) : discard r = do let _ ← r; return () := rfl

/-- What holds whenever a step begins holds of the states that steps begin with; when the
steps are over, states are still sound. -/
theorem loop_keeps {I : State → Prop} (hI : ∀ s, I s → s.Sound script) {step : Reader Bool}
    (h : ⦃fun _ s => ⌜I s⌝⦄ step ⦃post⟨fun again _ s => ⌜if again then I s else s.Sound script⌝,
      fun f => ⌜f.LiesIn script⌝⟩⦄) :
    ⦃fun _ s => ⌜I s⌝⦄ loop step
    ⦃post⟨fun _ _ s => ⌜s.Sound script⌝, fun f => ⌜f.LiesIn script⌝⟩⦄ := by
  have hsteps (n : Nat) :
      ⦃fun _ s => ⌜I s⌝⦄ repeatStep step n
      ⦃post⟨fun _ _ s => ⌜s.Sound script⌝, fun f => ⌜f.LiesIn script⌝⟩⦄ := by
    induction n with
    | zero =>
      mvcgen [repeatStep]
      exact hI _ ‹_›
    | succ n ih =>
      mvcgen [repeatStep, h, ih]
      all_goals simp_all
  mvcgen [loop, hsteps]

@[spec]
theorem keeps_loop {step : Reader Bool} (h : Keeps script step) : Keeps script (loop step) := by
  refine loop_keeps (fun _ hs => hs) ?_
  mvcgen [h]
  simp_all

/-! ### Moving -/

@[spec]
theorem keeps_current : Keeps script current := by mvcgen [current]

@[spec]
theorem keeps_following : Keeps script following := by mvcgen [following]

section Failure

variable {Q : PostCond α (.arg Context (.arg State (.except Fault .pure)))}

@[spec high]
theorem throw_spec {f : Fault} : ⦃fun _ _ => Q.2.1 f⦄ (throw f : Reader α) ⦃Q⦄ := fun _ _ h => h

@[spec]
theorem fail_spec {cause : Cause} {span : Span} :
    ⦃fun _ _ => Q.2.1 (.of cause span)⦄ (fail cause span : Reader α) ⦃Q⦄ := throw_spec

@[spec]
theorem failHere_spec {cause : Cause} :
    ⦃fun _ s => Q.2.1 (s.faultHere cause)⦄ (failHere cause : Reader α) ⦃Q⦄ := by
  mvcgen [failHere, current]
  all_goals simp_all [State.faultHere]

end Failure

@[spec high]
theorem keeps_failHere {cause : Cause} : Keeps script (failHere cause : Reader α) := by
  mvcgen
  exact State.Sound.liesIn_faultHere ‹_› _

theorem keeps_record {category : Category} {value : Option String} {span : Span}
    (h : Node.StandsIn 0 script ⟨category, value, span⟩) :
    Keeps script (record category value span) := by
  mvcgen [record]
  exact State.Sound.record ‹_› h

@[spec]
theorem keeps_seek (hc : c.LiesIn script) : Keeps script (seek c) := by
  mvcgen [seek]
  exact State.Sound.seek ‹_› hc

@[spec]
theorem keeps_recover {cause : Cause} {span : Span} : Keeps script (recover cause span) := by
  mvcgen [recover]
  exact State.Sound.recover ‹_› _

@[spec]
theorem keeps_advance : Keeps script advance := by
  mvcgen [advance, current, record, seek]
  · exact State.Sound.liesIn_faulty ‹_› ‹_›
  · exact ((State.Sound.recover ‹_› _).record (State.Sound.stands_string ‹_› ‹_›)).seek
      (State.Sound.liesIn_after ‹_›)
  · exact (State.Sound.recover ‹_› _).seek (State.Sound.liesIn_after ‹_›)

/-! ### Tests -/

@[spec]
theorem keeps_atMark {p : String} : Keeps script (atMark p) := by mvcgen [atMark]

@[spec]
theorem keeps_atWord {w : String} : Keeps script (atWord w) := by mvcgen [atWord]

@[spec]
theorem keeps_atAnyWord : Keeps script atAnyWord := by mvcgen [atAnyWord]

@[spec]
theorem keeps_atString : Keeps script atString := by mvcgen [atString]

@[spec]
theorem keeps_atEnd : Keeps script atEnd := by mvcgen [atEnd]

@[spec]
theorem keeps_newlineBefore : Keeps script newlineBefore := by mvcgen [newlineBefore]

@[spec]
theorem keeps_typeScript : Keeps script typeScript := by mvcgen [typeScript]

@[spec]
theorem keeps_eat {p : String} : Keeps script (eat p) := by mvcgen [eat]

@[spec]
theorem keeps_eatWord {w : String} : Keeps script (eatWord w) := by mvcgen [eatWord]

@[spec]
theorem keeps_expect {p : String} : Keeps script (expect p) := by mvcgen [expect]

@[spec]
theorem keeps_expectWord {w : String} : Keeps script (expectWord w) := by mvcgen [expectWord]

@[spec]
theorem keeps_semicolon : Keeps script semicolon := by mvcgen [semicolon]

@[spec]
theorem keeps_eatAngle {angle : Char} : Keeps script (eatAngle angle) := by
  mvcgen [eatAngle, current]
  exact (State.Sound.liesIn_start ‹_›).skip 1

@[spec]
theorem keeps_expectAngle {angle : Char} : Keeps script (expectAngle angle) := by
  mvcgen [expectAngle]

@[spec]
theorem keeps_commaList {close : String} {item : Reader Unit} (h : Keeps script item) :
    Keeps script (commaList close item) := by
  mvcgen [commaList, h]

attribute [spec] inBrackets inFunctionBody withoutIn inConsequent

end Reader

end CosmeticLint.Script
