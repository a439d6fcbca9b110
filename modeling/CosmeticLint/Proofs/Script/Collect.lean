import CosmeticLint.Proofs.Script.Grammar

/-! The recogniser as a whole: it meets what is asked of a parser of scripts, and a script that
it cannot read has a fault in it. -/

open Std.Do

set_option mvcgen.warning false

namespace CosmeticLint.Script

open Reader

/-! ### The grammar -/

theorem sound_readGoal (g : Grammar) [g.Sound] : Grammar.Sound (readGoal g) where
  construct script goal hgoal := by
    cases goal with
    | template tagged => cases hgoal
    | typeTemplate => cases hgoal
    | expression => exact keeps_readExpression
    | assignment => exact keeps_readAssignment
    | unary => exact keeps_readUnary
    | operand => exact keeps_readOperand
    | statement | element | binding | typeExpr =>
      rw [readGoal]
      mvcgen
  template script goal hgoal := by
    cases goal with
    | template tagged =>
      have htemplate := @keeps_readTemplate script tagged _ (keeps_expression (g := g))
      rw [readGoal]
      mvcgen [htemplate]
    | typeTemplate =>
      have htemplate := @keeps_readTemplate script true _ (keeps_typeExpr (g := g))
      rw [readGoal, readTypeTemplate]
      mvcgen [htemplate]
    | _ => cases hgoal

/-- However deep constructs may be nested. -/
instance sound_grammar (depth : Nat) : (grammar depth).Sound := by
  induction depth with
  | zero =>
    constructor
    · intro script goal _
      mvcgen [grammar]
    · intro script goal _
      mvcgen [grammar]
      rename_i hs
      exact hs.1
  | succ depth ih => exact sound_readGoal (grammar depth)

theorem keeps_statements {script : List Char} {g : Grammar} [g.Sound] :
    Keeps script (statements g) := by
  mvcgen [statements]

/-! ### Scripts -/

theorem liesIn_scriptStart (text : String) :
    (scriptStart text).LiesIn (withoutMark text.toList) := by
  have hstart := Cursor.LiesIn.start (withoutMark text.toList)
  have hchars : scriptStart text =
      if "#!".toList.isPrefixOf (withoutMark text.toList) then
        Cursor.skipWhile ⟨0, withoutMark text.toList⟩ fun x => !isLineEnd x
      else ⟨0, withoutMark text.toList⟩ := rfl
  rw [hchars]
  split
  · exact hstart.skipWhile _
  · exact hstart

/-! ### Literals and faults -/

theorem sound_start (text : String) :
    State.Sound (withoutMark text.toList) ⟨.read (scriptStart text), scriptStart text, [], []⟩ :=
  ⟨liesIn_scriptStart text, rfl, by simp⟩

/-- The recogniser's positions are right. -/
theorem locates_recognizer : recognizer.Locates := by
  intro text dialect tree h n hn
  have h : recognize text dialect = .ok tree := h
  unfold recognize at h
  dsimp only at h
  split at h
  · rename_i s hs
    cases h
    have hsound := (keeps_iff.1 keeps_statements _ _ (sound_start text)).1 _ _ hs
    exact hsound.nodes n (List.mem_reverse.1 hn)
  · cases h

/-- What is wrong with a script that the recogniser gives up on is wrong at a place in it. -/
theorem liesIn_of_recognize {text : String} {dialect : Dialect} {f : Fault}
    (h : recognize text dialect = .error f) : f.LiesIn (withoutMark text.toList) := by
  unfold recognize at h
  dsimp only at h
  split at h
  · cases h
  · rename_i hs
    cases h
    exact (keeps_iff.1 keeps_statements _ _ (sound_start text)).2 _ hs

end CosmeticLint.Script
