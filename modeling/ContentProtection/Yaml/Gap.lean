import ContentProtection.Yaml.Character

/-!
# Gaps between words

Blanks and line breaks between the words of a scalar. A gap within a line stays as it is. One that holds line breaks is folded: a single break becomes a space, and of several breaks the first is dropped. The blanks around the breaks go.
-/

namespace ContentProtection.Yaml

structure Gap where
  /-- The blanks before the first line break. -/
  blanks : List Char := []
  /-- The line breaks, as they stand in text. -/
  breaks : List (List Char) := []
  /-- How many blanks there are after the last line break. -/
  column : Nat := 0
  /-- Whether a tab stands after a line break, before the given column. -/
  hasEarlyTab : Bool := false
  deriving DecidableEq, Repr

namespace Gap

def hasBreak (gap : Gap) : Bool := !gap.breaks.isEmpty

/-- What the gap stands for. -/
def fold (gap : Gap) : List Char :=
  match gap.breaks with
  | [] => gap.blanks
  | ['\n'] :: [] => [' ']
  | ['\n'] :: rest => rest.flatten
  | breaks => breaks.flatten

end Gap

/-- Reads a gap; `indent` is the column from which tabs may stand after a line break. -/
def readGapInto (indent : Nat) (gap : Gap) (text : List Char) : Gap × List Char :=
  match hbreak : readBreak? text with
  | some (written, rest) =>
    have := length_of_readBreak? hbreak
    readGapInto indent { gap with breaks := gap.breaks ++ [written], column := 0 } rest
  | none =>
    match text with
    | [] => (gap, [])
    | c :: rest =>
      if isBlank c then
        if gap.hasBreak then
          readGapInto indent
            { gap with
              column := gap.column + 1
              hasEarlyTab := gap.hasEarlyTab || (c == '\t' && gap.column < indent) } rest
        else readGapInto indent { gap with blanks := gap.blanks ++ [c] } rest
      else (gap, c :: rest)
termination_by text.length

def readGap (indent : Nat) (text : List Char) : Gap × List Char := readGapInto indent {} text

theorem length_readGapInto_le (indent : Nat) (gap : Gap) (text : List Char) :
    (readGapInto indent gap text).2.length ≤ text.length := by
  fun_induction readGapInto indent gap text with
  | case1 gap text written rest hbreak hshorter ih => exact Nat.le_trans ih (Nat.le_of_lt hshorter)
  | case2 => simp
  | case3 gap c rest hbreak hblank hbefore ih => exact Nat.le_succ_of_le ih
  | case4 gap c rest hbreak hblank hbefore ih => exact Nat.le_succ_of_le ih
  | case5 => simp

/-- A gap takes at least the blank or break that it starts with. -/
theorem length_readGap_lt {c : Char} (indent : Nat) (rest : List Char) (hc : isBlank c = true ∨ isBreak c = true) :
    (readGap indent (c :: rest)).2.length < (c :: rest).length := by
  unfold readGap
  rw [readGapInto]
  split
  · rename_i written rest' hbreak
    exact Nat.lt_of_le_of_lt (length_readGapInto_le _ _ _) (length_of_readBreak? hbreak)
  · rename_i hbreak
    have hnot := isBreak_of_readBreak?_eq_none hbreak
    simp only [hnot, Bool.false_eq_true, or_false] at hc
    simp only [hc, if_true, Gap.hasBreak, List.isEmpty_nil, Bool.not_true, Bool.false_eq_true, if_false]
    exact Nat.lt_succ_of_le (length_readGapInto_le _ _ _)

end ContentProtection.Yaml
