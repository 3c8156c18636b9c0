import MonitorController.Desktop.LayoutActions
import MonitorController.Foundation.Integers

/-! # Window placement

What a rule promises about its windows is read from its commands one by one,
while they are sent as one command. Taking the combined command apart gives the
same parts.
-/

namespace MonitorController

open Integers Nesting Placeholders

section Commands

def braces : Brackets Char := ⟨'{', '}', by decide⟩

def topLevelCommands (command : String) : List String :=
  if macroStart.isPrefixOf command.toList then
    (split braces 0 [] command.toList).map String.ofList
  else [command]

/-- What the commands of a rule promise. -/
structure Expectation where
  head : Option Int := none
  workspace : Option Int := none
  stuck : Option Bool := none
  deriving DecidableEq

def numberArgument (name : String) (command : String) : Option (List Char) :=
  let digits := command.toList.drop name.length
  if name.toList.isPrefixOf command.toList ∧ digits ≠ [] ∧ digits.all isDecimal then some digits
  else none

/-- One part of the commands; a number with too many digits is not read. -/
def expectPart (e : Expectation) (command : String) : Option Expectation :=
  match numberArgument "SetHead " command with
  | some digits => (readDecimal digits).map fun n => { e with head := some n }
  | none =>
    match numberArgument "SendToWorkspace " command with
    | some digits => (readDecimal digits).map fun n => { e with workspace := some n }
    | none =>
      if command = stick then some { e with stuck := some true }
      else if command = unstick then some { e with stuck := some false }
      else some e

/-- `expectation`: later commands win. -/
def expectation (commands : List String) : Option Expectation :=
  (commands.flatMap topLevelCommands).foldlM expectPart {}

end Commands

section Combined

variable {command : String} {commands : List String} {rest part : List Char}

/-- Every brace of the command has its partner. -/
def BraceBalanced (command : String) : Prop := Nesting.Balanced braces command.toList

instance (w : List Char) : Decidable (braces.Plain w) := List.decidableBAll _ w

theorem macroStart_plain : braces.Plain macroStart := by decide

theorem topLevelCommands_of_macroStart (h : macroStart <+: command.toList) :
    topLevelCommands command = (split braces 0 [] command.toList).map String.ofList := by
  rw [topLevelCommands, if_pos (List.isPrefixOf_iff_prefix.mpr h)]

theorem topLevelCommands_of_plain (h : ¬ macroStart <+: command.toList) :
    topLevelCommands command = [command] := by
  rw [topLevelCommands, if_neg (mt List.isPrefixOf_iff_prefix.mp h)]

theorem split_macroPart (h : BraceBalanced command) :
    (split braces 0 part (macroPart command.toList ++ rest)).map String.ofList =
      topLevelCommands command ++ (split braces 0 [] rest).map String.ofList := by
  unfold macroPart
  by_cases hmacro : macroStart <+: command.toList
  · rw [if_pos (List.isPrefixOf_iff_prefix.mpr hmacro), topLevelCommands_of_macroStart hmacro]
    obtain ⟨parts, hparts⟩ := hmacro
    unfold BraceBalanced Nesting.Balanced at h
    rw [← hparts, depthAfter_plain macroStart_plain] at h
    have happend := @split_append _ _ braces parts rest part 0 h
    rw [← hparts, List.drop_left, split_plain macroStart_plain, ← List.map_append]
    exact congrArg (List.map String.ofList)
      (happend.trans (congrArg (· ++ _) (split_part le_rfl)))
  · rw [if_neg (mt List.isPrefixOf_iff_prefix.mp hmacro), topLevelCommands_of_plain hmacro]
    have hwrap := @split_wrap _ _ braces command.toList rest part h
    rw [Brackets.wrap] at hwrap
    refine (congrArg (List.map String.ofList) hwrap).trans ?_
    rw [List.map_cons, String.ofList_toList]
    rfl

theorem split_macroParts (h : ∀ command ∈ commands, BraceBalanced command) :
    (split braces 0 [] ([' '].intercalate
      (commands.map fun c => macroPart c.toList))).map String.ofList =
        commands.flatMap topLevelCommands := by
  induction commands with
  | nil => rfl
  | cons command commands ih =>
    obtain ⟨hcommand, hcommands⟩ := List.forall_mem_cons.mp h
    have hrest := ih hcommands
    cases commands with
    | nil =>
      have hone := @split_macroPart command [] [] hcommand
      rw [List.append_nil] at hone
      rw [List.map_singleton, List.intercalate_singleton, hone, List.flatMap_singleton]
      exact List.append_nil _
    | cons next commands =>
      rw [List.map_cons, List.map_cons, List.intercalate_cons_cons, List.append_assoc,
        split_macroPart hcommand, split_plain (by decide)]
      rw [List.map_cons] at hrest
      rw [hrest]
      simp only [List.flatMap_cons]

/-- The combined command is taken apart like the commands one by one, and promises the same. -/
theorem topLevelCommands_combineCommands (hne : commands ≠ [])
    (h : ∀ command ∈ commands, BraceBalanced command) :
    topLevelCommands (combineCommands commands) = commands.flatMap topLevelCommands ∧
      expectation [combineCommands commands] = expectation commands := by
  have hparts : topLevelCommands (combineCommands commands) =
      commands.flatMap topLevelCommands := by
    unfold combineCommands
    split
    · rw [List.flatMap_singleton]
    · have hmacro : macroStart <+: (String.ofList (macroStart ++
          [' '].intercalate (commands.map fun c => macroPart c.toList))).toList := by
        rw [String.toList_ofList]
        exact List.prefix_append _ _
      rw [topLevelCommands_of_macroStart hmacro, String.toList_ofList, split_plain macroStart_plain,
        split_macroParts h]
  refine ⟨hparts, ?_⟩
  rw [expectation, expectation, List.flatMap_singleton, hparts]

theorem topLevelCommands_combineCommands_mixed :
    topLevelCommands (combineCommands
      ["SetHead 2", "MacroCmd \x7bStick\x7d \x7bSendToWorkspace 3\x7d"]) =
        ["SetHead 2"].flatMap topLevelCommands ++
          topLevelCommands "MacroCmd \x7bStick\x7d \x7bSendToWorkspace 3\x7d" :=
  (topLevelCommands_combineCommands (by decide) (by unfold BraceBalanced Nesting.Balanced; decide)).1

end Combined

section Heads

/-- What is observed of a window. -/
structure WindowState where
  x : Int
  y : Int
  width : Int
  height : Int

/-- The area of a Fluxbox head. -/
structure Head where
  x : Int
  y : Int
  width : Int
  height : Int
  deriving DecidableEq

/-- The point lies on the head, whose right and lower edges belong to its neighbours. -/
def Head.Holds (h : Head) (x y : Int) : Prop :=
  h.x ≤ x ∧ x < h.x + h.width ∧ h.y ≤ y ∧ y < h.y + h.height

instance (h : Head) (x y : Int) : Decidable (h.Holds x y) := by
  unfold Head.Holds
  infer_instance

/-- `head_of`: heads are numbered from one. -/
def headOf (state : WindowState) (heads : List Head) : Option Nat :=
  (heads.findIdx? fun h => h.Holds (state.x + state.width / 2) (state.y + state.height / 2)).map
    (· + 1)

end Heads

end MonitorController
