import MonitorController.Desktop.LayoutCapture
import MonitorController.Desktop.LayoutExpansion
import MonitorController.Foundation.Nesting

/-! # Window actions of a layout

The window rules of a layout are expanded for the screens which it was resolved
for, and the commands of each rule are combined into the one which is sent.
-/

namespace MonitorController

open Nesting

section Rules

/-- One parsed matcher with its commands. -/
structure WindowRule where
  matcher : String
  commands : List String
  matcher_bounded : boundedScalar matcher "window matcher" = .ok ()
  nonempty : commands ≠ []
  commands_bounded : ∀ command ∈ commands, boundedScalar command "window command" = .ok ()

/-- An action which needs no layout any more. -/
structure ResolvedWindowAction where
  matcher : String
  commands : List String
  mapCommand : String
  deriving DecidableEq

/-- `ResolvedWindowAction.__post_init__`. -/
def resolvedWindowAction (matcher : String) (commands : List String) (mapCommand : String) :
    Except LayoutFault ResolvedWindowAction := do
  boundedScalar matcher "resolved window matcher"
  if commands = [] then .error (.layoutPlanning "resolved window action has no commands")
  else do
    boundedScalar mapCommand "resolved Fluxbox map command"
    if (matcher :: (commands ++ [mapCommand])).any fun item =>
        (searchPlaceholder item.toList).isSome then
      .error (.layoutPlanning "resolved window action retains a placeholder")
    else .ok ⟨matcher, commands, mapCommand⟩

def macroStart : List Char := "MacroCmd ".toList

/-- A command as a part of a macro: the parts of a macro of its own, or itself in braces. -/
def macroPart (command : List Char) : List Char :=
  if macroStart.isPrefixOf command then command.drop macroStart.length
  else '{' :: (command ++ ['}'])

def combineCommands : List String → String
  | [command] => command
  | commands =>
    String.ofList (macroStart ++ [' '].intercalate (commands.map fun c => macroPart c.toList))

def maxWindowCommands : Nat := 16384

/-- What the expanded rules have taken so far. -/
structure ResolvedTextBudget where
  bytes : Nat := 0
  values : Nat := 0

def ResolvedTextBudget.charge (budget : ResolvedTextBudget) (items : List String) :
    Except LayoutFault ResolvedTextBudget :=
  let encodedSize := (items.map String.utf8ByteSize).sum
  if maxLayoutTotalBytes < budget.bytes + encodedSize then
    .error (.layoutPlanning "resolved layout exceeds the byte limit")
  else if maxWindowCommands < budget.values + items.length then
    .error (.layoutPlanning "resolved layout exceeds the value-count limit")
  else .ok ⟨budget.bytes + encodedSize, budget.values + items.length⟩

def resolveRules (values : Dict String String) :
    ResolvedTextBudget → List WindowRule → Except LayoutFault (List ResolvedWindowAction)
  | _, [] => .ok []
  | budget, rule :: rules => do
    let matcher ← expandPlaceholders rule.matcher values
    let commands ← rule.commands.mapM fun command => expandPlaceholders command values
    let mapCommand := "Map \x7b" ++ combineCommands commands ++ "\x7d \x7bMatches " ++ matcher ++ "\x7d"
    let budget ← budget.charge (matcher :: (commands ++ [mapCommand]))
    let action ← resolvedWindowAction matcher commands mapCommand
    let actions ← resolveRules values budget rules
    .ok (action :: actions)

def resolveWindowActions (rules : List WindowRule) (screens : List ResolvedScreen) :
    Except LayoutFault (List ResolvedWindowAction) := do
  let values ← placeholderValues screens
  resolveRules values {} rules

end Rules

section Resolve

/-- What `_parse_expanded` reads. -/
structure LayoutGrammar where
  dpi : Option Nat
  uiScale : Option String
  fontScale : Option String
  screens : List LayoutScreen
  windowRules : List WindowRule

structure ResolvedLayout where
  parsed : ParsedLayout LayoutGrammar
  screens : List ResolvedScreen
  windowActions : List ResolvedWindowAction

def displayOrder (displayScreens : List DisplayScreenSnapshot) : List DisplayScreenSnapshot :=
  Words.sortedBy (fun s => toLex (s.x, toLex (s.y, s.output))) displayScreens

def screenAssignment (single : Bool) (screen : LayoutScreen) : String :=
  if single then "primary" else screen.assignment.getD screen.name

/-- The loop over the pairs of screens, with the assignments and heads taken. -/
def resolveScreens (quoted : String → String) (single : Bool) : Nat → List String → List Nat →
    List (LayoutScreen × DisplayScreenSnapshot) → Except LayoutFault (List ResolvedScreen)
  | _, _, _, [] => .ok []
  | number, assignments, heads, (screen, live) :: pairs => do
    let assignment := screenAssignment single screen
    if assignment ∈ assignments then
      .error (.layoutPlanning "layout screen assignments must be unique")
    else if screen.head ∈ heads then
      .error (.layoutPlanning "layout Fluxbox head numbers must be unique")
    else if decide (assignment = "primary") ≠ live.primary then
      .error (.layoutPlanning
        ("layout screen " ++ quoted screen.name ++ " primary assignment differs from X"))
    else do
      let resolved ← (resolveScreen defaultContext screen live number assignment).mapError .layoutPlanning
      let rest ← resolveScreens quoted single (number + 1) (assignment :: assignments)
        (screen.head :: heads) pairs
      .ok (resolved :: rest)

/-- `resolve_layout`, given how Python quotes a text. -/
def resolveLayout (quoted : String → String) (parsed : ParsedLayout LayoutGrammar)
    (displayScreens : List DisplayScreenSnapshot) : Except LayoutFault ResolvedLayout :=
  let ordered := displayOrder displayScreens
  if ordered.length ≠ parsed.grammar.screens.length then
    .error (.layoutPlanning ("display has " ++ toString ordered.length ++
      " active screens but layout has " ++ toString parsed.grammar.screens.length))
  else if ordered = [] then
    .error (.layoutPlanning "desktop planning requires at least one active screen")
  else if ¬ (ordered.map (·.output)).Nodup then
    .error (.layoutPlanning "display snapshot contains duplicate outputs")
  else if ordered.countP (·.primary) ≠ 1 then
    .error (.layoutPlanning "display snapshot requires exactly one primary output")
  else do
    let screens ← resolveScreens quoted (ordered.length = 1) 0 [] []
      (parsed.grammar.screens.zip ordered)
    let windowActions ← resolveWindowActions parsed.grammar.windowRules screens
    .ok ⟨parsed, screens, windowActions⟩

end Resolve

end MonitorController
